import TreeManifest.Json.Token

/-!
# Passing over a value

A member with an unknown name is passed over, whatever well-formed value it has. Numerals are not
evaluated and strings are not made into texts; a numeral or string that is broken off or ill formed
is refused.

## Main definitions

- `Json.Nesting`: the open brackets around a position.
- `Json.skipValue`: the tokens behind the value at the front.
-/

namespace TreeManifest.Json

/-- A bracket that is open. -/
inductive Nesting where
  | list
  | object
  deriving DecidableEq

/-- What may stand at a position inside a value that is passed over. -/
inductive Expectation where
  | value
  /-- The first element or member of a bracket, or its end. -/
  | first
  | name
  | colon
  /-- A comma, or the end of the innermost bracket. -/
  | separator
  deriving DecidableEq

/-- What a bracket begins with. -/
def Nesting.opening : Nesting → Expectation
  | .list => .value
  | .object => .name

/-- Whether a token ends a bracket. -/
def Nesting.isClosedBy : Nesting → Token → Bool
  | .list, .closeBracket => true
  | .object, .closeBrace => true
  | _, _ => false

/-- The outcome of one token: what follows it, or the fault in it. -/
def skipToken (expectation : Expectation) (around : List Nesting) (token : Token) :
    Except Fault (Expectation × List Nesting) :=
  match expectation with
  | .value => startValue
  | .first =>
    match around with
    | [] => .error .malformed
    | inner :: outer =>
      if inner.isClosedBy token then .ok (.separator, outer)
      else
        match inner with
        | .list => startValue
        | .object => startName
  | .name => startName
  | .colon =>
    match token with
    | .colon => .ok (.value, around)
    | _ => .error .malformed
  | .separator =>
    match around with
    | [] => .error .malformed
    | inner :: outer =>
      match token with
      | .comma => .ok (inner.opening, around)
      | token => if inner.isClosedBy token then .ok (.separator, outer) else .error .malformed
where
  /-- A token where a value begins. -/
  startValue : Except Fault (Expectation × List Nesting) :=
    match token with
    | .word (.ok _) | .numeral (.ok _) => .ok (.separator, around)
    | .word (.error fault) => .error fault
    | .numeral (.error _) => .error .malformed
    | .string body => ending body .separator
    | .openBracket => .ok (.first, .list :: around)
    | .openBrace => .ok (.first, .object :: around)
    | _ => .error .malformed
  /-- A token where a name begins. -/
  startName : Except Fault (Expectation × List Nesting) :=
    match token with
    | .string body => ending body .colon
    | _ => .error .malformed
  /-- A string is passed over up to its end. -/
  ending (body : StringBody) (next : Expectation) : Except Fault (Expectation × List Nesting) :=
    match body.ending with
    | none => .ok (next, around)
    | some fault => .error fault

/-- Passes over tokens until the outermost value is complete. -/
def skipFrom (expectation : Expectation) (around : List Nesting) :
    List Token → Except Fault (List Token)
  | [] => if expectation = .separator ∧ around = [] then .ok [] else .error .truncated
  | token :: rest =>
    if expectation = .separator ∧ around = [] then .ok (token :: rest)
    else
      match skipToken expectation around token with
      | .ok (expectation, around) => skipFrom expectation around rest
      | .error fault => .error fault

def skipValue (tokens : List Token) : Except Fault (List Token) :=
  skipFrom .value [] tokens

theorem skipFrom_length_le {expectation : Expectation} {around : List Nesting}
    {tokens rest : List Token} (h : skipFrom expectation around tokens = .ok rest) :
    rest.length ≤ tokens.length := by
  induction tokens generalizing expectation around with
  | nil =>
    unfold skipFrom at h
    split at h
    · cases h
      exact Nat.le_refl _
    · cases h
  | cons token more ih =>
    unfold skipFrom at h
    split at h
    · cases h
      exact Nat.le_refl _
    · split at h
      · exact Nat.le_succ_of_le (ih h)
      · cases h

theorem skipValue_length_lt {tokens rest : List Token} (h : skipValue tokens = .ok rest) :
    rest.length < tokens.length := by
  cases tokens with
  | nil => simp [skipValue, skipFrom] at h
  | cons token more =>
    unfold skipValue skipFrom at h
    simp only [reduceCtorEq, false_and, if_false] at h
    split at h
    · exact Nat.lt_succ_of_le (skipFrom_length_le h)
    · cases h

end TreeManifest.Json
