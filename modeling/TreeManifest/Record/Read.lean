import TreeManifest.Json.Skip
import TreeManifest.Record

/-!
# Reading records

A record is read from its tokens in one pass. It is an object with members in any order, in which
unknown members are passed over, or the array of its fields in their order. The first problem met
decides how a text is refused.

## Main definitions

- `Record.readInteger`, `Record.readBytes`, `Record.readAttributes`, `Record.readRole`: values.
- `Record.Field.read`: the value of a field.
- `Record.readMembers`, `Record.readElements`: the two forms of a record.
- `Record.parse`, `Entry.parse`: the record and the entry of a text.

## Design notes

Every reader returns the tokens behind what it read. A reader that succeeds has taken at least one
token, which bounds the recursion over the members of an object.
-/

namespace TreeManifest.Record

open Json (Fault Token)

def foundWord : Json.Word → Json.Found
  | .null => .null
  | .boolean value => .boolean value

/-- The fault of a token that stands where a value of another type was expected. A token that is
broken itself is refused for that reason. -/
def mismatch (expected : String) : Token → Fault
  | .word (.ok word) => .unfit (.invalidType (foundWord word) expected)
  | .word (.error fault) => fault
  | .numeral (.ok numeral) =>
    match numeral.value with
    | .ok number => .unfit (.invalidType number.found expected)
    | .error fault => fault
  | .numeral (.error fault) => fault
  | .string body =>
    match body.text with
    | .ok text => .unfit (.invalidType (.string text) expected)
    | .error fault => fault
  | .openBracket => .unfit (.invalidType .sequence expected)
  | .openBrace => .unfit (.invalidType .map expected)
  | _ => .malformed

/-- A type of integers: its name and the values that it holds. -/
structure IntegerType (α : Type) where
  name : String
  fit? : Int → Option α

def byteType : IntegerType UInt8 :=
  ⟨"u8", fun value =>
    if 0 ≤ value ∧ value < UInt8.size then some (UInt8.ofNat value.toNat) else none⟩

def wordType : IntegerType UInt32 :=
  ⟨"u32", fun value =>
    if 0 ≤ value ∧ value < UInt32.size then some (UInt32.ofNat value.toNat) else none⟩

def sizeType : IntegerType UInt64 :=
  ⟨"u64", fun value =>
    if 0 ≤ value ∧ value < UInt64.size then some (UInt64.ofNat value.toNat) else none⟩

def signedType : IntegerType Int64 :=
  ⟨"i64", fun value =>
    if Int64.minValue.toInt ≤ value ∧ value ≤ Int64.maxValue.toInt then some (Int64.ofInt value)
    else none⟩

def integer (type : IntegerType α) (token : Token) : Except Fault α :=
  match token with
  | .numeral (.ok numeral) => do
    match ← numeral.value with
    | .natural value => fit value.toNat
    | .negative value => fit value.toInt
    | .float value => .error (.unfit (.invalidType (.float value) type.name))
  | token => .error (mismatch type.name token)
where
  /-- The value if it is in range. -/
  fit (value : Int) : Except Fault α :=
    match type.fit? value with
    | some fitting => .ok fitting
    | none => .error (.unfit (.invalidValue value type.name))

def readInteger (type : IntegerType α) : List Token → Except Fault (α × List Token)
  | [] => .error .truncated
  | token :: rest => do return (← integer type token, rest)

/-- Reads the bytes of an array and its closing bracket. `first` tells whether the array has just
been opened. -/
def readByteElements : Bool → List Token → Except Fault (Bytes × List Token)
  | _, [] => .error .truncated
  | _, .closeBracket :: rest => .ok ([], rest)
  | false, [.comma] => .error .truncated
  | false, .comma :: .closeBracket :: _ => .error .malformed
  | false, .comma :: token :: rest => do
    let byte ← integer byteType token
    let (bytes, rest) ← readByteElements false rest
    return (byte :: bytes, rest)
  | false, _ :: _ => .error .malformed
  | true, token :: rest => do
    let byte ← integer byteType token
    let (bytes, rest) ← readByteElements false rest
    return (byte :: bytes, rest)

/-- Reads a byte string, which is written as an array of numbers. -/
def readBytes : List Token → Except Fault (Bytes × List Token)
  | [] => .error .truncated
  | .openBracket :: rest => readByteElements true rest
  | token :: _ => .error (mismatch "a sequence" token)

/-- Takes the colon behind a name. -/
def readColon : List Token → Except Fault (List Token)
  | [] => .error .truncated
  | .colon :: rest => .ok rest
  | _ :: _ => .error .malformed

/-- The name of the next member of an object and what follows the name, or nothing in front of the
closing brace. `first` tells whether the object has just been opened. -/
def nextMember (first : Bool) : List Token → Except Fault (Option (Json.StringBody × List Token))
  | [] => .error .truncated
  | .closeBrace :: _ => .ok none
  | .string body :: rest => if first then .ok (some (body, rest)) else .error .malformed
  | .comma :: rest =>
    if first then .error .malformed
    else
      match rest with
      | [] => .error .truncated
      | .string body :: rest => .ok (some (body, rest))
      | _ :: _ => .error .malformed
  | _ :: _ => .error .malformed

/-- Where the next element of an array begins, or nothing in front of the closing bracket. -/
def nextElement (first : Bool) : List Token → Except Fault (Option (List Token))
  | [] => .error .truncated
  | .closeBracket :: _ => .ok none
  | .comma :: rest =>
    if first then .ok (some (.comma :: rest))
    else
      match rest with
      | [] => .error .truncated
      | .closeBracket :: _ => .error .malformed
      | rest => .ok (some rest)
  | tokens => if first then .ok (some tokens) else .error .malformed

theorem readByteElements_length_lt {first : Bool} {tokens rest : List Token} {bytes : Bytes}
    (h : readByteElements first tokens = .ok (bytes, rest)) : rest.length < tokens.length := by
  fun_induction readByteElements first tokens generalizing bytes rest with
  | case1 => cases h
  | case2 => cases h; simp
  | case3 => cases h
  | case4 => cases h
  | case5 token more _ ih =>
    simp only [bind, Except.bind, pure, Except.pure] at h
    split at h
    · cases h
    · split at h
      · cases h
      · next heq =>
        cases h
        have := ih heq
        simp only [List.length_cons]
        omega
  | case6 => cases h
  | case7 token more _ ih =>
    simp only [bind, Except.bind, pure, Except.pure] at h
    split at h
    · cases h
    · split at h
      · cases h
      · next heq =>
        cases h
        have := ih heq
        simp only [List.length_cons]
        omega

theorem readBytes_length_lt {tokens rest : List Token} {bytes : Bytes}
    (h : readBytes tokens = .ok (bytes, rest)) : rest.length < tokens.length := by
  unfold readBytes at h
  split at h
  · cases h
  · exact Nat.lt_succ_of_lt (readByteElements_length_lt h)
  · cases h

theorem readColon_length_lt {tokens rest : List Token} (h : readColon tokens = .ok rest) :
    rest.length < tokens.length := by
  unfold readColon at h
  split at h <;> cases h
  simp

theorem nextMember_length_lt {first : Bool} {tokens rest : List Token} {body : Json.StringBody}
    (h : nextMember first tokens = .ok (some (body, rest))) : rest.length < tokens.length := by
  unfold nextMember at h
  split at h
  · cases h
  · cases h
  · split at h <;> cases h
    simp
  · split at h
    · cases h
    · split at h <;> cases h
      simp only [List.length_cons]
      omega
  · cases h

/-- Reads a value behind a colon. -/
def readAfterColon (read : List Token → Except Fault (α × List Token)) (tokens : List Token) :
    Except Fault (α × List Token) := do
  read (← readColon tokens)

theorem readAfterColon_length_lt {read : List Token → Except Fault (α × List Token)}
    (hread : ∀ {tokens rest : List Token} {value : α}, read tokens = .ok (value, rest) →
      rest.length < tokens.length)
    {tokens rest : List Token} {value : α}
    (h : readAfterColon read tokens = .ok (value, rest)) : rest.length < tokens.length := by
  simp only [readAfterColon, bind, Except.bind] at h
  split at h
  · cases h
  · next hcolon => exact Nat.lt_trans (hread h) (readColon_length_lt hcolon)

/-- Reads the bindings of a map and its closing brace. -/
def readBindings (first : Bool) (tokens : List Token) :
    Except Fault (List (String × Bytes) × List Token) :=
  match _h : nextMember first tokens with
  | .error fault => .error fault
  | .ok none => .ok ([], tokens.tail)
  | .ok (some (body, rest)) =>
    match body.text, _hvalue : readAfterColon readBytes rest with
    | .error fault, _ => .error fault
    | .ok _, .error fault => .error fault
    | .ok name, .ok (value, rest) => do
      let (bindings, rest) ← readBindings false rest
      return ((name, value) :: bindings, rest)
termination_by tokens.length
decreasing_by
  exact Nat.lt_trans (readAfterColon_length_lt readBytes_length_lt _hvalue)
    (nextMember_length_lt _h)

/-- Reads a map of attributes, in which a later binding of a name wins. -/
def readAttributes : List Token → Except Fault (AttributeMap × List Token)
  | [] => .error .truncated
  | .openBrace :: rest => do
    let (bindings, rest) ← readBindings true rest
    return (.ofList bindings, rest)
  | token :: _ => .error (mismatch "a map" token)

/-- Reads a value that may be null. -/
def readOption (read : List Token → Except Fault (α × List Token)) :
    List Token → Except Fault (Option α × List Token)
  | .word (.ok .null) :: rest => .ok (none, rest)
  | tokens => do
    let (value, rest) ← read tokens
    return (some value, rest)

def roleName : HardlinkRole → String
  | .none => "None"
  | .canonical => "Canonical"
  | .linkTo => "LinkTo"

/-- The roles in the order in which messages list them. -/
def allRoles : List HardlinkRole := [.none, .canonical, .linkTo]

def roleOf (body : Json.StringBody) : Except Fault HardlinkRole := do
  let name ← body.text
  match allRoles.find? fun role => roleName role == name with
  | some role => return role
  | none => .error (.unfit (.unknownVariant name (allRoles.map roleName)))

/-- Takes the null that a role has for a value. -/
def readUnit : List Token → Except Fault (List Token)
  | [] => .error .truncated
  | .word (.ok .null) :: rest => .ok rest
  | token :: _ => .error (mismatch "unit" token)

/-- Takes the closing brace behind a role. -/
def readRoleEnd : List Token → Except Fault (List Token)
  | [] => .error .truncated
  | .closeBrace :: rest => .ok rest
  | _ :: _ => .error .malformed

/-- Reads a role: a string, or an object whose only member has the string for its name and null for
its value. -/
def readRole : List Token → Except Fault (HardlinkRole × List Token)
  | [] => .error .truncated
  | .string body :: rest => do return (← roleOf body, rest)
  | [.openBrace] => .error .truncated
  | .openBrace :: .string body :: rest => do
    let role ← roleOf body
    return (role, ← readRoleEnd (← readUnit (← readColon rest)))
  | .openBrace :: _ :: _ => .error .malformed
  | _ :: _ => .error .malformed

def Field.read : (field : Field) → List Token → Except Fault (field.Value × List Token)
  | .path => readBytes
  | .size => readInteger sizeType
  | .mode => readInteger wordType
  | .attributes => readOption readAttributes
  | .flags => readOption (readInteger wordType)
  | .link => readOption readBytes
  | .role => readRole
  | .modTime | .uid | .gid | .startChunk | .startOffset => readInteger signedType

theorem readInteger_length_lt {type : IntegerType α} {tokens rest : List Token} {value : α}
    (h : readInteger type tokens = .ok (value, rest)) : rest.length < tokens.length := by
  unfold readInteger at h
  split at h
  · cases h
  · simp only [bind, Except.bind, pure, Except.pure] at h
    split at h <;> cases h
    simp

theorem readBindings_length_lt {first : Bool} {tokens rest : List Token}
    {bindings : List (String × Bytes)} (h : readBindings first tokens = .ok (bindings, rest)) :
    rest.length < tokens.length := by
  fun_induction readBindings first tokens generalizing bindings rest with
  | case1 => cases h
  | case2 first tokens hnone =>
    cases h
    cases tokens with
    | nil => cases hnone
    | cons token more => simp
  | case3 => cases h
  | case4 => cases h
  | case5 first tokens body more hmember _ _ after hvalue _ ih =>
    simp only [bind, Except.bind, pure, Except.pure] at h
    split at h
    · cases h
    · next heq =>
      cases h
      exact Nat.lt_trans (ih heq)
        (Nat.lt_trans (readAfterColon_length_lt readBytes_length_lt hvalue)
          (nextMember_length_lt hmember))

theorem readAttributes_length_lt {tokens rest : List Token} {map : AttributeMap}
    (h : readAttributes tokens = .ok (map, rest)) : rest.length < tokens.length := by
  unfold readAttributes at h
  split at h
  · cases h
  · simp only [bind, Except.bind, pure, Except.pure] at h
    split at h
    · cases h
    · next heq =>
      cases h
      exact Nat.lt_succ_of_lt (readBindings_length_lt heq)
  · cases h

theorem readOption_length_lt {read : List Token → Except Fault (α × List Token)}
    (hread : ∀ {tokens rest : List Token} {value : α}, read tokens = .ok (value, rest) →
      rest.length < tokens.length)
    {tokens rest : List Token} {value : Option α}
    (h : readOption read tokens = .ok (value, rest)) : rest.length < tokens.length := by
  unfold readOption at h
  split at h
  · cases h
    simp
  · simp only [bind, Except.bind, pure, Except.pure] at h
    split at h
    · cases h
    · next heq =>
      cases h
      exact hread heq

theorem readUnit_length_lt {tokens rest : List Token} (h : readUnit tokens = .ok rest) :
    rest.length < tokens.length := by
  unfold readUnit at h
  split at h <;> cases h
  simp

theorem readRoleEnd_length_lt {tokens rest : List Token} (h : readRoleEnd tokens = .ok rest) :
    rest.length < tokens.length := by
  unfold readRoleEnd at h
  split at h <;> cases h
  simp

theorem readRole_length_lt {tokens rest : List Token} {role : HardlinkRole}
    (h : readRole tokens = .ok (role, rest)) : rest.length < tokens.length := by
  unfold readRole at h
  split at h
  · cases h
  · simp only [bind, Except.bind, pure, Except.pure] at h
    split at h <;> cases h
    simp
  · cases h
  · simp only [bind, Except.bind, pure, Except.pure] at h
    split at h
    · cases h
    · split at h
      · cases h
      · next hcolon =>
        split at h
        · cases h
        · next hunit =>
          split at h
          · cases h
          · next hend =>
            cases h
            have := readColon_length_lt hcolon
            have := readUnit_length_lt hunit
            have := readRoleEnd_length_lt hend
            simp only [List.length_cons]
            omega
  · cases h
  · cases h

theorem Field.read_length_lt {field : Field} {tokens rest : List Token} {value : field.Value}
    (h : field.read tokens = .ok (value, rest)) : rest.length < tokens.length := by
  cases field with
  | path => exact readBytes_length_lt h
  | attributes => exact readOption_length_lt readAttributes_length_lt h
  | flags => exact readOption_length_lt readInteger_length_lt h
  | link => exact readOption_length_lt readBytes_length_lt h
  | role => exact readRole_length_lt h
  | _ => exact readInteger_length_lt h

def readIgnored (tokens : List Token) : Except Fault (Unit × List Token) := do
  return ((), ← Json.skipValue tokens)

theorem readIgnored_length_lt {tokens rest : List Token} {value : Unit}
    (h : readIgnored tokens = .ok (value, rest)) : rest.length < tokens.length := by
  simp only [readIgnored, bind, Except.bind, pure, Except.pure] at h
  split at h <;> cases h
  next heq => exact Json.skipValue_length_lt heq

/-- Reads the members of an object up to its closing brace. A field may be given once. -/
def readMembers (first : Bool) (draft : Draft) (tokens : List Token) :
    Except Fault (Draft × List Token) :=
  match _h : nextMember first tokens with
  | .error fault => .error fault
  | .ok none => .ok (draft, tokens)
  | .ok (some (body, rest)) =>
    match body.text with
    | .error fault => .error fault
    | .ok name =>
      match Field.ofName? name with
      | some field =>
        if (draft field).isSome then .error (.unfit (.duplicateField name))
        else
          match _hvalue : readAfterColon field.read rest with
          | .error fault => .error fault
          | .ok (value, rest) => readMembers false (draft.set field value) rest
      | none =>
        match _hvalue : readAfterColon readIgnored rest with
        | .error fault => .error fault
        | .ok (_, rest) => readMembers false draft rest
termination_by tokens.length
decreasing_by
  · exact Nat.lt_trans (readAfterColon_length_lt Field.read_length_lt _hvalue)
      (nextMember_length_lt _h)
  · exact Nat.lt_trans (readAfterColon_length_lt readIgnored_length_lt _hvalue)
      (nextMember_length_lt _h)

/-- What a record is called in messages. -/
def expectedRecord : String := "struct EntryRecord"

/-- Reads the elements of an array as the given fields, of which `index` precede. A field that may
be left out does not need its element. -/
def readElements (index : Nat) (first : Bool) (draft : Draft) :
    List Field → List Token → Except Fault (Draft × List Token)
  | [], tokens => .ok (draft, tokens)
  | field :: fields, tokens => do
    match ← nextElement first tokens with
    | some tokens =>
      let (value, rest) ← field.read tokens
      readElements (index + 1) false (draft.set field value) fields rest
    | none =>
      match field.default? with
      | some value => readElements (index + 1) first (draft.set field value) fields tokens
      | none =>
        .error (.unfit (.invalidLength index
          (expectedRecord ++ " with " ++ toString Field.all.length ++ " elements")))

/-- Takes the closing bracket behind the elements of a record. -/
def readArrayEnd : List Token → Except Fault (List Token)
  | [] => .error .truncated
  | .closeBracket :: rest => .ok rest
  | _ :: _ => .error .malformed

/-- The record of a draft whose object ends. -/
def finish (draft : Draft) : Except Fault Record :=
  match ofDraft draft with
  | .ok record => .ok record
  | .error field => .error (.unfit (.missingField field.name))

/-- Reads a record. -/
def read : List Token → Except Fault (Record × List Token)
  | [] => .error .truncated
  | .openBrace :: rest => do
    let (draft, rest) ← readMembers true .empty rest
    return (← finish draft, rest.tail)
  | .openBracket :: rest => do
    let (draft, rest) ← readElements 0 true .empty Field.all rest
    let record ← finish draft
    return (record, ← readArrayEnd rest)
  | token :: _ => .error (mismatch expectedRecord token)

def parse (text : String) : Except Fault Record := do
  let (record, rest) ← read (Json.tokens text.toList)
  if rest.isEmpty then return record else .error .malformed

end TreeManifest.Record

/-- The entry of the record that a text consists of. -/
def TreeManifest.Entry.parse (text : String) : Except Json.Fault Entry :=
  (Record.parse text).map Record.toEntry
