import TreeManifest.Proofs.Json.Grammar
import TreeManifest.Proofs.Record.Spelling

/-!
# Well-formed values are passed over

The grammar of all JSON values, and that each of them is passed over as a whole, whatever follows it
and however many brackets are open around it.

## Main definitions

- `Json.enclose`: items between brackets.
- `Json.IsElement`: any value, with blanks around it.
- `Json.Passes`: tokens that are passed over as one value.

## Main statements

- `Json.spells_enclose`: the tokens of items between brackets.
- `Json.skipFrom_enclosed`: items that are passed over, between brackets.
- `Json.IsElement.exists_passes`: every value is passed over.
-/

namespace TreeManifest.Json

open Record (separateTokens)

/-- Items between brackets, with commas between them and blanks in front of them. -/
def enclose (opening closing : Char) (blanks : List Char) (items : List (List Char)) : List Char :=
  opening :: (blanks ++ (Record.separate items ++ [closing]))

/-- Any value, with blanks around it. -/
inductive IsElement : List Char → Prop
  | padded {before text after : List Char} (hbefore : IsBlanks before) (h : IsElement text)
    (hafter : IsBlanks after) : IsElement (before ++ (text ++ after))
  | word {word : String} (h : word ∈ ["null", "true", "false"]) : IsElement word.toList
  | numeral {text : List Char} (h : IsNumeral text) : IsElement text
  | string {text : List Char} (h : IsString text) : IsElement text
  | array {blanks : List Char} {items : List (List Char)} (hblanks : IsBlanks blanks)
    (hitems : ∀ item ∈ items, IsElement item) : IsElement (enclose '[' ']' blanks items)
  /-- The members are pairs of a name and a value. -/
  | object {blanks : List Char} {members : List (List Char × List Char)}
    (hblanks : IsBlanks blanks) (hnames : ∀ member ∈ members, Padded IsString member.1)
    (hvalues : ∀ member ∈ members, IsElement member.2) :
    IsElement (enclose '\x7b' '\x7d' blanks
      (members.map fun member => member.1 ++ ':' :: member.2))

/-- Items between brackets are cut into their tokens. -/
theorem spells_enclose {opening closing : Char} {first last : Token} {blanks : List Char}
    {texts : List (List Char)} {spelled : List (List Token)} (hblanks : IsBlanks blanks)
    (hopening : punctuation? opening = some first) (hclosing : punctuation? closing = some last)
    (h : List.Forall₂ Spells texts spelled) :
    Spells (enclose opening closing blanks texts)
      (first :: (separateTokens spelled ++ [last])) := by
  have hitems := (Record.spells_separate h).append_punctuation hclosing spells_nil
  have hinner := hitems.padded hblanks fun _ hchar => absurd hchar List.not_mem_nil
  rw [List.append_nil] at hinner
  exact hinner.cons_punctuation hopening

/-! ## Passing over tokens -/

/-- Whether tokens are passed over as one value. -/
def Passes (spelled : List Token) : Prop :=
  ∀ around rest, skipFrom .value around (spelled ++ rest) = skipFrom .separator around rest

/-- The token that ends a bracket. -/
def Nesting.closing : Nesting → Token
  | .list => .closeBracket
  | .object => .closeBrace

/-- Whether tokens are passed over as one item of a bracket. -/
def PassesIn (inner : Nesting) (spelled : List Token) : Prop :=
  ∀ around rest, skipFrom inner.opening (inner :: around) (spelled ++ rest) =
    skipFrom .separator (inner :: around) rest

theorem skipFrom_step {expectation next : Expectation} {around after : List Nesting}
    {token : Token} (h : skipToken expectation around token = .ok (next, after))
    (hopen : ¬ (expectation = .separator ∧ around = [])) (rest : List Token) :
    skipFrom expectation around (token :: rest) = skipFrom next after rest := by
  rw [skipFrom, if_neg hopen, h]

variable {inner : Nesting} {spelled : List Token} {items : List (List Token)}

/-- The items of a bracket are passed over one behind the other. -/
theorem skipFrom_more (h : ∀ item ∈ items, PassesIn inner item) (around : List Nesting)
    (rest : List Token) :
    skipFrom .separator (inner :: around)
        (items.flatMap (Token.comma :: ·) ++ inner.closing :: rest) =
      skipFrom .separator around rest := by
  induction items with
  | nil =>
    refine skipFrom_step ?_ (by simp) rest
    cases inner <;> rfl
  | cons item items ih =>
    obtain ⟨hitem, hitems⟩ := List.forall_mem_cons.1 h
    have hcomma : skipToken .separator (inner :: around) .comma =
        .ok (inner.opening, inner :: around) := rfl
    rw [List.flatMap_cons, List.append_assoc, List.cons_append,
      skipFrom_step hcomma (by simp), hitem, ih hitems]

/-- An item does not begin with the end of its bracket. -/
theorem PassesIn.exists_cons (h : PassesIn inner spelled) :
    ∃ token more, spelled = token :: more ∧ inner.isClosedBy token = false := by
  -- Otherwise the end of the bracket would stand where an item is expected.
  have hends : skipFrom .separator [inner] [inner.closing] = .ok [] := by
    cases inner <;> rfl
  have hrefused : ∀ rest, skipFrom inner.opening [inner] (inner.closing :: rest) =
      .error .malformed := by
    cases inner <;> exact fun _ => rfl
  have hall := (h [] [inner.closing]).trans hends
  cases spelled with
  | nil => cases (hrefused []).symm.trans hall
  | cons token more =>
    refine ⟨token, more, rfl, ?_⟩
    by_contra hclosed
    have htoken : token = inner.closing := by
      cases inner <;> cases token <;> first | rfl | exact absurd rfl hclosed
    subst htoken
    cases (hrefused _).symm.trans hall

/-- So it may be the first one. -/
theorem skipFrom_first (h : PassesIn inner spelled) (around : List Nesting) (rest : List Token) :
    skipFrom .first (inner :: around) (spelled ++ rest) =
      skipFrom .separator (inner :: around) rest := by
  rw [← h around rest]
  obtain ⟨token, more, rfl, htoken⟩ := h.exists_cons
  have hsame : skipToken .first (inner :: around) token =
      skipToken inner.opening (inner :: around) token := by
    cases inner <;> simp only [skipToken, htoken, Bool.false_eq_true, if_false, Nesting.opening]
  have hopen : ¬ (inner.opening = .separator ∧ inner :: around = []) := by simp
  rw [List.cons_append, skipFrom, skipFrom, if_neg (by simp), if_neg hopen, hsame]

/-- A bracket is passed over with its items. -/
theorem skipFrom_enclosed (h : ∀ item ∈ items, PassesIn inner item) (around : List Nesting)
    (rest : List Token) :
    skipFrom .first (inner :: around) (separateTokens items ++ inner.closing :: rest) =
      skipFrom .separator around rest := by
  cases items with
  | nil =>
    refine skipFrom_step ?_ (by simp) rest
    cases inner <;> rfl
  | cons item items =>
    obtain ⟨hitem, hitems⟩ := List.forall_mem_cons.1 h
    rw [separateTokens, List.append_assoc, skipFrom_first hitem, skipFrom_more hitems]

/-! ## Values -/

theorem passes_word (word : Word) : Passes [.word (.ok word)] :=
  fun _ rest => skipFrom_step rfl (by simp) rest

theorem passes_numeral (numeral : Numeral) : Passes [.numeral (.ok numeral)] :=
  fun _ rest => skipFrom_step rfl (by simp) rest

theorem skipToken_string {body : StringBody} (h : body.ending = none) (around : List Nesting) :
    skipToken .value around (.string body) = .ok (.separator, around) ∧
      skipToken .name around (.string body) = .ok (.colon, around) := by
  constructor
  · simp only [skipToken, skipToken.startValue, skipToken.ending, h]
  · simp only [skipToken, skipToken.startName, skipToken.ending, h]

theorem passes_list (h : ∀ item ∈ items, Passes item) :
    Passes (.openBracket :: (separateTokens items ++ [.closeBracket])) := by
  intro around rest
  rw [List.cons_append, List.append_assoc, skipFrom_step rfl (by simp)]
  have hitems : ∀ item ∈ items, PassesIn .list item :=
    fun item hitem around => h item hitem (.list :: around)
  exact skipFrom_enclosed hitems around rest

theorem passes_object (h : ∀ item ∈ items, PassesIn .object item) :
    Passes (.openBrace :: (separateTokens items ++ [.closeBrace])) := by
  intro around rest
  rw [List.cons_append, List.append_assoc, skipFrom_step rfl (by simp)]
  exact skipFrom_enclosed h around rest

/-- A member is passed over with its value. -/
theorem passesIn_member {body : StringBody} (hbody : body.ending = none) (h : Passes spelled) :
    PassesIn .object (.string body :: .colon :: spelled) := by
  intro around rest
  have hcolon : skipToken .colon (.object :: around) .colon = .ok (.value, .object :: around) := rfl
  rw [List.cons_append, List.cons_append]
  show skipFrom .name _ _ = _
  rw [skipFrom_step (skipToken_string hbody _).2 (by simp), skipFrom_step hcolon (by simp), h]

/-- Items that each have tokens with some property have them in a row. -/
theorem exists_forall₂ {α β : Type} {Relation : α → β → Prop} {Property : β → Prop}
    {list : List α} (h : ∀ item ∈ list, ∃ other, Relation item other ∧ Property other) :
    ∃ others, List.Forall₂ Relation list others ∧ ∀ other ∈ others, Property other := by
  induction list with
  | nil => exact ⟨[], .nil, fun _ hother => absurd hother List.not_mem_nil⟩
  | cons item list ih =>
    obtain ⟨hitem, hlist⟩ := List.forall_mem_cons.1 h
    obtain ⟨other, hrelation, hproperty⟩ := hitem
    obtain ⟨others, hrelations, hproperties⟩ := ih hlist
    exact ⟨other :: others, .cons hrelation hrelations,
      List.forall_mem_cons.2 ⟨hproperty, hproperties⟩⟩

/-- Every value is cut into tokens that are passed over. -/
theorem IsElement.exists_passes {text : List Char} (h : IsElement text) :
    ∃ spelled, Spells text spelled ∧ Passes spelled := by
  induction h with
  | padded hbefore _ hafter ih =>
    obtain ⟨spelled, hspells, hpasses⟩ := ih
    exact ⟨spelled, hspells.padded hbefore hafter, hpasses⟩
  | @word word h =>
    obtain ⟨known, hknown⟩ : ∃ known : Word, word.toList = known.characters := by
      obtain rfl | rfl | rfl : word = "null" ∨ word = "true" ∨ word = "false" := by simpa using h
      · exact ⟨.null, rfl⟩
      · exact ⟨.boolean true, rfl⟩
      · exact ⟨.boolean false, rfl⟩
    exact ⟨_, hknown ▸ spells_word known, passes_word known⟩
  | numeral h =>
    obtain ⟨numeral, hspells⟩ := h.spells
    exact ⟨_, hspells, passes_numeral numeral⟩
  | string h =>
    obtain ⟨_, hspells, body, rfl, hbody⟩ := h.spells
    exact ⟨_, hspells, fun around rest =>
      skipFrom_step (skipToken_string hbody around).1 (by simp) rest⟩
  | array hblanks _ ih =>
    obtain ⟨spelled, hspells, hpasses⟩ := exists_forall₂ ih
    exact ⟨_, spells_enclose hblanks rfl rfl hspells, passes_list hpasses⟩
  | @object blanks members hblanks hnames _ ih =>
    have hmembers : ∀ text ∈ members.map fun member => member.1 ++ ':' :: member.2,
        ∃ spelled, Spells text spelled ∧ PassesIn .object spelled := by
      rw [List.forall_mem_map]
      intro member hmember
      obtain ⟨name, hname, body, rfl, hbody⟩ := (hnames member hmember).spells IsString.spells
      obtain ⟨value, hvalue, hpasses⟩ := ih member hmember
      exact ⟨_, hname.append_punctuation rfl hvalue, passesIn_member hbody hpasses⟩
    obtain ⟨spelled, hspells, hpasses⟩ := exists_forall₂ hmembers
    exact ⟨_, spells_enclose hblanks rfl rfl hspells, passes_object hpasses⟩

end TreeManifest.Json
