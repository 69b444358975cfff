import Mathlib.Data.List.Forall2
import TreeManifest.Proofs.Json.Spelling
import TreeManifest.Record.Write

/-!
# Tokens of values and members

The tokens of a value are taken by its reader, whatever follows them, and the tokens of separated
items are taken item by item.

## Main definitions

- `Record.Reads`: a text is read as a value, whatever delimited text follows it.
- `Record.separateTokens`, `Record.lead`, `Record.itemTokens`: the commas between items, in front of
  one, and in front of the items from one on.
- `Record.IsMember`: the tokens of a member of an object.

## Main statements

- `Record.spells_separate`: the tokens of separated texts.
- `Record.reads_writeWord`, `Record.reads_writeSize`, `Record.reads_writeSigned`: integers.
- `Record.readBytes_spelledBytes`, `Record.readAttributes_of_forall₂`: byte strings and maps.
- `Record.readMembers_member`, `Record.readMembers_step`: the members of a record.
-/

namespace TreeManifest

namespace Record

open Json (Token Delimited Spells spelledText spelledInt spelledNumeral)

/-- Whether a text is read as a value: it is cut into tokens of its own, and the reader takes just
these. -/
def Reads {α : Type} (read : List Token → Except Json.Fault (α × List Token)) (text : List Char)
    (value : α) : Prop :=
  ∃ spelled, Spells text spelled ∧ ∀ rest, read (spelled ++ rest) = .ok (value, rest)

/-! ## Separated items -/

/-- Tokens with a comma between each two items. -/
def separateTokens : List (List Token) → List Token
  | [] => []
  | first :: more => first ++ more.flatMap (Token.comma :: ·)

/-- The tokens in front of an item. -/
def lead (first : Bool) : List Token := if first then [] else [.comma]

/-- The tokens of the items from one of them on, with a comma in front of each but the very
first. -/
def itemTokens (first : Bool) (items : List (List Token)) : List Token :=
  if first then separateTokens items else items.flatMap (Token.comma :: ·)

theorem itemTokens_nil (first : Bool) : itemTokens first [] = [] := by
  cases first <;> rfl

theorem itemTokens_cons (first : Bool) (item : List Token) (items : List (List Token)) :
    itemTokens first (item :: items) = lead first ++ (item ++ itemTokens false items) := by
  cases first <;> rfl

theorem nextMember_closeBrace (first : Bool) (rest : List Token) :
    nextMember first (.closeBrace :: rest) = .ok none := by
  cases first <;> rfl

/-- Behind its comma, if it needs one, a name is read and the rest is left. -/
theorem nextMember_lead (first : Bool) (body : Json.StringBody) (rest : List Token) :
    nextMember first (lead first ++ .string body :: rest) = .ok (some (body, rest)) := by
  cases first <;> rfl

theorem separate_cons (first : List Char) (more : List (List Char)) :
    separate (first :: more) = first ++ more.flatMap (',' :: ·) := by
  induction more generalizing first with
  | nil => simp [separate]
  | cons next more ih =>
    have h := ih next
    simp only [separate] at h ⊢
    rw [List.intercalate_cons_cons, h]
    simp

theorem delimited_flatMap_comma (texts : List (List Char)) {rest : List Char} (h : Delimited rest) :
    Delimited (texts.flatMap (',' :: ·) ++ rest) := by
  cases texts with
  | nil => exact h
  | cons => exact Json.delimited_cons_of_punctuation rfl _

/-- Separators between texts become separators between their tokens. -/
theorem spells_flatMap_comma {texts : List (List Char)} {spelled : List (List Token)}
    (h : List.Forall₂ Spells texts spelled) :
    Spells (texts.flatMap (',' :: ·)) (spelled.flatMap (Token.comma :: ·)) := by
  induction h with
  | nil => exact Json.spells_nil
  | cons hfirst hmore ih =>
    simp only [List.flatMap_cons, List.cons_append]
    exact (hfirst.append ih fun _ => delimited_flatMap_comma _).cons_punctuation rfl

/-- Separated written forms are cut into their tokens, separated in the same way. -/
theorem spells_separate {texts : List (List Char)} {spelled : List (List Token)}
    (h : List.Forall₂ Spells texts spelled) :
    Spells (separate texts) (separateTokens spelled) := by
  cases h with
  | nil => exact Json.spells_nil
  | cons hfirst hmore =>
    rw [separate_cons, separateTokens]
    exact hfirst.append (spells_flatMap_comma hmore) fun _ => delimited_flatMap_comma _

/-! ## Integers -/

/-- An integer that its type holds is read back. -/
theorem integer_spelledInt {β : Type} {type : IntegerType β} {number : Int} {value : β}
    (hlow : Int64.minValue.toInt ≤ number) (hhigh : number < UInt64.size)
    (hfit : type.fit? number = some value) : integer type (spelledInt number) = .ok value := by
  cases number with
  | ofNat magnitude =>
    have hsize : magnitude < UInt64.size := Int.ofNat_lt.1 hhigh
    have hvalue := Json.value_spelledNumeral_natural hsize
    have hnat : (UInt64.ofNat magnitude).toNat = magnitude := UInt64.toNat_ofNat_of_lt' hsize
    simp only [spelledInt, integer, hvalue]
    show integer.fit type _ = _
    rw [integer.fit, hnat]
    simp only [Int.ofNat_eq_natCast] at hfit
    rw [hfit]
  | negSucc magnitude =>
    -- A negative number is kept in a word with sign, of which it must not leave the range.
    have hle : magnitude + 1 ≤ Nat.pow 2 63 := by
      have : Int64.minValue.toInt = -9223372036854775808 := by decide
      have : Nat.pow 2 63 = 9223372036854775808 := by decide
      omega
    have hvalue := Json.value_spelledNumeral_negative (Nat.succ_pos magnitude) hle
    have hint : (Int64.ofInt (-(magnitude + 1 : Nat))).toInt = Int.negSucc magnitude := by
      rw [Int64.toInt_ofInt_of_le]
      · omega
      · have : Nat.pow 2 63 = 9223372036854775808 := by decide
        omega
      · omega
    simp only [spelledInt, integer, hvalue]
    show integer.fit type _ = _
    rw [integer.fit, hint, hfit]

/-- A number that fits a type is read back from its digits as that type. -/
theorem reads_integer {β : Type} {type : IntegerType β} {number : Int} {value : β}
    (hlow : Int64.minValue.toInt ≤ number) (hhigh : number < UInt64.size)
    (hfit : type.fit? number = some value) :
    Reads (readInteger type) (Decimal.ofInt number) value := by
  refine ⟨[spelledInt number], Json.spells_ofInt number, fun rest => ?_⟩
  rw [List.singleton_append, readInteger, integer_spelledInt hlow hhigh hfit]
  rfl

/-- Natural numbers are above every lower bound that a number in a record has. -/
theorem minValue_le_natCast (number : Nat) : Int64.minValue.toInt ≤ number :=
  Int.le_trans (by decide) (Int.natCast_nonneg number)

theorem byteType_fit? (byte : UInt8) : byteType.fit? byte.toNat = some byte := by
  have h : (byte.toNat : Int) < UInt8.size := Int.ofNat_lt.2 byte.toNat_lt_size
  simp only [byteType]
  rw [if_pos ⟨Int.natCast_nonneg _, h⟩, Int.toNat_natCast, UInt8.ofNat_toNat]

theorem wordType_fit? (word : UInt32) : wordType.fit? word.toNat = some word := by
  have h : (word.toNat : Int) < UInt32.size := Int.ofNat_lt.2 word.toNat_lt_size
  simp only [wordType]
  rw [if_pos ⟨Int.natCast_nonneg _, h⟩, Int.toNat_natCast, UInt32.ofNat_toNat]

theorem sizeType_fit? (size : UInt64) : sizeType.fit? size.toNat = some size := by
  have h : (size.toNat : Int) < UInt64.size := Int.ofNat_lt.2 size.toNat_lt_size
  simp only [sizeType]
  rw [if_pos ⟨Int.natCast_nonneg _, h⟩, Int.toNat_natCast, UInt64.ofNat_toNat]

theorem signedType_fit? (value : Int64) : signedType.fit? value.toInt = some value := by
  have h : Int64.minValue.toInt ≤ value.toInt ∧ value.toInt ≤ Int64.maxValue.toInt :=
    ⟨value.minValue_le_toInt, value.toInt_le⟩
  simp only [signedType, h, and_self, if_true, Int64.ofInt_toInt]

/-- A written word is read back. -/
theorem reads_writeWord (word : UInt32) :
    Reads (readInteger wordType) (writeNatural word.toNat) word := by
  have h : word.toNat < UInt64.size := Nat.lt_trans word.toNat_lt_size (by decide)
  exact reads_integer (minValue_le_natCast _) (Int.ofNat_lt.2 h) (wordType_fit? word)

/-- A written size is read back. -/
theorem reads_writeSize (size : UInt64) :
    Reads (readInteger sizeType) (writeNatural size.toNat) size :=
  reads_integer (minValue_le_natCast _) (Int.ofNat_lt.2 size.toNat_lt_size) (sizeType_fit? size)

/-- A written signed number is read back. -/
theorem reads_writeSigned (value : Int64) :
    Reads (readInteger signedType) (writeSigned value) value := by
  have h : value.toInt < UInt64.size := Int.lt_of_le_of_lt value.toInt_le (by decide)
  exact reads_integer value.minValue_le_toInt h (signedType_fit? value)

/-! ## Byte strings -/

def spelledByte (byte : UInt8) : Token := spelledInt byte.toNat

theorem integer_spelledByte (byte : UInt8) : integer byteType (spelledByte byte) = .ok byte := by
  have h : byte.toNat < UInt64.size := Nat.lt_trans byte.toNat_lt_size (by decide)
  exact integer_spelledInt (minValue_le_natCast _) (Int.ofNat_lt.2 h) (byteType_fit? byte)

theorem spelledByte_eq (byte : UInt8) :
    spelledByte byte = .numeral (.ok (spelledNumeral false byte.toNat)) := rfl

/-- Reading an array of bytes takes one element at a time. -/
theorem readByteElements_lead (first : Bool) (byte : UInt8) (rest : List Token) :
    readByteElements first (lead first ++ spelledByte byte :: rest) =
      (readByteElements false rest).map fun read => (byte :: read.1, read.2) := by
  have hbyte := integer_spelledByte byte
  cases first with
  | true =>
    show readByteElements true (spelledByte byte :: rest) = _
    rw [spelledByte_eq, readByteElements, ← spelledByte_eq, hbyte]
    · cases readByteElements false rest <;> rfl
    · intro h
      cases h
  | false =>
    show readByteElements false (.comma :: spelledByte byte :: rest) = _
    rw [spelledByte_eq, readByteElements, ← spelledByte_eq, hbyte]
    · cases readByteElements false rest <;> rfl
    · intro h
      cases h

/-- The elements of a written array are read back up to its bracket. -/
theorem readByteElements_items (first : Bool) (bytes : Bytes) (rest : List Token) :
    readByteElements first
        (itemTokens first (bytes.map fun byte => [spelledByte byte]) ++ .closeBracket :: rest) =
      .ok (bytes, rest) := by
  induction bytes generalizing first with
  | nil => cases first <;> rfl
  | cons byte bytes ih =>
    rw [List.map_cons, itemTokens_cons, List.append_assoc, List.append_assoc,
      List.singleton_append, readByteElements_lead, ih]
    rfl

def spelledBytes (bytes : Bytes) : List Token :=
  .openBracket :: (separateTokens (bytes.map fun byte => [spelledByte byte]) ++ [.closeBracket])

/-- A written byte string is read back. -/
theorem readBytes_spelledBytes (bytes : Bytes) (rest : List Token) :
    readBytes (spelledBytes bytes ++ rest) = .ok (bytes, rest) := by
  rw [spelledBytes, List.cons_append, List.append_assoc, readBytes]
  exact readByteElements_items true bytes rest

/-! ## Attributes -/

theorem readBindings_end {first : Bool} {tokens : List Token}
    (h : nextMember first tokens = .ok none) :
    readBindings first tokens = .ok ([], tokens.tail) := by
  rw [readBindings]
  split <;> simp_all

/-- The reading of the bindings from one member on. -/
theorem readBindings_member {first : Bool} {tokens rest : List Token} {body : Json.StringBody}
    (hmember : nextMember first tokens = .ok (some (body, rest))) :
    readBindings first tokens = do
      let name ← body.text
      let (value, after) ← readAfterColon readBytes rest
      let (bindings, after) ← readBindings false after
      return ((name, value) :: bindings, after) := by
  rw [readBindings]
  split
  · next heq => cases hmember.symm.trans heq
  · next heq => cases hmember.symm.trans heq
  · next heq =>
    cases hmember.symm.trans heq
    split
    · next hname => rw [hname]; rfl
    · next hname hvalue => rw [hname, hvalue]; rfl
    · next hname hvalue => rw [hname, hvalue]; rfl

/-- Reading bindings takes one member at a time and keeps the order. -/
theorem readBindings_step {first : Bool} {tokens rest after : List Token} {body : Json.StringBody}
    {name : String} {value : Bytes} (hmember : nextMember first tokens = .ok (some (body, rest)))
    (hname : body.text = .ok name) (hvalue : readAfterColon readBytes rest = .ok (value, after)) :
    readBindings first tokens =
      (readBindings false after).map fun read => ((name, value) :: read.1, read.2) := by
  rw [readBindings_member hmember, hname, hvalue]
  simp only [bind, Except.bind]
  cases readBindings false after <;> rfl

/-- Whether tokens are a member of an object, with the given name and a value that is read. -/
def IsMember {α : Type} (read : List Token → Except Json.Fault (α × List Token)) (name : String)
    (value : α) (spelled : List Token) : Prop :=
  ∃ body inner, spelled = .string body :: .colon :: inner ∧ body.text = .ok name ∧
    ∀ rest, read (inner ++ rest) = .ok (value, rest)

theorem readBindings_lead {name : String} {value : Bytes} {spelled : List Token}
    (h : IsMember readBytes name value spelled) (first : Bool) (rest : List Token) :
    readBindings first (lead first ++ (spelled ++ rest)) =
      (readBindings false rest).map fun read => ((name, value) :: read.1, read.2) := by
  obtain ⟨body, inner, rfl, hname, hread⟩ := h
  have hvalue : readAfterColon readBytes (.colon :: (inner ++ rest)) = .ok (value, rest) :=
    hread rest
  exact readBindings_step (nextMember_lead first body _) hname hvalue

/-- The members of a written map are read back up to its brace. -/
theorem readBindings_items {bindings : List (String × Bytes)} {spelled : List (List Token)}
    (h : List.Forall₂ (fun binding => IsMember readBytes binding.1 binding.2) bindings spelled)
    (first : Bool) (rest : List Token) :
    readBindings first (itemTokens first spelled ++ .closeBrace :: rest) = .ok (bindings, rest) := by
  induction h generalizing first with
  | nil =>
    rw [itemTokens_nil]
    exact readBindings_end (nextMember_closeBrace first rest)
  | cons hfirst _ ih =>
    rw [itemTokens_cons, List.append_assoc, List.append_assoc, readBindings_lead hfirst, ih]
    rfl

/-- The bindings of a map are read in the order in which they are given. -/
theorem readAttributes_of_forall₂ {bindings : List (String × Bytes)}
    {spelled : List (List Token)}
    (h : List.Forall₂ (fun binding => IsMember readBytes binding.1 binding.2) bindings spelled)
    (rest : List Token) :
    readAttributes (.openBrace :: (separateTokens spelled ++ [.closeBrace]) ++ rest) =
      .ok (.ofList bindings, rest) := by
  have hbindings : readBindings true (separateTokens spelled ++ .closeBrace :: rest) =
      .ok (bindings, rest) := readBindings_items h true rest
  rw [List.cons_append, List.append_assoc, List.singleton_append, readAttributes, hbindings]
  rfl

/-! ## Roles and optional values -/

/-- The name of a role is read as that role. -/
theorem roleOf_of_text {body : Json.StringBody} {role : HardlinkRole}
    (h : body.text = .ok (roleName role)) : roleOf body = .ok role := by
  rw [roleOf, h]
  cases role <;> rfl

/-- What is read by a reader that takes no null is read as a value that is present. -/
theorem Reads.option {α : Type} {read : List Token → Except Json.Fault (α × List Token)}
    {text : List Char} {value : α} (h : Reads read text value)
    (hnull : ∀ more result, read (.word (.ok .null) :: more) ≠ .ok result) :
    Reads (readOption read) text (some value) := by
  obtain ⟨spelled, hspells, hread⟩ := h
  refine ⟨spelled, hspells, fun rest => ?_⟩
  unfold readOption
  -- The reader refuses null, so the tokens of the value do not begin with it.
  split
  · next more heq => exact absurd (heq ▸ hread rest) (hnull more _)
  · rw [hread rest]
    rfl

/-! ## Members of a record -/

/-- A field is found by its name. -/
theorem Field.ofName?_name (field : Field) : Field.ofName? field.name = some field := by
  cases field <;> decide

theorem readMembers_end {first : Bool} {draft : Draft} {tokens : List Token}
    (h : nextMember first tokens = .ok none) :
    readMembers first draft tokens = .ok (draft, tokens) := by
  rw [readMembers]
  split <;> simp_all

/-- The reading of the members from one of them on. -/
theorem readMembers_member {first : Bool} {draft : Draft} {tokens rest : List Token}
    {body : Json.StringBody} (hmember : nextMember first tokens = .ok (some (body, rest))) :
    readMembers first draft tokens = (do
      let name ← body.text
      match Field.ofName? name with
      | some field =>
        if (draft field).isSome then .error (.unfit (.duplicateField name))
        else do
          let (value, after) ← readAfterColon field.read rest
          readMembers false (draft.set field value) after
      | none => do
        let (_, after) ← readAfterColon readIgnored rest
        readMembers false draft after) := by
  rw [readMembers]
  split
  · next heq => cases hmember.symm.trans heq
  · next heq => cases hmember.symm.trans heq
  · next heq =>
    cases hmember.symm.trans heq
    cases body.text with
    | error fault => rfl
    | ok name =>
      simp only [bind, Except.bind]
      cases Field.ofName? name with
      | some field =>
        simp only
        split
        · rfl
        · split
          · next hvalue => rw [hvalue]
          · next hvalue => rw [hvalue]
      | none =>
        simp only
        split
        · next hvalue => rw [hvalue]
        · next hvalue => rw [hvalue]

/-- A member of a record whose field is still empty fills that field. -/
theorem readMembers_step {first : Bool} {draft : Draft} {tokens rest after : List Token}
    {body : Json.StringBody} {field : Field} {value : field.Value}
    (hmember : nextMember first tokens = .ok (some (body, rest)))
    (hname : body.text = .ok field.name) (hnew : draft field = none)
    (hvalue : readAfterColon field.read rest = .ok (value, after)) :
    readMembers first draft tokens = readMembers false (draft.set field value) after := by
  rw [readMembers_member hmember, hname]
  simp only [bind, Except.bind, Field.ofName?_name, hnew, Option.isSome_none, Bool.false_eq_true,
    if_false, hvalue]

theorem Draft.set_self (draft : Draft) (field : Field) (value : field.Value) :
    draft.set field value field = some value := by
  simp [Draft.set]

theorem Draft.set_of_ne (draft : Draft) {field other : Field} (h : field ≠ other)
    (value : field.Value) : draft.set field value other = draft other := by
  simp [Draft.set, h]

/-- A draft with a value in every field becomes the record of these values. -/
theorem finish_of_value? {draft : Draft} {record : Record}
    (h : ∀ field, draft.value? field = some (record field)) : finish draft = .ok record := by
  have hdraft : ofDraft draft = .ok record := by
    unfold ofDraft
    split
    · next field hfind =>
      have := List.find?_some hfind
      simp [h field] at this
    · refine congrArg Except.ok (funext fun field => ?_)
      simp [h field]
  rw [finish, hdraft]

end Record

end TreeManifest
