import Mathlib.Data.List.ReduceOption
import TreeManifest.Proofs.Attributes.Captured
import TreeManifest.Proofs.Json.Elements

/-!
# All spellings of a record

The texts that write the same record differ in the order of their members, in members of other
names, in fields that are left out, in blanks and in the escapes of their strings, and a record may
be written as an array instead. All of them are loaded as one entry.

## Main definitions

- `Record.Bracketed`, `Record.Member`: items between brackets, and members of objects.
- `Record.Field.Writes`: the texts that write the value of a field.
- `Record.IsObject`, `Record.IsArray`, `Record.IsSpelling`: the texts that write a record.

## Main statements

- `Record.Bracketed.exists_spelled`: the tokens of items between brackets.
- `Record.reads_of_writes`: the value of a field is read from each of its texts.
- `Record.reads_of_isObject`, `Record.reads_of_isArray`: and so is a record.
- `Entry.parse_eq_toEntry`: every spelling of a record is loaded as the entry of the record.
-/

namespace TreeManifest

namespace Record

open Json (Token IsBlanks Padded Spells WritesText)

variable {α ι : Type} {text : List Char}

/-! ## Forms -/

/-- Items of some form between brackets. -/
def Bracketed (opening closing : Char) (Form : ι → List Char → Prop) (items : List ι)
    (text : List Char) : Prop :=
  ∃ blanks texts, IsBlanks blanks ∧ List.Forall₂ Form items texts ∧
    text = Json.enclose opening closing blanks texts

def Member (name : String) (Form : List Char → Prop) (text : List Char) : Prop :=
  ∃ key value, Padded (WritesText name) key ∧ Padded Form value ∧ text = key ++ ':' :: value

/-- Items with separators between brackets are a bracketed form. -/
theorem bracketed_separate {opening closing : Char} {Form : ι → List Char → Prop}
    {items : List ι} {texts : List (List Char)} (h : List.Forall₂ Form items texts) :
    Bracketed opening closing Form items (opening :: separate texts ++ [closing]) :=
  ⟨[], texts, nofun, h, rfl⟩

/-- A quoted name with a colon and a value is a member. -/
theorem member_quote {Form : List Char → Prop} (name : String) (h : Form text) :
    Member name Form (Json.quote name ++ ':' :: text) :=
  ⟨_, text, Json.padded_self (Json.writesText_quote name), Json.padded_self h, rfl⟩

def WritesBytes (bytes : Bytes) : List Char → Prop :=
  Bracketed '[' ']' (fun byte : UInt8 => Padded (· = Decimal.digits byte.toNat)) bytes

/-- The texts that write a map, with its bindings in any order. -/
def WritesAttributes (map : AttributeMap) (text : List Char) : Prop :=
  ∃ bindings, bindings.Perm map.toList ∧
    Bracketed '\x7b' '\x7d' (fun binding => Member binding.1 (WritesBytes binding.2)) bindings text

/-- The texts that write a value that may be missing. -/
def WritesOption (Form : α → List Char → Prop) : Option α → List Char → Prop
  | none, text => text = "null".toList
  | some value, text => Form value text

/-- The texts that write a role: its name, or an object whose only member has that name and no
value. -/
def WritesRole (role : HardlinkRole) (text : List Char) : Prop :=
  WritesText (roleName role) text ∨
    Bracketed '\x7b' '\x7d' (fun name => Member name (· = "null".toList)) [roleName role] text

/-- The texts that write the value of a field. -/
def Field.Writes : (field : Field) → field.Value → List Char → Prop
  | .path, value => WritesBytes value
  | .size, value => (· = Decimal.digits (value : UInt64).toNat)
  | .mode, value => (· = Decimal.digits (value : UInt32).toNat)
  | .attributes, value => WritesOption WritesAttributes value
  | .flags, value => WritesOption (fun (word : UInt32) => (· = Decimal.digits word.toNat)) value
  | .link, value => WritesOption WritesBytes value
  | .role, value => WritesRole value
  | .modTime, value => (· = Decimal.ofInt (value : Int64).toInt)
  | .uid, value => (· = Decimal.ofInt (value : Int64).toInt)
  | .gid, value => (· = Decimal.ofInt (value : Int64).toInt)
  | .startChunk, value => (· = Decimal.ofInt (value : Int64).toInt)
  | .startOffset, value => (· = Decimal.ofInt (value : Int64).toInt)

/-- The values with which a field may be left out of an object. -/
def Field.MayBeOmitted : (field : Field) → field.Value → Prop
  | .attributes, value => value = (none : Option AttributeMap)
  | .flags, value => value = (none : Option UInt32)
  | .link, value => value = (none : Option Bytes)
  | .role, value => value = HardlinkRole.none
  | _, _ => False

/-- A member of the object of a record: the one of a field, or any one with a name that no field
has. -/
def Named (record : Record) : Option Field → List Char → Prop
  | some field, text => Member field.name (field.Writes (record field)) text
  | none, text => ∃ name, name ∉ Field.all.map Field.name ∧ Member name Json.IsElement text

/-- The objects that write a record: every field has one member, or none if it may be omitted, and
the members stand in any order among others. -/
def IsObject (record : Record) (text : List Char) : Prop :=
  ∃ members : List (Option Field), members.reduceOption.Nodup ∧
    (∀ field, some field ∉ members → field.MayBeOmitted (record field)) ∧
      Bracketed '\x7b' '\x7d' record.Named members text

def IsArray (record : Record) : List Char → Prop :=
  Bracketed '[' ']' (fun field => Padded (field.Writes (record field))) Field.all

def IsSpelling (record : Record) (text : String) : Prop :=
  Padded (fun inner => record.IsObject inner ∨ record.IsArray inner) text.toList

/-! ## Tokens -/

/-- If each form is cut into tokens of some kind, then items between brackets are cut into such
tokens, separated and enclosed in the same way. -/
theorem Bracketed.exists_spelled {opening closing : Char} {first last : Token}
    {Form : ι → List Char → Prop} {Kind : ι → List Token → Prop} {items : List ι}
    (h : Bracketed opening closing Form items text)
    (hopening : Json.punctuation? opening = some first)
    (hclosing : Json.punctuation? closing = some last)
    (hform : ∀ {item text}, Form item text → ∃ spelled, Spells text spelled ∧ Kind item spelled) :
    ∃ spelled, Spells text (first :: (separateTokens spelled ++ [last])) ∧
      List.Forall₂ Kind items spelled := by
  obtain ⟨blanks, texts, hblanks, htexts, rfl⟩ := h
  have hspelled : ∃ spelled, List.Forall₂ Spells texts spelled ∧
      List.Forall₂ Kind items spelled := by
    induction htexts with
    | nil => exact ⟨[], .nil, .nil⟩
    | cons hitem _ ih =>
      obtain ⟨tokens, hspells, hkind⟩ := hform hitem
      obtain ⟨more, hmore, hkinds⟩ := ih
      exact ⟨tokens :: more, .cons hspells hmore, .cons hkind hkinds⟩
  obtain ⟨spelled, hspells, hkind⟩ := hspelled
  exact ⟨spelled, Json.spells_enclose hblanks hopening hclosing hspells, hkind⟩

/-- A member is read back from any form of it. -/
theorem Member.exists_spelled {name : String} {Form : List Char → Prop} {value : α}
    {read : List Token → Except Json.Fault (α × List Token)} (h : Member name Form text)
    (hform : ∀ {inner}, Form inner → Reads read inner value) :
    ∃ spelled, Spells text spelled ∧ IsMember read name value spelled := by
  obtain ⟨key, inner, hkey, hinner, rfl⟩ := h
  obtain ⟨_, hname, body, rfl, htext⟩ := hkey.spells WritesText.spells
  obtain ⟨spelled, hspells, hread⟩ := hinner.spells hform
  exact ⟨_, hname.append_punctuation rfl hspells, body, spelled, rfl, htext, hread⟩

/-! ## Values -/

/-- Bytes are read back from any form of them. -/
theorem reads_of_writesBytes {bytes : Bytes} (h : WritesBytes bytes text) :
    Reads readBytes text bytes := by
  obtain ⟨spelled, hspells, hbytes⟩ := h.exists_spelled rfl rfl fun {byte _} hbyte =>
    hbyte.spells fun {inner} (hinner : inner = Decimal.digits byte.toNat) =>
      ⟨[spelledByte byte], hinner ▸ Json.spells_digits byte.toNat, rfl⟩
  obtain rfl : bytes.map (fun byte => [spelledByte byte]) = spelled := by
    rw [← List.forall₂_eq_eq_eq]
    exact List.forall₂_map_left_iff.2 hbytes
  exact ⟨spelledBytes bytes, hspells, readBytes_spelledBytes bytes⟩

/-- A map of attributes is read back from any form of it. -/
theorem reads_of_writesAttributes {map : AttributeMap} (h : WritesAttributes map text) :
    Reads readAttributes text map := by
  obtain ⟨bindings, hperm, hbindings⟩ := h
  obtain ⟨spelled, hspells, hmembers⟩ := hbindings.exists_spelled rfl rfl fun hbinding =>
    hbinding.exists_spelled reads_of_writesBytes
  refine ⟨_, hspells, fun rest => ?_⟩
  rw [readAttributes_of_forall₂ hmembers, AttributeMap.ofList_of_perm hperm]

/-- An optional value is read back from any form of it, absence included. -/
theorem reads_of_writesOption {read : List Token → Except Json.Fault (α × List Token)}
    {Form : α → List Char → Prop} {value : Option α} (h : WritesOption Form value text)
    (hform : ∀ {value text}, Form value text → Reads read text value)
    (hnull : ∀ more result, read (.word (.ok .null) :: more) ≠ .ok result) :
    Reads (readOption read) text value := by
  cases value with
  | none =>
    obtain rfl : text = "null".toList := h
    exact ⟨_, Json.spells_word .null, fun _ => rfl⟩
  | some value => exact (hform h).option hnull

/-- A role is read back from any form of it. -/
theorem reads_of_writesRole {role : HardlinkRole} (h : WritesRole role text) :
    Reads readRole text role := by
  rcases h with hname | hobject
  · obtain ⟨_, hspells, body, rfl, htext⟩ := hname.spells
    refine ⟨_, hspells, fun rest => ?_⟩
    rw [List.singleton_append, readRole, roleOf_of_text htext]
    rfl
  · -- The value of the only member is taken like one of no type.
    let read (tokens : List Token) := (readUnit tokens).map fun rest => ((), rest)
    have hnull {inner : List Char} (h : inner = "null".toList) : Reads read inner () := by
      subst h
      exact ⟨_, Json.spells_word .null, fun _ => rfl⟩
    obtain ⟨_, hspells, hmembers⟩ := hobject.exists_spelled rfl rfl fun hmember =>
      hmember.exists_spelled hnull
    cases hmembers with | cons hmember hnil
    cases hnil
    obtain ⟨body, inner, rfl, htext, hread⟩ := hmember
    refine ⟨_, hspells, fun rest => ?_⟩
    have htokens : .openBrace ::
        (separateTokens [.string body :: .colon :: inner] ++ [.closeBrace]) ++ rest =
        .openBrace :: .string body :: .colon :: (inner ++ .closeBrace :: rest) := by
      simp [separateTokens]
    have hunit : readUnit (inner ++ .closeBrace :: rest) = .ok (.closeBrace :: rest) := by
      have hmap : (readUnit (inner ++ .closeBrace :: rest)).map (fun rest => ((), rest)) =
        .ok ((), .closeBrace :: rest) := hread _
      cases hresult : readUnit (inner ++ .closeBrace :: rest) with
      | error fault =>
        rw [hresult] at hmap
        cases hmap
      | ok after =>
        rw [hresult] at hmap
        cases hmap
        rfl
    rw [htokens, readRole, roleOf_of_text htext]
    simp only [bind, Except.bind, readColon, hunit]
    rfl

/-- The value of a field is read from every text that writes it. -/
theorem reads_of_writes {field : Field} {value : field.Value} (h : field.Writes value text) :
    Reads field.read text value := by
  cases field with
  | path => exact reads_of_writesBytes h
  | size => obtain rfl := h; exact reads_writeSize value
  | mode => obtain rfl := h; exact reads_writeWord value
  | attributes => exact reads_of_writesOption h reads_of_writesAttributes nofun
  | flags => exact reads_of_writesOption h (fun {word _} hword => hword ▸ reads_writeWord word) nofun
  | link => exact reads_of_writesOption h reads_of_writesBytes nofun
  | role => exact reads_of_writesRole h
  | modTime => obtain rfl := h; exact reads_writeSigned value
  | uid => obtain rfl := h; exact reads_writeSigned value
  | gid => obtain rfl := h; exact reads_writeSigned value
  | startChunk => obtain rfl := h; exact reads_writeSigned value
  | startOffset => obtain rfl := h; exact reads_writeSigned value

/-- Any value is passed over. -/
theorem reads_of_isElement (h : Json.IsElement text) : Reads readIgnored text () := by
  obtain ⟨spelled, hspells, hpasses⟩ := h.exists_passes
  refine ⟨spelled, hspells, fun rest => ?_⟩
  have hskip : Json.skipValue (spelled ++ rest) = .ok rest := by
    rw [Json.skipValue, hpasses]
    cases rest <;> rfl
  rw [readIgnored, hskip]
  rfl

/-! ## Objects -/

/-- A draft after a member: the member of a field gives it the value of the record. -/
def Draft.enter (record : Record) (draft : Draft) : Option Field → Draft
  | some field => draft.set field (record field)
  | none => draft

/-- Whether tokens are a member of a record that a draft lacks. -/
def IsStep (record : Record) (member : Option Field) (spelled : List Token) : Prop :=
  ∀ first draft rest, (∀ field ∈ member, draft field = none) →
    readMembers first draft (lead first ++ (spelled ++ rest)) =
      readMembers false (draft.enter record member) rest

/-- A member that spells the value of a field is a step of the record. -/
theorem isStep_field {record : Record} {field : Field} {spelled : List Token}
    (h : IsMember field.read field.name (record field) spelled) :
    record.IsStep (some field) spelled := by
  obtain ⟨body, inner, rfl, htext, hread⟩ := h
  intro first draft rest hnew
  have hvalue : readAfterColon field.read (.colon :: (inner ++ rest)) = .ok (record field, rest) :=
    hread rest
  exact readMembers_step (nextMember_lead first body _) htext (hnew field rfl) hvalue

/-- A member with the name of no field leaves every draft as it is. -/
theorem isStep_other {record : Record} {name : String} (hname : name ∉ Field.all.map Field.name)
    {spelled : List Token} (h : IsMember readIgnored name () spelled) :
    record.IsStep none spelled := by
  obtain ⟨body, inner, rfl, htext, hread⟩ := h
  have hunknown : Field.ofName? name = none := by
    rw [Field.ofName?, List.find?_eq_none]
    intro field hfield heq
    exact hname (List.mem_map.2 ⟨field, hfield, beq_iff_eq.1 heq⟩)
  intro first draft rest _
  have hvalue : readAfterColon readIgnored (.colon :: (inner ++ rest)) = .ok ((), rest) :=
    hread rest
  have hmember := nextMember_lead first body (.colon :: (inner ++ rest))
  refine (readMembers_member hmember).trans ?_
  rw [htext]
  simp only [bind, Except.bind, hunknown, hvalue, Draft.enter]

/-- Every member of a form, known or unknown, is a step of the record. -/
theorem Named.exists_spelled {record : Record} {member : Option Field}
    (h : record.Named member text) :
    ∃ spelled, Spells text spelled ∧ record.IsStep member spelled := by
  cases member with
  | some field =>
    obtain ⟨spelled, hspells, hmember⟩ := Member.exists_spelled h reads_of_writes
    exact ⟨spelled, hspells, isStep_field hmember⟩
  | none =>
    obtain ⟨name, hname, hmember⟩ := h
    obtain ⟨spelled, hspells, hignored⟩ := hmember.exists_spelled reads_of_isElement
    exact ⟨spelled, hspells, isStep_other hname hignored⟩

/-- After some members, the draft has the values of the record for their fields. -/
theorem Draft.foldl_enter (record : Record) (members : List (Option Field)) (draft : Draft)
    (field : Field) :
    members.foldl (Draft.enter record) draft field =
      if some field ∈ members then some (record field) else draft field := by
  induction members generalizing draft with
  | nil => simp
  | cons member members ih =>
    rw [List.foldl_cons, ih]
    by_cases hmembers : some field ∈ members
    · rw [if_pos hmembers, if_pos (List.mem_cons_of_mem _ hmembers)]
    · rw [if_neg hmembers]
      by_cases hmember : some field = member
      · rw [if_pos (List.mem_cons.2 (.inl hmember)), ← hmember]
        exact draft.set_self field _
      · rw [if_neg (List.mem_cons.not.2 (not_or.2 ⟨hmember, hmembers⟩))]
        cases member with
        | none => rfl
        | some other => exact draft.set_of_ne (fun heq => hmember (congrArg some heq.symm)) _

/-- A draft that lacks the fields of some members, which are all different, lacks those of the rest
after the first of them. -/
theorem Draft.enter_lacks {record : Record} {draft : Draft} {member : Option Field}
    {members : List (Option Field)} (hnodup : (member :: members).reduceOption.Nodup)
    (hnew : ∀ field, some field ∈ member :: members → draft field = none) :
    members.reduceOption.Nodup ∧
      ∀ field, some field ∈ members → draft.enter record member field = none := by
  cases member with
  | none => exact ⟨hnodup, fun field hfield => hnew field (List.mem_cons_of_mem _ hfield)⟩
  | some other =>
    obtain ⟨hother, hnodup⟩ := List.nodup_cons.1 hnodup
    refine ⟨hnodup, fun field hfield => ?_⟩
    have hne : other ≠ field := fun heq => hother (List.reduceOption_mem_iff.2 (heq ▸ hfield))
    exact (draft.set_of_ne hne _).trans (hnew field (List.mem_cons_of_mem _ hfield))

/-- The members from one of them on give a draft their values. -/
theorem readMembers_items {record : Record} {members : List (Option Field)}
    {spelled : List (List Token)} (h : List.Forall₂ record.IsStep members spelled)
    (hnodup : members.reduceOption.Nodup) {draft : Draft}
    (hnew : ∀ field, some field ∈ members → draft field = none) (first : Bool)
    (rest : List Token) :
    readMembers first draft (itemTokens first spelled ++ .closeBrace :: rest) =
      .ok (members.foldl (Draft.enter record) draft, .closeBrace :: rest) := by
  induction h generalizing draft first with
  | nil =>
    rw [itemTokens_nil]
    exact readMembers_end (nextMember_closeBrace first rest)
  | @cons member tokens members spelled hfirst _ ih =>
    have hmember : ∀ field ∈ member, draft field = none :=
      fun field hfield => hnew field (hfield ▸ List.mem_cons_self)
    obtain ⟨hnodup', hnew'⟩ := Draft.enter_lacks hnodup hnew
    rw [itemTokens_cons, List.append_assoc, List.append_assoc, hfirst first draft _ hmember]
    exact ih hnodup' hnew' false

/-! ## Arrays -/

/-- No value begins with the end of an array. -/
theorem Field.read_closeBracket (field : Field) (rest : List Token)
    (result : field.Value × List Token) : field.read (.closeBracket :: rest) ≠ .ok result := by
  cases field <;> exact nofun

/-- Behind its comma, if it needs one, an element is found. -/
theorem nextElement_lead {field : Field} {spelled : List Token} {value : field.Value}
    (h : ∀ rest, field.read (spelled ++ rest) = .ok (value, rest)) (first : Bool)
    (rest : List Token) :
    nextElement first (lead first ++ (spelled ++ rest)) = .ok (some (spelled ++ rest)) := by
  cases spelled with
  | nil => exact absurd (Field.read_length_lt (h [])) (Nat.lt_irrefl 0)
  | cons token more =>
    have htoken : token ≠ .closeBracket := by
      rintro rfl
      exact field.read_closeBracket _ _ (h [])
    cases first <;> cases token <;> first | rfl | exact absurd rfl htoken

/-- Reading a record from an array takes one field at a time. -/
theorem readElements_lead {record : Record} {field : Field} {spelled : List Token}
    (h : ∀ rest, field.read (spelled ++ rest) = .ok (record field, rest)) (index : Nat)
    (first : Bool) (draft : Draft) (fields : List Field) (rest : List Token) :
    readElements index first draft (field :: fields) (lead first ++ (spelled ++ rest)) =
      readElements (index + 1) false (draft.set field (record field)) fields rest := by
  rw [readElements, nextElement_lead h]
  simp only [bind, Except.bind, h]

/-- The elements from one of them on give a draft their values. -/
theorem readElements_items {record : Record} {fields : List Field} {spelled : List (List Token)}
    (h : List.Forall₂ (fun field tokens =>
      ∀ rest, field.read (tokens ++ rest) = .ok (record field, rest)) fields spelled)
    (index : Nat) (first : Bool) (draft : Draft) (rest : List Token) :
    readElements index first draft fields (itemTokens first spelled ++ rest) =
      .ok ((fields.map some).foldl (Draft.enter record) draft, rest) := by
  induction h generalizing index first draft with
  | nil =>
    rw [itemTokens_nil]
    rfl
  | cons hfirst _ ih =>
    rw [itemTokens_cons, List.append_assoc, List.append_assoc, readElements_lead hfirst, ih]
    rfl

/-! ## Records -/

/-- A field that may be left out has the value that reading gives it. -/
theorem Field.default?_of_mayBeOmitted {field : Field} {value : field.Value}
    (h : field.MayBeOmitted value) : field.default? = some value := by
  cases field <;> cases h <;> rfl

/-- An object that writes a record is read as that record. -/
theorem reads_of_isObject {record : Record} (h : record.IsObject text) :
    Reads read text record := by
  obtain ⟨members, hnodup, homitted, hmembers⟩ := h
  obtain ⟨spelled, hspells, hsteps⟩ := hmembers.exists_spelled rfl rfl Named.exists_spelled
  have hfull : ∀ field,
      (members.foldl (Draft.enter record) .empty).value? field = some (record field) := by
    intro field
    rw [Draft.value?, Draft.foldl_enter]
    by_cases hfield : some field ∈ members
    · rw [if_pos hfield]
      rfl
    · rw [if_neg hfield, Field.default?_of_mayBeOmitted (homitted field hfield)]
      rfl
  refine ⟨_, hspells, fun rest => ?_⟩
  have hempty : ∀ field, some field ∈ members → Draft.empty field = none := fun _ _ => rfl
  have hread : readMembers true .empty (separateTokens spelled ++ .closeBrace :: rest) = _ :=
    readMembers_items hsteps hnodup hempty true rest
  rw [List.cons_append, List.append_assoc, List.singleton_append, read, hread]
  simp only [bind, Except.bind, finish_of_value? hfull]
  rfl

/-- An array that writes a record is read as that record. -/
theorem reads_of_isArray {record : Record} (h : record.IsArray text) :
    Reads read text record := by
  obtain ⟨spelled, hspells, helements⟩ := h.exists_spelled rfl rfl fun hform =>
    hform.spells reads_of_writes
  have hfull : ∀ field, ((Field.all.map some).foldl (Draft.enter record) .empty).value? field =
      some (record field) := by
    intro field
    rw [Draft.value?, Draft.foldl_enter, if_pos (List.mem_map_of_mem field.mem_all)]
    rfl
  refine ⟨_, hspells, fun rest => ?_⟩
  have hread : readElements 0 true .empty Field.all (separateTokens spelled ++ _ :: rest) = _ :=
    readElements_items helements 0 true .empty (.closeBracket :: rest)
  rw [List.cons_append, List.append_assoc, List.singleton_append, read, hread]
  simp only [bind, Except.bind, finish_of_value? hfull]
  rfl

/-- A record is read back from any spelling of it. -/
theorem parse_of_isSpelling {record : Record} {text : String} (h : record.IsSpelling text) :
    parse text = .ok record := by
  obtain ⟨spelled, hspells, hread⟩ := h.spells fun hform =>
    hform.elim reads_of_isObject reads_of_isArray
  have hrecord := hread []
  rw [List.append_nil] at hrecord
  rw [parse, hspells.tokens_eq, hrecord]
  rfl

/-! ### The spellings of a file -/

/-- Written fields are members of a form of the record. -/
theorem forall₂_named {record : Record} {fields : List Field} {write : Field → List Char}
    (h : ∀ field ∈ fields, field.Writes (record field) (write field)) :
    List.Forall₂ record.Named (fields.map some)
      (fields.map fun field => Json.quote field.name ++ ':' :: write field) :=
  List.forall₂_map_left_iff.2 (List.forall₂_map_right_iff.2 (List.forall₂_same.2
    fun field hfield => member_quote field.name (h field hfield)))

/-- A member with the name of no field, whose value is an array with an object in it. -/
theorem named_identity (record : Record) :
    record.Named none "\"identity\" : [null, \x7b\"\\n\":-1.5e+3\x7d ]".toList := by
  have hnumeral : Json.IsNumeral "-1.5e+3".toList :=
    ⟨['-'], by simp, ['1'], ['.', '5'], ['e', '+', '3'],
      ⟨Json.isDigits_singleton rfl, by simp⟩, .inr ⟨['5'], Json.isDigits_singleton rfl, rfl⟩,
      .inr ⟨'e', by simp, ['+'], by simp, ['3'], Json.isDigits_singleton rfl, rfl⟩, rfl⟩
  have hkey : Json.IsString "\"\\n\"".toList :=
    ⟨_, _, .short (by decide : ('n', '\n') ∈ Json.shortEscapes) .close, rfl⟩
  have hobject : Json.IsElement (Json.enclose '\x7b' '\x7d' []
      ([("\"\\n\"".toList, "-1.5e+3".toList)].map fun member => member.1 ++ ':' :: member.2)) :=
    .object nofun (List.forall_mem_singleton.2 (Json.padded_self hkey))
      (List.forall_mem_singleton.2 (.numeral hnumeral))
  have hblank : IsBlanks [' '] := by decide
  have hnull : Json.IsElement "null".toList := .word List.mem_cons_self
  have harray := Json.IsElement.array (by decide : IsBlanks []) (List.forall_mem_cons.2
    ⟨hnull, List.forall_mem_singleton.2 (.padded hblank hobject hblank)⟩)
  exact ⟨"identity", by decide, _, _,
    ⟨[], Json.quote "identity", [' '], nofun, Json.writesText_quote _, hblank, rfl⟩,
    ⟨[' '], _, [], hblank, harray, nofun, rfl⟩, by decide⟩

/-- The name of a role with an escape in it. -/
theorem writesText_escaped : WritesText (roleName .none) "\"N\\u006fne\"".toList := by
  have hend : Json.IsBody [.char 'n', .char 'e'] "ne\"".toList :=
    .plain (by decide) (by decide) (by decide) (.plain (by decide) (by decide) (by decide) .close)
  have hbody : Json.IsBody [.char 'N', .unit 'o'.toNat, .char 'n', .char 'e']
      "N\\u006fne\"".toList :=
    .plain (by decide) (by decide) (by decide) (.unit (by decide : ('0', 0) ∈ Json.hexDigits)
      (by decide : ('0', 0) ∈ Json.hexDigits) (by decide : ('6', 6) ∈ Json.hexDigits)
      (by decide : ('f', 15) ∈ Json.hexDigits) hend)
  exact ⟨_, _, hbody, .char (.unit (.char (.char .nil))), rfl⟩

/-- The values of a file, with null for those that are missing. -/
def plainValue : Field → List Char
  | .path => "[97]".toList
  | .mode => "33188".toList
  | .uid | .gid => "-1".toList
  | .attributes | .flags | .link => "null".toList
  | .role => Json.quote "None"
  | .size | .modTime | .startChunk | .startOffset => "0".toList

theorem writes_plainValue (field : Field) :
    field.Writes (ofEntry (.new [0x61] 0o100644) field) (plainValue field) := by
  cases field with
  | path =>
    have hbytes : List.Forall₂ (fun byte : UInt8 => Padded (· = Decimal.digits byte.toNat)) [0x61]
        ["97".toList] := .cons (Json.padded_self (by decide +kernel)) .nil
    exact bracketed_separate hbytes
  | role => exact .inl (Json.writesText_quote _)
  | attributes => exact rfl
  | flags => exact rfl
  | link => exact rfl
  | _ =>
    show plainValue _ = _
    decide +kernel

end Record

/-- However a record is spelled, it is loaded as the entry of its values. -/
theorem Entry.parse_eq_toEntry {record : Record} {text : String} (h : record.IsSpelling text) :
    Entry.parse text = .ok record.toEntry := by
  rw [Entry.parse, Record.parse_of_isSpelling h]
  rfl

/-- A file as an object whose members are in no order, with one of another name, a value that is
missing and an escape, and as an array. -/
theorem Entry.parse_eq_toEntry_file :
    let entry := Entry.new [0x61] 0o100644
    Entry.parse (" \x7b\"identity\" : [null, \x7b\"\\n\":-1.5e+3\x7d ]," ++
        "\"hardlink\":\"N\\u006fne\",\"platform_flags\":null,\"uid\":-1,\"gid\":-1," ++
        "\"mode\":33188,\"size\":0,\"mod_time\":0,\"start_offset\":0,\"start_chunk\":0," ++
        "\"path\":[97]\x7d\n") = .ok entry ∧
    Entry.parse "[[97],0,0,33188,-1,-1,null,null,0,0,null,\"None\"]" = .ok entry := by
  intro entry
  have hentry : (Record.ofEntry entry).toEntry = entry := by decide +kernel
  have hrole : Record.Field.role.Writes HardlinkRole.none "\"N\\u006fne\"".toList :=
    .inl Record.writesText_escaped
  have hfields := Record.forall₂_named fun field (_ : field ∈
    [Record.Field.flags, .uid, .gid, .mode, .size, .modTime, .startOffset, .startChunk, .path]) =>
      Record.writes_plainValue field
  have hmembers : List.Forall₂ (Record.ofEntry entry).Named (none :: some .role :: _) _ :=
    .cons (Record.named_identity _) (.cons (Record.member_quote _ hrole) hfields)
  have helements := List.forall₂_map_right_iff.2 (List.forall₂_same.2 fun field
    (_ : field ∈ Record.Field.all) => Json.padded_self (Record.writes_plainValue field))
  rw [← hentry]
  constructor
  · refine Entry.parse_eq_toEntry ⟨[' '], _, ['\n'], by decide, .inl ⟨none :: some .role :: _,
      by decide, fun field hfield => ?_, Record.bracketed_separate hmembers⟩, by decide,
      by decide +kernel⟩
    cases field <;> first | rfl | exact absurd (by decide) hfield
  · exact Entry.parse_eq_toEntry ⟨[], _, [], by decide, .inr (Record.bracketed_separate helements),
      by decide, by decide +kernel⟩

end TreeManifest
