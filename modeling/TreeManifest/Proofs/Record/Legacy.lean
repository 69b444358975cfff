import Mathlib.Algebra.Ring.Nat
import TreeManifest.Proofs.Entry.Operations
import TreeManifest.Proofs.Record.RoundTrip

/-!
# Flag words of older records

Older records keep the flag word of an object among its attributes, under one of four reserved
names. Loading drops all reserved names, and takes over the flag word of the first of the four that
has a value of exactly four bytes, unless the record has a flag word of its own. A value of another
length is passed over.

## Main definitions

- `Bytes.littleEndian`: the number in a byte string, least significant byte first.
- `AttributeMap.KeepsFlagWord`: a legacy name with a value of four bytes.
- `AttributeMap.IsFirstFlagWord`: the flag word of the first such name.

## Main statements

- `Entry.flagWord?_eq_some_iff`: which values hold a flag word, and which one.
- `Entry.legacyFlagWord?_eq_some_iff`, `Entry.legacyFlagWord?_eq_none_iff`: the word that is found.
- `Entry.migrated_of_parse`: the attributes and the flag word of a loaded entry.
-/

namespace TreeManifest

/-- The number that a byte string stands for, least significant byte first. -/
def Bytes.littleEndian : Bytes → Nat
  | [] => 0
  | byte :: rest => byte.toNat + 256 * littleEndian rest

namespace AttributeMap

/-- A map has a value of exactly four bytes under a legacy name. -/
structure KeepsFlagWord (map : AttributeMap) (name : String) (value : Bytes) : Prop where
  isLegacy : name ∈ AttributeName.legacyFlagNames
  get?_eq : map.get? name = some value
  length_eq : value.length = 4

/-- A number is the flag word under the first legacy name, in the order of its bytes, that has a
value of four bytes. -/
def IsFirstFlagWord (map : AttributeMap) (word : UInt32) : Prop :=
  ∃ name value, map.KeepsFlagWord name value ∧ word.toNat = value.littleEndian ∧
    ∀ other value', map.KeepsFlagWord other value' → Bytes.ofString name ≤ Bytes.ofString other

/-- That a map without bindings is left out makes no difference to what is bound. -/
theorem getD_filter_isEmpty (map : Option AttributeMap) :
    (map.filter fun map => !map.isEmpty).getD .empty = map.getD .empty := by
  cases map with
  | none => rfl
  | some map =>
    obtain ⟨list, ascending⟩ := map
    cases list <;> rfl

end AttributeMap

namespace Entry

/-! ## Values -/

/-- Bits that do not overlap are added. -/
theorem or_shiftLeft_eq_add {low high count : Nat} (h : low < 2 ^ count) :
    low ||| high <<< count = low + high <<< count := by
  rw [Nat.or_comm, ← Nat.shiftLeft_add_eq_or_of_lt h, Nat.add_comm]

theorem toNat_shiftLeft_of_le {byte : UInt8} {count : UInt32} (h : count.toNat ≤ 24) :
    (byte.toUInt32 <<< count).toNat = byte.toNat <<< count.toNat := by
  have hbyte := byte.toNat_lt
  rw [UInt32.toNat_shiftLeft, UInt8.toNat_toUInt32, Nat.mod_eq_of_lt (by omega : count.toNat < 32),
    Nat.shiftLeft_eq]
  refine Nat.mod_eq_of_lt ?_
  calc byte.toNat * 2 ^ count.toNat
      ≤ byte.toNat * 2 ^ 24 := Nat.mul_le_mul_left _ (Nat.pow_le_pow_right Nat.two_pos h)
    _ < 2 ^ 32 := by omega

/-- The word of four bytes. -/
theorem toNat_word (a b c d : UInt8) :
    (a.toUInt32 ||| (b.toUInt32 <<< 8) ||| (c.toUInt32 <<< 16) ||| (d.toUInt32 <<< 24)).toNat =
      Bytes.littleEndian [a, b, c, d] := by
  have ha := a.toNat_lt
  have hb := b.toNat_lt
  have hc := c.toNat_lt
  have hlow : a.toNat ||| b.toNat <<< 8 = a.toNat + b.toNat <<< 8 :=
    or_shiftLeft_eq_add (by omega)
  have hmiddle : (a.toNat + b.toNat <<< 8) ||| c.toNat <<< 16 =
      a.toNat + b.toNat <<< 8 + c.toNat <<< 16 :=
    or_shiftLeft_eq_add (by rw [Nat.shiftLeft_eq]; omega)
  have hhigh : (a.toNat + b.toNat <<< 8 + c.toNat <<< 16) ||| d.toNat <<< 24 =
      a.toNat + b.toNat <<< 8 + c.toNat <<< 16 + d.toNat <<< 24 :=
    or_shiftLeft_eq_add (by simp only [Nat.shiftLeft_eq]; omega)
  simp only [UInt32.toNat_or, UInt8.toNat_toUInt32]
  rw [toNat_shiftLeft_of_le (by decide), toNat_shiftLeft_of_le (by decide),
    toNat_shiftLeft_of_le (by decide)]
  simp only [UInt32.reduceToNat, hlow, hmiddle, hhigh]
  simp only [Nat.shiftLeft_eq, Bytes.littleEndian]
  omega

/-- A value holds a flag word if it has exactly four bytes. -/
theorem flagWord?_eq_some_iff {value : Bytes} {word : UInt32} :
    flagWord? value = some word ↔ value.length = 4 ∧ word.toNat = value.littleEndian := by
  unfold flagWord?
  split
  · next a b c d =>
    rw [Option.some.injEq, ← UInt32.toNat_inj, toNat_word]
    exact ⟨fun h => ⟨rfl, h.symm⟩, fun h => h.2.symm⟩
  · next hother =>
    refine ⟨nofun, fun ⟨hlength, _⟩ => ?_⟩
    obtain ⟨a, b, c, d, rfl⟩ := List.length_eq_four.1 hlength
    exact absurd rfl (hother a b c d)

end Entry

/-! ## Legacy names -/

namespace AttributeName

/-- On the legacy names the order of texts is that of their bytes. -/
theorem ofString_le_of_lt {name other : String} (hname : name ∈ legacyFlagNames)
    (hother : other ∈ legacyFlagNames) (h : name < other) :
    Bytes.ofString name ≤ Bytes.ofString other := by
  have hall : ∀ a ∈ legacyFlagNames, ∀ b ∈ legacyFlagNames, a < b →
      Bytes.ofString a ≤ Bytes.ofString b := by
    decide
  exact hall name hname other hother h

/-- Legacy names are told apart by their bytes. -/
theorem eq_of_ofString_le {name other : String} (hname : name ∈ legacyFlagNames)
    (hother : other ∈ legacyFlagNames) (h : Bytes.ofString name ≤ Bytes.ofString other)
    (h' : Bytes.ofString other ≤ Bytes.ofString name) : name = other := by
  have hall : ∀ a ∈ legacyFlagNames, ∀ b ∈ legacyFlagNames,
      Bytes.ofString a ≤ Bytes.ofString b → Bytes.ofString b ≤ Bytes.ofString a → a = b := by
    decide
  exact hall name hname other hother h h'

end AttributeName

/-- At most one number is the first flag word of a map. -/
theorem AttributeMap.IsFirstFlagWord.unique {map : AttributeMap} {word other : UInt32}
    (h : map.IsFirstFlagWord word) (h' : map.IsFirstFlagWord other) : word = other := by
  obtain ⟨name, value, hkeeps, hword, hfirst⟩ := h
  obtain ⟨name', value', hkeeps', hother, hfirst'⟩ := h'
  obtain rfl := AttributeName.eq_of_ofString_le hkeeps.isLegacy hkeeps'.isLegacy
    (hfirst _ _ hkeeps') (hfirst' _ _ hkeeps)
  obtain rfl := Option.some.inj (hkeeps.get?_eq.symm.trans hkeeps'.get?_eq)
  exact UInt32.toNat_inj.1 (hword.trans hother.symm)

namespace Entry

variable {map : AttributeMap} {word : UInt32}

def bindingFlagWord? (binding : String × Bytes) : Option UInt32 :=
  if binding.1 ∈ AttributeName.legacyFlagNames then flagWord? binding.2 else none

theorem legacyFlagWord?_eq (map : AttributeMap) :
    legacyFlagWord? map = map.toList.findSome? bindingFlagWord? := rfl

/-- A binding holds a flag word if its name is a legacy one and its value has four bytes, read from
the lowest. -/
theorem bindingFlagWord?_eq_some_iff {binding : String × Bytes} :
    bindingFlagWord? binding = some word ↔
      binding.1 ∈ AttributeName.legacyFlagNames ∧ binding.2.length = 4 ∧
        word.toNat = binding.2.littleEndian := by
  rw [bindingFlagWord?, Option.ite_none_right_eq_some, flagWord?_eq_some_iff]

theorem exists_bindingFlagWord? {name : String} {value : Bytes}
    (h : map.KeepsFlagWord name value) : ∃ word, bindingFlagWord? (name, value) = some word := by
  obtain ⟨a, b, c, d, rfl⟩ := List.length_eq_four.1 h.length_eq
  exact ⟨_, if_pos h.isLegacy⟩

/-- No flag word is found where no legacy name has a value of four bytes. -/
theorem legacyFlagWord?_eq_none_iff :
    legacyFlagWord? map = none ↔ ∀ name value, ¬ map.KeepsFlagWord name value := by
  rw [legacyFlagWord?_eq, List.findSome?_eq_none_iff]
  constructor
  · intro hnone name value hkeeps
    obtain ⟨word, hword⟩ := exists_bindingFlagWord? hkeeps
    have hmissed := hnone (name, value) (AttributeMap.get?_eq_some_iff.1 hkeeps.get?_eq)
    rw [hword] at hmissed
    cases hmissed
  · rintro hnone ⟨name, value⟩ hbinding
    rw [Option.eq_none_iff_forall_ne_some]
    intro word hfound
    obtain ⟨hlegacy, hlength, -⟩ := bindingFlagWord?_eq_some_iff.1 hfound
    exact hnone name value ⟨hlegacy, AttributeMap.get?_eq_some_iff.2 hbinding, hlength⟩

/-- The flag word that is found is the first one. -/
theorem isFirstFlagWord_of_legacyFlagWord? (h : legacyFlagWord? map = some word) :
    map.IsFirstFlagWord word := by
  rw [legacyFlagWord?_eq] at h
  obtain ⟨earlier, ⟨name, value⟩, later, hlist, hfound, hmissed⟩ :=
    List.findSome?_eq_some_iff.1 h
  obtain ⟨hlegacy, hlength, hword⟩ := bindingFlagWord?_eq_some_iff.1 hfound
  have hbinding : (name, value) ∈ map.toList := by
    rw [hlist]
    exact List.mem_append_right _ List.mem_cons_self
  refine ⟨name, value, ⟨hlegacy, AttributeMap.get?_eq_some_iff.2 hbinding, hlength⟩, hword, ?_⟩
  intro other value' hkeeps
  have hother := AttributeMap.get?_eq_some_iff.1 hkeeps.get?_eq
  have hascending := map.ascending
  rw [hlist] at hother hascending
  -- The bindings in front of the one that was found keep no flag word, and those behind it have
  -- greater names.
  rcases List.mem_append.1 hother with hother | hother
  · obtain ⟨found, hfound⟩ := exists_bindingFlagWord? hkeeps
    have hnone := hmissed (other, value') hother
    rw [hfound] at hnone
    cases hnone
  · rcases List.mem_cons.1 hother with heq | hother
    · cases heq
      exact Std.le_refl _
    · have hlater := (List.pairwise_cons.1 (List.pairwise_append.1 hascending).2.1).1 _ hother
      exact AttributeName.ofString_le_of_lt hlegacy hkeeps.isLegacy hlater

/-- That word is the only one that is found. -/
theorem legacyFlagWord?_eq_some_iff :
    legacyFlagWord? map = some word ↔ map.IsFirstFlagWord word := by
  refine ⟨isFirstFlagWord_of_legacyFlagWord?, fun hfirst => ?_⟩
  cases hfound : legacyFlagWord? map with
  | none =>
    obtain ⟨name, value, hkeeps, -⟩ := hfirst
    exact absurd hkeeps (legacyFlagWord?_eq_none_iff.1 hfound name value)
  | some other =>
    rw [(isFirstFlagWord_of_legacyFlagWord? hfound).unique hfirst]

/-! ## Reserved names -/

/-- A flag word of the entry itself takes precedence over legacy ones. -/
theorem flags_normalizeReserved (entry : Entry) : entry.normalizeReserved.2.flags =
    entry.flags.or (legacyFlagWord? (entry.attributes.getD .empty)) := by
  unfold normalizeReserved
  cases entry.attributes with
  | none => exact Option.or_none.symm
  | some map => cases entry.flags <;> rfl

/-- Reserved attributes are removed, and a map that gets empty with them. -/
theorem attributes_normalizeReserved (entry : Entry) : entry.normalizeReserved.2.attributes =
    (entry.attributes.map (·.filter fun name => !AttributeName.isReserved name)).filter
      fun map => !map.isEmpty := by
  unfold normalizeReserved
  cases hattributes : entry.attributes with
  | none => exact hattributes
  | some map => rfl

end Entry

/-! ## Loading -/

namespace Record

/-- The attributes that a record holds, whatever their names are. -/
def storedMap (record : Record) : AttributeMap :=
  (record .attributes : Option AttributeMap).getD .empty

/-- What loading makes of the attributes and the flag word of a record. -/
structure Migrates (record : Record) (entry : Entry) : Prop where
  /-- The bindings of visible names are kept. -/
  get?_eq : ∀ name, (entry.attributes.getD .empty).get? name =
    if AttributeName.IsVisible name then record.storedMap.get? name else none
  isEmpty_eq : ∀ map, entry.attributes = some map → map.isEmpty = false
  /-- A flag word of its own goes before those among the attributes. -/
  flags_eq : ∀ flags, record .flags = some flags → entry.flags = some flags
  flags_eq_some_iff : record .flags = none →
    ∀ word, entry.flags = some word ↔ record.storedMap.IsFirstFlagWord word
  flags_eq_none_iff : record .flags = none →
    (entry.flags = none ↔ ∀ name value, ¬ record.storedMap.KeepsFlagWord name value)

theorem keepsFlagWord_erase {map : AttributeMap} {name : String} {value : Bytes} :
    (map.erase "").KeepsFlagWord name value ↔ map.KeepsFlagWord name value := by
  have hne : name ∈ AttributeName.legacyFlagNames → name ≠ "" := by
    rintro hlegacy rfl
    exact absurd hlegacy (by decide)
  constructor
  · rintro ⟨hlegacy, hget, hlength⟩
    rw [AttributeMap.get?_erase, if_neg (hne hlegacy)] at hget
    exact ⟨hlegacy, hget, hlength⟩
  · rintro ⟨hlegacy, hget, hlength⟩
    refine ⟨hlegacy, ?_, hlength⟩
    rwa [AttributeMap.get?_erase, if_neg (hne hlegacy)]

/-- The empty name keeps no flag word. -/
theorem legacyFlagWord?_erase (map : AttributeMap) :
    Entry.legacyFlagWord? (map.erase "") = Entry.legacyFlagWord? map := by
  refine Option.ext fun word => ?_
  rw [Entry.legacyFlagWord?_eq_some_iff, Entry.legacyFlagWord?_eq_some_iff]
  simp only [AttributeMap.IsFirstFlagWord, keepsFlagWord_erase]

/-- Loading drops the empty name before the reserved ones. -/
theorem exists_named (record : Record) : ∃ named : Entry,
    named.flags = record .flags ∧
      named.attributes = (record .attributes : Option AttributeMap).map (·.erase "") ∧
      record.toEntry =
        named.normalizeReserved.2.putAttributes named.normalizeReserved.2.attributes :=
  ⟨_, rfl, rfl, rfl⟩

/-- An entry made of a record has the flag word of its field, or else the first legacy one. -/
theorem flags_toEntry (record : Record) : record.toEntry.flags =
    (record .flags : Option UInt32).or (Entry.legacyFlagWord? record.storedMap) := by
  obtain ⟨named, hflags, hattributes, hentry⟩ := record.exists_named
  rw [hentry]
  show named.normalizeReserved.2.flags = _
  rw [Entry.flags_normalizeReserved, hflags, hattributes, storedMap]
  cases (record .attributes : Option AttributeMap) with
  | none => rfl
  | some map => exact congrArg _ (legacyFlagWord?_erase map)

/-- The bindings of visible names are kept. -/
theorem get?_toEntry (record : Record) (name : String) :
    (record.toEntry.attributes.getD .empty).get? name =
      if AttributeName.IsVisible name then record.storedMap.get? name else none := by
  obtain ⟨named, -, hattributes, hentry⟩ := record.exists_named
  rw [hentry]
  show ((named.normalizeReserved.2.attributes.filter fun map => !map.isEmpty).getD .empty).get?
    name = _
  rw [AttributeMap.getD_filter_isEmpty, Entry.attributes_normalizeReserved,
    AttributeMap.getD_filter_isEmpty, hattributes, storedMap]
  cases (record .attributes : Option AttributeMap) with
  | none => exact (ite_self _).symm
  | some map =>
    simp only [Option.map_some, Option.getD_some, AttributeMap.get?_filter,
      AttributeMap.get?_erase, AttributeName.IsVisible]
    by_cases hempty : name = ""
    · simp [hempty]
    · by_cases hreserved : AttributeName.isReserved name = true <;> simp [hempty, hreserved]

end Record

namespace Entry

/-- Loading a text keeps exactly the bindings of visible names. The flag word of a loaded entry is
that of the record if it has one, and otherwise the one under the least legacy name with a value of
four bytes, whatever is stored under lesser names. -/
theorem migrated_of_parse {text : String} {entry : Entry} (h : Entry.parse text = .ok entry) :
    ∃ record, Record.parse text = .ok record ∧ record.Migrates entry := by
  obtain ⟨record, hrecord, rfl⟩ := exists_record_of_parse h
  refine ⟨record, hrecord, ⟨record.get?_toEntry, fun map hmap => ?_, ?_, ?_, ?_⟩⟩
  · exact (record.wellFormed_toEntry map hmap).1
  · intro flags hflags
    rw [record.flags_toEntry, hflags, Option.some_or]
  · intro hflags word
    rw [record.flags_toEntry, hflags, Option.none_or, legacyFlagWord?_eq_some_iff]
  · intro hflags
    rw [record.flags_toEntry, hflags, Option.none_or, legacyFlagWord?_eq_none_iff]

/-- A file as an older version stored it: under the least legacy name is a value that is too short,
and words are under two others, next to an empty name and to a reserved one that held no word. -/
def crowdedFile : Entry :=
  { Entry.new [0x66] 0o100644 with
    attributes := some (.ofList [("", [9]), ("\x00B", [1]), ("\x00L", [16, 2, 0, 0]),
      ("\x00junk", [0, 0, 0, 0]), ("\x00lf", [32, 0, 0, 0]), ("user.x", [7])]) }

def tidiedFile : Entry :=
  { Entry.new [0x66] 0o100644 with
    attributes := some (.ofList [("user.x", [7])])
    flags := some 0x210 }

theorem parse_crowdedFile : Entry.parse crowdedFile.render = .ok tidiedFile := by
  rw [parse_render_eq]
  exact congrArg Except.ok (by decide)

theorem migrated_of_parse_crowdedFile :
    Entry.parse crowdedFile.render = .ok tidiedFile ∧
      (Record.ofEntry crowdedFile).storedMap.IsFirstFlagWord 0x210 ∧
      (tidiedFile.attributes.getD .empty).get? "user.x" =
        (Record.ofEntry crowdedFile).storedMap.get? "user.x" ∧
      (tidiedFile.attributes.getD .empty).get? "\x00junk" = none := by
  obtain ⟨record, hrecord, hmigrates⟩ := migrated_of_parse parse_crowdedFile
  obtain rfl : Record.ofEntry crowdedFile = record :=
    Except.ok.inj ((Record.parse_render (Record.ofEntry crowdedFile)).symm.trans hrecord)
  exact ⟨parse_crowdedFile, (hmigrates.flags_eq_some_iff rfl _).1 rfl,
    (hmigrates.get?_eq _).trans (if_pos (by decide)),
    (hmigrates.get?_eq _).trans (if_neg (by decide))⟩

end Entry

end TreeManifest
