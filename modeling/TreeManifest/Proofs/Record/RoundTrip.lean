import TreeManifest.Proofs.Record.Forms

/-!
# Stored entries are loaded again

The written form of a record is read as that record, and loading changes nothing about an entry that
the other operations keep, except that its identity is not stored.

## Main definitions

- `Entry.stored`: an entry after it was written and loaded again.

## Main statements

- `Record.parse_render`: a written record is read back.
- `Record.toEntry_ofEntry`: loading leaves a well-formed entry alone.
- `Entry.parse_render_ofWellFormed`: the round trip of entries.
-/

namespace TreeManifest

namespace Record

variable {ι : Type} {text : List Char}

/-! ## Written forms -/

theorem bracketed_map {opening closing : Char} {Form : ι → List Char → Prop}
    {write : ι → List Char} {items : List ι} (h : ∀ item ∈ items, Form item (write item)) :
    Bracketed opening closing Form items (opening :: separate (items.map write) ++ [closing]) :=
  bracketed_separate (List.forall₂_map_right_iff.2 (List.forall₂_same.2 h))

theorem writesBytes_writeBytes (bytes : Bytes) : WritesBytes bytes (writeBytes bytes) :=
  bracketed_map fun _ _ => Json.padded_self rfl

theorem member_writeBinding (binding : String × Bytes) :
    Member binding.1 (WritesBytes binding.2) (writeBinding binding) :=
  member_quote binding.1 (writesBytes_writeBytes binding.2)

theorem writesAttributes_writeAttributes (map : AttributeMap) :
    WritesAttributes map (writeAttributes map) :=
  ⟨map.toList, .refl _, bracketed_map fun binding _ => member_writeBinding binding⟩

/-- The written form of a value is one of the texts that write it. -/
theorem writes_of_write? {field : Field} {value : field.Value} (h : field.write? value = some text) :
    field.Writes value text := by
  cases field with
  | path => cases h; exact writesBytes_writeBytes value
  | attributes =>
    obtain ⟨map, rfl, rfl⟩ := Option.map_eq_some_iff.1 h
    exact writesAttributes_writeAttributes map
  | flags =>
    obtain ⟨word, rfl, rfl⟩ := Option.map_eq_some_iff.1 h
    exact rfl
  | link =>
    obtain ⟨bytes, rfl, rfl⟩ := Option.map_eq_some_iff.1 h
    exact writesBytes_writeBytes bytes
  | role => cases h; exact .inl (Json.writesText_quote _)
  | _ => cases h; exact rfl

/-- A field is left out only where it may be. -/
theorem mayBeOmitted_of_write?_eq_none {field : Field} {value : field.Value}
    (h : field.write? value = none) : field.MayBeOmitted value := by
  cases field with
  | attributes => exact Option.map_eq_none_iff.1 h
  | flags => exact Option.map_eq_none_iff.1 h
  | link => exact Option.map_eq_none_iff.1 h
  | _ => cases h

/-- The written members are those of the fields that may not be left out. -/
theorem exists_members (record : Record) (fields : List Field) :
    ∃ members, List.Forall₂ record.Named members (fields.filterMap record.member?) ∧
      members.reduceOption.Sublist fields ∧
        ∀ field ∈ fields, some field ∉ members → field.MayBeOmitted (record field) := by
  induction fields with
  | nil => exact ⟨[], .nil, .slnil, nofun⟩
  | cons field fields ih =>
    obtain ⟨members, hnamed, hsublist, homitted⟩ := ih
    cases hwrite : field.write? (record field) with
    | none =>
      have hmember : record.member? field = none := by
        rw [member?, hwrite]
        rfl
      refine ⟨members, ?_, hsublist.cons field, List.forall_mem_cons.2
        ⟨fun _ => mayBeOmitted_of_write?_eq_none hwrite, homitted⟩⟩
      rwa [List.filterMap_cons_none hmember]
    | some value =>
      have hmember : record.member? field = some (Json.quote field.name ++ ':' :: value) := by
        rw [member?, hwrite]
        rfl
      refine ⟨some field :: members, ?_, hsublist.cons_cons field, List.forall_mem_cons.2
        ⟨fun hnot => absurd List.mem_cons_self hnot, fun other hother hnot =>
          homitted other hother fun hmem => hnot (List.mem_cons_of_mem _ hmem)⟩⟩
      rw [List.filterMap_cons_some hmember]
      exact .cons (member_quote field.name (writes_of_write? hwrite)) hnamed

/-- The text of a record is one of its spellings. -/
theorem isSpelling_render (record : Record) : record.IsSpelling record.render := by
  obtain ⟨members, hnamed, hsublist, homitted⟩ := record.exists_members Field.all
  rw [IsSpelling, render, String.toList_ofList]
  exact Json.padded_self (.inl ⟨members, hsublist.nodup (by decide),
    fun field => homitted field field.mem_all, bracketed_separate hnamed⟩)

/-- A written record is read back, and nothing is left over. -/
theorem parse_render (record : Record) : parse record.render = .ok record :=
  parse_of_isSpelling (isSpelling_render record)

/-! ## Loading -/

/-- A path without a trailing slash is kept. -/
theorem trimDirectoryPath_eq_self {entry : Entry}
    (h : entry.isDirectory = true →
      entry.path.length ≤ 1 ∨ entry.path.getLast? ≠ some Bytes.slash) :
    trimDirectoryPath entry = entry.path := by
  unfold trimDirectoryPath
  rw [if_neg]
  rintro ⟨hdirectory, hlength, hslash⟩
  rcases h hdirectory with hshort | hlast
  · omega
  · exact hlast hslash

end Record

namespace AttributeMap

theorem filter_eq_self {map : AttributeMap} {keep : String → Bool}
    (h : ∀ name ∈ map.keys, keep name = true) : map.filter keep = map := by
  apply ext_get?
  intro name
  rw [get?_filter]
  split
  · rfl
  · next hkeep =>
    have hcontains : ¬ map.contains name = true := fun hname =>
      hkeep (h name (contains_iff.1 hname))
    rw [contains, Option.not_isSome_iff_eq_none] at hcontains
    exact hcontains.symm

theorem mem_keys_of_mem_toList {map : AttributeMap} {binding : String × Bytes}
    (h : binding ∈ map.toList) : binding.1 ∈ map.keys :=
  List.mem_map_of_mem h

end AttributeMap

namespace Entry

/-- Legacy names are reserved. -/
theorem isReserved_of_mem_legacyFlagNames {name : String}
    (h : name ∈ AttributeName.legacyFlagNames) : AttributeName.isReserved name = true := by
  have hall : ∀ name ∈ AttributeName.legacyFlagNames, AttributeName.isReserved name = true := by
    decide
  exact hall name h

/-- No flag word hides among visible names. -/
theorem legacyFlagWord?_eq_none {map : AttributeMap}
    (h : ∀ name ∈ map.keys, AttributeName.IsVisible name) : legacyFlagWord? map = none := by
  rw [legacyFlagWord?, List.findSome?_eq_none_iff]
  intro binding hbinding
  have hvisible := h binding.1 (AttributeMap.mem_keys_of_mem_toList hbinding)
  refine if_neg fun hlegacy => ?_
  have hreserved := isReserved_of_mem_legacyFlagNames hlegacy
  rw [hvisible.2] at hreserved
  exact Bool.false_ne_true hreserved

/-- Normalisation finds nothing to do in an entry whose names are visible. -/
theorem normalizeReserved_eq_self {entry : Entry} (h : entry.WellFormed) :
    entry.normalizeReserved.2 = entry := by
  unfold normalizeReserved
  split
  · rfl
  · next map hmap =>
    obtain ⟨hbound, hvisible⟩ := h map hmap
    have hkept : (map.filter fun name => !AttributeName.isReserved name) = map := by
      apply AttributeMap.filter_eq_self
      intro name hname
      rw [(hvisible name hname).2]
      rfl
    rw [hkept, legacyFlagWord?_eq_none hvisible]
    cases entry
    simp_all [putAttributes]

/-- Putting its own map into a well-formed entry changes nothing. -/
theorem putAttributes_eq_self {entry : Entry} (h : entry.WellFormed) :
    entry.putAttributes entry.attributes = entry := by
  have hattributes : (entry.attributes.filter fun map => !map.isEmpty) = entry.attributes := by
    cases hmap : entry.attributes with
    | none => rfl
    | some map =>
      rw [Option.filter_some, (h map hmap).1]
      rfl
  rw [putAttributes, hattributes]

/-- The empty name is not bound in a well-formed entry. -/
theorem map_erase_eq_self {entry : Entry} (h : entry.WellFormed) :
    entry.attributes.map (AttributeMap.erase · "") = entry.attributes := by
  cases hmap : entry.attributes with
  | none => rfl
  | some map =>
    have herase : map.erase "" = map := by
      apply AttributeMap.filter_eq_self
      intro name hname
      exact bne_iff_ne.2 ((h map hmap).2 name hname).1
    rw [Option.map_some, herase]

end Entry

/-- Loading takes one slash from the path of a directory, and nothing else from an entry that is
well-formed already. -/
theorem Record.toEntry_of_wellFormed {record : Record} (hwf : record.rawEntry.WellFormed) :
    record.toEntry = { record.rawEntry with path := trimDirectoryPath record.rawEntry } := by
  have htrimmed : { record.rawEntry with
      path := trimDirectoryPath record.rawEntry }.WellFormed := hwf
  unfold Record.toEntry
  dsimp only
  rw [Entry.map_erase_eq_self hwf, Entry.normalizeReserved_eq_self htrimmed,
    Entry.putAttributes_eq_self htrimmed]

/-- Loading leaves the entry of a record alone when it is well-formed already. -/
theorem Record.toEntry_eq_rawEntry {record : Record} (hwf : record.rawEntry.WellFormed)
    (hpath : record.rawEntry.isDirectory = true →
      record.rawEntry.path.length ≤ 1 ∨ record.rawEntry.path.getLast? ≠ some Bytes.slash) :
    record.toEntry = record.rawEntry := by
  rw [toEntry_of_wellFormed hwf, trimDirectoryPath_eq_self hpath]

/-- A written entry is read as its record and loaded. -/
theorem Entry.parse_render_eq (entry : Entry) :
    Entry.parse entry.render = .ok (Record.ofEntry entry).toEntry := by
  rw [Entry.parse, Entry.render, Record.parse_render]
  rfl

/-- A well-formed entry loses its identity on the way, and a directory one slash of its path. -/
theorem Entry.parse_render_trimmed {entry : Entry} (hwf : entry.WellFormed) :
    Entry.parse entry.render =
      .ok { entry with path := Record.trimDirectoryPath entry, identity := none } := by
  have hraw : (Record.ofEntry entry).rawEntry.WellFormed := hwf
  rw [Entry.parse_render_eq, Record.toEntry_of_wellFormed hraw]
  rfl

namespace Entry

/-- An entry after it was written and loaded again. -/
def stored (entry : Entry) : Entry :=
  { entry with path := Record.trimDirectoryPath entry, identity := none }

/-- A well-formed entry is read back as it is stored. -/
theorem parse_render_stored {entry : Entry} (h : entry.WellFormed) :
    Entry.parse entry.render = .ok entry.stored :=
  parse_render_trimmed h

/-- All written entries of a list are loaded. -/
theorem mapM_parse_render {entries : List Entry} (h : ∀ entry ∈ entries, entry.WellFormed) :
    entries.mapM (fun entry => Entry.parse entry.render) = .ok (entries.map stored) := by
  induction entries with
  | nil => rfl
  | cons entry rest ih =>
    obtain ⟨hentry, hrest⟩ := List.forall_mem_cons.1 h
    rw [List.mapM_cons, parse_render_stored hentry, ih hrest]
    rfl

end Entry

/-- A well-formed entry that is written as text is read back with every field but its identity. The
path of a directory must not end in a slash that loading would remove; all other bytes, names and
numbers are arbitrary. -/
theorem Entry.parse_render_ofWellFormed {entry : Entry} (hwf : entry.WellFormed)
    (hpath : entry.isDirectory = true →
      entry.path.length ≤ 1 ∨ entry.path.getLast? ≠ some Bytes.slash) :
    Entry.parse entry.render = .ok { entry with identity := none } := by
  have hload : (Record.ofEntry entry).toEntry = { entry with identity := none } :=
    Record.toEntry_eq_rawEntry hwf hpath
  rw [Entry.parse_render_eq, hload]

/-- The round trip at a directory with the extreme values of the integers, an attribute name that
needs escapes and an identity that is forgotten. -/
theorem Entry.parse_render_extreme_directory :
    let entry : Entry :=
      { Entry.new [0x61, 0xff, 0x2f, 0x22] 0o40755 with
        size := 18446744073709551615
        modTime := Int64.minValue
        uid := Int64.maxValue
        gid := -1
        attributes := some (.ofList [("user.\"\n\x01é😀", [0, 255])])
        flags := some 4294967295
        link := some []
        role := .canonical
        identity := some ⟨1, 2⟩ }
    Entry.parse entry.render = .ok { entry with identity := none } := by
  intro entry
  refine @Entry.parse_render_ofWellFormed entry ?_ fun _ => .inr (by decide)
  intro map hmap
  cases hmap
  constructor
  · rfl
  · decide

end TreeManifest
