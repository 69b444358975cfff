import TreeManifest.Entry.Attributes

/-!
# Records

A record is the stored form of an entry: twelve named fields, of which four may be left out. The
identity of the object is not stored. An entry made from a record is brought into the form that the
other operations keep, so records of any age can be loaded.

## Main definitions

- `Record.Field`: the fields, with their names and the types of their values.
- `Record`: a value for every field.
- `Record.Draft`: values for some fields.
- `Record.ofEntry`, `Record.toEntry`: passage between entries and records.
-/

namespace TreeManifest

namespace Record

inductive Field where
  | path
  | size
  | modTime
  | mode
  | uid
  | gid
  | attributes
  | flags
  | startChunk
  | startOffset
  | link
  | role
  deriving DecidableEq

namespace Field

/-- The fields in the order in which they are written. -/
def all : List Field :=
  [.path, .size, .modTime, .mode, .uid, .gid, .attributes, .flags, .startChunk, .startOffset, .link,
    .role]

def name : Field → String
  | .path => "path"
  | .size => "size"
  | .modTime => "mod_time"
  | .mode => "mode"
  | .uid => "uid"
  | .gid => "gid"
  | .attributes => "attributes"
  | .flags => "platform_flags"
  | .startChunk => "start_chunk"
  | .startOffset => "start_offset"
  | .link => "link"
  | .role => "hardlink"

def ofName? (name : String) : Option Field := all.find? (·.name == name)

abbrev Value : Field → Type
  | .path => Bytes
  | .size => UInt64
  | .mode => UInt32
  | .attributes => Option AttributeMap
  | .flags => Option UInt32
  | .link => Option Bytes
  | .role => HardlinkRole
  | .modTime | .uid | .gid | .startChunk | .startOffset => Int64

/-- The value of a field that may be left out. -/
def default? : (field : Field) → Option field.Value
  | .attributes => some (none : Option AttributeMap)
  | .flags => some (none : Option UInt32)
  | .link => some (none : Option Bytes)
  | .role => some HardlinkRole.none
  | .path | .size | .modTime | .mode | .uid | .gid | .startChunk | .startOffset => none

theorem mem_all (field : Field) : field ∈ all := by
  cases field <;> decide

end Field

/-- Values for some fields. -/
abbrev Draft := (field : Field) → Option field.Value

namespace Draft

/-- The draft without values. -/
def empty : Draft := fun _ => none

def set (draft : Draft) (field : Field) (value : field.Value) : Draft := fun other =>
  if h : field = other then some (h ▸ value) else draft other

/-- The value of a field, which may be the one that stands in when it is left out. -/
def value? (draft : Draft) (field : Field) : Option field.Value :=
  draft field <|> field.default?

end Draft

end Record

/-- A value for every field. -/
abbrev Record := (field : Record.Field) → field.Value

namespace Record

/-- The record of a complete draft, or the first field that lacks a value. -/
def ofDraft (draft : Draft) : Except Field Record :=
  match h : Field.all.find? fun field => (draft.value? field).isNone with
  | some field => .error field
  | none => .ok fun field =>
    (draft.value? field).get (by
      have := List.find?_eq_none.1 h field field.mem_all
      simpa [Option.isSome_iff_ne_none] using this)

def ofEntry (entry : Entry) : Record
  | .path => entry.path
  | .size => entry.size
  | .modTime => entry.modTime
  | .mode => entry.mode
  | .uid => entry.uid
  | .gid => entry.gid
  | .attributes => entry.attributes
  | .flags => entry.flags
  | .startChunk => entry.startChunk
  | .startOffset => entry.startOffset
  | .link => entry.link
  | .role => entry.role

/-- The entry with the values of a record as they are. -/
def rawEntry (record : Record) : Entry where
  path := record .path
  size := record .size
  modTime := record .modTime
  mode := record .mode
  uid := record .uid
  gid := record .gid
  attributes := record .attributes
  flags := record .flags
  startChunk := record .startChunk
  startOffset := record .startOffset
  link := record .link
  role := record .role
  identity := none

/-- The path of a directory without one trailing slash, unless nothing else is left. -/
def trimDirectoryPath (entry : Entry) : Path :=
  if entry.isDirectory ∧ entry.path.length > 1 ∧ entry.path.getLast? = some Bytes.slash then
    entry.path.dropLast
  else entry.path

/-- The entry of a record: a directory loses one trailing slash, the empty name and the reserved
names are dropped from the attributes, and a flag word among them moves to its own field. -/
def toEntry (record : Record) : Entry :=
  let entry : Entry := rawEntry record
  let named := { entry with
    path := trimDirectoryPath entry
    attributes := entry.attributes.map (AttributeMap.erase · "") }
  let normal := named.normalizeReserved.2
  normal.putAttributes normal.attributes

end Record

end TreeManifest
