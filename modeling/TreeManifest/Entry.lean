import TreeManifest.AttributeMap
import TreeManifest.AttributeName
import TreeManifest.Device
import TreeManifest.FileKind
import TreeManifest.Path
import TreeManifest.Text.Utf8

/-!
# Entries

An entry is the captured metadata of one filesystem object: where it was found, what kind of object
it is, and what is needed to make it again.

## Main definitions

- `ObjectId`: the device and inode number that tell one object from another.
- `HardlinkRole`: the part of an entry in a group of names for one object.
- `Entry`: the captured metadata.
- `Entry.fullPath`: the location of an entry below a root.

## Design notes

The path is relative to the root of a walk, with components separated by single slashes, but every
operation accepts arbitrary bytes. An entry is a directory when the type bits of its mode say so.
Entries that are built by the operations of this library keep `Entry.WellFormed`: the attribute map
is absent or it has a binding, and it binds visible names only.
-/

namespace TreeManifest

/-- The device and inode number of an object: equal for two names of one object. -/
structure ObjectId where
  device : UInt64
  inode : UInt64
  deriving DecidableEq, Inhabited

/-- The part of an entry in a group of names that share one object. -/
inductive HardlinkRole where
  /-- The entry belongs to no group. -/
  | none
  /-- The entry whose content and metadata are captured. -/
  | canonical
  /-- A further name of the object whose canonical path is in the link field. -/
  | linkTo
  deriving DecidableEq, Inhabited

/-- The captured metadata of one filesystem object. -/
structure Entry where
  /-- The path relative to the root of the walk. -/
  path : Bytes
  /-- The length of the content: zero except for regular files and symlinks. -/
  size : UInt64
  modTime : Int64
  /-- The kind of the object and its permissions. -/
  mode : UInt32
  /-- The owner, or `-1` when it is not known. -/
  uid : Int64
  /-- The group, or `-1` when it is not known. -/
  gid : Int64
  attributes : Option AttributeMap
  flags : Option UInt32
  /-- The first payload word: the major number of a device. -/
  startChunk : Int64
  /-- The second payload word: the minor number of a device. -/
  startOffset : Int64
  /-- The target of a symlink, or the canonical path of a further name. -/
  link : Option Bytes
  /-- The part of the entry in a group of names for one object. -/
  role : HardlinkRole
  /-- The identity of the captured object, known while a walk is in progress. -/
  identity : Option ObjectId
  deriving DecidableEq

namespace Entry

/-- The owner or group that is not known. -/
def unknownId : Int64 := -1

/-- An entry of which only the path and the mode are known. -/
def new (path : Bytes) (mode : UInt32) : Entry where
  path
  size := 0
  modTime := 0
  mode
  uid := unknownId
  gid := unknownId
  attributes := none
  flags := none
  startChunk := 0
  startOffset := 0
  link := none
  role := .none
  identity := none

/-- The entry that stands for the root of a walk: an empty path and a directory mode. -/
def root : Entry := new [] (FileKind.directory.typeBits ||| 0o755)

instance : Inhabited Entry := ⟨root⟩

def kind (entry : Entry) : FileKind := .ofMode entry.mode

def isDirectory (entry : Entry) : Bool := entry.kind == .directory

/-- Whether the entry stands for the root of a walk. -/
def isRoot (entry : Entry) : Bool := entry.path.isEmpty

def permissions (entry : Entry) : UInt32 := entry.mode &&& FileKind.permissionMask

/-- The last component of the path. -/
def name (entry : Entry) : Bytes := Path.fileName entry.path

/-- The path as text, for messages. -/
def displayPath (entry : Entry) : String := Utf8.lossy entry.path

/-- The location of the entry below a root. -/
def fullPath (entry : Entry) (root : Path) : Path :=
  if entry.path.isEmpty then root else Path.join root entry.path

/-- The number of a device entry. -/
def device? (entry : Entry) : Option Device :=
  if entry.kind.isDevice then some (.ofPayload entry.startChunk entry.startOffset) else none

def attribute? (entry : Entry) (name : String) : Option Bytes :=
  entry.attributes.bind (·.get? name)

/-- The rule for attribute maps: there is no map without bindings, and every name is visible. -/
def WellFormed (entry : Entry) : Prop :=
  ∀ map, entry.attributes = some map →
    map.isEmpty = false ∧ ∀ name ∈ map.keys, AttributeName.IsVisible name

theorem wellFormed_new (path : Bytes) (mode : UInt32) : (new path mode).WellFormed := by
  intro map h
  simp [new] at h

theorem wellFormed_root : root.WellFormed := wellFormed_new _ _

theorem WellFormed.isVisible {entry : Entry} (h : entry.WellFormed) {name : String}
    (hname : name ∈ (entry.attributes.getD .empty).keys) : AttributeName.IsVisible name := by
  cases hmap : entry.attributes with
  | none =>
    rw [hmap] at hname
    cases hname
  | some map =>
    rw [hmap] at hname
    exact (h map hmap).2 name hname

end Entry

end TreeManifest
