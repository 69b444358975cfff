import TreeManifest.Manifest
import TreeManifest.System

/-!
# Looking at a manifest

A manifest answers the questions of a snapshot: it says which objects there are and what is known
about them. Paths are taken below the top of the tree that the manifest describes, and no symlink is
followed.

## Main definitions

- `Manifest.locate?`: the place of a path in a manifest.
- `Manifest.object`: the entry that holds the metadata of an entry.
- `Manifest.view`: the snapshot.

## Design notes

The identity of an object is the place of its canonical entry, so the further names of an object
share it.
-/

namespace TreeManifest.Manifest

/-- The number of the device that a manifest stands for. -/
def deviceNumber : UInt64 := 1

/-- The names on the way to a path. -/
def namesOf (path : Path) : List Bytes := (Path.components path).filter (· != Path.dot)

/-- The place of a path among the entries, with its entry. -/
def locate? (entries : List Entry) (path : Path) : Option (Nat × Entry) :=
  (entries.zipIdx.find? fun (entry, _) => namesOf entry.path == namesOf path).map
    fun (entry, place) => (place, entry)

/-- The entry that holds the metadata of an entry, with its place: the canonical one for a further
name. -/
def object (entries : List Entry) (located : Nat × Entry) : Nat × Entry :=
  match located.2.role, located.2.link with
  | .linkTo, some canonical => (locate? entries canonical).getD located
  | _, _ => located

/-- The object of a path. The top of the tree needs no entry. -/
def find (entries : List Entry) (path : Path) : Except Errno (Nat × Entry) :=
  match locate? entries path with
  | some located => .ok (object entries located)
  | none => if (namesOf path).isEmpty then .ok (entries.length, Entry.root) else .error .enoent

def linkCount (entries : List Entry) (entry : Entry) : Nat :=
  1 + entries.countP fun other =>
    other.role = .linkTo ∧ other.link.map namesOf = some (namesOf entry.path)

/-- The owner or group of an object, where an unknown one counts as the first. -/
def ownerNumber (id : Int64) : UInt32 := if id < 0 then 0 else id.toUInt64.toUInt32

def statOf (entries : List Entry) (place : Nat) (entry : Entry) : Stat where
  mode := entry.mode
  size := entry.size
  modTime := entry.modTime
  uid := ownerNumber entry.uid
  gid := ownerNumber entry.gid
  linkCount := UInt64.ofNat (linkCount entries entry)
  rawDevice := (entry.device?.map Device.toRaw).getD 0
  identity := ⟨deviceNumber, UInt64.ofNat place⟩

def stat (entries : List Entry) (path : Path) : Except Errno Stat := do
  let (place, entry) ← find entries path
  return statOf entries place entry

def children (entries : List Entry) (path : Path) : List Bytes :=
  entries.filterMap fun entry =>
    let names := namesOf entry.path
    if names.dropLast = namesOf path then names.getLast? else none

def view (entries : List Entry) : Snapshot where
  stat path := ((do
    let stat ← stat entries path
    if stat.kind = .symlink then .error .eloop
    return stat) : Except Errno Stat).mapError .os
  lstat path := (stat entries path).mapError .os
  readLink path := ((do
    let (_, entry) ← find entries path
    match entry.link with
    | some target => if entry.kind = .symlink then return target else .error .einval
    | none => .error .einval) : Except Errno Bytes).mapError .os
  readDirectory path := ((do
    let (_, entry) ← find entries path
    if entry.isDirectory then return (children entries path).map .ok
    else .error .enotdir) : Except Errno (List (Except IoError Bytes))).mapError .os
  attributeNames path := ((do
    let (_, entry) ← find entries path
    return (entry.attributes.getD .empty).keys.map .text) :
      Except Errno (List AttributeLabel)).mapError .os
  attributeValue path name := ((do
    let (_, entry) ← find entries path
    return entry.attribute? name) : Except Errno (Option Bytes)).mapError .os
  openObject path mode := ((do
    let (place, entry) ← find entries path
    if mode.directory ∧ !entry.isDirectory then .error .enotdir
    else if entry.kind = .symlink then .error .eloop
    else return ⟨place⟩) : Except Errno Handle).mapError .os
  flagWord handle :=
    match entries[handle.number]? with
    | none => .ok 0
    | some entry =>
      if entry.kind.hasFlagWord then .ok (entry.flags.getD 0) else .error (.os .enotty)

end TreeManifest.Manifest
