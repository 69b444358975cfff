import TreeManifest.Volume.Change

/-!
# Blueprints

A blueprint describes an object that is to be made in a volume, with all of its metadata. Blueprints
are built in order; the times come last, since making an object changes the time of its directory.

## Main definitions

- `Blueprint`: the description.
- `Caller.build`: makes the described objects.
-/

namespace TreeManifest

/-- What a blueprint makes. -/
inductive BlueprintBody where
  /-- A file. An existing one is written anew. -/
  | file (content : Bytes)
  /-- A directory. An existing one is used. -/
  | directory
  | symlink (target : Bytes)
  | hardLink (existing : Path)
  | special (kind : FileKind) (device : Device)
  /-- Nested directories of one name below an existing one, and an empty file in the innermost. -/
  | chain (name : Bytes) (depth : Nat)

structure Blueprint where
  path : Path
  body : BlueprintBody
  /-- The permissions, if they are not the usual ones. -/
  permissions : Option UInt32 := none
  uid : UInt32 := Caller.keepId
  gid : UInt32 := Caller.keepId
  attributes : List (String × Bytes) := []
  modTime : Option Int64 := none
  /-- Whether the object is one that has no flag word, as on some other filesystem. -/
  lacksFlags : Bool := false

namespace Caller

def usualPermissions : UInt32 := 0o644

def usualDirectoryPermissions : UInt32 := 0o755

/-- The name of the file at the end of a chain. -/
def leaf : Bytes := Bytes.ofString "leaf"

def isTaken (caller : Caller) (path : Path) : Change Bool := fun volume =>
  .ok ((caller.resolve volume false path).toOption.isSome, volume)

/-- Makes nested directories in the working directory of a caller, with a file in the innermost
one. -/
def makeChain (caller : Caller) (name : Bytes) : Nat → Change Unit
  | 0 => do
    let _ ← caller.openForWriting leaf
    caller.changePermissions leaf usualPermissions
    caller.changeTime leaf 0
  | depth + 1 => do
    caller.makeDirectory name usualDirectoryPermissions
    match (← get).child? caller.home name with
    | none => throw .enoent
    | some inner =>
      makeChain { caller with home := inner } name depth
      caller.changeTime name 0

/-- Makes the object of a blueprint. Returns the permissions that it gets. -/
def makeBody (caller : Caller) (path : Path) : BlueprintBody → Change (Option UInt32)
  | .file content => do
    let isThere ← caller.isTaken path
    let handle ← caller.openForWriting path
    caller.write handle content
    return if isThere then none else some usualPermissions
  | .directory => do
    if ← caller.isTaken path then return none
    caller.makeDirectory path usualDirectoryPermissions
    return some usualDirectoryPermissions
  | .symlink target => do
    caller.makeSymlink target path
    return none
  | .hardLink existing => do
    caller.makeLink existing path
    return none
  | .special kind device => do
    caller.makeNode path kind usualPermissions device
    return some usualPermissions
  | .chain name depth => do
    let home ← caller.resolve (← get) true path
    makeChain { caller with home } name depth
    return none

/-- Takes the flag word away from the object of a path. -/
def dropFlags (caller : Caller) (path : Path) : Change Unit := fun volume => do
  let number ← caller.resolve volume false path
  return ((), volume.update number fun object => { object with flagWord := none })

/-- Makes the object of a blueprint and applies its metadata, but for the time. -/
def make (caller : Caller) (blueprint : Blueprint) : Change Unit := do
  let permissions ← caller.makeBody blueprint.path blueprint.body
  if blueprint.uid ≠ keepId ∨ blueprint.gid ≠ keepId then
    caller.changeOwner blueprint.path blueprint.uid blueprint.gid
  match blueprint.permissions <|> permissions with
  | some permissions => caller.changePermissions blueprint.path permissions
  | none => pure ()
  blueprint.attributes.forM fun (name, value) =>
    caller.setAttribute blueprint.path name value
  if blueprint.lacksFlags then caller.dropFlags blueprint.path

def build (caller : Caller) (blueprints : List Blueprint) : Change Unit := do
  blueprints.forM caller.make
  blueprints.forM fun blueprint => do
    match blueprint.modTime with
    | some time => caller.changeTime blueprint.path time
    | none => pure ()

end Caller

end TreeManifest
