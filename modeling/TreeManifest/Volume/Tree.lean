import TreeManifest.Volume

/-!
# Listing the objects of a volume

The objects below a directory are listed with their paths, every directory followed by what is in
it, and names in the order of their bytes.

## Main definitions

- `FoundObject`: a listed object.
- `Volume.objectsBelow`: the list.
-/

namespace TreeManifest

structure FoundObject where
  path : Path
  number : Nat
  object : VolumeObject
  /-- The path under which the object was listed before. -/
  earlier : Option Path := none

namespace Volume

/-- The names in a directory in the order of their bytes. -/
def sortedNames (volume : Volume) (directory : Nat) : List (Bytes × Nat) :=
  (volume.names directory).mergeSort fun a b => (compare a.1 b.1).isLE

/-- The objects at most `depth` levels below a directory with the given path. -/
def objectsWithin (volume : Volume) : (depth : Nat) → Path → Nat → List FoundObject
  | 0, _, _ => []
  | depth + 1, path, directory =>
    (volume.sortedNames directory).flatMap fun (name, number) =>
      match volume.object? number with
      | none => []
      | some object =>
        let inner := Path.child path name
        { path := inner, number, object } :: objectsWithin volume depth inner number

/-- Adds the earlier paths of objects that are listed again. `seen` are the objects so far. -/
def withEarlier (seen : List (Nat × Path)) : List FoundObject → List FoundObject
  | [] => []
  | found :: rest =>
    match seen.lookup found.number with
    | some path => { found with earlier := some path } :: withEarlier seen rest
    | none => found :: withEarlier ((found.number, found.path) :: seen) rest

/-- The objects below a directory. No path has more levels than there are objects. -/
def objectsBelow (volume : Volume) (directory : Nat) : List FoundObject :=
  withEarlier [] (volume.objectsWithin volume.next [] directory)

end Volume

end TreeManifest
