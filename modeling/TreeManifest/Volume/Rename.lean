import TreeManifest.Volume.Change

/-!
# Taking names away

A name can be removed or moved to another place. An object whose last name is gone can no longer be
found.

## Main definitions

- `Caller.removeFile`: removes a name of something that is no directory.
- `Caller.rename`: moves a name, in place of one that exists already.
-/

namespace TreeManifest.Caller

def checkRemoval (caller : Caller) (volume : Volume) (directory : Nat) (object : VolumeObject) :
    Except Errno Unit := do
  caller.checkNaming volume directory
  let isProtected := (volume.object? directory).any fun above =>
    above.permissions &&& sticky != 0 && !caller.owns above && !caller.owns object
  if isProtected ∨ object.isFrozen then .error .eperm

def unlinkName (volume : Volume) (directory : Nat) (name : Bytes) (number : Nat) : Volume :=
  let others := (volume.names directory).filter fun (other, _) => other != name
  (volume.setNames directory others).update number fun object =>
    { object with linkCount := object.linkCount - 1 }

/-- The place of a path that names an existing object. -/
def usedPlace (caller : Caller) (volume : Volume) (path : Path) :
    Except Errno (Place × Nat × VolumeObject) := do
  let place ← (caller.place volume path).mapError fun errno =>
    if errno = .eexist then .ebusy else errno
  match place.existing with
  | none => .error .enoent
  | some number =>
    match volume.object? number with
    | none => .error .enoent
    | some object =>
      if place.asDirectory && !object.isDirectory then .error .enotdir
      else return (place, number, object)

/-- Removes a name of something that is no directory. -/
def removeFile (caller : Caller) (path : Path) : Change Unit := fun volume => do
  let (place, number, object) ← caller.usedPlace volume path
  caller.checkRemoval volume place.directory object
  if object.isDirectory then .error .eisdir
  else return ((), unlinkName volume place.directory place.name number)

/-- Whether a directory is another one or lies below it. At most `steps` directories are visited on
the way up. -/
def isWithin (volume : Volume) (outer : Nat) : (steps here : Nat) → Bool
  | 0, here => here == outer
  | steps + 1, here =>
    here == outer ||
      match (volume.object? here).map VolumeObject.body with
      | some (.directory _ parent) => parent != here && isWithin volume outer steps parent
      | _ => false

def checkReplacement (moved replaced : VolumeObject) : Except Errno Unit :=
  if moved.isDirectory then
    if !replaced.isDirectory then .error .enotdir
    else if !replaced.names.isEmpty then .error .enotempty
    else .ok ()
  else if replaced.isDirectory then .error .eisdir
  else .ok ()

/-- Puts a directory below another one. -/
def adopt (volume : Volume) (old new number : Nat) : Volume :=
  let volume := volume.update old fun above => { above with linkCount := above.linkCount - 1 }
  let volume := volume.update new fun above => { above with linkCount := above.linkCount + 1 }
  volume.update number fun object =>
    match object.body with
    | .directory names _ => { object with body := .directory names new }
    | _ => object

/-- Moves a name. An object that has the new name already loses it. -/
def rename (caller : Caller) (path target : Path) : Change Unit := fun volume => do
  let (source, number, object) ← caller.usedPlace volume path
  let goal ← caller.place volume target
  caller.checkRemoval volume source.directory object
  caller.checkNaming volume goal.directory
  if goal.existing = some number then return ((), volume)
  if object.isDirectory && isWithin volume number volume.next goal.directory then .error .einval
  if goal.asDirectory && !object.isDirectory then .error .enotdir
  let volume ←
    match goal.existing with
    | none => pure volume
    | some other =>
      match volume.object? other with
      | none => pure volume
      | some replaced => do
        checkReplacement object replaced
        caller.checkRemoval volume goal.directory replaced
        let volume := unlinkName volume goal.directory goal.name other
        pure (if replaced.isDirectory then
          volume.update goal.directory fun above => { above with linkCount := above.linkCount - 1 }
        else volume)
  let volume := unlinkName volume source.directory source.name number
  let volume := volume.update number fun object => { object with linkCount := object.linkCount + 1 }
  let volume := linkName volume goal.directory goal.name number
  return ((), if object.isDirectory then adopt volume source.directory goal.directory number
    else volume)

end TreeManifest.Caller
