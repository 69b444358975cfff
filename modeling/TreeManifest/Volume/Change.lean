import TreeManifest.Volume.View

/-!
# Changing a volume

The calls by which a caller changes a volume. A call that is refused leaves the volume as it is.

## Main definitions

- `Change`: what can be done to a volume.
- `Caller.makeObject`: puts a new object under a name.
- `Caller.system`: a caller and its volume as an operating system.

## Design notes

New objects belong to the caller and inherit some flags, or have no flag word where the directory
has none; a directory that passes its group on makes them belong to its group. A change of owner
takes the right to act as the owner away from everything but directories.

Attributes change by calls for attributes alone: the capabilities of a file, which Linux keeps in
`security.capability` and takes away with a change of owner or content, stay. A device node keeps
all 64 bits of a device number, of which `mknod` takes 32; numbers of existing devices fit.
-/

namespace TreeManifest

/-- A change of a volume that can be refused. -/
abbrev Change (α : Type) := StateT Volume (Except Errno) α

namespace Caller

def setUserId : UInt32 := 0o4000

/-- The permission to act as the group, by which a directory passes its group on. -/
def setGroupId : UInt32 := 0o2000

def groupExecute : UInt32 := 0o0010

def directoryPermissions : UInt32 := 0o1777

def checkNaming (caller : Caller) (volume : Volume) (directory : Nat) : Except Errno Unit :=
  match volume.object? directory with
  | none => .error .enoent
  | some object =>
    if object.isImmutable then .error .eperm
    else if caller.may .write object && caller.may .search object then .ok ()
    else .error .eacces

/-- Puts an object under a new name in a directory. -/
def linkName (volume : Volume) (directory : Nat) (name : Bytes) (number : Nat) : Volume :=
  volume.setNames directory (volume.names directory ++ [(name, number)])

/-- The place of a path for something that is no directory. -/
def freshPlace (caller : Caller) (volume : Volume) (path : Path) : Except Errno Place := do
  let place ← caller.place volume path
  if place.existing.isSome then .error .eexist
  else if place.asDirectory then .error .enoent
  else return place

def newObject (caller : Caller) (volume : Volume) (directory : Nat) (body : VolumeBody)
    (permissions : UInt32) : VolumeObject :=
  let above := volume.object? directory
  let passesGroup := above.any fun object => object.permissions &&& setGroupId != 0
  { body
    permissions
    uid := caller.uid
    gid := if passesGroup then (above.map (·.gid)).getD caller.gid else caller.gid
    modTime := volume.now
    linkCount := 1
    attributes := .empty
    flagWord :=
      match body with
      | .file _ | .directory .. =>
        (above.bind (·.flagWord)).map (· &&& VolumeObject.inheritedFlags)
      | _ => none }

/-- Puts a new object, which is no directory, at a place. -/
def makeObject (caller : Caller) (volume : Volume) (place : Place) (body : VolumeBody)
    (permissions : UInt32) : Except Errno (Nat × Volume) := do
  caller.checkNaming volume place.directory
  let (number, volume) := volume.add (caller.newObject volume place.directory body permissions)
  return (number, linkName volume place.directory place.name number)

def makeDirectory (caller : Caller) (path : Path) (permissions : UInt32) :
    Change Unit := fun volume => do
  let place ← caller.place volume path
  if place.existing.isSome then .error .eexist
  caller.checkNaming volume place.directory
  let object := caller.newObject volume place.directory (.directory [] place.directory)
    (permissions &&& directoryPermissions &&& ~~~caller.withheld)
  let passed := (volume.object? place.directory).any (·.permissions &&& setGroupId != 0)
  let object := { object with
    permissions := if passed then object.permissions ||| setGroupId else object.permissions
    linkCount := 2 }
  let (number, volume) := volume.add object
  let volume := linkName volume place.directory place.name number
  return ((), volume.update place.directory fun above =>
    { above with linkCount := above.linkCount + 1 })

/-- The permissions of a file that is made in order to be written. -/
def filePermissions : UInt32 := 0o600

/-- What is left of permissions when the content of a file changes. -/
def afterWriting (caller : Caller) (permissions : UInt32) : UInt32 :=
  if caller.isSuperuser then permissions
  else
    let permissions := permissions &&& ~~~setUserId
    if permissions &&& groupExecute != 0 then permissions &&& ~~~setGroupId else permissions

def openForWriting (caller : Caller) (path : Path) : Change Handle := fun volume => do
  checkPath path
  if (Path.components path).isEmpty then .error .eisdir
  let place ← (caller.place volume path).mapError fun errno =>
    if errno = .eexist then .eisdir else errno
  match place.existing.bind fun number => (volume.object? number).map fun object => (number, object)
  with
  | none =>
    if place.asDirectory then .error .eisdir
    let (number, volume) ←
      caller.makeObject volume place (.file []) (filePermissions &&& ~~~caller.withheld)
    return (⟨number⟩, volume)
  | some (number, object) =>
    if place.asDirectory then .error .eisdir
    match object.body with
    | .directory .. => .error .eisdir
    | .symlink _ => .error .eloop
    | .special kind _ =>
      if !caller.may .write object then .error .eacces
      else if kind = .socket then .error .enxio
      else return (⟨number⟩, volume)
    | .file _ =>
      if object.isImmutable then .error .eperm
      else if !caller.may .write object then .error .eacces
      else if object.isFrozen then .error .eperm
      else
        return (⟨number⟩, volume.put number { object with
          body := .file []
          permissions := caller.afterWriting object.permissions
          modTime := volume.now })

/-- Appends to the content of an open file. Other objects take what is written without keeping
it. -/
def write (caller : Caller) (handle : Handle) (bytes : Bytes) : Change Unit := fun volume =>
  .ok ((), volume.update handle.number fun object =>
    match object.body with
    | .file content =>
      if bytes.isEmpty then object
      else { object with
        body := .file (content ++ bytes)
        permissions := caller.afterWriting object.permissions
        modTime := volume.now }
    | _ => object)

/-- The permissions of a symlink, which nobody checks. -/
def symlinkPermissions : UInt32 := 0o777

def makeSymlink (caller : Caller) (target : Bytes) (path : Path) : Change Unit := fun volume => do
  if target.isEmpty then .error .enoent
  if target.length > pathLimit then .error .enametoolong
  let place ← caller.freshPlace volume path
  let (_, volume) ← caller.makeObject volume place (.symlink target) symlinkPermissions
  return ((), volume)

/-- Gives an object a further name. A symlink is not followed, and a directory can have one name
only. -/
def makeLink (caller : Caller) (existing path : Path) : Change Unit := fun volume => do
  let (number, object) ← caller.find volume false existing
  let place ← caller.freshPlace volume path
  caller.checkNaming volume place.directory
  if object.isFrozen ∨ object.isDirectory then .error .eperm
  let volume := volume.put number { object with linkCount := object.linkCount + 1 }
  return ((), linkName volume place.directory place.name number)

/-- Makes a fifo, a socket or a device node. Only the superuser makes devices. -/
def makeNode (caller : Caller) (path : Path) (kind : FileKind) (permissions : UInt32)
    (device : Device) : Change Unit := fun volume => do
  let place ← caller.freshPlace volume path
  caller.checkNaming volume place.directory
  if kind.isDevice ∧ !caller.isSuperuser then .error .eperm
  let rawDevice := if kind.isDevice then device.toRaw else 0
  let (_, volume) ←
    caller.makeObject volume place (.special kind rawDevice) (permissions &&& ~~~caller.withheld)
  return ((), volume)

/-- The number that leaves an owner or group as it is. -/
def keepId : UInt32 := 0xFFFFFFFF

/-- What is left of the permissions of an object that gets another owner. -/
def afterOwnerChange (object : VolumeObject) : UInt32 :=
  if object.isDirectory then object.permissions
  else
    let permissions := object.permissions &&& ~~~setUserId
    if permissions &&& groupExecute != 0 then permissions &&& ~~~setGroupId else permissions

/-- Changes owner and group. Only the superuser gives objects away, and an owner may pass them to
its own group. -/
def changeOwner (caller : Caller) (path : Path) (uid gid : UInt32) :
    Change Unit := fun volume => do
  let (number, object) ← caller.find volume false path
  if object.isFrozen then .error .eperm
  let mayChangeOwner :=
    caller.isSuperuser || uid == keepId || (caller.uid == object.uid && uid == object.uid)
  let mayChangeGroup :=
    caller.isSuperuser || gid == keepId ||
      (caller.uid == object.uid && (gid == caller.gid || gid == object.gid))
  if !mayChangeOwner || !mayChangeGroup then .error .eperm
  else
    return ((), volume.put number { object with
      uid := if uid = keepId then object.uid else uid
      gid := if gid = keepId then object.gid else gid
      permissions := afterOwnerChange object })

/-- Changes the permissions and follows symlinks. -/
def changePermissions (caller : Caller) (path : Path) (permissions : UInt32) :
    Change Unit := fun volume => do
  let (number, object) ← caller.find volume true path
  if object.isFrozen ∨ !caller.owns object then .error .eperm
  else
    let wanted := permissions &&& FileKind.permissionMask
    let admitted :=
      if caller.isSuperuser || caller.gid == object.gid then wanted else wanted &&& ~~~setGroupId
    return ((), volume.put number { object with permissions := admitted })

/-- Changes the modification time. One that the volume cannot hold is shown as the nearest one. -/
def changeTime (caller : Caller) (path : Path) (time : Int64) : Change Unit := fun volume => do
  let (number, object) ← caller.find volume false path
  if object.isFrozen ∨ !caller.owns object then .error .eperm
  else return ((), volume.put number { object with modTime := time })

/-- The permission by which a directory protects what it holds from users who do not own it. -/
def sticky : UInt32 := 0o1000

/-- Whether an object keeps the attributes of users to those who act as its owner. -/
def guardsAttributes (caller : Caller) (object : VolumeObject) : Bool :=
  object.isDirectory && object.permissions &&& sticky != 0 && !caller.owns object

def checkAttributeChange (caller : Caller) (object : VolumeObject) (name : String) :
    Except Errno Unit := do
  if object.isFrozen then .error .eperm
  match AttributeSpace.ofName name with
  | .user =>
    if !object.kind.hasFlagWord || caller.guardsAttributes object then .error .eperm
    else if !caller.may .write object then .error .eacces
  | .trusted | .security => if !caller.isSuperuser then .error .eperm
  | .unknown => if !caller.may .write object then .error .eacces
  AttributeSpace.checkForm name

def setAttribute (caller : Caller) (path : Path) (name : String) (value : Bytes) :
    Change Unit := fun volume => do
  if '\x00' ∈ name.toList then .error .einval
  AttributeSpace.checkLength name
  let (number, object) ← caller.find volume false path
  caller.checkAttributeChange object name
  return ((), volume.put number { object with attributes := object.attributes.insert name value })

/-- Removes an attribute that an object has. -/
def removeAttribute (caller : Caller) (path : Path) (name : String) :
    Change Unit := fun volume => do
  if '\x00' ∈ name.toList then .error .einval
  AttributeSpace.checkLength name
  let (number, object) ← caller.find volume false path
  caller.checkAttributeChange object name
  if object.attributes.contains name then
    return ((), volume.put number { object with attributes := object.attributes.erase name })
  else .error .enodata

/-- Replaces the flag word of an open object. Only the superuser changes the bits that block
changes. -/
def setFlagWord (caller : Caller) (handle : Handle) (word : UInt32) : Change Unit := fun volume =>
  match volume.object? handle.number with
  | none => .error .enoent
  | some object =>
    match object.flagWord with
    | none => .error .enotty
    | some current =>
      let blocking := (current ^^^ word) &&& Flags.Ioctl.immutableClass
      if !caller.owns object then .error .eperm
      else if blocking ≠ 0 ∧ !caller.isSuperuser then .error .eperm
      else .ok ((), volume.put handle.number { object with flagWord := some word })

/-- A change as a call: a refused one leaves the volume as it is. -/
def call (change : Change α) : Call Volume α := fun volume =>
  match change volume with
  | .ok (value, volume) => (.ok value, volume)
  | .error errno => (.error (.os errno), volume)

/-- A call on a path, which must not have a zero byte. -/
def pathCall (refusal : IoError) (path : Path) (change : Change α) :
    Call Volume α := fun volume =>
  if Bytes.nul ∈ path then (.error refusal, volume) else call change volume

/-- A caller and its volume as an operating system. -/
def system (caller : Caller) : System Volume where
  view := caller.snapshot
  setAttribute path name value :=
    pathCall (.os .einval) path (caller.setAttribute path name value)
  removeAttribute path name := pathCall (.os .einval) path (caller.removeAttribute path name)
  setFlagWord handle word := call (caller.setFlagWord handle word)
  makeDirectory path permissions :=
    pathCall nulInName path (caller.makeDirectory path permissions)
  openForWriting path := pathCall nulInName path (caller.openForWriting path)
  write handle bytes := call (caller.write handle bytes)
  makeSymlink target path := pathCall nulInName (target ++ path) (caller.makeSymlink target path)
  makeLink existing path := pathCall nulInName (existing ++ path) (caller.makeLink existing path)
  makeNode path kind permissions device :=
    pathCall (.os .einval) path (caller.makeNode path kind permissions device)
  changeOwner path uid gid := pathCall nulInPath path (caller.changeOwner path uid gid)
  changePermissions path permissions :=
    pathCall nulInName path (caller.changePermissions path permissions)
  changeTime path time := pathCall nulInName path (caller.changeTime path time)

end Caller

end TreeManifest
