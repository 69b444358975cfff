import TreeManifest.Attributes.Native
import TreeManifest.Volume.Resolve

/-!
# Looking at a volume

What a caller sees of a volume: the answers to the questions of a snapshot.

## Main definitions

- `Volume.statOf`: what is known about an object.
- `AttributeSpace`: the namespaces of attributes.
- `Caller.snapshot`: a volume as one caller sees it.
-/

namespace TreeManifest

namespace Volume

/-- What is known about an object. Its time is shown as the nearest one that the volume can hold. -/
def statOf (volume : Volume) (number : Nat) (object : VolumeObject) : Stat where
  mode := object.kind.typeBits ||| object.permissions
  size :=
    match object.body with
    | .file content => UInt64.ofNat content.length
    | .symlink target => UInt64.ofNat target.length
    | _ => 0
  modTime := volume.times.clamp object.modTime
  uid := object.uid
  gid := object.gid
  linkCount := object.linkCount
  rawDevice :=
    match object.body with
    | .special _ rawDevice => rawDevice
    | _ => 0
  identity := ⟨deviceNumber, UInt64.ofNat number⟩

end Volume

inductive AttributeSpace where
  | user
  | trusted
  | security
  /-- A name outside the namespaces. -/
  | unknown
  deriving DecidableEq

namespace AttributeSpace

/-- The namespaces with what their names start with. -/
def starts : List (String × AttributeSpace) :=
  [("user.", .user), ("trusted.", .trusted), ("security.", .security)]

/-- The namespace of a name. -/
def ofName (name : String) : AttributeSpace :=
  ((starts.find? fun (start, _) => NativeAttributes.startsWith start name).map Prod.snd).getD
    .unknown

/-- Refuses names that no object can bind: names without text behind the start of their namespace,
and names outside the namespaces. -/
def checkForm (name : String) : Except Errno Unit :=
  if ofName name = .unknown then .error .eopnotsupp
  else if starts.any fun (start, _) => start == name then .error .einval
  else .ok ()

/-- Refuses names of a length that the system does not take. -/
def checkLength (name : String) : Except Errno Unit :=
  if name.isEmpty ∨ name.utf8ByteSize > Caller.nameLimit then .error .erange else .ok ()

end AttributeSpace

namespace Caller

/-- The object of a path with its number. -/
def find (caller : Caller) (volume : Volume) (followLast : Bool) (path : Path) :
    Except Errno (Nat × VolumeObject) := do
  let number ← caller.resolve volume followLast path
  match volume.object? number with
  | some object => return (number, object)
  | none => .error .enoent

/-- Refuses a path with a zero byte, which calls report in different ways. -/
def withoutNul (refusal : IoError) (path : Path) (answer : Except Errno α) : Except IoError α :=
  if Bytes.nul ∈ path then .error refusal else answer.mapError .os

/-- How most calls report a zero byte in a path. -/
def nulInName : IoError := .custom .invalidInput "file name contained an unexpected NUL byte"

/-- How the change of ownership reports a zero byte in a path. -/
def nulInPath : IoError := .custom .invalidInput "path contains interior NUL"

def stat (caller : Caller) (volume : Volume) (followLast : Bool) (path : Path) :
    Except Errno Stat := do
  let (number, object) ← caller.find volume followLast path
  return volume.statOf number object

def readLink (caller : Caller) (volume : Volume) (path : Path) : Except Errno Bytes := do
  let (_, object) ← caller.find volume false path
  match object.target? with
  | some target => return target
  | none => .error .einval

def readDirectory (caller : Caller) (volume : Volume) (path : Path) :
    Except Errno (List (Except IoError Bytes)) := do
  let (_, object) ← caller.find volume true path
  match object.body with
  | .directory names _ =>
    if caller.may .read object then return names.map fun (name, _) => .ok name
    else .error .eacces
  | _ => .error .enotdir

def contentOf (caller : Caller) (volume : Volume) (path : Path) : Except Errno Bytes := do
  let (_, object) ← caller.find volume true path
  match object.body with
  | .file content => if caller.may .read object then return content else .error .eacces
  | .directory .. => .error .eisdir
  | _ => .error .einval

/-- Whether a caller sees the attributes of a namespace. -/
def sees (caller : Caller) : AttributeSpace → Bool
  | .trusted => caller.isSuperuser
  | _ => true

def attributeNames (caller : Caller) (volume : Volume) (path : Path) :
    Except Errno (List AttributeLabel) := do
  let (_, object) ← caller.find volume false path
  return (object.attributes.keys.filter fun name => caller.sees (.ofName name)).map .text

def attributeValue (caller : Caller) (volume : Volume) (path : Path) (name : String) :
    Except Errno (Option Bytes) := do
  if '\x00' ∈ name.toList then .error .einval
  AttributeSpace.checkLength name
  let (_, object) ← caller.find volume false path
  match AttributeSpace.ofName name with
  | .user =>
    if !object.kind.hasFlagWord then return none
    else if !caller.may .read object then .error .eacces
    else read object
  | .trusted => if caller.isSuperuser then read object else return none
  | .security => read object
  | .unknown => if caller.may .read object then read object else .error .eacces
where
  /-- The value that an object binds. -/
  read (object : VolumeObject) : Except Errno (Option Bytes) := do
    AttributeSpace.checkForm name
    return object.attributes.get? name

/-- Opens an object for inspection. -/
def openObject (caller : Caller) (volume : Volume) (path : Path) (mode : OpenMode) :
    Except Errno Handle := do
  let (number, object) ← caller.find volume false path
  if mode.directory ∧ !object.isDirectory then .error .enotdir
  else
    match object.body with
    | .symlink _ => .error .eloop
    | .special kind _ =>
      if !caller.may .read object then .error .eacces
      else if mode.quietly ∧ !caller.owns object then .error .eperm
      else if kind = .socket then .error .enxio
      else return ⟨number⟩
    | _ =>
      if !caller.may .read object then .error .eacces
      else if mode.quietly ∧ !caller.owns object then .error .eperm
      else return ⟨number⟩

def flagWord (volume : Volume) (handle : Handle) : Except Errno UInt32 :=
  match (volume.object? handle.number).bind (·.flagWord) with
  | some word => .ok word
  | none => .error .enotty

/-- A volume as a caller sees it. -/
def snapshot (caller : Caller) (volume : Volume) : Snapshot where
  stat path := withoutNul nulInName path (caller.stat volume true path)
  lstat path := withoutNul nulInName path (caller.stat volume false path)
  readLink path := withoutNul nulInName path (caller.readLink volume path)
  readDirectory path := withoutNul nulInName path (caller.readDirectory volume path)
  attributeNames path := withoutNul (.os .einval) path (caller.attributeNames volume path)
  attributeValue path name :=
    withoutNul (.os .einval) path (caller.attributeValue volume path name)
  openObject path mode := withoutNul nulInName path (caller.openObject volume path mode)
  flagWord handle := (flagWord volume handle).mapError .os

end Caller

end TreeManifest
