import TreeManifest.System
import TreeManifest.Volume

/-!
# Finding the object of a path

A path is followed name by name from the top of a volume or from the directory in which a caller
works. Every directory on the way must admit the search, and every symlink on the way is followed. A
symlink at the end is followed only where the caller wants it.

## Main definitions

- `Caller`: who asks, and where it works.
- `Caller.may`: whether a caller has access to an object.
- `Caller.resolve`: the object of a path.
- `Caller.place`: the directory and the name where a path would put a new object.
-/

namespace TreeManifest

/-- A user of a volume. -/
structure Caller where
  uid : UInt32 := 0
  gid : UInt32 := 0
  /-- Whether the caller is exempt from permissions. -/
  isSuperuser : Bool := true
  /-- The permissions that new objects do not get. -/
  withheld : UInt32 := 0o022
  /-- The directory in which relative paths begin. -/
  home : Nat := Volume.top

inductive Access where
  | read
  | write
  | search

/-- The permission bit of an access, for users outside owner and group. -/
def Access.bit : Access → UInt32
  | .read => 4
  | .write => 2
  | .search => 1

namespace Caller

/-- Whether a caller owns an object or is exempt from ownership. -/
def owns (caller : Caller) (object : VolumeObject) : Bool :=
  caller.isSuperuser || caller.uid == object.uid

/-- Whether the permissions of an object admit an access. -/
def may (caller : Caller) (access : Access) (object : VolumeObject) : Bool :=
  if caller.isSuperuser then
    match access with
    | .search => object.isDirectory || object.permissions &&& 0o111 != 0
    | _ => true
  else
    let shift : UInt32 :=
      if caller.uid = object.uid then 6 else if caller.gid = object.gid then 3 else 0
    object.permissions &&& (access.bit <<< shift) != 0

def nameLimit : Nat := 255

def pathLimit : Nat := 4095

/-- The largest number of symlinks that are followed for one path. -/
def linkLimit : Nat := 40

def lookup (caller : Caller) (volume : Volume) (directory : Nat) (name : Bytes) :
    Except Errno (Option Nat) :=
  match volume.object? directory with
  | none => .error .enoent
  | some object =>
    match object.body with
    | .directory names parent =>
      if !caller.may .search object then .error .eacces
      else if name = Path.dot then .ok (some directory)
      else if name = Path.dotDot then .ok (some parent)
      else if name.length > nameLimit then .error .enametoolong
      else .ok (names.lookup name)
    | _ => .error .enotdir

/-- The names that a path goes through. A slash at the end asks for a directory, as a dot does. -/
def namesOf (path : Path) : List Bytes :=
  Path.components path ++ if path.getLast? = some Bytes.slash then [Path.dot] else []

/-- The directory where a path begins, seen from another one. -/
def beginning (path : Path) (here : Nat) : Nat :=
  if Path.isAbsolute path then Volume.top else here

/-- Follows names from a directory. `links` is the number of symlinks that may still be followed. -/
def follow (caller : Caller) (volume : Volume) (followLast : Bool) (links here : Nat)
    (names : List Bytes) : Except Errno Nat :=
  match names with
  | [] => .ok here
  | name :: rest =>
    match caller.lookup volume here name with
    | .error errno => .error errno
    | .ok none => .error .enoent
    | .ok (some number) =>
      match (volume.object? number).bind (·.target?) with
      | none => follow caller volume followLast links number rest
      | some target =>
        if rest.isEmpty && !followLast then .ok number
        else
          match links with
          | 0 => .error .eloop
          | links + 1 =>
            follow caller volume followLast links (beginning target here) (namesOf target ++ rest)
termination_by (links, names.length)

/-- Refuses paths that no object can have. -/
def checkPath (path : Path) : Except Errno Unit :=
  if path.isEmpty then .error .enoent
  else if path.length > pathLimit then .error .enametoolong
  else .ok ()

def resolve (caller : Caller) (volume : Volume) (followLast : Bool) (path : Path) :
    Except Errno Nat := do
  checkPath path
  caller.follow volume followLast linkLimit (beginning path caller.home) (namesOf path)

/-- Where a path would put a new object. -/
structure Place where
  directory : Nat
  name : Bytes
  /-- Whether the path ends with a slash. -/
  asDirectory : Bool
  /-- The object that has the name already. -/
  existing : Option Nat

/-- The directory and the name where a path would put a new object. A path without a name of its own
leads to something that exists. -/
def place (caller : Caller) (volume : Volume) (path : Path) : Except Errno Place := do
  checkPath path
  let names := Path.components path
  match names.getLast? with
  | none => .error .eexist
  | some name =>
    let directory ←
      caller.follow volume true linkLimit (beginning path caller.home) names.dropLast
    let existing ← caller.lookup volume directory name
    if name = Path.dot ∨ name = Path.dotDot then .error .eexist
    else return ⟨directory, name, path.getLast? = some Bytes.slash, existing⟩

end Caller

end TreeManifest
