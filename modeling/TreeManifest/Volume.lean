import TreeManifest.Entry
import TreeManifest.Flags

/-!
# Volumes

A volume is a filesystem kept in memory: a table of numbered objects, of which directories hold the
names. An object can have several names, but a directory has one place only.

## Main definitions

- `TimeRange`: the modification times that a filesystem can hold.
- `VolumeObject`, `VolumeBody`: an object and what it consists of.
- `Volume`: the table, with the number of the top directory.
- `Volume.object?`, `Volume.put`, `Volume.child?`: access.

## Main statements

- `TimeRange.clamp_of_holds`: a time that can be held is held as it is.
- `Volume.object?_put`: writing an object changes that object and no other.

## Design notes

An object keeps the modification time that it was given. What the volume holds of it, and shows of
it ever after, is the nearest time in its range, so no state of a volume shows any other time.
-/

namespace TreeManifest

/-- The modification times that a filesystem can hold, in seconds. -/
structure TimeRange where
  earliest : Int64
  latest : Int64
  earliest_le : earliest ≤ latest

namespace TimeRange

/-- The 34 bits that ext4 has for a time. -/
def ext4 : TimeRange where
  earliest := -2147483648
  latest := 15032385535
  earliest_le := by decide

/-- A time can be held. -/
def Holds (range : TimeRange) (time : Int64) : Prop :=
  range.earliest ≤ time ∧ time ≤ range.latest

instance (range : TimeRange) (time : Int64) : Decidable (range.Holds time) :=
  inferInstanceAs (Decidable (_ ∧ _))

/-- What is held of a time: the nearest one in the range. -/
def clamp (range : TimeRange) (time : Int64) : Int64 :=
  if time < range.earliest then range.earliest
  else if range.latest < time then range.latest
  else time

variable {range : TimeRange} {time : Int64}

theorem clamp_of_holds (h : range.Holds time) : range.clamp time = time := by
  rw [clamp, if_neg (Int64.not_lt.2 h.1), if_neg (Int64.not_lt.2 h.2)]

theorem holds_clamp (range : TimeRange) (time : Int64) : range.Holds (range.clamp time) := by
  unfold clamp
  split
  · exact ⟨Int64.le_refl _, range.earliest_le⟩
  · next hearliest =>
    split
    · exact ⟨range.earliest_le, Int64.le_refl _⟩
    · next hlatest => exact ⟨Int64.not_lt.1 hearliest, Int64.not_lt.1 hlatest⟩

@[simp] theorem clamp_clamp (range : TimeRange) (time : Int64) :
    range.clamp (range.clamp time) = range.clamp time :=
  clamp_of_holds (range.holds_clamp time)

example : TimeRange.ext4.clamp 1099511627776 = 15032385535 := by decide

end TimeRange

inductive VolumeBody where
  | file (content : Bytes)
  /-- Names with the numbers of their objects, and the number of the directory above. -/
  | directory (names : List (Bytes × Nat)) (parent : Nat)
  | symlink (target : Bytes)
  /-- A fifo, a socket or a device node. -/
  | special (kind : FileKind) (rawDevice : UInt64)

structure VolumeObject where
  body : VolumeBody
  permissions : UInt32
  uid : UInt32
  gid : UInt32
  /-- The time that was set, of which a volume shows the nearest one that it can hold. -/
  modTime : Int64
  /-- The number of names, where a directory counts its own entry and those of its
  subdirectories. -/
  linkCount : UInt64
  attributes : AttributeMap
  /-- The flag word, unless objects of this kind have none. -/
  flagWord : Option UInt32

namespace VolumeObject

def kind (object : VolumeObject) : FileKind :=
  match object.body with
  | .file _ => .regular
  | .directory .. => .directory
  | .symlink _ => .symlink
  | .special kind _ => kind

def isDirectory (object : VolumeObject) : Bool := object.kind == .directory

def target? (object : VolumeObject) : Option Bytes :=
  match object.body with
  | .symlink target => some target
  | _ => none

def names (object : VolumeObject) : List (Bytes × Nat) :=
  match object.body with
  | .directory names _ => names
  | _ => []

def hasFlag (object : VolumeObject) (flags : UInt32) : Bool :=
  object.flagWord.any fun word => word &&& flags != 0

/-- Whether an object cannot be changed. -/
def isImmutable (object : VolumeObject) : Bool := object.hasFlag Flags.Ioctl.immutable

/-- Whether an object resists changes to its metadata. -/
def isFrozen (object : VolumeObject) : Bool := object.hasFlag Flags.Ioctl.immutableClass

/-- The flags that a new object takes over from its directory. -/
def inheritedFlags : UInt32 :=
  Flags.Ioctl.noDump ||| Flags.Ioctl.noAccessTime ||| Flags.Ioctl.synchronous

end VolumeObject

/-- A filesystem kept in memory. -/
structure Volume where
  objects : List (Nat × VolumeObject)
  /-- The number that the next object gets. -/
  next : Nat
  /-- The time of all changes. -/
  now : Int64
  /-- The times that the volume can hold. -/
  times : TimeRange := .ext4

namespace Volume

def top : Nat := 0

/-- The number of the device that a volume stands for. -/
def deviceNumber : UInt64 := 1

def find? (number : Nat) : List (Nat × α) → Option α
  | [] => none
  | (key, value) :: rest => if key = number then some value else find? number rest

def object? (volume : Volume) (number : Nat) : Option VolumeObject := find? number volume.objects

/-- Replaces the value of a number in a table, or adds it. -/
def replace (number : Nat) (value : α) : List (Nat × α) → List (Nat × α)
  | [] => [(number, value)]
  | (key, old) :: rest =>
    if key = number then (number, value) :: rest else (key, old) :: replace number value rest

def put (volume : Volume) (number : Nat) (object : VolumeObject) : Volume :=
  { volume with objects := replace number object volume.objects }

theorem find?_replace (number other : Nat) (value : α) (table : List (Nat × α)) :
    find? other (replace number value table) =
      if number = other then some value else find? other table := by
  induction table with
  | nil => simp [replace, find?]
  | cons head rest ih =>
    obtain ⟨key, old⟩ := head
    by_cases hkey : key = number
    · subst hkey
      by_cases hother : key = other <;> simp [replace, find?, hother]
    · by_cases hother : key = other
      · subst hother
        simp [replace, find?, hkey, Ne.symm hkey]
      · simp [replace, find?, hkey, hother, ih]

@[simp] theorem object?_put (volume : Volume) (number other : Nat) (object : VolumeObject) :
    (volume.put number object).object? other =
      if number = other then some object else volume.object? other :=
  find?_replace number other object volume.objects

/-- Changes an object, if there is one of that number. -/
def update (volume : Volume) (number : Nat) (change : VolumeObject → VolumeObject) : Volume :=
  match volume.object? number with
  | some object => volume.put number (change object)
  | none => volume

/-- Adds an object and returns its number. -/
def add (volume : Volume) (object : VolumeObject) : Nat × Volume :=
  (volume.next, { volume.put volume.next object with next := volume.next + 1 })

def names (volume : Volume) (number : Nat) : List (Bytes × Nat) :=
  match volume.object? number with
  | some object => object.names
  | none => []

/-- The number of the object with a name in a directory. -/
def child? (volume : Volume) (number : Nat) (name : Bytes) : Option Nat :=
  (volume.names number).lookup name

/-- The number of names in all directories. -/
def nameCount (volume : Volume) : Nat :=
  volume.objects.foldl (fun count (_, object) => count + object.names.length) 0

/-- Replaces the names in a directory, which changes its time. -/
def setNames (volume : Volume) (number : Nat) (names : List (Bytes × Nat)) : Volume :=
  volume.update number fun object =>
    match object.body with
    | .directory _ parent =>
      { object with body := .directory names parent, modTime := volume.now }
    | _ => object

/-- The volume that consists of an empty top directory with the given flag word. -/
def empty (now : Int64) (flagWord : Option UInt32) : Volume where
  objects := [(top, {
    body := .directory [] top
    permissions := 0o755
    uid := 0
    gid := 0
    modTime := now
    linkCount := 2
    attributes := .empty
    flagWord })]
  next := top + 1
  now

end Volume

end TreeManifest
