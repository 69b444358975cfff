import TreeManifest.Attributes.Provider
import TreeManifest.Entry.Attributes

/-!
# Capturing and restoring attributes

Capture reads what a provider lists into an entry. Restore makes the attributes of an object equal
to those of an entry and touches only what differs, so restoring twice changes nothing the second
time. Only regular files, directories and symlinks take part.

## Main definitions

- `captureAttributes`: from an object to an entry.
- `AttributeSync`, `syncAttributes`: from an entry to an object.
- `Exclusion.isExcluded`: whether an object is marked as left out.

## Design notes

A refused or unsupported change is counted and passed over. Any other failure is kept until all
names were tried, and the first of them is returned.
-/

namespace TreeManifest

/-- Reads the listed values one by one. A name that no attribute may have is passed over, and so is
one whose value cannot be read or has vanished. -/
def readListed (provider : AttributeProvider σ) (target : Path) :
    List String → Task σ (List (String × Bytes))
  | [] => return []
  | name :: rest => do
    if AttributeName.IsVisible name then
      match ← provider.get target name with
      | .ok (some value) => return (name, value) :: (← readListed provider target rest)
      | .ok none => readListed provider target rest
      | .error error => do
        Task.report .attributes .warn error.message
        readListed provider target rest
    else readListed provider target rest

/-- Replaces the attributes of an entry by those of an object and returns their number. The entry
stays as it is when its kind carries no attributes or the names cannot be listed. -/
def captureAttributes (provider : AttributeProvider σ) (entry : Entry) (target : Path) :
    Task σ (Except MetadataError Nat × Entry) := do
  if !entry.kind.carriesAttributes then return (.ok 0, entry)
  else
    match ← provider.list target with
    | .error error => return (.error error, entry)
    | .ok names =>
      let map := AttributeMap.ofList (← readListed provider target names)
      return (.ok map.size, entry.putAttributes (some map))

/-- What a restore of attributes did. -/
structure AttributeSync where
  written : Nat := 0
  removed : Nat := 0
  /-- Names that were refused. -/
  skipped : Nat := 0
  deriving DecidableEq

/-- Whether the object was left as it was. -/
def AttributeSync.isNoop (sync : AttributeSync) : Bool :=
  sync.written == 0 && sync.removed == 0

/-- The course of a restore: what was done, and the first failure that has to be returned. -/
structure SyncProgress where
  sync : AttributeSync := {}
  firstError : Option MetadataError := none

namespace SyncProgress

def fail (progress : SyncProgress) (error : MetadataError) : Task σ SyncProgress := do
  if error.errorClass.isRefusal then
    Task.report .attributes .debug ("skipping attribute: " ++ error.message)
    return { progress with
      sync := { progress.sync with skipped := progress.sync.skipped + 1 } }
  else
    Task.report .attributes .warn error.message
    return { progress with firstError := progress.firstError <|> some error }

/-- Notes an attribute made or replaced. -/
def wrote (progress : SyncProgress) : SyncProgress :=
  { progress with sync := { progress.sync with written := progress.sync.written + 1 } }

/-- Notes an attribute removed. -/
def removedOne (progress : SyncProgress) : SyncProgress :=
  { progress with sync := { progress.sync with removed := progress.sync.removed + 1 } }

end SyncProgress

def writeAttribute (provider : AttributeProvider σ) (target : Path) (progress : SyncProgress)
    (binding : String × Bytes) : Task σ SyncProgress := do
  match ← provider.set target binding.1 binding.2 with
  | .ok () => return progress.wrote
  | .error error => progress.fail error

/-- Makes one attribute of an object equal to the wanted binding, given the listed names. -/
def syncBinding (provider : AttributeProvider σ) (target : Path) (present : List String)
    (progress : SyncProgress) (binding : String × Bytes) : Task σ SyncProgress := do
  if binding.1 ∈ present then
    match ← provider.get target binding.1 with
    | .error error => progress.fail error
    | .ok current =>
      if current = some binding.2 then return progress
      else writeAttribute provider target progress binding
  else writeAttribute provider target progress binding

/-- Removes one listed attribute unless it is wanted. -/
def removeUnwanted (provider : AttributeProvider σ) (target : Path) (wanted : AttributeMap)
    (progress : SyncProgress) (name : String) : Task σ SyncProgress := do
  if wanted.contains name then return progress
  else
    match ← provider.remove target name with
    | .ok () => return progress.removedOne
    | .error error => progress.fail error

/-- Makes the attributes of an object equal to those of an entry: first the wanted bindings in
ascending order of their names, then the listed names that are not wanted. -/
def syncAttributes (provider : AttributeProvider σ) (entry : Entry) (target : Path) :
    Task σ (Except MetadataError AttributeSync) := do
  if !entry.kind.carriesAttributes then return .ok {}
  else
    let wanted := entry.attributes.getD .empty
    match ← provider.list target with
    | .error error =>
      if error.errorClass.isRefusal then
        Task.report .attributes .debug ("skipping attributes: " ++ error.message)
        return .ok { skipped := wanted.size }
      else return .error error
    | .ok present =>
      let progress ← wanted.toList.foldlM (syncBinding provider target present) {}
      let progress ← present.foldlM (removeUnwanted provider target wanted) progress
      match progress.firstError with
      | some error => return .error error
      | none => return .ok progress.sync

namespace Exclusion

/-- The attribute whose presence leaves an object out, whatever its value. -/
def markerName : String := "user.duplicacy_exclude"

/-- Whether an object is marked as left out. Captured attributes decide where there are any, else
the marker is read; a marker that cannot be read leaves nothing out. -/
def isExcluded (provider : AttributeProvider σ) (target : Path) (entry : Entry) : Task σ Bool := do
  match entry.attributes with
  | some map => return map.contains markerName
  | none =>
    match ← provider.get target markerName with
    | .ok value => return value.isSome
    | .error error => do
      Task.report .exclude .debug ("cannot read exclusion marker: " ++ error.message)
      return false

end Exclusion

end TreeManifest
