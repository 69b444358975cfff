import TreeManifest.Attributes
import TreeManifest.Flags.Restore
import TreeManifest.Ownership

/-!
# Making objects again

A restore makes each object, writes its content, and only then applies the metadata that could block
further changes. Every operation works on the location of an entry below a root.

## Main definitions

- `RestoreOptions`: which metadata is applied.
- `Restore.createDirectory`, `Restore.createFile`, `Restore.createSymlink`,
  `Restore.createHardLink`, `Restore.createSpecial`: the objects.
- `Restore.finish`: ownership, attributes, permissions, time and flag word of a made object.

## Design notes

The steps of `Restore.finish` run in a fixed order, and none depends on the success of another. The
first hard failure is returned once all of them ran.
-/

namespace TreeManifest

/-- Which metadata is applied. -/
structure RestoreOptions where
  owner : Bool := true
  /-- The bits of the flag word that may change. -/
  flagMask : FlagMask := .all
  deriving DecidableEq

structure FinishReport where
  /-- Whether no change of ownership failed. -/
  ownerRestored : Bool
  attributes : AttributeSync
  flags : FlagOutcome
  deriving DecidableEq

namespace Restore

/-- The permission that the owner needs in order to fill a directory. -/
def ownerAccess : UInt32 := 0o700

/-- Whether an error leaves a directory that can be used in place of a new one. -/
def isReusable (view : Snapshot) (path : Path) (error : IoError) : Bool :=
  error.kind = .alreadyExists &&
    match view.lstat path with
    | .ok stat => stat.kind = .directory
    | .error _ => false

/-- Makes the directory of an entry and runs the early phase on it. An existing directory is
reused. -/
def createDirectory (system : System σ) (root : Path) (entry : Entry) (restorer : FlagRestorer)
    (options : RestoreOptions) : Task σ (Except MetadataError FlagOutcome) := do
  let path := entry.fullPath root
  let phase := restorer.restore system .earlyDirectory entry (.named path) options.flagMask
  match ← Task.perform (system.makeDirectory path (entry.permissions ||| ownerAccess)) with
  | .ok () => phase
  | .error error =>
    if ← Task.inspect fun state => isReusable (system.view state) path error then phase
    else return .error ⟨.createDirectory, path, error⟩

/-- Makes the file of an entry, runs the early phase on it, and lets `write` fill it. An existing
file loses its content. -/
def createFile (system : System σ) (root : Path) (entry : Entry) (restorer : FlagRestorer)
    (options : RestoreOptions) (write : Handle → Call σ Unit) :
    Task σ (Except MetadataError FlagOutcome) := do
  let path := entry.fullPath root
  match ← Task.perform (system.openForWriting path) with
  | .error error => return .error ⟨.createFile, path, error⟩
  | .ok handle =>
    match ← restorer.restore system .earlyFile entry (.opened handle path) options.flagMask with
    | .error error => return .error error
    | .ok outcome =>
      match ← Task.perform (write handle) with
      | .error error => return .error ⟨.writeContent, path, error⟩
      | .ok () => return .ok outcome

def createSymlink (system : System σ) (root : Path) (entry : Entry) :
    Task σ (Except MetadataError Unit) := do
  let path := entry.fullPath root
  match entry.link with
  | none =>
    return .error ⟨.createSymlink, path, .custom .invalidInput "entry has no link target"⟩
  | some target =>
    match ← Task.perform (system.makeSymlink target path) with
    | .error error => return .error ⟨.createSymlink, path, error⟩
    | .ok () => return .ok ()

/-- Makes an entry a further name of the object at its canonical path. -/
def createHardLink (system : System σ) (root : Path) (entry : Entry) :
    Task σ (Except MetadataError Unit) := do
  let path := entry.fullPath root
  match entry.link with
  | none =>
    return .error
      ⟨.createHardLink, path, .custom .invalidInput "entry does not name a canonical path"⟩
  | some canonical =>
    let source := Path.join root canonical
    match ← Task.perform (system.makeLink source path) with
    | .ok () => return .ok ()
    | .error error => do
      Task.report .hardlink .warn
        ("failed to link " ++ Utf8.lossy path ++ " to " ++ Utf8.lossy source ++ ": " ++
          error.message)
      return .error ⟨.createHardLink, path, error⟩

/-- Makes the fifo, socket or device node of an entry at a location, with its permissions. -/
def createSpecial (system : System σ) (path : Path) (entry : Entry) :
    Task σ (Except MetadataError Unit) := do
  if !entry.kind.isSpecial then
    return .error
      ⟨.createSpecial, path, .custom .invalidInput "entry does not describe a special file"⟩
  else
    let device := entry.device?.getD ⟨0, 0⟩
    match ← Task.perform (system.makeNode path entry.kind entry.permissions device) with
    | .ok () => return .ok ()
    | .error error => do
      let failure : MetadataError := ⟨.createSpecial, path, error⟩
      Task.report .special .warn failure.message
      return .error failure

/-- Applies the permissions of an entry. A symlink has none. -/
def restorePermissions (system : System σ) (path : Path) (entry : Entry) :
    Task σ (Except MetadataError Unit) := do
  if entry.kind = .symlink then return .ok ()
  else
    match ← Task.perform (system.changePermissions path entry.permissions) with
    | .error error => return .error ⟨.restorePermissions, path, error⟩
    | .ok () => return .ok ()

def restoreTime (system : System σ) (path : Path) (entry : Entry) :
    Task σ (Except MetadataError Unit) := do
  match ← Task.perform (system.changeTime path entry.modTime) with
  | .error error => return .error ⟨.restoreTimestamps, path, error⟩
  | .ok () => return .ok ()

def failure? : Except MetadataError α → Option MetadataError
  | .error error => some error
  | .ok _ => none

/-- Applies the remaining metadata of an entry to the object at its location: ownership, attributes,
permissions, time and the late phase of the flag word. -/
def finish (system : System σ) (root : Path) (entry : Entry) (provider : AttributeProvider σ)
    (restorer : FlagRestorer) (options : RestoreOptions) :
    Task σ (Except MetadataError FinishReport) := do
  let path := entry.fullPath root
  match ← Task.inspect fun state => (system.view state).lstat path with
  | .error error => return .error ⟨.inspectRestored, path, error⟩
  | .ok stat =>
    let ownerRestored ←
      if options.owner then Ownership.restore system path entry stat else pure true
    let attributes ← syncAttributes provider entry path
    let permissions ← restorePermissions system path entry
    let time ← restoreTime system path entry
    let flags ← restorer.restore system .late entry (.named path) options.flagMask
    match attributes, flags, failure? permissions <|> failure? time with
    | .error error, _, _ => return .error error
    | .ok _, _, some error => return .error error
    | .ok _, .error error, none => return .error error
    | .ok attributes, .ok flags, none => return .ok { ownerRestored, attributes, flags }

end Restore

end TreeManifest
