import TreeManifest.Flags
import TreeManifest.MetadataError
import TreeManifest.System
import TreeManifest.Task

/-!
# Capturing and restoring flag words

Only regular files and directories have a flag word, and it is reached through an open object. A
restore changes the bits of one phase and reports what became of it. Only an object that cannot be
opened or inspected makes it fail.

## Main definitions

- `FlagOutcome`: what became of a phase.
- `FlagTarget`: a path, or an object that is already open.
- `FlagRestorer.restore`: one phase on one object.
- `Flags.read`, `Flags.capture`: the word of a live object.
-/

namespace TreeManifest

inductive FlagOutcome where
  /-- Nothing is stored, nothing may change, or nothing differs. -/
  | nothingToDo
  /-- The word was replaced by the given one. -/
  | applied (word : UInt32)
  /-- The object has no flag word. -/
  | unsupported
  | denied
  deriving DecidableEq

/-- The object whose word is restored. -/
inductive FlagTarget where
  | named (path : Path)
  /-- An open object and its path, which serves messages. -/
  | opened (handle : Handle) (path : Path)

/-- Applies stored words phase by phase. -/
structure FlagRestorer where
  privilege : Privilege
  family : FlagFamily := .native

namespace FlagRestorer

/-- The bits that a phase changes where the caller allows it. -/
def effectiveBits (restorer : FlagRestorer) (phase : FlagPhase) (mask : FlagMask) : UInt32 :=
  phase.effectiveBits restorer.family restorer.privilege mask

/-- The outcome of a call on the flag word that failed. -/
def softFailure (path : Path) (error : IoError) : Task σ (Except MetadataError FlagOutcome) := do
  if error.meansNoFlagWord then
    Task.report .flags .debug
      ("flags unsupported on " ++ Utf8.lossy path ++ ": " ++ error.message)
    return .ok .unsupported
  else if error.errorClass = .permissionDenied then
    Task.report .flags .warn
      ("failed to restore flags on " ++ Utf8.lossy path ++ ": " ++ error.message)
    return .ok .denied
  else return .error ⟨.restoreFlags, path, error⟩

def wordText (word : UInt32) : String :=
  "0x" ++ String.ofList (Quoted.hexDigits word.toNat)

/-- Replaces the allowed bits of the word of an open object. -/
def restoreOpened (system : System σ) (handle : Handle) (path : Path) (stored allowed : UInt32) :
    Task σ (Except MetadataError FlagOutcome) := do
  match ← Task.inspect fun state => (system.view state).flagWord handle with
  | .error error => softFailure path error
  | .ok current =>
    let updated := Flags.merge current stored allowed
    if updated = current then return .ok .nothingToDo
    else
      match ← Task.perform (system.setFlagWord handle updated) with
      | .error error => softFailure path error
      | .ok () => do
        Task.report .flags .debug
          ("restored flags " ++ wordText updated ++ " on " ++ Utf8.lossy path)
        return .ok (.applied updated)

def restore (restorer : FlagRestorer) (system : System σ) (phase : FlagPhase) (entry : Entry)
    (target : FlagTarget) (mask : FlagMask) : Task σ (Except MetadataError FlagOutcome) := do
  match entry.flags with
  | none => return .ok .nothingToDo
  | some stored =>
    let allowed := restorer.effectiveBits phase mask
    if mask.isNone ∨ allowed = 0 ∨ restorer.family ≠ .ioctl ∨ !entry.kind.hasFlagWord then
      return .ok .nothingToDo
    else
      match target with
      | .opened handle path => restoreOpened system handle path stored allowed
      | .named path =>
        let directory := phase = .earlyDirectory || entry.kind = .directory
        match ← Task.inspect fun state => (system.view state).openForFlags path directory with
        | .error error => return .error ⟨.openForFlagRestore, path, error⟩
        | .ok handle => restoreOpened system handle path stored allowed

end FlagRestorer

namespace Flags

/-- The restorable bits of the flag word of an inspected object, if it has any that are set. -/
def read (view : Snapshot) (path : Path) (stat : Stat) : Except MetadataError (Option UInt32) :=
  if !stat.kind.hasFlagWord then .ok none
  else
    match view.openForFlags path (stat.kind = .directory) with
    | .error error => .error ⟨.openForFlagCapture, path, error⟩
    | .ok handle =>
      match view.flagWord handle with
      | .ok word =>
        let bits := word &&& Ioctl.modifiable
        .ok (if bits = 0 then none else some bits)
      | .error error =>
        if error.meansNoFlagWord then .ok none else .error ⟨.readFlags, path, error⟩

/-- Captures the flag word of an inspected object, and tells whether it could be read. -/
def capture (view : Snapshot) (entry : Entry) (path : Path) (stat : Stat) :
    Task σ (Bool × Entry) := do
  match read view path stat with
  | .ok flags => return (true, { entry with flags := flags })
  | .error error => do
    Task.report .flags .warn error.message
    return (false, entry)

end Flags

end TreeManifest
