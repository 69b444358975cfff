import TreeManifest.Entry
import TreeManifest.System.IoError

/-!
# The system

What the library asks of an operating system is collected in two records. A snapshot answers
questions about the objects of a filesystem at one moment. A system has a state, of which it gives a
snapshot, and calls that change the state.

## Main definitions

- `Stat`: what the system knows about an object.
- `Snapshot`: the questions, with an answer or an error for each.
- `System`: the state's snapshot and the calls.
- `Entry.ofStat`: the entry of an inspected object.

## Design notes

Calls that a signal interrupts are repeated before they answer, so no answer here says that a call
was interrupted.
-/

namespace TreeManifest

/-- What the system knows about an object. -/
structure Stat where
  mode : UInt32
  size : UInt64
  modTime : Int64
  uid : UInt32
  gid : UInt32
  linkCount : UInt64
  rawDevice : UInt64
  identity : ObjectId
  deriving DecidableEq

namespace Stat

def kind (stat : Stat) : FileKind := .ofMode stat.mode

def owner (stat : Stat) : Int64 × Int64 := (stat.uid.toUInt64.toInt64, stat.gid.toUInt64.toInt64)

end Stat

/-- The entry of an inspected object. Only files and symlinks have a size, and only devices have
payload words. -/
def Entry.ofStat (path : Path) (stat : Stat) : Entry :=
  let payload :=
    if stat.kind.isDevice then (Device.ofRaw stat.rawDevice).toPayload else (0, 0)
  { Entry.new path stat.mode with
    size := if stat.kind = .regular ∨ stat.kind = .symlink then stat.size else 0
    modTime := stat.modTime
    uid := stat.owner.1
    gid := stat.owner.2
    startChunk := payload.1
    startOffset := payload.2
    identity := some stat.identity }

/-- A name of an attribute as the system lists it. -/
inductive AttributeLabel where
  | text (name : String)
  /-- A name that is no text. -/
  | raw (bytes : Bytes)
  deriving DecidableEq

structure Handle where
  number : Nat
  deriving DecidableEq

/-- How an object is opened in order to be inspected. A symlink at the end of the path is
refused. -/
structure OpenMode where
  /-- Whether the object must be a directory. -/
  directory : Bool
  /-- Whether reading leaves no access time, which only the owner may ask for. -/
  quietly : Bool
  deriving DecidableEq

/-- The answers of a filesystem at one moment. -/
structure Snapshot where
  /-- Inspects an object and follows symlinks. -/
  stat : Path → Except IoError Stat
  /-- Inspects an object and does not follow a symlink at the end of the path. -/
  lstat : Path → Except IoError Stat
  readLink : Path → Except IoError Bytes
  /-- The names in a directory in any order, with an error in place of a name that cannot be
  read. -/
  readDirectory : Path → Except IoError (List (Except IoError Bytes))
  attributeNames : Path → Except IoError (List AttributeLabel)
  /-- The value of an attribute, if the object has it. -/
  attributeValue : Path → String → Except IoError (Option Bytes)
  openObject : Path → OpenMode → Except IoError Handle
  flagWord : Handle → Except IoError UInt32

namespace Snapshot

/-- Opens an object in order to read or change its flag word, quietly where that is allowed. -/
def openForFlags (view : Snapshot) (path : Path) (directory : Bool) : Except IoError Handle :=
  match view.openObject path ⟨directory, true⟩ with
  | .error (.os errno) =>
    if errno = .eperm then view.openObject path ⟨directory, false⟩ else .error (.os errno)
  | answer => answer

end Snapshot

/-- A call that changes the state of a system. -/
abbrev Call (σ α : Type) := σ → Except IoError α × σ

/-- An operating system with states of type `σ`. -/
structure System (σ : Type) where
  view : σ → Snapshot
  setAttribute : Path → String → Bytes → Call σ Unit
  removeAttribute : Path → String → Call σ Unit
  setFlagWord : Handle → UInt32 → Call σ Unit
  /-- Makes a directory with the given permissions, from which the process may withhold some. -/
  makeDirectory : Path → UInt32 → Call σ Unit
  /-- Opens a file for writing. A missing file is made, and an existing one loses its content; a
  symlink at the end of the path is refused. -/
  openForWriting : Path → Call σ Handle
  write : Handle → Bytes → Call σ Unit
  makeSymlink : Bytes → Path → Call σ Unit
  makeLink : Path → Path → Call σ Unit
  /-- Makes a fifo, a socket or a device node with the given permissions. -/
  makeNode : Path → FileKind → UInt32 → Device → Call σ Unit
  /-- Changes owner and group, not through a symlink at the end of the path. -/
  changeOwner : Path → UInt32 → UInt32 → Call σ Unit
  /-- Changes the permissions and follows symlinks. -/
  changePermissions : Path → UInt32 → Call σ Unit
  /-- Changes the modification time, not through a symlink at the end of the path. -/
  changeTime : Path → Int64 → Call σ Unit

end TreeManifest
