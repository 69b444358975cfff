import TreeManifest.Attributes.Memory
import TreeManifest.Command
import TreeManifest.Restore.Listing
import TreeManifest.System.Product
import TreeManifest.Volume.Rename

/-!
# Sessions

In a session a caller works on a volume below a root directory, with fixed privilege, options and
access to attributes. Every operation of the library is a task of the session.

## Main definitions

- `AttributeAccess`: the attributes that a session works on.
- `Session`: the terms of a session.
- `Session.walk`, `Session.restoreAll`, `Session.dump`: work on whole trees.
-/

namespace TreeManifest

inductive AttributeAccess where
  /-- Those of the volume. -/
  | native
  /-- None at all. -/
  | inert
  /-- Those in a store beside the volume. -/
  | memory

/-- The state of a session: a volume and a store of attributes. -/
abbrev SessionState := Volume × MemoryStore

structure Session where
  caller : Caller
  root : Path
  privilege : Privilege
  restoring : RestoreOptions
  listing : ListOptions
  access : AttributeAccess

namespace Session

def system (session : Session) : System SessionState := session.caller.system.beside

/-- What applies stored flag words. -/
def restorer (session : Session) : FlagRestorer := { privilege := session.privilege }

def provider (session : Session) : AttributeProvider SessionState :=
  match session.access with
  | .native => NativeAttributes.provider session.privilege session.system
  | .inert => .inert
  | .memory => MemoryStore.provider.onSecond

def view (session : Session) : Task SessionState Snapshot := Task.inspect session.system.view

def change (change : Change α) : Task SessionState (Except IoError α) :=
  Task.perform (callFirst (Caller.call change))

def createDirectory (session : Session) (entry : Entry) :
    Task SessionState (Except MetadataError FlagOutcome) :=
  Restore.createDirectory session.system session.root entry session.restorer session.restoring

/-- Makes the file of an entry with some content, after which the writing may fail. -/
def createFile (session : Session) (entry : Entry) (content : Bytes) (failure : Option IoError) :
    Task SessionState (Except MetadataError FlagOutcome) :=
  Restore.createFile session.system session.root entry session.restorer session.restoring
    fun handle state =>
      let (answer, state) := session.system.write handle content state
      (failure.elim answer .error, state)

def createSymlink (session : Session) (entry : Entry) :
    Task SessionState (Except MetadataError Unit) :=
  Restore.createSymlink session.system session.root entry

/-- Makes an entry a further name of its canonical object. -/
def createHardLink (session : Session) (entry : Entry) :
    Task SessionState (Except MetadataError Unit) :=
  Restore.createHardLink session.system session.root entry

def createSpecial (session : Session) (entry : Entry) :
    Task SessionState (Except MetadataError Unit) :=
  Restore.createSpecial session.system (entry.fullPath session.root) entry

def finish (session : Session) (entry : Entry) :
    Task SessionState (Except MetadataError FinishReport) :=
  Restore.finish session.system session.root entry session.provider session.restorer
    session.restoring

/-- Restores the ownership of an entry, given the path where the present one is looked up. Returns
whether no change failed. -/
def restoreOwner (session : Session) (entry : Entry) (inspected : Path) :
    Task SessionState (Except IoError Bool) := do
  match (← session.view).lstat inspected with
  | .error error => return .error error
  | .ok stat =>
    return .ok (← Ownership.restore session.system (entry.fullPath session.root) entry stat)

def inspect (session : Session) (path : Path) : Task SessionState (Except IoError Stat) := do
  return (← session.view).lstat path

/-- Runs one phase on the object of a path, which may be opened first. -/
def restoreFlags (session : Session) (phase : FlagPhase) (entry : Entry) (path : Path)
    (opened : Bool) : Task SessionState (Except IoError (Except MetadataError FlagOutcome)) := do
  let run (target : FlagTarget) := session.restorer.restore session.system phase entry target
    session.restoring.flagMask
  if opened then
    match (← session.view).openObject path ⟨false, false⟩ with
    | .error error => return .error error
    | .ok handle => return .ok (← run (.opened handle path))
  else return .ok (← run (.named path))

/-- Reads the flag word of a path, given the path that is inspected for its kind. -/
def readFlags (session : Session) (path inspected : Path) :
    Task SessionState (Except IoError (Except MetadataError (Option UInt32))) := do
  let view ← session.view
  return (view.lstat inspected).map (Flags.read view path)

/-- Captures the flag word of a path into an entry, given the path that is inspected for its
kind. -/
def captureFlags (session : Session) (entry : Entry) (path inspected : Path) :
    Task SessionState (Bool × Entry) := do
  let view ← session.view
  match view.lstat inspected with
  | .error _ => return (false, entry)
  | .ok stat => Flags.capture view entry path stat

/-- Opens an object as for its flag word, and tells whether it is a directory. -/
def opensDirectory (session : Session) (path : Path) (directory : Bool) :
    Task SessionState (Except IoError Bool) := do
  let isDirectory (state : SessionState) (handle : Handle) : Bool :=
    (state.1.object? handle.number).any (·.isDirectory)
  let opened := (← session.view).openForFlags path directory
  Task.inspect fun state => opened.map (isDirectory state)

def lister (session : Session) : Task SessionState Lister :=
  return Lister.native session.root session.listing (← session.view)

/-- Runs a task that needs no state. -/
def stateless (task : Task Unit α) : Task SessionState α := fun state =>
  let run := task.run ()
  ⟨run.value, state, run.events⟩

/-- The number of steps in which every walk of the volume ends. -/
def fuel (state : SessionState) : WalkConfig → Nat := Walk.enoughSteps state.1.nameCount

def walk (session : Session) (config : WalkConfig) :
    Task SessionState (Except WalkError WalkOutcome) := do
  let lister ← session.lister
  let execution ← Task.inspect fun state => Walk.execute lister config (fuel state config)
  fun state => ⟨execution.result, state, execution.events⟩

/-- Lists directories one after the other with one table of hard links. -/
def listDirectories (session : Session) (received : Bool) (tracker : Hardlink.Tracker) :
    List Path → Task SessionState (List Lister.Listed)
  | [] => return []
  | directory :: rest => do
    let listed ← stateless ((← session.lister).list tracker directory received)
    return listed :: (← listDirectories session received listed.tracker rest)

/-- The permissions that a directory is asked for when nothing else is known. -/
def openPermissions : UInt32 := 0o777

/-- Restores a listing of the tree below the root into a directory, which is made if it is absent.
Files get the content that they have now; further names are not finished. -/
def restoreAll (session : Session) (entries : List Entry) (target : Path) :
    Task SessionState (List (Entry × Except MetadataError (Option FlagOutcome)) ×
      List (Entry × Except MetadataError FinishReport)) := do
  let volume ← Task.inspect Prod.fst
  let content (entry : Entry) : Bytes :=
    (session.caller.contentOf volume (entry.fullPath session.root)).toOption.getD []
  let _ ← Task.perform (session.system.makeDirectory target openPermissions)
  let created ← Restore.createAll session.system target session.restorer session.restoring content
    entries
  let finished ← Restore.finishAll session.system target session.provider session.restorer
    session.restoring (entries.filter (·.role ≠ .linkTo))
  return (created, finished)

def dump (session : Session) (arguments : List Bytes) (logFilter : Option String) :
    Task SessionState Command.Report := do
  let view ← session.view
  Task.inspect fun state => Command.run {
    view
    privilege := if session.caller.isSuperuser then .privileged else .unprivileged
    processors := 1
    logFilter
    time := ""
    fuel := fuel state } arguments

end Session

end TreeManifest
