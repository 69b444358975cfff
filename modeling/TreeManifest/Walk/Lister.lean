import TreeManifest.Attributes
import TreeManifest.Attributes.Native
import TreeManifest.Flags.Restore
import TreeManifest.Hardlink
import TreeManifest.Walk.Error
import TreeManifest.Walk.Options

/-!
# Listing one directory

A directory is listed in two stages. First its names are read, every object is inspected, and the
children are put into canonical order. Then the children are captured one by one, and each is either
skipped, left out, or sent to the collector.

## Main definitions

- `Lister`: the root, the options, and the access to a tree that does not change.
- `Lister.openDirectory`: the children of a directory.
- `Lister.select`: what becomes of one child.
- `Lister.list`: the whole listing of a directory.

## Design notes

The stages are steps of their own because several workers share the table of hard links and the way
to the collector, so what one worker does can fall between two steps of another.
-/

namespace TreeManifest

/-- Counters of listed directories. -/
structure ListStats where
  emitted : Nat := 0
  excluded : Nat := 0
  /-- The paths of children that could not be captured. -/
  skipped : List Path := []
  deriving DecidableEq

def ListStats.merge (stats other : ListStats) : ListStats where
  emitted := stats.emitted + other.emitted
  excluded := stats.excluded + other.excluded
  skipped := stats.skipped ++ other.skipped

structure Listing where
  /-- The relative paths of the subdirectories. -/
  subdirectories : List Path := []
  stats : ListStats := {}
  deriving DecidableEq

structure Child where
  entry : Entry
  /-- Where the object was inspected. -/
  location : Path
  stat : Stat

/-- The root and the options of a walk, and the access to the tree. -/
structure Lister where
  root : Path
  options : ListOptions
  view : Snapshot
  provider : AttributeProvider Unit

namespace Lister

/-- The lister that reads the attributes of the tree itself. -/
def native (root : Path) (options : ListOptions) (view : Snapshot) : Lister where
  root
  options
  view
  provider := NativeAttributes.reader options.privilege view

/-- The location of a directory with the given relative path. -/
def directory (lister : Lister) (relative : Path) : Path :=
  if relative.isEmpty then lister.root else Path.join lister.root relative

/-- Inspects the names of a directory one by one. Returns the children, and the paths of those that
could not be inspected. -/
def inspectNames (lister : Lister) (relative : Path) :
    List (Except IoError Bytes) → Task Unit (List Child × List Path)
  | [] => return ([], [])
  | .error error :: rest => do
    Task.report .listDir .warn
      ("failed to read an entry of " ++ Utf8.lossy (lister.directory relative) ++ ": " ++
        error.message)
    lister.inspectNames relative rest
  | .ok name :: rest => do
    let path := Path.child relative name
    let location := Path.join (lister.directory relative) name
    match lister.view.lstat location with
    | .ok stat =>
      let (children, skipped) ← lister.inspectNames relative rest
      return (⟨Entry.ofStat path stat, location, stat⟩ :: children, skipped)
    | .error error =>
      Task.report .listDir .warn ("skipping " ++ Utf8.lossy location ++ ": " ++ error.message)
      let (children, skipped) ← lister.inspectNames relative rest
      return (children, path :: skipped)

/-- The children of a directory in canonical order, and the paths of those that could not be
inspected. -/
def openDirectory (lister : Lister) (relative : Path) :
    Task Unit (Except WalkError (List Child × List Path)) := do
  match lister.view.readDirectory (lister.directory relative) with
  | .error error =>
    return .error
      (if relative.isEmpty then .root (lister.directory relative) error
        else .readDirectory (lister.directory relative) error)
  | .ok names =>
    let (children, skipped) ← lister.inspectNames relative names
    return .ok (children.mergeSort fun a b => (Order.compareEntries a.entry b.entry).isLE, skipped)

/-- Adds link target, attributes and flag word to the entry of a child. A symlink whose target
cannot be read is unusable. -/
def capture (lister : Lister) (child : Child) : Task Unit (Option Entry) := do
  let linked : Except IoError Entry :=
    if child.entry.kind = .symlink then
      (lister.view.readLink child.location).map fun target =>
        { child.entry with link := some target }
    else .ok child.entry
  match linked with
  | .error error =>
    Task.report .listDir .warn ("skipping " ++ Utf8.lossy child.location ++ ": " ++ error.message)
    return none
  | .ok entry =>
    if lister.options.readAttributes then
      let (result, entry) ← captureAttributes lister.provider entry child.location
      match result with
      | .ok _ => pure ()
      | .error error => Task.report .attributes .warn error.message
      let (_, entry) ← Flags.capture lister.view entry child.location child.stat
      return some entry
    else return some entry

inductive Selection where
  /-- It could not be captured. -/
  | skipped
  | excluded
  | kept (entry : Entry)

/-- Captures a child and decides what becomes of it. -/
def select (lister : Lister) (child : Child) : Task Unit Selection := do
  match ← lister.capture child with
  | none => return .skipped
  | some entry =>
    if lister.options.excludeByAttribute then
      if ← Exclusion.isExcluded lister.provider child.location entry then
        Task.report .exclude .debug ("excluding " ++ Utf8.lossy child.location)
        return .excluded
      else return .kept entry
    else return .kept entry

/-- Gives a captured entry its role among the names of its object. A link carries neither attributes
nor a flag word. -/
def classify (lister : Lister) (tracker : Hardlink.Tracker) (entry : Entry) (linkCount : UInt64) :
    Entry × Hardlink.Tracker :=
  if lister.options.trackHardlinks then
    match tracker.classify entry linkCount with
    | (true, entry, tracker) => ({ entry.clearAttributes with flags := none }, tracker)
    | (false, entry, tracker) => (entry, tracker)
  else (entry, tracker)

end Lister

namespace Listing

def skip (listing : Listing) (path : Path) : Listing :=
  { listing with stats := { listing.stats with skipped := listing.stats.skipped ++ [path] } }

def exclude (listing : Listing) : Listing :=
  { listing with stats := { listing.stats with excluded := listing.stats.excluded + 1 } }

/-- Notes a captured entry. The subdirectories are kept in reverse, so the first one is taken first
from the stack. -/
def keep (listing : Listing) (entry : Entry) : Listing :=
  if entry.isDirectory then { listing with subdirectories := entry.path :: listing.subdirectories }
  else listing

/-- Notes an entry that was sent. -/
def emit (listing : Listing) : Listing :=
  { listing with stats := { listing.stats with emitted := listing.stats.emitted + 1 } }

end Listing

namespace Lister

/-- What listing a directory leaves behind. -/
structure Listed where
  /-- The entries sent, in order. -/
  sent : List Entry
  result : Except WalkError Listing
  tracker : Hardlink.Tracker

/-- Lists children one after the other. `received` tells whether somebody takes the entries. -/
def listChildren (lister : Lister) (relative : Path) (received : Bool) :
    Hardlink.Tracker → Listing → List Child → Task Unit Listed
  | tracker, listing, [] => return ⟨[], .ok listing, tracker⟩
  | tracker, listing, child :: rest => do
    match ← lister.select child with
    | .skipped =>
      lister.listChildren relative received tracker (listing.skip child.entry.path) rest
    | .excluded => lister.listChildren relative received tracker listing.exclude rest
    | .kept entry =>
      let (entry, tracker) := lister.classify tracker entry child.stat.linkCount
      if received then
        let listed ← lister.listChildren relative received tracker (listing.keep entry).emit rest
        return { listed with sent := entry :: listed.sent }
      else return ⟨[], .error (.channelClosed (lister.directory relative)), tracker⟩

def list (lister : Lister) (tracker : Hardlink.Tracker) (relative : Path) (received : Bool) :
    Task Unit Listed := do
  match ← lister.openDirectory relative with
  | .error error => return ⟨[], .error error, tracker⟩
  | .ok (children, skipped) =>
    lister.listChildren relative received tracker { stats := { skipped } } children

end Lister

end TreeManifest
