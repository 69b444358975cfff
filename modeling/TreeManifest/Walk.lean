import TreeManifest.Walk.Machine

/-!
# Walking a tree

A walk lists the root and every directory found below it, puts the entries into canonical order and
settles the roles of hard links. A directory that cannot be listed is noted and passed over; only a
root that cannot be opened ends the walk without a result.

## Main definitions

- `WalkOutcome`: what a completed walk gives.
- `Walk.conclude`: the result of a final state of the workers.
- `Walk.result`: the result of a walk, given the state in which its workers end.
- `Walk.execute`: a walk from beginning to end.
-/

namespace TreeManifest

structure WalkOutcome where
  /-- The entries in canonical order, with settled roles. -/
  entries : List Entry
  /-- The directories that could not be listed, in the order of their paths. -/
  errors : List WalkError
  /-- The counters, with the skipped paths in the order of their bytes. -/
  stats : Walk.Stats
  deriving DecidableEq

namespace Walk

/-- The message of a root that is something else than a directory. -/
def notADirectory : IoError := .custom .notADirectory "walk root is not a directory"

/-- The failure of a root that cannot be walked, if it cannot. -/
def rootError? (lister : Lister) : Option WalkError :=
  match lister.view.stat lister.root with
  | .error error => some (.root lister.root error)
  | .ok stat => if stat.kind = .directory then none else some (.root lister.root notADirectory)

/-- The result of a state in which all workers have left. -/
def conclude (lister : Lister) (state : State) : Except WalkError WalkOutcome :=
  match state.errors.find? (·.isFatal) with
  | some error => .error error
  | none =>
    let (sorted, checked) := Order.sortEntries state.received
    match checked with
    | .error error => .error (.order lister.root error)
    | .ok () => .ok {
        entries := Hardlink.settle sorted
        errors := state.errors.mergeSort fun a b => (Path.compareSteps a.path b.path).isLE
        stats := { state.stats with
          listing := { state.stats.listing with
            skipped := state.stats.listing.skipped.mergeSort fun a b => (compare a b).isLE } } }

/-- The result of a walk whose workers end in the given state. -/
def result (lister : Lister) (state : State) : Except WalkError WalkOutcome :=
  match rootError? lister with
  | some error => .error error
  | none => conclude lister state

def summary (root : Path) (outcome : WalkOutcome) : String :=
  s!"walked {Utf8.lossy root}: {outcome.stats.directories} directories, " ++
    s!"{outcome.entries.length} entries, {outcome.stats.listing.excluded} excluded, " ++
    s!"{outcome.stats.listing.skipped.length} skipped, {outcome.errors.length} errors"

/-- A walk from beginning to end. -/
structure Execution where
  result : Except WalkError WalkOutcome
  /-- The reports of the workers. -/
  workerEvents : List Log.Event
  /-- The reports of the walk itself. -/
  events : List Log.Event

/-- Walks the tree of a lister with the workers taking turns, in at most `fuel` steps. -/
def execute (lister : Lister) (config : WalkConfig) (fuel : Nat) : Execution :=
  match rootError? lister with
  | some error => ⟨.error error, [], []⟩
  | none =>
    let state := runFrom lister config fuel (.start config)
    match conclude lister state with
    | .error error => ⟨.error error, state.events, []⟩
    | .ok outcome =>
      ⟨.ok outcome, state.events, [⟨.walk, .info, summary lister.root outcome⟩]⟩

end Walk

end TreeManifest
