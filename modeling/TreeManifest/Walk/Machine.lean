import TreeManifest.Walk.Lister
import TreeManifest.Walk.Pending

/-!
# The workers of a walk

The workers share a stack of directories, the table of hard links, a bounded channel, counters and a
list of failures; a collector empties the channel. The machine below has one step for every action
that others can observe, so its runs are all the ways in which the actions of the workers can be
interleaved.

## Main definitions

- `Walk.Phase`: what a worker is about to do.
- `Walk.State`: the shared state and the phases of the workers.
- `Walk.step?`: the step of a worker or of the collector, if it can make one.
- `Walk.Step`, `Walk.Reaches`: the relation between states of one run.
- `Walk.runFrom`: the run in which the first one able to step does so.

## Design notes

A worker that finds nothing to do while others are busy falls asleep. Every change of the stack that
may concern a sleeper wakes all of them. A sleeper has no step of its own, and a worker with an
entry to send has none while the channel is full.
-/

namespace TreeManifest.Walk

structure Stats where
  /-- Directories listed, the root among them. -/
  directories : Nat := 0
  /-- The sum of the counters of all directories. -/
  listing : ListStats := {}
  deriving DecidableEq

/-- What a worker is about to do. -/
inductive Phase where
  /-- Take a directory. -/
  | ready
  /-- Wait until the stack changes. -/
  | asleep
  /-- Read and inspect the names of a directory. -/
  | opening (directory : Path)
  /-- Capture the next child of a directory. -/
  | listing (directory : Path) (todo : List Child) (listing : Listing)
  | sending (entry : Entry) (directory : Path) (todo : List Child) (listing : Listing)
  | counting (listing : Listing)
  /-- Hand the subdirectories of a listed directory over. -/
  | completing (subdirectories : List Path)
  /-- Hand a directory back that could not be listed, or stop all workers. -/
  | failing (error : WalkError)
  | reporting (error : WalkError)
  /-- Nothing any more. -/
  | exited

structure State where
  pending : Pending Path
  tracker : Hardlink.Tracker
  /-- The entries on their way, the oldest first. -/
  channel : List Entry
  received : List Entry
  stats : Stats
  errors : List WalkError
  workers : List Phase
  events : List Log.Event

/-- The state in which no worker has done anything yet. -/
def State.start (config : WalkConfig) : State where
  pending := .start []
  tracker := {}
  channel := []
  received := []
  stats := {}
  errors := []
  workers := List.replicate config.workers .ready
  events := []

namespace State

def put (state : State) (worker : Nat) (phase : Phase) : State :=
  { state with workers := state.workers.set worker phase }

/-- Makes all sleepers look at the stack again. -/
def wakeAll (state : State) : State :=
  { state with workers := state.workers.map fun
      | .asleep => .ready
      | phase => phase }

def note (state : State) (events : List Log.Event) : State :=
  { state with events := state.events ++ events }

/-- Whether all workers have left and everything sent was received. -/
def isDone (state : State) : Bool :=
  state.channel.isEmpty && state.workers.all fun
    | .exited => true
    | _ => false

end State

inductive Actor where
  | collector
  | worker (index : Nat)
  deriving DecidableEq

/-- A worker takes a directory. Closing the stack wakes the sleepers, finding it closed does not. -/
def takeDirectory (state : State) (worker : Nat) : State :=
  match state.pending.pop with
  | (.taken directory, pending) => { state with pending }.put worker (.opening directory)
  | (.finished, pending) =>
    (if state.pending.closed then state else { state with pending }.wakeAll).put worker .exited
  | (.blocked, pending) => { state with pending }.put worker .asleep

def openDirectory (lister : Lister) (state : State) (worker : Nat) (directory : Path) : State :=
  let run := (lister.openDirectory directory).run ()
  (state.note run.events).put worker <|
    match run.value with
    | .ok (children, skipped) => .listing directory children { stats := { skipped } }
    | .error error => .failing error

def captureChild (lister : Lister) (state : State) (worker : Nat) (directory : Path)
    (child : Child) (todo : List Child) (listing : Listing) : State :=
  let run := (lister.select child).run ()
  let state := state.note run.events
  match run.value with
  | .skipped => state.put worker (.listing directory todo (listing.skip child.entry.path))
  | .excluded => state.put worker (.listing directory todo listing.exclude)
  | .kept entry =>
    let (entry, tracker) := lister.classify state.tracker entry child.stat.linkCount
    { state with tracker }.put worker (.sending entry directory todo (listing.keep entry))

def addCounters (state : State) (worker : Nat) (listing : Listing) : State :=
  { state with
    stats := {
      directories := state.stats.directories + 1
      listing := state.stats.listing.merge listing.stats } }.put worker
    (.completing listing.subdirectories)

def giveUp (state : State) (worker : Nat) (error : WalkError) : State :=
  let state :=
    if error.stopsWorkers then { state with pending := state.pending.abort }
    else { state with pending := state.pending.complete [] }.note [⟨.walk, .warn, error.message⟩]
  state.wakeAll.put worker (.reporting error)

/-- The step of a worker in a phase, if it can make one. -/
def workerStep? (lister : Lister) (config : WalkConfig) (state : State) (worker : Nat) :
    Phase → Option State
  | .ready => some (takeDirectory state worker)
  | .asleep => none
  | .opening directory => some (openDirectory lister state worker directory)
  | .listing _ [] listing => some (state.put worker (.counting listing))
  | .listing directory (child :: todo) listing =>
    some (captureChild lister state worker directory child todo listing)
  | .sending entry directory todo listing =>
    if state.channel.length < config.capacity then
      some ({ state with channel := state.channel ++ [entry] }.put worker
        (.listing directory todo listing.emit))
    else none
  | .counting listing => some (addCounters state worker listing)
  | .completing subdirectories =>
    some ({ state with pending := state.pending.complete subdirectories }.wakeAll.put worker .ready)
  | .failing error => some (giveUp state worker error)
  | .reporting error =>
    some ({ state with errors := state.errors ++ [error] }.put worker .ready)
  | .exited => none

/-- The step of the collector, if something is on its way. -/
def collectorStep? (state : State) : Option State :=
  match state.channel with
  | [] => none
  | entry :: channel => some { state with channel, received := state.received ++ [entry] }

/-- The step of one of those who take part, if it can make one. -/
def step? (lister : Lister) (config : WalkConfig) (state : State) : Actor → Option State
  | .collector => collectorStep? state
  | .worker index => state.workers[index]?.bind (workerStep? lister config state index)

/-- One state follows another by the step of somebody. -/
def Step (lister : Lister) (config : WalkConfig) (before after : State) : Prop :=
  ∃ actor, step? lister config before actor = some after

/-- One state follows another after any number of steps. -/
inductive Reaches (lister : Lister) (config : WalkConfig) : State → State → Prop where
  | refl (state : State) : Reaches lister config state state
  | tail {first middle last : State} (steps : Reaches lister config first middle)
      (step : Step lister config middle last) : Reaches lister config first last

/-- Those who take part: the collector first, then the workers. -/
def actors (state : State) : List Actor :=
  .collector :: (List.range state.workers.length).map .worker

/-- The step of the first one that can make one. -/
def firstStep? (lister : Lister) (config : WalkConfig) (state : State) : Option State :=
  (actors state).findSome? (step? lister config state)

/-- The state after at most `fuel` steps, each made by the first one able to. -/
def runFrom (lister : Lister) (config : WalkConfig) : Nat → State → State
  | 0, state => state
  | fuel + 1, state =>
    match firstStep? lister config state with
    | some next => runFrom lister config fuel next
    | none => state

/-- A number of steps in which a walk of a tree with the given number of names ends. -/
def enoughSteps (names : Nat) (config : WalkConfig) : Nat :=
  10 * (names + 2) * (config.workers + 1)

theorem step_of_firstStep? {lister : Lister} {config : WalkConfig} {state next : State}
    (h : firstStep? lister config state = some next) : Step lister config state next := by
  obtain ⟨actor, _, hactor⟩ := List.exists_of_findSome?_eq_some h
  exact ⟨actor, hactor⟩

theorem reaches_runFrom (lister : Lister) (config : WalkConfig) (fuel : Nat)
    {first state : State} (h : Reaches lister config first state) :
    Reaches lister config first (runFrom lister config fuel state) := by
  induction fuel generalizing state with
  | zero => exact h
  | succ fuel ih =>
    unfold runFrom
    split
    · next heq => exact ih (h.tail (step_of_firstStep? heq))
    · exact h

end TreeManifest.Walk
