import Mathlib.Algebra.BigOperators.Group.List.Basic
import Mathlib.Tactic.Abel
import TreeManifest.Proofs.Walk.Tree
import TreeManifest.Walk.Machine

/-!
# Turns of a worker

A step is either the collector's or the turn of one worker. A turn takes the worker from one phase
to the next; besides, it changes shared parts of the state and may wake the others.

## Main definitions

- `Walk.Turn`: the turns, one for each thing that a worker can do.
- `Walk.State.total`: a measure of phases added up over the workers.

## Main statements

- `Walk.step_cases`: every step is the collector's or a turn.
- `Walk.total_turn`: a turn changes a total by what it does to the phase of its worker.
-/

namespace TreeManifest.Walk

/-- The turn of a worker: from a phase to a changed state and the next phase. The state does not yet
hold the next phase. -/
inductive Turn (lister : Lister) (config : WalkConfig) (state : State) :
    Phase → State → Phase → Prop where
  | take {directory : Path} {rest : List Path} (hopen : state.pending.closed = false)
      (hstack : state.pending.stack = directory :: rest) :
      Turn lister config state .ready
        { state with pending := ⟨rest, state.pending.inFlight + 1, false⟩ } (.opening directory)
  /-- Leave because the stack is closed. -/
  | leave (hclosed : state.pending.closed = true) :
      Turn lister config state .ready state .exited
  /-- Close the stack and leave. -/
  | close (hopen : state.pending.closed = false) (hstack : state.pending.stack = [])
      (hidle : state.pending.inFlight = 0) :
      Turn lister config state .ready
        { state with pending := { state.pending with closed := true } }.wakeAll .exited
  | sleep (hopen : state.pending.closed = false) (hstack : state.pending.stack = [])
      (hbusy : state.pending.inFlight ≠ 0) : Turn lister config state .ready state .asleep
  /-- Open a directory whose names cannot be read. -/
  | refuse {directory : Path} {error : WalkError} (events : List Log.Event)
      (hopened : lister.opened directory = .error error) :
      Turn lister config state (.opening directory) (state.note events) (.failing error)
  | enter {directory : Path} {children : List Child} {skipped : List Path} (events : List Log.Event)
      (hopened : lister.opened directory = .ok (children, skipped)) :
      Turn lister config state (.opening directory) (state.note events)
        (.listing directory children { stats := { skipped } })
  /-- Pass over a child that cannot be captured. -/
  | skip {child : Child} (directory : Path) (todo : List Child) (listing : Listing)
      (events : List Log.Event) (hselected : lister.selected child = .skipped) :
      Turn lister config state (.listing directory (child :: todo) listing) (state.note events)
        (.listing directory todo (listing.skip child.entry.path))
  /-- Leave a marked child out. -/
  | exclude {child : Child} (directory : Path) (todo : List Child) (listing : Listing)
      (events : List Log.Event) (hselected : lister.selected child = .excluded) :
      Turn lister config state (.listing directory (child :: todo) listing) (state.note events)
        (.listing directory todo listing.exclude)
  | keep {child : Child} {entry classified : Entry} {tracker : Hardlink.Tracker} (directory : Path)
      (todo : List Child) (listing : Listing) (events : List Log.Event)
      (hselected : lister.selected child = .kept entry)
      (hclassify :
        lister.classify state.tracker entry child.stat.linkCount = (classified, tracker)) :
      Turn lister config state (.listing directory (child :: todo) listing)
        { state.note events with tracker }
        (.sending classified directory todo (listing.keep classified))
  | send (entry : Entry) (directory : Path) (todo : List Child) (listing : Listing)
      (hroom : state.channel.length < config.capacity) :
      Turn lister config state (.sending entry directory todo listing)
        { state with channel := state.channel ++ [entry] } (.listing directory todo listing.emit)
  | finish (directory : Path) (listing : Listing) :
      Turn lister config state (.listing directory [] listing) state (.counting listing)
  | count (listing : Listing) :
      Turn lister config state (.counting listing)
        { state with stats := {
            directories := state.stats.directories + 1
            listing := state.stats.listing.merge listing.stats } }
        (.completing listing.subdirectories)
  | complete (subdirectories : List Path) :
      Turn lister config state (.completing subdirectories)
        { state with pending := state.pending.complete subdirectories }.wakeAll .ready
  /-- Stop all workers. -/
  | abort {error : WalkError} (hstop : error.stopsWorkers = true) :
      Turn lister config state (.failing error)
        { state with pending := state.pending.abort }.wakeAll (.reporting error)
  /-- Hand a directory back that could not be listed. -/
  | giveBack {error : WalkError} (events : List Log.Event) (hstop : error.stopsWorkers = false) :
      Turn lister config state (.failing error)
        ({ state with pending := state.pending.complete [] }.note events).wakeAll (.reporting error)
  | report (error : WalkError) :
      Turn lister config state (.reporting error) { state with errors := state.errors ++ [error] }
        .ready

variable {lister : Lister} {config : WalkConfig} {state before after : State}

/-- Asking for a directory is a turn. -/
theorem turn_of_takeDirectory (worker : Nat) :
    ∃ middle next, Turn lister config state .ready middle next ∧
      takeDirectory state worker = middle.put worker next := by
  unfold takeDirectory Pending.pop
  cases hclosed : state.pending.closed with
  | true => exact ⟨_, _, .leave hclosed, by simp⟩
  | false =>
    cases hstack : state.pending.stack with
    | cons directory rest =>
      refine ⟨_, _, .take hclosed hstack, ?_⟩
      simp
    | nil =>
      by_cases hidle : state.pending.inFlight = 0
      · refine ⟨_, _, .close hclosed hstack hidle, ?_⟩
        simp [hidle, hstack]
      · refine ⟨_, _, .sleep hclosed hstack hidle, ?_⟩
        simp [hidle]

/-- Opening a directory is a turn. -/
theorem turn_of_openDirectory (worker : Nat) (directory : Path) :
    ∃ middle next, Turn lister config state (.opening directory) middle next ∧
      openDirectory lister state worker directory = middle.put worker next := by
  cases hopened : lister.opened directory with
  | error error =>
    refine ⟨_, _, .refuse ((lister.openDirectory directory).run ()).events hopened, ?_⟩
    have hvalue : ((lister.openDirectory directory).run ()).value = .error error := hopened
    simp only [openDirectory, hvalue]
  | ok found =>
    refine ⟨_, _, .enter ((lister.openDirectory directory).run ()).events hopened, ?_⟩
    have hvalue : ((lister.openDirectory directory).run ()).value = .ok found := hopened
    simp only [openDirectory, hvalue]

/-- Capturing a child is a turn. -/
theorem turn_of_captureChild (worker : Nat) (directory : Path) (child : Child) (todo : List Child)
    (listing : Listing) :
    ∃ middle next,
      Turn lister config state (.listing directory (child :: todo) listing) middle next ∧
      captureChild lister state worker directory child todo listing = middle.put worker next := by
  let events := ((lister.select child).run ()).events
  cases hselected : lister.selected child with
  | skipped =>
    refine ⟨_, _, .skip directory todo listing events hselected, ?_⟩
    have hvalue : ((lister.select child).run ()).value = .skipped := hselected
    simp only [captureChild, hvalue, events]
  | excluded =>
    refine ⟨_, _, .exclude directory todo listing events hselected, ?_⟩
    have hvalue : ((lister.select child).run ()).value = .excluded := hselected
    simp only [captureChild, hvalue, events]
  | kept entry =>
    refine ⟨_, _, .keep directory todo listing events hselected rfl, ?_⟩
    have hvalue : ((lister.select child).run ()).value = .kept entry := hselected
    simp only [captureChild, hvalue, events]
    rfl

/-- What a worker does in a phase is a turn. -/
theorem turn_of_workerStep? {worker : Nat} {phase : Phase}
    (h : workerStep? lister config state worker phase = some after) :
    ∃ middle next, Turn lister config state phase middle next ∧ after = middle.put worker next := by
  cases phase with
  | ready =>
    obtain ⟨middle, next, hturn, heq⟩ := @turn_of_takeDirectory lister config state worker
    exact ⟨middle, next, hturn, (Option.some.inj h).symm.trans heq⟩
  | asleep => cases h
  | opening directory =>
    obtain ⟨middle, next, hturn, heq⟩ :=
      @turn_of_openDirectory lister config state worker directory
    exact ⟨middle, next, hturn, (Option.some.inj h).symm.trans heq⟩
  | listing directory todo listing =>
    cases todo with
    | nil => exact ⟨_, _, .finish directory listing, (Option.some.inj h).symm⟩
    | cons child todo =>
      obtain ⟨middle, next, hturn, heq⟩ :=
        @turn_of_captureChild lister config state worker directory child todo listing
      exact ⟨middle, next, hturn, (Option.some.inj h).symm.trans heq⟩
  | sending entry directory todo listing =>
    rw [workerStep?] at h
    split at h
    · next hroom =>
      exact ⟨_, _, .send entry directory todo listing hroom, (Option.some.inj h).symm⟩
    · cases h
  | counting listing => exact ⟨_, _, .count listing, (Option.some.inj h).symm⟩
  | completing subdirectories =>
    exact ⟨_, _, .complete subdirectories, (Option.some.inj h).symm⟩
  | failing error =>
    cases hstop : error.stopsWorkers with
    | true =>
      refine ⟨_, _, .abort hstop, (Option.some.inj h).symm.trans ?_⟩
      simp only [giveUp, hstop, if_true]
    | false =>
      refine ⟨_, _, .giveBack [⟨.walk, .warn, error.message⟩] hstop, ?_⟩
      refine (Option.some.inj h).symm.trans ?_
      simp only [giveUp, hstop, Bool.false_eq_true, if_false]
  | reporting error => exact ⟨_, _, .report error, (Option.some.inj h).symm⟩
  | exited => cases h

/-- Every step is the collector's or the turn of a worker. -/
theorem step_cases (h : Step lister config before after) :
    (∃ entry rest, before.channel = entry :: rest ∧
      after = { before with channel := rest, received := before.received ++ [entry] }) ∨
    ∃ worker phase middle next, before.workers[worker]? = some phase ∧
      Turn lister config before phase middle next ∧ after = middle.put worker next := by
  obtain ⟨actor, hactor⟩ := h
  cases actor with
  | collector =>
    left
    rw [step?, collectorStep?] at hactor
    split at hactor
    · cases hactor
    · next entry rest hchannel => exact ⟨entry, rest, hchannel, (Option.some.inj hactor).symm⟩
  | worker worker =>
    right
    rw [step?] at hactor
    obtain ⟨phase, hphase, hstep⟩ := Option.bind_eq_some_iff.1 hactor
    obtain ⟨middle, next, hturn, heq⟩ := turn_of_workerStep? hstep
    exact ⟨worker, phase, middle, next, hphase, hturn, heq⟩

/-! ## Totals -/

def Phase.awake : Phase → Phase
  | .asleep => .ready
  | phase => phase

theorem workers_wakeAll (state : State) :
    state.wakeAll.workers = state.workers.map Phase.awake := by
  unfold State.wakeAll
  refine List.map_congr_left fun phase _ => ?_
  cases phase <;> rfl

/-- A turn leaves the workers alone, or wakes the sleepers. -/
theorem Turn.workers_eq {phase next : Phase} {middle : State}
    (h : Turn lister config state phase middle next) :
    middle.workers = state.workers ∨ middle.workers = state.workers.map Phase.awake := by
  cases h with
  | take | leave | sleep | refuse | enter | skip | exclude | keep | send | finish | count
  | report => exact .inl rfl
  | close | complete | abort | giveBack => exact .inr (workers_wakeAll _)

/-- Sleepers have no turn. -/
theorem Turn.ne_asleep {phase next : Phase} {middle : State}
    (h : Turn lister config state phase middle next) : phase.awake = phase := by
  cases h <;> rfl

/-- The worker is still in its phase when the rest of the turn is done. -/
theorem Turn.getElem?_workers {phase next : Phase} {middle : State} {worker : Nat}
    (h : Turn lister config state phase middle next)
    (hphase : state.workers[worker]? = some phase) : middle.workers[worker]? = some phase := by
  rcases h.workers_eq with heq | heq
  · rw [heq, hphase]
  · rw [heq, List.getElem?_map, hphase, Option.map_some, h.ne_asleep]

/-- A phase after a turn is the next one of its worker or was there before, unless it is that of a
woken sleeper. -/
theorem Turn.mem_workers_of_put {phase next found : Phase} {middle : State} {worker : Nat}
    (h : Turn lister config state phase middle next) (hfound : found ≠ .ready)
    (hmem : found ∈ (middle.put worker next).workers) : next = found ∨ found ∈ state.workers := by
  rcases List.mem_or_eq_of_mem_set hmem with hmem | heq
  · right
    rcases h.workers_eq with heq | heq
    · exact heq ▸ hmem
    · rw [heq] at hmem
      obtain ⟨old, hold, rfl⟩ := List.mem_map.1 hmem
      cases old with
      | asleep => exact absurd rfl hfound
      | _ => exact hold
  · exact .inl heq.symm

variable {M : Type} [AddCommMonoid M]

/-- A measure of phases added up over the workers. -/
def State.total (measure : Phase → M) (state : State) : M := (state.workers.map measure).sum

/-- A total of nothing is zero. -/
theorem total_eq_zero {measure : Phase → M} (h : ∀ phase ∈ state.workers, measure phase = 0) :
    state.total measure = 0 := by
  refine List.sum_eq_zero fun value hvalue => ?_
  obtain ⟨phase, hphase, rfl⟩ := List.mem_map.1 hvalue
  exact h phase hphase

theorem total_start {measure : Phase → M} (hready : measure .ready = 0) (config : WalkConfig) :
    (State.start config).total measure = 0 := by
  refine total_eq_zero fun phase hphase => ?_
  rw [List.eq_of_mem_replicate hphase, hready]

/-- Replacing one element of a list changes a sum by the difference. -/
theorem sum_map_set {α : Type} (measure : α → M) {list : List α} {index : Nat} {old : α} (new : α)
    (h : list[index]? = some old) :
    ((list.set index new).map measure).sum + measure old =
      (list.map measure).sum + measure new := by
  induction list generalizing index with
  | nil => cases h
  | cons a list ih =>
    cases index with
    | zero =>
      cases h
      rw [List.set_cons_zero, List.map_cons, List.map_cons, List.sum_cons, List.sum_cons]
      abel
    | succ index =>
      have htail := ih h
      rw [List.set_cons_succ, List.map_cons, List.map_cons, List.sum_cons, List.sum_cons, add_assoc,
        htail, add_assoc]

/-- Waking sleepers changes no sum to which they and ready workers add the same. -/
theorem sum_map_awake (measure : Phase → M) (hawake : measure .asleep = measure .ready)
    (phases : List Phase) :
    ((phases.map Phase.awake).map measure).sum = (phases.map measure).sum := by
  rw [List.map_map]
  refine congrArg List.sum (List.map_congr_left fun phase _ => ?_)
  cases phase with
  | asleep => exact hawake.symm
  | _ => rfl

/-- A turn changes a total by what it does to the phase of its worker. -/
theorem total_turn (measure : Phase → M) (hawake : measure .asleep = measure .ready)
    {worker : Nat} {phase next : Phase} {middle : State}
    (h : Turn lister config state phase middle next)
    (hphase : state.workers[worker]? = some phase) :
    (middle.put worker next).total measure + measure phase =
      state.total measure + measure next := by
  have hset := sum_map_set measure next (h.getElem?_workers hphase)
  have htotal : (middle.workers.map measure).sum = state.total measure := by
    rcases h.workers_eq with heq | heq
    · rw [heq]
      rfl
    · rw [heq, sum_map_awake measure hawake]
      rfl
  rw [← htotal]
  exact hset

end TreeManifest.Walk
