import Mathlib.Logic.Relation
import TreeManifest.Proofs.Walk.Turn

/-!
# Nobody waits for nothing

A worker falls asleep when the stack is empty while another worker is busy, and whoever changes the
stack afterwards wakes it. So in every state of a walk a sleeper can rely on somebody who will still
hand a directory back. Nothing here depends on the tree: it may be endless, and any of its
directories, the root among them, may fail to be listed.

## Main definitions

- `Walk.Phase.busy`: whether a worker has taken a directory and not yet handed it back.
- `Walk.Attended`: what the stack tells about those who wait.
- `Walk.Rouses`, `Walk.Roams`: a sleeper wakes uncalled, and the walks in which that happens.

## Main statements

- `Walk.attended_step`, `Walk.attended_roams`: steps and walks keep the sleepers attended.
- `Walk.exists_step`: a walk that is not done goes on.
- `Walk.never_stuck_of_roams`: no state of a walk is stuck.
-/

namespace TreeManifest.Walk

/-- One for a worker that has taken a directory and not yet handed it back. -/
def Phase.busy : Phase → Nat
  | .ready | .asleep | .reporting _ | .exited => 0
  | .opening _ | .listing .. | .sending .. | .counting _ | .completing _ | .failing _ => 1

/-- What the stack tells about those who wait. -/
structure Attended (state : State) : Prop where
  /-- An open stack counts the busy workers. -/
  inFlight_eq : state.pending.closed = false → state.pending.inFlight = state.total Phase.busy
  /-- A worker sleeps only while another one is busy. -/
  asleep : .asleep ∈ state.workers →
    state.pending.closed = false ∧ state.pending.stack = [] ∧ state.pending.inFlight ≠ 0

/-- A sleeper wakes although nobody has called it. -/
inductive Rouses (before : State) : State → Prop where
  | rouse {worker : Nat} (hworker : before.workers[worker]? = some .asleep) :
      Rouses before (before.put worker .ready)

/-- One state follows another after any number of steps, between which sleepers may also wake
uncalled. -/
def Roams (lister : Lister) (config : WalkConfig) : State → State → Prop :=
  Relation.ReflTransGen fun before after => Step lister config before after ∨ Rouses before after

variable {lister : Lister} {config : WalkConfig} {state before after : State}
  {worker : Nat} {phase next : Phase} {middle : State}

/-! ## Sleepers -/

theorem notMem_workers_start (hready : phase ≠ .ready) (config : WalkConfig) :
    phase ∉ (State.start config).workers := by
  intro hmem
  exact hready (List.eq_of_mem_replicate hmem)

theorem asleep_notMem_awake (phases : List Phase) : .asleep ∉ phases.map Phase.awake := by
  intro hmem
  obtain ⟨old, -, hold⟩ := List.mem_map.1 hmem
  cases old <;> cases hold

/-- After sleepers were woken nobody sleeps. -/
theorem asleep_notMem_put (hworkers : middle.workers = state.workers.map Phase.awake)
    (hnext : next ≠ .asleep) : .asleep ∉ (middle.put worker next).workers := by
  intro hmem
  rcases List.mem_or_eq_of_mem_set hmem with hmem | heq
  · rw [hworkers] at hmem
    exact asleep_notMem_awake _ hmem
  · exact hnext heq.symm

theorem attended_start (config : WalkConfig) : Attended (.start config) where
  inFlight_eq _ := (total_start rfl config).symm
  asleep h := absurd h (notMem_workers_start (by simp) config)

/-- A turn that leaves the stack alone keeps the sleepers attended. -/
theorem attended_of_pending_eq (hattended : Attended state)
    (h : Turn lister config state phase middle next) (hworker : state.workers[worker]? = some phase)
    (hpending : middle.pending = state.pending) (hbusy : phase.busy = next.busy)
    (hnext : next ≠ .asleep) : Attended (middle.put worker next) := by
  have htotal := total_turn Phase.busy rfl h hworker
  have hstays : (middle.put worker next).pending = state.pending := hpending
  constructor
  · intro hopen
    rw [hstays] at hopen ⊢
    have hcount := hattended.inFlight_eq hopen
    omega
  · intro hmem
    rw [hstays]
    exact hattended.asleep ((h.mem_workers_of_put (by simp) hmem).resolve_left hnext)

/-- A turn that hands a directory back keeps the sleepers attended, for it wakes them. -/
theorem attended_of_complete (hattended : Attended state)
    (h : Turn lister config state phase middle next) (hworker : state.workers[worker]? = some phase)
    {subdirectories : List Path} (hpending : middle.pending = state.pending.complete subdirectories)
    (hworkers : middle.workers = state.workers.map Phase.awake) (hphase : phase.busy = 1)
    (hnext : next.busy = 0) (hawake : next ≠ .asleep) : Attended (middle.put worker next) := by
  have htotal := total_turn Phase.busy rfl h hworker
  have hstays : (middle.put worker next).pending = state.pending.complete subdirectories := hpending
  constructor
  · intro hopen
    rw [hstays] at hopen ⊢
    have hcount := hattended.inFlight_eq hopen
    show state.pending.inFlight - 1 = _
    omega
  · intro hmem
    exact absurd hmem (asleep_notMem_put hworkers hawake)

theorem attended_turn (hattended : Attended state) (h : Turn lister config state phase middle next)
    (hworker : state.workers[worker]? = some phase) : Attended (middle.put worker next) := by
  have htotal := total_turn Phase.busy rfl h hworker
  cases hturn : h with
  | take hopen hstack =>
    constructor
    · intro _
      have hcount := hattended.inFlight_eq hopen
      change _ + 0 = _ + 1 at htotal
      show state.pending.inFlight + 1 = _
      omega
    · intro hmem
      -- Nobody sleeps while a directory waits.
      have hasleep := (h.mem_workers_of_put (by simp) hmem).resolve_left (by simp)
      have hempty := (hattended.asleep hasleep).2.1
      simp [hstack] at hempty
  | leave hclosed =>
    constructor
    · intro hopen
      exact absurd (hclosed.symm.trans hopen) (by simp)
    · intro hmem
      -- Nobody sleeps once the stack is closed, so nobody has to be woken.
      have hasleep := (h.mem_workers_of_put (by simp) hmem).resolve_left (by simp)
      have hopen := (hattended.asleep hasleep).1
      simp [hclosed] at hopen
  | close hopen hstack hidle =>
    constructor
    · intro hopen
      cases hopen
    · intro hmem
      exact absurd hmem (asleep_notMem_put (workers_wakeAll _) (by simp))
  | sleep hopen hstack hbusy =>
    constructor
    · intro _
      have hcount := hattended.inFlight_eq hopen
      change _ + 0 = _ + 0 at htotal
      show state.pending.inFlight = _
      omega
    · intro _
      exact ⟨hopen, hstack, hbusy⟩
  | refuse | enter | skip | exclude | keep | send | finish | count | report =>
    exact attended_of_pending_eq hattended h hworker rfl rfl (by simp)
  | complete subdirectories =>
    exact attended_of_complete hattended h hworker rfl (workers_wakeAll _) rfl rfl (by simp)
  | giveBack events hstop =>
    exact attended_of_complete hattended h hworker rfl (workers_wakeAll _) rfl rfl (by simp)
  | abort hstop =>
    -- The worker does not hand its directory back, but a closed stack counts nothing.
    constructor
    · intro hopen
      cases hopen
    · intro hmem
      exact absurd hmem (asleep_notMem_put (workers_wakeAll _) (by simp))

/-- Every step keeps the sleepers attended. -/
theorem attended_step (hattended : Attended before) (h : Step lister config before after) :
    Attended after := by
  rcases step_cases h with ⟨entry, rest, hchannel, rfl⟩ |
      ⟨worker, phase, middle, next, hworker, hturn, rfl⟩
  · exact ⟨hattended.inFlight_eq, hattended.asleep⟩
  · exact attended_turn hattended hturn hworker

theorem attended_rouses (hattended : Attended before) (h : Rouses before after) :
    Attended after := by
  obtain ⟨hworker⟩ := h
  have hset := sum_map_set Phase.busy .ready hworker
  constructor
  · intro hopen
    have hcount := hattended.inFlight_eq hopen
    exact hcount.trans hset.symm
  · intro hmem
    have hasleep := (List.mem_or_eq_of_mem_set hmem).resolve_right (by simp)
    exact hattended.asleep hasleep

/-- Sleepers are attended in every state that can be reached, uncalled waking included. -/
theorem attended_roams (hattended : Attended before) (h : Roams lister config before after) :
    Attended after := by
  induction h with
  | refl => exact hattended
  | tail _ hlast ih =>
    rcases hlast with hstep | hrouses
    · exact attended_step ih hstep
    · exact attended_rouses ih hrouses

/-! ## Going on -/

/-- Whom a sleeper waits for. -/
theorem Attended.exists_busy (hattended : Attended state) (hasleep : .asleep ∈ state.workers) :
    ∃ phase ∈ state.workers, phase.busy ≠ 0 := by
  obtain ⟨hopen, -, hbusy⟩ := hattended.asleep hasleep
  rw [hattended.inFlight_eq hopen] at hbusy
  by_contra hnone
  push Not at hnone
  exact hbusy (total_eq_zero hnone)

/-- Unless all workers have left, one of them neither sleeps nor has left. -/
theorem Attended.exists_active (hattended : Attended state)
    (h : ∃ phase ∈ state.workers, phase ≠ .exited) :
    ∃ phase ∈ state.workers, phase ≠ .asleep ∧ phase ≠ .exited := by
  obtain ⟨phase, hphase, hexited⟩ := h
  by_cases hasleep : phase = .asleep
  · subst hasleep
    obtain ⟨other, hother, hbusy⟩ := hattended.exists_busy hphase
    refine ⟨other, hother, ?_, ?_⟩
    · rintro rfl
      exact hbusy rfl
    · rintro rfl
      exact hbusy rfl
  · exact ⟨phase, hphase, hasleep, hexited⟩

/-- A worker that neither sleeps nor has left can make a step while the channel is empty. -/
theorem exists_step_of_worker (hworker : state.workers[worker]? = some phase)
    (hchannel : state.channel = []) (hasleep : phase ≠ .asleep) (hexited : phase ≠ .exited) :
    ∃ after, Step lister config state after := by
  have hstep : ∃ after, workerStep? lister config state worker phase = some after := by
    cases phase with
    | asleep => exact absurd rfl hasleep
    | exited => exact absurd rfl hexited
    | listing directory todo result => cases todo <;> exact ⟨_, rfl⟩
    | sending entry directory todo result =>
      have hroom : state.channel.length < config.capacity := by
        rw [hchannel]
        exact config.capacity_pos
      exact ⟨_, if_pos hroom⟩
    | _ => exact ⟨_, rfl⟩
  obtain ⟨after, hafter⟩ := hstep
  refine ⟨after, .worker worker, ?_⟩
  rw [step?, hworker]
  exact hafter

theorem isDone_eq_true_iff :
    state.isDone = true ↔ state.channel = [] ∧ ∀ phase ∈ state.workers, phase = .exited := by
  rw [State.isDone, Bool.and_eq_true, List.isEmpty_iff, List.all_eq_true]
  refine and_congr_right fun _ => forall₂_congr fun phase _ => ?_
  cases phase <;> simp

/-- A walk that is not done goes on. -/
theorem exists_step (hattended : Attended state) (hdone : state.isDone = false) :
    ∃ after, Step lister config state after := by
  cases hchannel : state.channel with
  | cons entry rest =>
    -- The collector can always receive, so a worker with an entry to send waits for it only.
    refine ⟨{ state with channel := rest, received := state.received ++ [entry] }, .collector, ?_⟩
    rw [step?, collectorStep?, hchannel]
  | nil =>
    have hsome : ∃ phase ∈ state.workers, phase ≠ .exited := by
      by_contra hnone
      push Not at hnone
      simp [isDone_eq_true_iff.2 ⟨hchannel, hnone⟩] at hdone
    obtain ⟨phase, hphase, hasleep, hexited⟩ := hattended.exists_active hsome
    obtain ⟨worker, hworker⟩ := List.mem_iff_getElem?.1 hphase
    exact exists_step_of_worker hworker hchannel hasleep hexited

/-- No state of a walk is stuck, whatever its tree is like and whichever of its directories cannot
be listed: the walk is done or somebody can make a step, and the workers that have not left do not
all sleep. Once the stack is closed nobody sleeps, so one that leaves then has nobody to wake. -/
theorem never_stuck_of_roams (h : Roams lister config (.start config) state) :
    ((state.channel = [] ∧ ∀ phase ∈ state.workers, phase = .exited) ∨
        ∃ after, Step lister config state after) ∧
      ((∀ phase ∈ state.workers, phase = .asleep ∨ phase = .exited) →
        ∀ phase ∈ state.workers, phase = .exited) ∧
      (state.pending.closed = true → .asleep ∉ state.workers) := by
  have hattended := attended_roams (attended_start config) h
  refine ⟨?_, ?_, ?_⟩
  · cases hdone : state.isDone with
    | true => exact .inl (isDone_eq_true_iff.1 hdone)
    | false => exact .inr (exists_step hattended hdone)
  · intro hall
    by_contra hsome
    push Not at hsome
    obtain ⟨phase, hphase, hasleep, hexited⟩ := hattended.exists_active hsome
    exact (hall phase hphase).elim hasleep hexited
  · intro hclosed hasleep
    have hopen := (hattended.asleep hasleep).1
    simp [hclosed] at hopen

/-- A tree of which nothing can be read, not even its root. -/
def sealedTree : Lister :=
  .native [0x72] {} {
    stat := fun _ => .error (.os .eacces)
    lstat := fun _ => .error (.os .eacces)
    readLink := fun _ => .error (.os .eacces)
    readDirectory := fun _ => .error (.os .eacces)
    attributeNames := fun _ => .error (.os .eacces)
    attributeValue := fun _ _ => .error (.os .eacces)
    openObject := fun _ _ => .error (.os .eacces)
    flagWord := fun _ => .error (.os .eacces) }

def twoWorkers : WalkConfig := (WalkConfig.ofProcessors 2).setCapacity 0

/-- The first worker has failed to list the root and is about to stop the other, which sleeps. -/
def beforeStop : State :=
  openDirectory sealedTree (takeDirectory (takeDirectory (.start twoWorkers) 0) 1) 0 []

/-- The sleeper wakes uncalled before the other worker stops it, and the walk is not stuck. -/
theorem never_stuck_of_roams_sealedTree :
    .asleep ∈ beforeStop.workers ∧
      Roams sealedTree twoWorkers (.start twoWorkers) (beforeStop.put 1 .ready) ∧
      ∃ after, Step sealedTree twoWorkers (beforeStop.put 1 .ready) after := by
  have hfirst : Step sealedTree twoWorkers (.start twoWorkers)
      (takeDirectory (.start twoWorkers) 0) := ⟨.worker 0, rfl⟩
  have hsecond : Step sealedTree twoWorkers (takeDirectory (.start twoWorkers) 0)
      (takeDirectory (takeDirectory (.start twoWorkers) 0) 1) := ⟨.worker 1, rfl⟩
  have hthird : Step sealedTree twoWorkers
      (takeDirectory (takeDirectory (.start twoWorkers) 0) 1) beforeStop := ⟨.worker 0, rfl⟩
  have hroams : Roams sealedTree twoWorkers (.start twoWorkers) (beforeStop.put 1 .ready) :=
    (((Relation.ReflTransGen.single (.inl hfirst)).tail (.inl hsecond)).tail (.inl hthird)).tail
      (.inr (.rouse rfl))
  refine ⟨List.mem_of_getElem? (i := 1) rfl, hroams, ?_⟩
  refine (never_stuck_of_roams hroams).1.resolve_left ?_
  rintro ⟨-, hleft⟩
  have hexited := hleft .ready (List.mem_of_getElem? (i := 1) rfl)
  cases hexited

end TreeManifest.Walk
