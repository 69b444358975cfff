import TreeManifest.Proofs.Walk.Balance
import TreeManifest.Proofs.Walk.Waiting

/-!
# The stack closes once everything was listed

The stack closes only when nobody can bring a directory any more. So a walk ends with nothing left
to do.

## Main definitions

- `Walk.Orderly`: what the stack tells about the workers.

## Main statements

- `Walk.stack_eq_nil_of_abort`: only a walk whose root cannot be listed is stopped.
- `Walk.orderly_turn`: turns keep the order.
-/

namespace TreeManifest.Walk

/-- A worker that brings no directories any more. -/
def Phase.Idle (phase : Phase) : Prop := phase.busy = 0 ∨ phase = .completing []

/-- What the stack tells about the workers. -/
structure Orderly (state : State) : Prop where
  /-- An open stack counts the busy workers. -/
  inFlight_eq : state.pending.closed = false → state.pending.inFlight = state.total Phase.busy
  /-- A closed stack is empty and stays so. -/
  closed : state.pending.closed = true →
    state.pending.stack = [] ∧ ∀ phase ∈ state.workers, phase.Idle
  /-- A worker sleeps only while another one is busy. -/
  asleep : .asleep ∈ state.workers →
    state.pending.closed = false ∧ state.pending.stack = [] ∧ state.pending.inFlight ≠ 0
  /-- A worker leaves only when the stack is closed. -/
  exited : .exited ∈ state.workers → state.pending.closed = true

variable {lister : Lister} {config : WalkConfig} {state before after : State}
  {account : Path → Multiset Mark} {worker : Nat} {phase next : Phase} {middle : State}

theorem Orderly.attended (horderly : Orderly state) : Attended state :=
  ⟨horderly.inFlight_eq, horderly.asleep⟩

theorem Attended.orderly (hattended : Attended state)
    (hclosed : state.pending.closed = true →
      state.pending.stack = [] ∧ ∀ phase ∈ state.workers, phase.Idle)
    (hexited : .exited ∈ state.workers → state.pending.closed = true) : Orderly state :=
  ⟨hattended.inFlight_eq, hclosed, hattended.asleep, hexited⟩

theorem orderly_start (config : WalkConfig) : Orderly (.start config) := by
  refine (attended_start config).orderly ?_ ?_
  · intro hclosed
    cases hclosed
  · intro hmem
    exact absurd hmem (notMem_workers_start (by simp) config)

/-! ## Stopping all workers -/

theorem card_account_pos (haccounts : lister.Accounts account) {directory : Path}
    (h : lister.HasDirectory directory) : 0 < (account directory).card := by
  rw [haccounts directory h]
  split
  · exact Nat.one_pos
  · rw [Multiset.card_add, Multiset.card_add, Multiset.card_singleton]
    omega

theorem eq_nil_of_dueBelow_eq_zero (haccounts : lister.Accounts account) {directories : List Path}
    (hall : ∀ directory ∈ directories, lister.HasDirectory directory)
    (h : dueBelow account directories = 0) : directories = [] := by
  cases directories with
  | nil => rfl
  | cons directory rest =>
    have hpositive := card_account_pos haccounts (hall directory List.mem_cons_self)
    have hcard := congrArg Multiset.card h
    rw [dueBelow_cons, Multiset.card_add, Multiset.card_zero] at hcard
    omega

/-- A worker that owes nothing brings no directories. -/
theorem idle_of_due_eq_zero (haccounts : lister.Accounts account) (hsound : phase.Sound lister)
    (h : phase.due lister account = 0) : phase.Idle := by
  have hcard : (phase.due lister account).card = 0 := by
    rw [h, Multiset.card_zero]
  cases phase with
  | ready | asleep | reporting | exited => exact .inl rfl
  -- Work on a directory owes at least the mark of the directory itself.
  | opening directory => exact absurd hcard (card_account_pos haccounts hsound).ne'
  | listing directory todo result =>
    rw [Phase.due, Multiset.card_add, Multiset.card_add, Multiset.card_singleton] at hcard
    omega
  | sending entry directory todo result =>
    rw [Phase.due, Multiset.card_add, Multiset.card_add, Multiset.card_singleton] at hcard
    omega
  | counting result =>
    rw [Phase.due, Multiset.card_add, Multiset.card_singleton] at hcard
    omega
  | completing subdirectories =>
    rw [eq_nil_of_dueBelow_eq_zero haccounts hsound h]
    exact .inr rfl
  | failing error => cases hcard

theorem eq_zero_of_mem_of_sum_eq_zero {list : List (Multiset Mark)} (h : list.sum = 0) :
    ∀ marks ∈ list, marks = 0 := by
  induction list with
  | nil => exact fun _ hmem => absurd hmem List.not_mem_nil
  | cons first rest ih =>
    have hcard := congrArg Multiset.card h
    rw [List.sum_cons, Multiset.card_add, Multiset.card_zero] at hcard
    have hfirst : first = 0 := Multiset.card_eq_zero.1 (by omega)
    have hrest : rest.sum = 0 := Multiset.card_eq_zero.1 (by omega)
    rw [List.forall_mem_cons]
    exact ⟨hfirst, ih hrest⟩

/-- When all workers are stopped, no directory waits and the other workers bring none. -/
theorem stack_eq_nil_of_abort (haccounts : lister.Accounts account) (hsound : Sound lister state)
    (hbalanced : Balanced lister account state) {error : WalkError}
    (hworker : state.workers[worker]? = some (.failing error)) (hstop : error.stopsWorkers = true) :
    state.pending.stack = [] ∧ ∀ phase ∈ (state.put worker .exited).workers, phase.Idle := by
  obtain ⟨directory, hdirectory, hopened⟩ := hsound.workers _ (List.mem_of_getElem? hworker)
  have hroot : directory = [] := by
    refine Lister.eq_nil_of_opened_eq_error hopened ?_
    rintro source rfl
    cases hstop
  subst hroot
  have haccount : account [] = {.failed error} := by
    rw [haccounts [] hdirectory, hopened]
  -- The failure is all that the tree gives, so nothing else is due.
  have hset : (state.put worker .exited).total (Phase.due lister account) + {.failed error} =
      state.total (Phase.due lister account) + 0 :=
    sum_map_set (Phase.due lister account) .exited hworker
  have hcard := congrArg Multiset.card hbalanced
  rw [State.outstanding, ← add_zero (state.total _), ← hset, haccount] at hcard
  simp only [Multiset.card_add, Multiset.card_singleton] at hcard
  have hstack : dueBelow account state.pending.stack = 0 := Multiset.card_eq_zero.1 (by omega)
  have hothers : (state.put worker .exited).total (Phase.due lister account) = 0 :=
    Multiset.card_eq_zero.1 (by omega)
  refine ⟨eq_nil_of_dueBelow_eq_zero haccounts hsound.stack hstack, fun phase hphase => ?_⟩
  have hdue : phase.due lister account = 0 :=
    eq_zero_of_mem_of_sum_eq_zero hothers _ (List.mem_map_of_mem hphase)
  have hphaseSound : phase.Sound lister := by
    rcases List.mem_or_eq_of_mem_set hphase with hmem | rfl
    · exact hsound.workers phase hmem
    · trivial
  exact idle_of_due_eq_zero haccounts hphaseSound hdue

/-! ## Order -/

theorem idle_awake (h : phase.Idle) : phase.awake.Idle := by
  cases phase with
  | asleep => exact .inl rfl
  | _ => exact h

theorem mem_set_or_eq {α : Type} {list : List α} {index : Nat} {first a : α} (second : α)
    (h : a ∈ list.set index first) : a = first ∨ a ∈ list.set index second := by
  induction list generalizing index with
  | nil => cases h
  | cons head list ih =>
    cases index with
    | zero =>
      rcases List.mem_cons.1 h with rfl | h
      · exact .inl rfl
      · exact .inr (List.mem_cons_of_mem _ h)
    | succ index =>
      rcases List.mem_cons.1 h with rfl | h
      · exact .inr List.mem_cons_self
      · exact (ih h).imp_right (List.mem_cons_of_mem _)

/-- A worker that does something else than waiting or handing nothing over keeps the stack open. -/
theorem Orderly.open_of_not_idle (horderly : Orderly state)
    (hworker : state.workers[worker]? = some phase) (hidle : ¬ phase.Idle) :
    state.pending.closed = false := by
  cases hclosed : state.pending.closed with
  | false => rfl
  | true => exact absurd ((horderly.closed hclosed).2 phase (List.mem_of_getElem? hworker)) hidle

/-- A worker that leaves the stack alone or hands something back keeps the order, if it stays and
has nothing to bring once the stack is closed. -/
theorem orderly_of_stays (horderly : Orderly state)
    (h : Turn lister config state phase middle next)
    (hworker : state.workers[worker]? = some phase)
    (hpending : middle.pending.closed = state.pending.closed)
    (hclosed : state.pending.closed = true → middle.pending.stack = [] ∧ next.Idle)
    (hleft : next ≠ .exited) : Orderly (middle.put worker next) := by
  have hstays : (middle.put worker next).pending.closed = state.pending.closed := hpending
  refine (attended_turn horderly.attended h hworker).orderly ?_ ?_
  · intro hafter
    rw [hstays] at hafter
    obtain ⟨hstack, hnext⟩ := hclosed hafter
    exact ⟨hstack, forall_mem_workers_put h (horderly.closed hafter).2 (.inl rfl) hnext⟩
  · intro hmem
    rw [hstays]
    exact horderly.exited ((h.mem_workers_of_put (by simp) hmem).resolve_left hleft)

/-- Handing a directory back keeps the order. -/
theorem orderly_of_complete (horderly : Orderly state)
    (h : Turn lister config state phase middle next) (hworker : state.workers[worker]? = some phase)
    {subdirectories : List Path} (hidle : phase.Idle → subdirectories = [])
    (hpending : middle.pending = state.pending.complete subdirectories) (hnext : next.busy = 0)
    (hleft : next ≠ .exited) : Orderly (middle.put worker next) := by
  have hsame : middle.pending.closed = state.pending.closed := by rw [hpending, Pending.complete]
  refine orderly_of_stays horderly h hworker hsame (fun hclosed => ⟨?_, .inl hnext⟩) hleft
  -- Once the stack is closed, a worker that hands something back has nothing to bring.
  obtain ⟨hstack, hall⟩ := horderly.closed hclosed
  have hnone := hidle (hall phase (List.mem_of_getElem? hworker))
  simp [hpending, Pending.complete, hnone, hstack]

/-- Turns keep the order. -/
theorem orderly_turn (haccounts : lister.Accounts account) (hsound : Sound lister state)
    (hbalanced : Balanced lister account state) (horderly : Orderly state)
    (h : Turn lister config state phase middle next)
    (hworker : state.workers[worker]? = some phase) : Orderly (middle.put worker next) := by
  have hattended : Attended (middle.put worker next) := attended_turn horderly.attended h hworker
  cases hturn : h with
  | take hopen hstack =>
    refine hattended.orderly ?_ ?_
    · intro hclosed
      cases hclosed
    · intro hmem
      have hclosed := horderly.exited ((h.mem_workers_of_put (by simp) hmem).resolve_left (by simp))
      simp [hopen] at hclosed
  | leave hclosed =>
    have hall := horderly.closed hclosed
    exact hattended.orderly
      (fun _ => ⟨hall.1, forall_mem_workers_put h hall.2 (.inl rfl) (.inl rfl)⟩) fun _ => hclosed
  | close hopen hstack hidle =>
    -- With nothing in flight no worker is busy.
    have hall : ∀ phase ∈ state.workers, phase.Idle := by
      intro phase hphase
      have hcount : (state.workers.map Phase.busy).sum = 0 :=
        (horderly.inFlight_eq hopen).symm.trans hidle
      exact .inl (List.sum_eq_zero_iff_forall_eq_nat.1 hcount _ (List.mem_map_of_mem hphase))
    exact hattended.orderly
      (fun _ => ⟨hstack, forall_mem_workers_put h hall (.inl rfl) (.inl rfl)⟩) fun _ => rfl
  | sleep hopen hstack hbusy =>
    exact orderly_of_stays horderly h hworker rfl (fun hclosed => ⟨hstack, .inl rfl⟩) (by simp)
  | refuse | enter | skip | exclude | keep | send | finish | count =>
    refine orderly_of_stays horderly h hworker rfl (fun hclosed => ?_) (by simp)
    have hopen := horderly.open_of_not_idle hworker (by rintro (hidle | hidle) <;> cases hidle)
    simp [hopen] at hclosed
  | complete subdirectories =>
    refine orderly_of_complete horderly h hworker ?_ rfl rfl (by simp)
    rintro (hidle | hidle)
    · cases hidle
    · exact Phase.completing.inj hidle
  | @abort error hstop =>
    -- The worker that stops the others is itself done; they were idle before.
    have hothers := (stack_eq_nil_of_abort haccounts hsound hbalanced hworker hstop).2
    refine hattended.orderly (fun _ => ⟨rfl, fun other hother => ?_⟩) fun _ => rfl
    rcases mem_set_or_eq .exited hother with rfl | hother
    · exact .inl rfl
    · rw [workers_wakeAll] at hother
      have hset : (state.workers.map Phase.awake).set worker .exited =
          (state.workers.set worker .exited).map Phase.awake := by
        rw [List.map_set]
        rfl
      obtain ⟨old, hold, rfl⟩ := List.mem_map.1 (hset ▸ hother)
      exact idle_awake (hothers old hold)
  | giveBack events hstop =>
    exact orderly_of_complete horderly h hworker (fun _ => rfl) rfl rfl (by simp)
  | report error =>
    exact orderly_of_stays horderly h hworker rfl
      (fun hclosed => ⟨(horderly.closed hclosed).1, .inl rfl⟩) (by simp)

end TreeManifest.Walk
