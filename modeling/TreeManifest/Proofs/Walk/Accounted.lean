import TreeManifest.Proofs.Walk.Cost

/-!
# A walk that has ended has collected its tree

Soundness, balance and order of the workers together pass from state to state. In a state in which
everybody has left nothing is due any more, so all marks of the tree were collected.

## Main definitions

- `Walk.Accounted`: what holds in every state of a walk, whatever can be read of its objects.

## Main statements

- `Walk.accounted_step`, `Walk.accounted_reaches`: steps and runs keep it.
- `Walk.Accounted.collected_eq`: a final state has collected the marks of the tree.
-/

namespace TreeManifest.Walk

/-- What holds in every state of a walk, whatever can be read of its objects. -/
structure Accounted (lister : Lister) (account : Path → Multiset Mark) (state : State) : Prop where
  sound : Sound lister state
  balanced : Balanced lister account state
  orderly : Orderly state
  workers_ne_nil : state.workers ≠ []

variable {lister : Lister} {config : WalkConfig} {state before after : State}
  {account : Path → Multiset Mark}

theorem accounted_start (lister : Lister) (config : WalkConfig) (account : Path → Multiset Mark) :
    Accounted lister account (.start config) where
  sound := sound_start lister config
  balanced := balanced_start lister config account
  orderly := orderly_start config
  workers_ne_nil := by
    intro hnil
    have hlength := congrArg List.length hnil
    rw [State.start, List.length_replicate] at hlength
    exact config.workers_pos.ne' hlength

theorem balanced_step (haccounts : lister.Accounts account) (hsound : Sound lister before)
    (hbalanced : Balanced lister account before) (h : Step lister config before after) :
    Balanced lister account after := by
  rcases step_cases h with ⟨entry, rest, hchannel, rfl⟩ |
      ⟨worker, phase, middle, next, hworker, hturn, rfl⟩
  · unfold Balanced at hbalanced ⊢
    rw [collected_collect hchannel]
    exact hbalanced
  · refine balanced_turn haccounts hturn hworker
      (hsound.workers phase (List.mem_of_getElem? hworker)) ?_ hbalanced
    rintro error rfl hstop
    exact (stack_eq_nil_of_abort haccounts hsound hbalanced hworker hstop).1

theorem orderly_step (haccounts : lister.Accounts account) (hsound : Sound lister before)
    (hbalanced : Balanced lister account before) (horderly : Orderly before)
    (h : Step lister config before after) : Orderly after := by
  rcases step_cases h with ⟨entry, rest, hchannel, rfl⟩ |
      ⟨worker, phase, middle, next, hworker, hturn, rfl⟩
  · exact ⟨horderly.inFlight_eq, horderly.closed, horderly.asleep, horderly.exited⟩
  · exact orderly_turn haccounts hsound hbalanced horderly hturn hworker

/-- Steps keep account. -/
theorem accounted_step (haccounts : lister.Accounts account)
    (haccounted : Accounted lister account before) (h : Step lister config before after) :
    Accounted lister account after where
  sound := sound_step h haccounted.sound
  balanced := balanced_step haccounts haccounted.sound haccounted.balanced h
  orderly := orderly_step haccounts haccounted.sound haccounted.balanced haccounted.orderly h
  workers_ne_nil := by
    have hlength : after.workers.length = before.workers.length := by
      rcases step_cases h with ⟨entry, rest, -, rfl⟩ |
          ⟨worker, phase, middle, next, -, hturn, rfl⟩
      · rfl
      · exact length_workers_put hturn
    rw [← List.length_pos_iff, hlength, List.length_pos_iff]
    exact haccounted.workers_ne_nil

/-- Runs keep account. -/
theorem accounted_reaches (haccounts : lister.Accounts account) {first last : State}
    (haccounted : Accounted lister account first) (h : Reaches lister config first last) :
    Accounted lister account last := by
  induction h with
  | refl => exact haccounted
  | tail _ step ih => exact accounted_step haccounts ih step

/-- Nothing is carried and nothing is due when all workers have left. -/
theorem total_eq_zero_of_isDone {M : Type} [AddCommMonoid M] {measure : Phase → M}
    (hexited : measure .exited = 0) (hdone : state.isDone = true) : state.total measure = 0 :=
  total_eq_zero fun phase hphase => (isDone_eq_true_iff.1 hdone).2 phase hphase ▸ hexited

/-- A final state has collected the marks of the tree. -/
theorem Accounted.collected_eq (haccounted : Accounted lister account state)
    (hdone : state.isDone = true) : (state.collected : Multiset Mark) = account [] := by
  -- There is a worker, and that it has left shows that the stack was closed.
  have hstack : state.pending.stack = [] := by
    obtain ⟨phase, hphase⟩ := List.exists_mem_of_ne_nil _ haccounted.workers_ne_nil
    have hclosed := haccounted.orderly.exited ((isDone_eq_true_iff.1 hdone).2 phase hphase ▸ hphase)
    exact (haccounted.orderly.closed hclosed).1
  have hbalanced := haccounted.balanced
  have hdue : state.total (Phase.due lister account) = 0 := total_eq_zero_of_isDone rfl hdone
  rw [Balanced, State.outstanding, hstack, hdue] at hbalanced
  rw [← hbalanced]
  show _ = (state.collected : Multiset Mark) + (0 + 0)
  rw [add_zero, add_zero]

end TreeManifest.Walk
