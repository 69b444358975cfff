import TreeManifest.Flags.Restore
import TreeManifest.Proofs.Task.Triple

/-!
# What a phase changes

A phase takes its bits from the stored word and leaves all others as they are. The bits of the early
phases are apart from those that block changes, so only the late phase makes an object unchangeable.

## Main definitions

- `FlagTarget.Reaches`: the open object through which the word of a target is changed.

## Main statements

- `Flags.merge_and_of_disjoint`: bits outside the allowed ones are kept.
- `FlagPhase.effectiveBits_and_immutableClass`: the early phases leave blocking bits alone.
- `FlagRestorer.maintains_restore`: what a phase does to a state.
-/

namespace TreeManifest

/-! ## Words -/

namespace Flags

theorem eq_of_getLsbD {first second : UInt32}
    (h : ∀ bit < 32, first.toBitVec.getLsbD bit = second.toBitVec.getLsbD bit) :
    first = second := by
  rw [← UInt32.toBitVec_inj]
  exact BitVec.eq_of_getLsbD_eq h

/-- A bit of a merged word comes from the stored word where it may change. -/
theorem getLsbD_merge (current stored allowed : UInt32) {bit : Nat} (h : bit < 32) :
    (merge current stored allowed).toBitVec.getLsbD bit =
      bif allowed.toBitVec.getLsbD bit then stored.toBitVec.getLsbD bit
      else current.toBitVec.getLsbD bit := by
  simp only [merge, UInt32.toBitVec_and, UInt32.toBitVec_or, UInt32.toBitVec_not,
    BitVec.getLsbD_and, BitVec.getLsbD_or, BitVec.getLsbD_not, h, decide_true, Bool.true_and]
  cases allowed.toBitVec.getLsbD bit <;> simp

/-- A merge leaves the bits that it does not allow as they are. -/
theorem merge_and_of_disjoint {current stored allowed kept : UInt32} (h : allowed &&& kept = 0) :
    merge current stored allowed &&& kept = current &&& kept := by
  refine eq_of_getLsbD fun bit hbit => ?_
  have hbits : (allowed.toBitVec.getLsbD bit && kept.toBitVec.getLsbD bit) = false := by
    have hzero := congrArg (·.toBitVec.getLsbD bit) h
    simpa using hzero
  simp only [UInt32.toBitVec_and, BitVec.getLsbD_and, getLsbD_merge _ _ _ hbit]
  cases hallowed : allowed.toBitVec.getLsbD bit with
  | false => rfl
  | true =>
    rw [hallowed, Bool.true_and] at hbits
    simp [hbits]

end Flags

namespace FlagPhase

theorem effectiveBits_and_not_bits (phase : FlagPhase) (family : FlagFamily)
    (privilege : Privilege) (mask : FlagMask) :
    phase.effectiveBits family privilege mask &&& ~~~mask.bits = 0 := by
  rw [effectiveBits, UInt32.and_assoc, UInt32.and_not_self, UInt32.and_zero]

theorem permittedBits_and_immutableClass {phase : FlagPhase} (h : phase ≠ .late)
    (family : FlagFamily) (privilege : Privilege) :
    phase.permittedBits family privilege &&& family.immutableClass = 0 := by
  cases phase with
  | late => exact absurd rfl h
  | earlyDirectory | earlyFile => cases family <;> cases privilege <;> decide

/-- No phase but the late one touches the bits that block changes. -/
theorem effectiveBits_and_immutableClass {phase : FlagPhase} (h : phase ≠ .late)
    (family : FlagFamily) (privilege : Privilege) (mask : FlagMask) :
    phase.effectiveBits family privilege mask &&& family.immutableClass = 0 := by
  rw [effectiveBits, UInt32.and_assoc, UInt32.and_comm mask.bits, ← UInt32.and_assoc,
    permittedBits_and_immutableClass h, UInt32.zero_and]

end FlagPhase

/-! ## Runs -/

variable {σ : Type} {system : System σ} {invariant : σ → Prop}

/-- The open object through which the word of a target is changed. -/
def FlagTarget.Reaches (system : System σ) (state : σ) (handle : Handle) : FlagTarget → Prop
  | .opened other _ => handle = other
  | .named path => ∃ directory, (system.view state).openForFlags path directory = .ok handle

namespace FlagRestorer

/-- Nothing happens when no flag word is stored. -/
theorem restore_of_flags_eq_none {σ : Type} {entry : Entry} (h : entry.flags = none)
    (restorer : FlagRestorer) (system : System σ) (phase : FlagPhase) (reached : FlagTarget)
    (mask : FlagMask) :
    restorer.restore system phase entry reached mask = pure (.ok .nothingToDo) := by
  rw [restore, h]

theorem maintains_softFailure (path : Path) (error : IoError) :
    Task.Maintains invariant (softFailure path error) := by
  intro state hstate
  unfold softFailure
  split
  · exact hstate
  · split
    · exact hstate
    · exact hstate

theorem ensures_restoreOpened {state : σ} {handle : Handle} {stored allowed : UInt32} (path : Path)
    (hstate : invariant state) (h : ∀ current, (system.view state).flagWord handle = .ok current →
      invariant (system.setFlagWord handle (Flags.merge current stored allowed) state).2) :
    invariant ((restoreOpened system handle path stored allowed).run state).state := by
  simp only [restoreOpened, Task.run_bind, Task.run_inspect]
  split
  · exact maintains_softFailure path _ state hstate
  · next current hcurrent =>
    split
    · exact hstate
    · have hupdated := h current hcurrent
      simp only [Task.run_bind, Task.run_perform]
      split
      · exact maintains_softFailure path _ _ hupdated
      · exact hupdated

/-- A phase changes a state in one way at most: the object that its target reaches gets the allowed
bits of the stored word. -/
theorem maintains_restore {restorer : FlagRestorer} {phase : FlagPhase} {entry : Entry}
    {target : FlagTarget} {mask : FlagMask}
    (h : ∀ stored handle current state, restorer.family = .ioctl →
      invariant state → target.Reaches system state handle →
      (system.view state).flagWord handle = .ok current →
      invariant (system.setFlagWord handle
        (Flags.merge current stored (restorer.effectiveBits phase mask)) state).2) :
    Task.Maintains invariant (restorer.restore system phase entry target mask) := by
  intro state hstate
  unfold restore
  split
  · exact hstate
  · next stored hstored =>
    dsimp only
    split
    · exact hstate
    · next hcondition =>
      have hfamily : restorer.family = .ioctl := by
        simp only [not_or, ne_eq, Decidable.not_not] at hcondition
        exact hcondition.2.2.1
      split
      · next handle path =>
        exact ensures_restoreOpened path hstate fun current =>
          h stored handle current state hfamily hstate rfl
      · next path =>
        simp only [Task.run_bind, Task.run_inspect]
        split
        · exact hstate
        · next handle hhandle =>
          exact ensures_restoreOpened path hstate fun current =>
            h stored handle current state hfamily hstate ⟨_, hhandle⟩

end FlagRestorer

end TreeManifest
