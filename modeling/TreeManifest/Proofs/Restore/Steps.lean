import TreeManifest.Proofs.Flags.Answers
import TreeManifest.Proofs.Restore.Finish

/-!
# The steps of finishing

Finishing makes five steps, each on the state that the one before it left, and looks at their values
only when all are over. So no failure stops a step, whatever the system and the provider do. The
answer is the first hard failure in the order of the steps.

## Main definitions

- `Restore.Finishing`: what the steps leave behind.
- `Restore.Finishing.failures`: their hard failures.
- `Restore.Finishing.Attempts`: the calls that the steps make.

## Main statements

- `Restore.run_finish`: finishing makes all steps and gives the first failure.
- `Restore.attempts_finishing`: every step that applies to an entry makes its call.
-/

namespace TreeManifest

variable {σ : Type}

/-- A phase that reports a word has written it to the object that it opened. -/
theorem FlagRestorer.Ends.exists_of_applied {system : System σ} {restorer : FlagRestorer}
    {phase : FlagPhase} {entry : Entry} {path : Path} {mask : FlagMask} {state after : σ}
    {value : Except MetadataError FlagOutcome} {word : UInt32}
    (h : restorer.Ends system phase entry (.named path) mask state value after)
    (hvalue : value = .ok (.applied word)) :
    ∃ handle directory, (system.view state).openForFlags path directory = .ok handle ∧
      (system.setFlagWord handle word state).1 = .ok () ∧
      after = (system.setFlagWord handle word state).2 := by
  cases h with
  | idle | unopened | unchanged => cases hvalue
  | unread | refused => exact absurd hvalue (refusal_ne_applied _ _ _)
  | applied _ hopening _ _ _ hwrite =>
    cases hvalue
    exact ⟨_, _, hopening, by rw [hwrite], by rw [hwrite]⟩

namespace Restore

/-! ## Runs -/

structure Finishing (σ : Type) where
  owner : Run σ Bool
  attributes : Run σ (Except MetadataError AttributeSync)
  permissions : Run σ (Except MetadataError Unit)
  time : Run σ (Except MetadataError Unit)
  flags : Run σ (Except MetadataError FlagOutcome)

/-- The steps in their order, each on the state that the one before it left, given what was found
when the object was inspected. -/
def finishing (system : System σ) (path : Path) (entry : Entry) (provider : AttributeProvider σ)
    (restorer : FlagRestorer) (options : RestoreOptions) (stat : Stat) (state : σ) : Finishing σ :=
  let owner := (finishOwner system path entry stat options).run state
  let attributes := (syncAttributes provider entry path).run owner.state
  let permissions := (restorePermissions system path entry).run attributes.state
  let time := (restoreTime system path entry).run permissions.state
  let flags := (restorer.restore system .late entry (.named path) options.flagMask).run time.state
  { owner, attributes, permissions, time, flags }

/-- The hard failures of the steps in their order. A change of ownership has none. -/
def Finishing.failures (steps : Finishing σ) : List MetadataError :=
  [failure? steps.attributes.value, failure? steps.permissions.value, failure? steps.time.value,
    failure? steps.flags.value].filterMap id

section Runs

variable {system : System σ} {root path : Path} {entry : Entry} {provider : AttributeProvider σ}
  {restorer : FlagRestorer} {options : RestoreOptions} {stat : Stat} {state : σ}
  {steps : Finishing σ}

/-- Finishing fails with the first failure of its steps. -/
theorem finishOutcome_eq_error_iff {ownerRestored : Bool}
    {attributes : Except MetadataError AttributeSync} {permissions time : Except MetadataError Unit}
    {flags : Except MetadataError FlagOutcome} {error : MetadataError} :
    finishOutcome ownerRestored attributes permissions time flags = .error error ↔
      ([failure? attributes, failure? permissions, failure? time, failure? flags].filterMap
        id).head? = some error := by
  cases attributes <;> cases permissions <;> cases time <;> cases flags <;>
    simp [finishOutcome, failure?]

/-- Finishing reports what its steps did if none of them failed. -/
theorem finishOutcome_eq_ok_iff {ownerRestored : Bool}
    {attributes : Except MetadataError AttributeSync} {permissions time : Except MetadataError Unit}
    {flags : Except MetadataError FlagOutcome} {report : FinishReport} :
    finishOutcome ownerRestored attributes permissions time flags = .ok report ↔
      report.ownerRestored = ownerRestored ∧ attributes = .ok report.attributes ∧
        permissions = .ok () ∧ time = .ok () ∧ flags = .ok report.flags := by
  obtain ⟨restored, sync, outcome⟩ := report
  cases attributes <;> cases permissions <;> cases time <;> cases flags <;>
    simp [finishOutcome, failure?, eq_comm]

/-- Finishing makes all steps, and its answer is that of the steps. -/
theorem run_finish (provider : AttributeProvider σ) (restorer : FlagRestorer)
    (options : RestoreOptions)
    (hlstat : (system.view state).lstat (entry.fullPath root) = .ok stat) :
    let steps := finishing system (entry.fullPath root) entry provider restorer options stat state
    let done := (finish system root entry provider restorer options).run state
    done.state = steps.flags.state ∧
      done.value = finishOutcome steps.owner.value steps.attributes.value steps.permissions.value
        steps.time.value steps.flags.value := by
  dsimp only
  rw [finish_eq, Task.run_bind, Task.run_inspect]
  simp only [hlstat]
  exact ⟨rfl, rfl⟩

/-- An object that could not be inspected is not finished. -/
theorem exists_lstat_of_finish {report : FinishReport}
    (h : ((finish system root entry provider restorer options).run state).value = .ok report) :
    ∃ stat, (system.view state).lstat (entry.fullPath root) = .ok stat := by
  rw [finish_eq, Task.run_bind, Task.run_inspect] at h
  cases hlstat : (system.view state).lstat (entry.fullPath root) with
  | ok stat => exact ⟨stat, rfl⟩
  | error error =>
    simp only [hlstat] at h
    cases h

/-- The answer is the first hard failure. -/
theorem value_finish_eq_error_iff
    (hlstat : (system.view state).lstat (entry.fullPath root) = .ok stat) {error : MetadataError} :
    ((finish system root entry provider restorer options).run state).value = .error error ↔
      (finishing system (entry.fullPath root) entry provider restorer options stat
        state).failures.head? = some error := by
  rw [(run_finish provider restorer options hlstat).2, finishOutcome_eq_error_iff]
  rfl

/-- Without a hard failure the answer is a report. -/
theorem value_finish_eq_ok_iff
    (hlstat : (system.view state).lstat (entry.fullPath root) = .ok stat) {report : FinishReport} :
    let steps := finishing system (entry.fullPath root) entry provider restorer options stat state
    ((finish system root entry provider restorer options).run state).value = .ok report ↔
      report.ownerRestored = steps.owner.value ∧ steps.attributes.value = .ok report.attributes ∧
        steps.permissions.value = .ok () ∧ steps.time.value = .ok () ∧
        steps.flags.value = .ok report.flags := by
  intro steps
  rw [(run_finish provider restorer options hlstat).2, finishOutcome_eq_ok_iff]

/-! ## Calls -/

/-- A step that consists of one call has the effect of the call and fails with its error. -/
def MakesCall (run : Run σ (Except MetadataError Unit)) (call : Call σ Unit) (attempt : Attempt)
    (path : Path) (state : σ) : Prop :=
  run.value = (call state).1.mapError (⟨attempt, path, ·⟩) ∧ run.state = (call state).2

/-- The calls that the steps make, each on the state that the step before it left. A step that does
not apply to the entry does nothing. -/
structure Finishing.Attempts (steps : Finishing σ) (system : System σ) (path : Path) (entry : Entry)
    (provider : AttributeProvider σ) (restorer : FlagRestorer) (options : RestoreOptions)
    (stat : Stat) (state : σ) : Prop where
  owner : options.owner = true → Differs entry stat → ∀ uid gid,
    Ownership.idOf? entry.uid = some uid → Ownership.idOf? entry.gid = some gid →
      steps.owner.value = (system.changeOwner path uid gid state).1.isOk ∧
        steps.owner.state = (system.changeOwner path uid gid state).2
  owner_outOfRange : options.owner = true → Differs entry stat →
    Ownership.idOf? entry.uid = none ∨ Ownership.idOf? entry.gid = none →
      steps.owner.value = false ∧ steps.owner.state = state
  owner_idle : options.owner = false ∨ ¬ Differs entry stat →
    steps.owner.value = true ∧ steps.owner.state = state
  attributes : steps.attributes = (syncAttributes provider entry path).run steps.owner.state
  permissions : entry.kind ≠ .symlink →
    MakesCall steps.permissions (system.changePermissions path entry.permissions) .restorePermissions
      path steps.attributes.state
  permissions_idle : entry.kind = .symlink →
    steps.permissions.value = .ok () ∧ steps.permissions.state = steps.attributes.state
  time : MakesCall steps.time (system.changeTime path entry.modTime) .restoreTimestamps path
    steps.permissions.state
  flags : restorer.Ends system .late entry (.named path) options.flagMask steps.time.state
    steps.flags.value steps.flags.state

/-- The step for the permissions makes one call, except on symlinks. -/
theorem makesCall_restorePermissions (hkind : entry.kind ≠ .symlink) (state : σ) :
    MakesCall ((restorePermissions system path entry).run state)
      (system.changePermissions path entry.permissions) .restorePermissions path state := by
  unfold restorePermissions
  rw [if_neg hkind, Task.run_bind, Task.run_perform]
  unfold MakesCall
  cases (system.changePermissions path entry.permissions state).1 with
  | ok | error => exact ⟨rfl, rfl⟩

/-- The step for the time always makes its call. -/
theorem makesCall_restoreTime (state : σ) :
    MakesCall ((restoreTime system path entry).run state) (system.changeTime path entry.modTime)
      .restoreTimestamps path state := by
  unfold restoreTime
  rw [Task.run_bind, Task.run_perform]
  unfold MakesCall
  cases (system.changeTime path entry.modTime state).1 with
  | ok | error => exact ⟨rfl, rfl⟩

/-- The change of ownership, if there is anything to change. -/
theorem run_ownership_of_differs (system : System σ) (path : Path) (h : Differs entry stat)
    (state : σ) :
    (∀ uid gid, Ownership.idOf? entry.uid = some uid → Ownership.idOf? entry.gid = some gid →
      ((Ownership.restore system path entry stat).run state).value =
          (system.changeOwner path uid gid state).1.isOk ∧
        ((Ownership.restore system path entry stat).run state).state =
          (system.changeOwner path uid gid state).2) ∧
      (Ownership.idOf? entry.uid = none ∨ Ownership.idOf? entry.gid = none →
        ((Ownership.restore system path entry stat).run state).value = false ∧
          ((Ownership.restore system path entry stat).run state).state = state) := by
  have hends := ownershipEnds_restore system path entry stat state
  generalize (Ownership.restore system path entry stat).run state = run at hends ⊢
  cases hends with
  | idle hsame => exact absurd h hsame
  | outOfRange _ hrange => exact ⟨fun uid gid huid hgid => by simp [huid, hgid] at hrange,
      fun _ => ⟨rfl, rfl⟩⟩
  | changed _ huid hgid hanswer | refused _ huid hgid hanswer =>
    refine ⟨fun uid gid huid' hgid' => ?_, fun hrange => by simp [huid, hgid] at hrange⟩
    obtain rfl := Option.some.inj (huid.symm.trans huid')
    obtain rfl := Option.some.inj (hgid.symm.trans hgid')
    rw [hanswer]
    exact ⟨rfl, rfl⟩

/-- Where owner and group agree, nothing is called. -/
theorem run_ownership_of_not_differs (h : ¬ Differs entry stat) (state : σ) :
    (Ownership.restore system path entry stat).run state = ⟨true, state, []⟩ := by
  have hends := ownershipEnds_restore system path entry stat state
  generalize (Ownership.restore system path entry stat).run state = run at hends ⊢
  cases hends with
  | idle => rfl
  | outOfRange hdiffers | changed hdiffers | refused hdiffers => exact absurd hdiffers h

/-- Finishing attempts every step, whatever the others do. -/
theorem attempts_finishing (system : System σ) (path : Path) (entry : Entry)
    (provider : AttributeProvider σ) (restorer : FlagRestorer) (options : RestoreOptions)
    (stat : Stat) (state : σ) :
    (finishing system path entry provider restorer options stat state).Attempts system path entry
      provider restorer options stat state where
  owner howner hdiffers := by
    have hrun := (run_ownership_of_differs system path hdiffers state).1
    simpa only [finishing, finishOwner, if_pos howner] using hrun
  owner_outOfRange howner hdiffers := by
    have hrun := (run_ownership_of_differs system path hdiffers state).2
    simpa only [finishing, finishOwner, if_pos howner] using hrun
  owner_idle hidle := by
    simp only [finishing, finishOwner]
    split
    · next howner =>
      have hsame : ¬ Differs entry stat := hidle.resolve_left (by simp [howner])
      rw [run_ownership_of_not_differs hsame]
      exact ⟨rfl, rfl⟩
    · exact ⟨rfl, rfl⟩
  attributes := rfl
  permissions hkind := makesCall_restorePermissions hkind _
  permissions_idle hkind := by
    simp only [finishing, restorePermissions, if_pos hkind]
    exact ⟨rfl, rfl⟩
  time := makesCall_restoreTime _
  flags := FlagRestorer.ends_restore system restorer .late entry (.named path) options.flagMask _

/-! ## What a step leaves -/

namespace Finishing.Attempts

variable (h : steps.Attempts system path entry provider restorer options stat state)

include h

theorem owner_cases : steps.owner.state = state ∨
    ∃ uid gid, steps.owner.state = (system.changeOwner path uid gid state).2 := by
  by_cases hidle : options.owner = false ∨ ¬ Differs entry stat
  · exact .inl (h.owner_idle hidle).2
  · rw [not_or, Bool.not_eq_false, not_not] at hidle
    obtain ⟨howner, hdiffers⟩ := hidle
    cases huid : Ownership.idOf? entry.uid with
    | none => exact .inl (h.owner_outOfRange howner hdiffers (.inl huid)).2
    | some uid =>
      cases hgid : Ownership.idOf? entry.gid with
      | none => exact .inl (h.owner_outOfRange howner hdiffers (.inr hgid)).2
      | some gid => exact .inr ⟨uid, gid, (h.owner howner hdiffers uid gid huid hgid).2⟩

theorem permissions_cases : steps.permissions.state = steps.attributes.state ∨
    steps.permissions.state =
      (system.changePermissions path entry.permissions steps.attributes.state).2 := by
  by_cases hkind : entry.kind = .symlink
  · exact .inl (h.permissions_idle hkind).2
  · exact .inr (h.permissions hkind).2

theorem flags_cases : steps.flags.state = steps.time.state ∨
    ∃ handle word, steps.flags.state = (system.setFlagWord handle word steps.time.state).2 := by
  have hends := h.flags
  generalize steps.flags.value = value at hends
  generalize steps.flags.state = after at hends ⊢
  cases hends with
  | idle | unopened | unread | unchanged => exact .inl rfl
  | refused _ _ _ _ _ hwrite | applied _ _ _ _ _ hwrite => exact .inr ⟨_, _, by rw [hwrite]⟩

end Finishing.Attempts

end Runs

end Restore

end TreeManifest
