import TreeManifest.Attributes
import TreeManifest.System.Product

/-!
# Journals of changes

A provider can keep a journal of the attributes that were written and removed through it. A restore
through such a provider goes as it goes without the journal, and so it does through every provider
that only keeps notes.

## Main definitions

- `AttributeProvider.journaled`: a provider that keeps a journal of the changes made.
- `AttributeProvider.Mirrors`: a task does to a part of a state what another one does to the whole.
- `AttributeProvider.Shadows`: so do all calls of a provider.

## Main statements

- `mirrors_syncAttributes`: notes change nothing else in a restore.
-/

namespace TreeManifest

@[simp] theorem Task.run_onFirst {σ τ α : Type} (task : Task σ α) (state : σ) (other : τ) :
    (task.onFirst).run (state, other) =
      ⟨(task.run state).value, ((task.run state).state, other), (task.run state).events⟩ := rfl

namespace AttributeProvider

variable {σ τ α β : Type}

/-- The changes made through a provider, from the first to the last. -/
abbrev Journal := List Call

def noted (call : Call) : Except ε α → Journal
  | .ok _ => [call]
  | .error _ => []

/-- Runs a task on the first part of a state and notes a call in the second if it has worked. -/
def notingDone (call : Call) (task : Task σ (Except ε α)) : Task (σ × Journal) (Except ε α) :=
  fun (state, journal) =>
    ⟨(task.run state).value, ((task.run state).state, journal ++ noted call (task.run state).value),
      (task.run state).events⟩

/-- A provider that keeps a journal of the changes made through it. -/
def journaled (provider : AttributeProvider σ) : AttributeProvider (σ × Journal) where
  list target := (provider.list target).onFirst
  get target name := (provider.get target name).onFirst
  set target name value := notingDone (.set name) (provider.set target name value)
  remove target name := notingDone (.remove name) (provider.remove target name)

@[simp] theorem run_list_journaled (provider : AttributeProvider σ) (target : Path) (state : σ)
    (journal : Journal) :
    (provider.journaled.list target).run (state, journal) =
      ⟨((provider.list target).run state).value,
        (((provider.list target).run state).state, journal),
        ((provider.list target).run state).events⟩ := rfl

@[simp] theorem run_notingDone (call : Call) (task : Task σ (Except ε α)) (state : σ)
    (journal : Journal) :
    (notingDone call task).run (state, journal) =
      ⟨(task.run state).value,
        ((task.run state).state, journal ++ noted call (task.run state).value),
        (task.run state).events⟩ := rfl

/-- A task does to the first part of a state what another one does to the whole. -/
def Mirrors (task : Task σ α) (shadow : Task (σ × τ) α) : Prop :=
  ∀ state rest, ∃ after, shadow.run (state, rest) =
    ⟨(task.run state).value, ((task.run state).state, after), (task.run state).events⟩

theorem mirrors_pure (value : α) : Mirrors (pure value : Task σ α) (pure value : Task (σ × τ) α) :=
  fun _ rest => ⟨rest, rfl⟩

theorem mirrors_report (category : Log.Category) (level : Log.Level) (message : String) :
    Mirrors (Task.report category level message : Task σ Unit)
      (Task.report category level message : Task (σ × τ) Unit) :=
  fun _ rest => ⟨rest, rfl⟩

/-- A task and its shadow stay together step by step. -/
theorem Mirrors.bind {task : Task σ α} {shadow : Task (σ × τ) α} {next : α → Task σ β}
    {shadowNext : α → Task (σ × τ) β} (h : Mirrors task shadow)
    (hnext : ∀ value, Mirrors (next value) (shadowNext value)) :
    Mirrors (task >>= next) (shadow >>= shadowNext) := by
  intro state rest
  obtain ⟨middle, hmiddle⟩ := h state rest
  obtain ⟨after, hafter⟩ := hnext (task.run state).value (task.run state).state middle
  exact ⟨after, by simp [hmiddle, hafter]⟩

/-- A loop and its shadow stay together if their rounds do. -/
theorem mirrors_foldlM {step : β → α → Task σ β} {shadow : β → α → Task (σ × τ) β}
    (h : ∀ value item, Mirrors (step value item) (shadow value item)) (items : List α) (value : β) :
    Mirrors (items.foldlM step value) (items.foldlM shadow value) := by
  induction items generalizing value with
  | nil => exact mirrors_pure value
  | cons item items ih =>
    rw [List.foldlM_cons, List.foldlM_cons]
    exact (h value item).bind ih

/-- Every call of a provider does to the first part of a state what the call of another one does to
the whole. -/
structure Shadows (shadow : AttributeProvider (σ × τ)) (provider : AttributeProvider σ) : Prop where
  list : ∀ target, Mirrors (provider.list target) (shadow.list target)
  get : ∀ target name, Mirrors (provider.get target name) (shadow.get target name)
  set : ∀ target name value,
    Mirrors (provider.set target name value) (shadow.set target name value)
  remove : ∀ target name, Mirrors (provider.remove target name) (shadow.remove target name)

/-- Keeping a journal of successful changes makes no difference to what a provider does. -/
theorem shadows_journaled (provider : AttributeProvider σ) : provider.journaled.Shadows provider :=
  ⟨fun _ _ _ => ⟨_, rfl⟩, fun _ _ _ _ => ⟨_, rfl⟩, fun _ _ _ _ _ => ⟨_, rfl⟩,
    fun _ _ _ _ => ⟨_, rfl⟩⟩

/-- Recording calls makes no difference to what a provider does. -/
theorem shadows_recorded (provider : AttributeProvider σ) : provider.recorded.Shadows provider :=
  ⟨fun _ _ _ => ⟨_, rfl⟩, fun _ _ _ _ => ⟨_, rfl⟩, fun _ _ _ _ _ => ⟨_, rfl⟩,
    fun _ _ _ _ => ⟨_, rfl⟩⟩

end AttributeProvider

open AttributeProvider

variable {σ τ : Type} {provider : AttributeProvider σ} {shadow : AttributeProvider (σ × τ)}

/-! ## Restores with notes -/

theorem mirrors_fail (progress : SyncProgress) (error : MetadataError) :
    Mirrors (progress.fail error : Task σ SyncProgress)
      (progress.fail error : Task (σ × τ) SyncProgress) := by
  unfold SyncProgress.fail
  split
  · exact (mirrors_report _ _ _).bind fun _ => mirrors_pure _
  · exact (mirrors_report _ _ _).bind fun _ => mirrors_pure _

/-- Writing an attribute does the same with a provider and its shadow. -/
theorem mirrors_writeAttribute (h : shadow.Shadows provider) (target : Path)
    (progress : SyncProgress) (binding : String × Bytes) :
    Mirrors (writeAttribute provider target progress binding)
      (writeAttribute shadow target progress binding) := by
  refine (h.set target binding.1 binding.2).bind fun answer => ?_
  cases answer with
  | ok _ => exact mirrors_pure _
  | error error => exact mirrors_fail progress error

/-- The round for a binding does the same with a provider and its shadow. -/
theorem mirrors_syncBinding (h : shadow.Shadows provider) (target : Path) (present : List String)
    (progress : SyncProgress) (binding : String × Bytes) :
    Mirrors (syncBinding provider target present progress binding)
      (syncBinding shadow target present progress binding) := by
  unfold syncBinding
  split
  · refine (h.get target binding.1).bind fun answer => ?_
    cases answer with
    | error error => exact mirrors_fail progress error
    | ok current =>
      dsimp only
      split
      · exact mirrors_pure progress
      · exact mirrors_writeAttribute h target progress binding
  · exact mirrors_writeAttribute h target progress binding

/-- The round for a listed name does the same with a provider and its shadow. -/
theorem mirrors_removeUnwanted (h : shadow.Shadows provider) (target : Path)
    (wanted : AttributeMap) (progress : SyncProgress) (name : String) :
    Mirrors (removeUnwanted provider target wanted progress name)
      (removeUnwanted shadow target wanted progress name) := by
  unfold removeUnwanted
  split
  · exact mirrors_pure progress
  · refine (h.remove target name).bind fun answer => ?_
    cases answer with
    | ok _ => exact mirrors_pure _
    | error error => exact mirrors_fail progress error

/-- Notes change nothing else in a restore. -/
theorem mirrors_syncAttributes (h : shadow.Shadows provider) (entry : Entry) (target : Path) :
    Mirrors (syncAttributes provider entry target) (syncAttributes shadow entry target) := by
  unfold syncAttributes
  split
  · exact mirrors_pure _
  · refine (h.list target).bind fun answer => ?_
    cases answer with
    | error error =>
      dsimp only
      split
      · exact (mirrors_report _ _ _).bind fun _ => mirrors_pure _
      · exact mirrors_pure _
    | ok present =>
      refine (mirrors_foldlM (mirrors_syncBinding h target present) _ _).bind fun _ => ?_
      refine (mirrors_foldlM (mirrors_removeUnwanted h target _) _ _).bind fun progress => ?_
      cases progress.firstError with
      | none => exact mirrors_pure _
      | some error => exact mirrors_pure _

end TreeManifest
