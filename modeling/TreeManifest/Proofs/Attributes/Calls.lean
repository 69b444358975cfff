import TreeManifest.Attributes.Memory
import TreeManifest.Proofs.Attributes.Sync

/-!
# Names that reach a provider

No attribute of an entry has an empty or a reserved name, but a provider may list such names. Capture
passes over them. A restore removes them like every other name that the entry does not bind, so a
hidden name reaches a provider in the calls that remove it, and in no other call.

## Main definitions

- `AttributeProvider.Call.isHidden`: calls with a name that no attribute of an entry has.
- `AttributeProvider.Leaks`: the hidden calls that a task makes.

## Main statements

- `AttributeProvider.leaks_captureAttributes`: capture makes no hidden call.
- `AttributeProvider.leaks_syncListed`: a restore removes the hidden names that are listed.
- `AttributeProvider.hidden_calls_eq`: the hidden calls of capture and restore.
-/

namespace TreeManifest.AttributeProvider

def Call.name? : Call → Option String
  | .list => none
  | .get name | .set name | .remove name => some name

/-- Whether a call is about a name that no attribute of an entry has. -/
def Call.isHidden (call : Call) : Bool :=
  call.name?.any fun name => !decide (AttributeName.IsVisible name)

variable {σ α β : Type}

/-- Of the calls that a task makes, the given ones are hidden. -/
def Leaks (task : Task (σ × List Call) α) (hidden : List Call) : Prop :=
  ∀ state before, (task.run (state, before)).state.2.filter Call.isHidden =
    before.filter Call.isHidden ++ hidden

theorem leaks_pure (value : α) : Leaks (pure value : Task (σ × List Call) α) [] := by
  intro state before
  simp

theorem leaks_report (category : Log.Category) (level : Log.Level) (message : String) :
    Leaks (Task.report category level message : Task (σ × List Call) Unit) [] := by
  intro state before
  simp

theorem leaks_noting (call : Call) (task : Task σ α) :
    Leaks (noting call task) ([call].filter Call.isHidden) := by
  intro state before
  exact List.filter_append ..

/-- Noting a call on a visible name leaks no hidden one. -/
theorem leaks_noting_of_visible {call : Call} {name : String} (hname : call.name? = some name)
    (hvisible : AttributeName.IsVisible name) (task : Task σ α) : Leaks (noting call task) [] := by
  have hhidden : call.isHidden = false := by
    simp [Call.isHidden, hname, hvisible]
  have hnoted := leaks_noting call task
  rwa [List.filter_cons_of_neg (by simp [hhidden])] at hnoted

/-- What two tasks leak one after another is what they leak together. -/
theorem Leaks.bind {task : Task (σ × List Call) α} {next : α → Task (σ × List Call) β}
    {first second : List Call} (h : Leaks task first) (hnext : ∀ value, Leaks (next value) second) :
    Leaks (task >>= next) (first ++ second) := by
  intro state before
  have hsecond := hnext (task.run (state, before)).value (task.run (state, before)).state.1
    (task.run (state, before)).state.2
  rw [h state before, List.append_assoc] at hsecond
  exact hsecond

/-- A loop leaks what its rounds leak, in order. -/
theorem leaks_foldlM {step : β → α → Task (σ × List Call) β} {items : List α}
    {hidden : α → List Call}
    (h : ∀ item ∈ items, ∀ value, Leaks (step value item) (hidden item)) (value : β) :
    Leaks (items.foldlM step value) (items.flatMap hidden) := by
  induction items generalizing value with
  | nil => exact leaks_pure value
  | cons item items ih =>
    rw [List.foldlM_cons, List.flatMap_cons]
    apply (h item List.mem_cons_self value).bind
    intro middle
    exact ih (fun other hother => h other (List.mem_cons_of_mem _ hother)) middle

/-! ## Capture -/

/-- Reading the listed attributes asks for no hidden name. -/
theorem leaks_readListed (provider : AttributeProvider σ) (target : Path) (names : List String) :
    Leaks (readListed provider.recorded target names) [] := by
  induction names with
  | nil => exact leaks_pure []
  | cons name rest ih =>
    rw [readListed]
    by_cases hvisible : AttributeName.IsVisible name
    · have hget : Leaks (provider.recorded.get target name) [] :=
        leaks_noting_of_visible rfl hvisible _
      rw [if_pos hvisible]
      apply hget.bind
      intro answer
      rcases answer with error | _ | value
      · exact (leaks_report _ _ _).bind fun _ => ih
      · exact ih
      · exact ih.bind fun _ => leaks_pure _
    · rw [if_neg hvisible]
      exact ih

/-- Capture asks for no hidden name, whatever the provider lists. -/
theorem leaks_captureAttributes (provider : AttributeProvider σ) (entry : Entry) (target : Path) :
    Leaks (captureAttributes provider.recorded entry target) [] := by
  unfold captureAttributes
  split
  · exact leaks_pure _
  · apply (leaks_noting .list (provider.list target)).bind
    intro answer
    cases answer with
    | error error => exact leaks_pure _
    | ok names => exact (leaks_readListed provider target names).bind fun _ => leaks_pure _

/-! ## Restore -/

theorem leaks_fail (progress : SyncProgress) (error : MetadataError) :
    Leaks (progress.fail error : Task (σ × List Call) SyncProgress) [] := by
  unfold SyncProgress.fail
  split
  · exact (leaks_report _ _ _).bind fun _ => leaks_pure _
  · exact (leaks_report _ _ _).bind fun _ => leaks_pure _

/-- Writing an attribute with a visible name calls for no hidden one. -/
theorem leaks_writeAttribute (provider : AttributeProvider σ) (target : Path)
    (progress : SyncProgress) {binding : String × Bytes}
    (hvisible : AttributeName.IsVisible binding.1) :
    Leaks (writeAttribute provider.recorded target progress binding) [] := by
  have hset : Leaks (provider.recorded.set target binding.1 binding.2) [] :=
    leaks_noting_of_visible rfl hvisible _
  apply hset.bind
  intro answer
  cases answer with
  | ok _ => exact leaks_pure _
  | error error => exact leaks_fail progress error

/-- The round for a binding with a visible name calls for no hidden one. -/
theorem leaks_syncBinding (provider : AttributeProvider σ) (target : Path) (present : List String)
    (progress : SyncProgress) {binding : String × Bytes}
    (hvisible : AttributeName.IsVisible binding.1) :
    Leaks (syncBinding provider.recorded target present progress binding) [] := by
  have hget : Leaks (provider.recorded.get target binding.1) [] :=
    leaks_noting_of_visible rfl hvisible _
  unfold syncBinding
  split
  · apply hget.bind
    intro answer
    cases answer with
    | error error => exact leaks_fail progress error
    | ok current =>
      dsimp only
      split
      · exact leaks_pure progress
      · exact leaks_writeAttribute provider target progress hvisible
  · exact leaks_writeAttribute provider target progress hvisible

/-- What an entry binds is visible, so a hidden name is never wanted. -/
theorem leaks_removeUnwanted (provider : AttributeProvider σ) (target : Path)
    {wanted : AttributeMap} (hwanted : ∀ name ∈ wanted.keys, AttributeName.IsVisible name)
    (name : String) (progress : SyncProgress) :
    Leaks (removeUnwanted provider.recorded target wanted progress name)
      (if AttributeName.IsVisible name then [] else [.remove name]) := by
  have hremove : Leaks (provider.recorded.remove target name)
      (if AttributeName.IsVisible name then [] else [.remove name]) := by
    by_cases hvisible : AttributeName.IsVisible name
    · rw [if_pos hvisible]
      exact leaks_noting_of_visible rfl hvisible (provider.remove target name)
    · have hhidden : [Call.remove name].filter Call.isHidden = [.remove name] := by
        simp [Call.isHidden, Call.name?, hvisible]
      rw [if_neg hvisible]
      exact hhidden ▸ leaks_noting (.remove name) (provider.remove target name)
  unfold removeUnwanted
  split
  · next hcontains =>
    rw [if_pos (hwanted name (AttributeMap.contains_iff.1 hcontains))]
    exact leaks_pure progress
  · rw [← List.append_nil (if AttributeName.IsVisible name then [] else [Call.remove name])]
    apply hremove.bind
    intro answer
    cases answer with
    | ok _ => exact leaks_pure _
    | error error => exact leaks_fail progress error

/-- The second loop calls for the removal of every hidden name that is listed. -/
theorem leaks_removals (provider : AttributeProvider σ) (target : Path) {wanted : AttributeMap}
    (hwanted : ∀ name ∈ wanted.keys, AttributeName.IsVisible name) (names : List String)
    (progress : SyncProgress) :
    Leaks (names.foldlM (removeUnwanted provider.recorded target wanted) progress)
      ((names.filter fun name => ¬ AttributeName.IsVisible name).map .remove) := by
  have hflat : (names.flatMap fun name =>
      if AttributeName.IsVisible name then [] else [Call.remove name]) =
      (names.filter fun name => ¬ AttributeName.IsVisible name).map .remove := by
    induction names with
    | nil => rfl
    | cons name names ih =>
      by_cases hvisible : AttributeName.IsVisible name <;> simp [hvisible, ih]
  rw [← hflat]
  apply leaks_foldlM
  intro name _
  exact leaks_removeUnwanted provider target hwanted name

/-- Once the names are listed, a restore removes the hidden ones among them. -/
theorem leaks_syncListed (provider : AttributeProvider σ) (target : Path) {wanted : AttributeMap}
    (hwanted : ∀ name ∈ wanted.keys, AttributeName.IsVisible name) (present : List String) :
    Leaks (Course.syncListed provider.recorded target wanted present)
      ((present.filter fun name => ¬ AttributeName.IsVisible name).map .remove) := by
  have hbindings : Leaks
      (wanted.toList.foldlM (syncBinding provider.recorded target present) {})
      (wanted.toList.flatMap fun _ => []) := by
    apply leaks_foldlM
    intro binding hbinding progress
    exact leaks_syncBinding provider target present progress
      (hwanted binding.1 (List.mem_map_of_mem hbinding))
  rw [List.flatMap_eq_nil_iff.2 fun _ _ => rfl] at hbindings
  exact hbindings.bind fun progress => leaks_removals provider target hwanted present progress

/-- The hidden names that an object shows to a restore of an entry. -/
def hiddenNames (provider : AttributeProvider σ) (entry : Entry) (target : Path) (state : σ) :
    List String :=
  if entry.kind.carriesAttributes then
    match ((provider.list target).run state).value with
    | .ok names => names.filter fun name => ¬ AttributeName.IsVisible name
    | .error _ => []
  else []

/-- Of all calls of a synchronization, those on hidden names are the removals of its second loop. -/
theorem hidden_syncAttributes (provider : AttributeProvider σ) {entry : Entry}
    (hwf : entry.WellFormed) (target : Path) (state : σ) :
    (((syncAttributes provider.recorded entry target).run (state, [])).state.2.filter
      Call.isHidden) = (hiddenNames provider entry target state).map .remove := by
  cases hcarries : entry.kind.carriesAttributes with
  | false =>
    rw [Course.syncAttributes_of_not_carries hcarries]
    simp [hiddenNames, hcarries]
  | true =>
    have hlist : (provider.recorded.list target).run (state, []) =
        ⟨((provider.list target).run state).value,
          (((provider.list target).run state).state, [.list]),
          ((provider.list target).run state).events⟩ := rfl
    rw [Course.syncAttributes_of_carries hcarries, Task.run_bind, hlist, hiddenNames,
      if_pos hcarries]
    cases ((provider.list target).run state).value with
    | error error =>
      by_cases hrefusal : error.errorClass.isRefusal = true
      · simp only [if_pos hrefusal, Task.run_bind, Task.run_report, Task.run_pure]
        rfl
      · simp only [if_neg hrefusal, Task.run_pure]
        rfl
    | ok names =>
      exact leaks_syncListed provider target (fun _ hname => hwf.isVisible hname) names
        ((provider.list target).run state).state [.list]

/-- Whatever a provider lists, the calls of capture have visible names. The calls of a restore have
visible names too, except that it removes the hidden names among the listed ones. -/
theorem hidden_calls_eq (provider : AttributeProvider σ) {entry : Entry} (hwf : entry.WellFormed)
    (target : Path) (state : σ) :
    (∀ call ∈ ((captureAttributes provider.recorded entry target).run (state, [])).state.2,
      call.isHidden = false) ∧
    ((syncAttributes provider.recorded entry target).run (state, [])).state.2.filter
      Call.isHidden = (hiddenNames provider entry target state).map .remove := by
  constructor
  · have hnone := leaks_captureAttributes provider entry target state []
    rw [List.filter_nil, List.append_nil, List.filter_eq_nil_iff] at hnone
    intro call hcall
    exact Bool.eq_false_iff.2 (hnone call hcall)
  · exact hidden_syncAttributes provider hwf target state

def hidingFile : MemoryStore :=
  ⟨[([0x61], {
    values := .ofList [("user.a", [1])]
    listing := some ["", "user.a", "\x00lf"] })]⟩

def plainFile : Entry :=
  { Entry.new [0x61] 0o100644 with attributes := some (.ofList [("user.a", [1])]) }

theorem wellFormed_plainFile : plainFile.WellFormed := by
  intro map hmap
  cases hmap
  decide

theorem hidden_calls_eq_hidingFile :
    plainFile.WellFormed ∧
    (∀ call ∈ ((captureAttributes MemoryStore.provider.recorded plainFile [0x61]).run
      (hidingFile, [])).state.2, call.isHidden = false) ∧
    ((syncAttributes MemoryStore.provider.recorded plainFile [0x61]).run
      (hidingFile, [])).state.2.filter Call.isHidden = [.remove "", .remove "\x00lf"] := by
  obtain ⟨hcaptured, hsynced⟩ :=
    hidden_calls_eq MemoryStore.provider wellFormed_plainFile [0x61] hidingFile
  refine ⟨wellFormed_plainFile, hcaptured, ?_⟩
  rw [hsynced]
  decide

/-- A restore may call a provider with a hidden name. -/
theorem not_forall_calls_visible :
    ¬ ∀ (σ : Type) (provider : AttributeProvider σ) (entry : Entry) (target : Path) (state : σ),
      entry.WellFormed →
      (∀ call ∈ ((captureAttributes provider.recorded entry target).run (state, [])).state.2,
        call.isHidden = false) ∧
      ∀ call ∈ ((syncAttributes provider.recorded entry target).run (state, [])).state.2,
        call.isHidden = false := by
  intro hall
  obtain ⟨-, hsynced⟩ :=
    hall MemoryStore MemoryStore.provider plainFile [0x61] hidingFile wellFormed_plainFile
  have hcalls : ((syncAttributes MemoryStore.provider.recorded plainFile [0x61]).run
      (hidingFile, [])).state.2 =
        [.list, .get "user.a", .remove "", .remove "\x00lf"] := by decide
  rw [hcalls] at hsynced
  have hreserved := hsynced (.remove "\x00lf") (by decide)
  exact absurd hreserved (by decide)

end TreeManifest.AttributeProvider
