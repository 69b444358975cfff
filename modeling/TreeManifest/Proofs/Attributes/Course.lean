import TreeManifest.Proofs.Attributes.Journal

/-!
# The course of a restore of attributes

A restore asks a provider for the names of an object, goes through the wanted bindings, and then
through the names that nobody wants. Here each round is inverted once into what it can do to the
attributes of the object, to the journal of changes and to the progress. A loop is a chain of
rounds.

## Main definitions

- `Verdict`, `CallPolicy`: which calls on an object work, and how the others fail.
- `AttributeProvider.Serves`: the calls of a provider on an object act as those of a map.
- `Course.Bound`, `Course.Dropped`: the rounds of the two loops.
- `Course.Chain`: one round after the other.

## Main statements

- `Course.bound_syncBinding`, `Course.dropped_removeUnwanted`: what a round of a loop can do.
- `Course.Chain.iff_of_round` and its like: from what a round does to what a loop does.
-/

namespace TreeManifest

/-- What becomes of a call: it works, or it always fails with one of some errors. -/
inductive Verdict where
  | works
  | fails (errors : MetadataError → Prop)

namespace Verdict

def isWorking : Verdict → Bool
  | works => true
  | fails _ => false

/-- The errors that a call may give. -/
def Faults : Verdict → MetadataError → Prop
  | works, _ => False
  | fails errors, error => errors error

/-- The answers that a call may give. -/
def Answers (verdict : Verdict) (right : α → Prop) : Except MetadataError α → Prop
  | .ok value => verdict.isWorking = true ∧ right value
  | .error error => verdict.Faults error

/-- A failure of the call is passed over. -/
def Lenient (verdict : Verdict) : Prop :=
  ∀ error, verdict.Faults error → error.errorClass.isRefusal = true

/-- All failures of the call are passed over, or none is. -/
def Steady (verdict : Verdict) : Prop :=
  ∀ error other, verdict.Faults error → verdict.Faults other →
    error.errorClass.isRefusal = other.errorClass.isRefusal

variable {verdict : Verdict} {error : MetadataError}

/-- What an answer fulfills may be weakened. -/
theorem Answers.imp {right other : α → Prop} {answer : Except MetadataError α}
    (h : verdict.Answers right answer) (himp : ∀ value, right value → other value) :
    verdict.Answers other answer := by
  cases answer with
  | error error => exact h
  | ok value => exact ⟨h.1, himp value h.2⟩

/-- A call that reports a fault has not worked. -/
theorem isWorking_of_faults (h : verdict.Faults error) : verdict.isWorking = false := by
  cases verdict with
  | works => cases h
  | fails errors => rfl

/-- A call that works is no hard failure. -/
theorem lenient_of_isWorking (h : verdict.isWorking = true) : verdict.Lenient := by
  intro error herror
  simp [isWorking_of_faults herror] at h

/-- A steady call is forgiven exactly if its error is a refusal. -/
theorem Steady.lenient_iff (hsteady : verdict.Steady) (h : verdict.Faults error) :
    verdict.Lenient ↔ error.errorClass.isRefusal = true := by
  constructor
  · intro hlenient
    exact hlenient error h
  · intro hrefusal other hother
    rw [← hsteady error other h hother, hrefusal]

end Verdict

/-- Which calls on an object work. -/
structure CallPolicy where
  list : Verdict
  get : String → Verdict
  set : String → Bytes → Verdict
  remove : String → Verdict

/-- Of every call, all failures are passed over or none is. -/
structure CallPolicy.Steady (policy : CallPolicy) : Prop where
  list : policy.list.Steady
  get : ∀ name, (policy.get name).Steady
  set : ∀ name value, (policy.set name value).Steady
  remove : ∀ name, (policy.remove name).Steady

namespace AttributeProvider

variable {σ : Type}

/-- On one object, the calls of a provider act as those of a map: `held` gives the map of a state,
`shows` tells which of its names are listed, and `valid` is kept by all calls. -/
structure Serves (provider : AttributeProvider σ) (target : Path) (held : σ → AttributeMap)
    (shows : String → Bool) (policy : CallPolicy) (valid : σ → Prop) : Prop where
  list : ∀ {state}, valid state →
    valid ((provider.list target).run state).state ∧
    held ((provider.list target).run state).state = held state ∧
    policy.list.Answers
      (fun names => names.Nodup ∧
        ∀ name, name ∈ names ↔ (held state).contains name = true ∧ shows name = true)
      ((provider.list target).run state).value
  get : ∀ {state name}, valid state → shows name = true →
    valid ((provider.get target name).run state).state ∧
    held ((provider.get target name).run state).state = held state ∧
    (policy.get name).Answers (· = (held state).get? name)
      ((provider.get target name).run state).value
  set : ∀ {state} (name value), valid state →
    valid ((provider.set target name value).run state).state ∧
    held ((provider.set target name value).run state).state =
      (if (policy.set name value).isWorking then (held state).insert name value
        else held state) ∧
    (policy.set name value).Answers (fun _ => True)
      ((provider.set target name value).run state).value
  remove : ∀ {state name}, valid state → (held state).contains name = true →
    valid ((provider.remove target name).run state).state ∧
    held ((provider.remove target name).run state).state =
      (if (policy.remove name).isWorking then (held state).erase name else held state) ∧
    (policy.remove name).Answers (fun _ => True)
      ((provider.remove target name).run state).value

end AttributeProvider

open AttributeProvider

def SyncProgress.failed (progress : SyncProgress) (error : MetadataError) : SyncProgress :=
  if error.errorClass.isRefusal then
    { progress with sync := { progress.sync with skipped := progress.sync.skipped + 1 } }
  else { progress with firstError := progress.firstError <|> some error }

namespace SyncProgress

@[simp] theorem written_failed (progress : SyncProgress) (error : MetadataError) :
    (progress.failed error).sync.written = progress.sync.written := by
  unfold failed
  split <;> rfl

@[simp] theorem removed_failed (progress : SyncProgress) (error : MetadataError) :
    (progress.failed error).sync.removed = progress.sync.removed := by
  unfold failed
  split <;> rfl

/-- An error is kept as the first one unless it is a refusal or another came before it. -/
theorem firstError_failed_eq_none_iff (progress : SyncProgress) (error : MetadataError) :
    (progress.failed error).firstError = none ↔
      progress.firstError = none ∧ error.errorClass.isRefusal = true := by
  unfold failed
  cases error.errorClass.isRefusal with
  | true => simp
  | false => cases progress.firstError <;> simp

end SyncProgress

variable {σ : Type}

/-- A failure is counted and logged without a change of the store. -/
theorem run_fail (progress : SyncProgress) (error : MetadataError) (state : σ) :
    ((progress.fail error).run state).value = progress.failed error ∧
      ((progress.fail error).run state).state = state := by
  unfold SyncProgress.fail SyncProgress.failed
  cases error.errorClass.isRefusal with
  | true => exact ⟨rfl, rfl⟩
  | false => exact ⟨rfl, rfl⟩

namespace Course

/-- What stands between two rounds. -/
structure Standing where
  held : AttributeMap
  journal : Journal
  progress : SyncProgress

def standing (held : σ → AttributeMap) (run : Run (σ × Journal) SyncProgress) :
    Standing :=
  ⟨held run.state.1, run.state.2, run.value⟩

/-- A name is listed when a restore begins with the given map. -/
def lists (shows : String → Bool) (initial : AttributeMap) (name : String) : Bool :=
  initial.contains name && shows name

/-- A restore that begins with the given map wants to write a binding. -/
def asks (policy : CallPolicy) (shows : String → Bool) (initial : AttributeMap)
    (binding : String × Bytes) : Bool :=
  if lists shows initial binding.1 then
    (policy.get binding.1).isWorking && initial.get? binding.1 != some binding.2
  else true

/-- Whether a name is listed depends on its own value only. -/
theorem lists_congr {shows : String → Bool} {first second : AttributeMap} {name : String}
    (h : first.get? name = second.get? name) :
    lists shows first name = lists shows second name := by
  rw [lists, lists, AttributeMap.contains, AttributeMap.contains, h]

/-- Whether a binding is written depends on the value of its own name only. -/
theorem asks_congr {policy : CallPolicy} {shows : String → Bool} {first second : AttributeMap}
    {binding : String × Bytes} (h : first.get? binding.1 = second.get? binding.1) :
    asks policy shows first binding = asks policy shows second binding := by
  rw [asks, asks, lists_congr h, h]

inductive Wrote (policy : CallPolicy) (binding : String × Bytes) (before : Standing) :
    Standing → Prop where
  | done (hworks : (policy.set binding.1 binding.2).isWorking = true) :
      Wrote policy binding before ⟨before.held.insert binding.1 binding.2,
        before.journal ++ [.set binding.1], before.progress.wrote⟩
  | failed {error : MetadataError} (hfault : (policy.set binding.1 binding.2).Faults error) :
      Wrote policy binding before { before with progress := before.progress.failed error }

/-- A round of the first loop of a restore that has begun with the given map. -/
inductive Bound (policy : CallPolicy) (shows : String → Bool) (initial : AttributeMap)
    (binding : String × Bytes) (before : Standing) : Standing → Prop where
  | same (hlisted : lists shows initial binding.1 = true)
      (hget : (policy.get binding.1).isWorking = true)
      (hsame : initial.get? binding.1 = some binding.2) :
      Bound policy shows initial binding before before
  | unread {error : MetadataError} (hlisted : lists shows initial binding.1 = true)
      (hfault : (policy.get binding.1).Faults error) :
      Bound policy shows initial binding before
        { before with progress := before.progress.failed error }
  | wrote {after : Standing} (hasks : asks policy shows initial binding = true)
      (hwrote : Wrote policy binding before after) : Bound policy shows initial binding before after

inductive Dropped (policy : CallPolicy) (wanted : AttributeMap) (name : String)
    (before : Standing) : Standing → Prop where
  | kept (hwanted : wanted.contains name = true) : Dropped policy wanted name before before
  | done (hunwanted : wanted.contains name = false)
      (hworks : (policy.remove name).isWorking = true) :
      Dropped policy wanted name before ⟨before.held.erase name,
        before.journal ++ [.remove name], before.progress.removedOne⟩
  | failed {error : MetadataError} (hunwanted : wanted.contains name = false)
      (hfault : (policy.remove name).Faults error) :
      Dropped policy wanted name before
        { before with progress := before.progress.failed error }

inductive Chain {α : Type} (round : α → Standing → Standing → Prop) :
    List α → Standing → Standing → Prop where
  | nil (standing : Standing) : Chain round [] standing standing
  | cons {item : α} {items : List α} {before middle after : Standing}
      (head : round item before middle) (tail : Chain round items middle after) :
      Chain round (item :: items) before after

/-! ## Rounds -/

variable {provider : AttributeProvider σ} {target : Path} {held : σ → AttributeMap}
  {shows : String → Bool} {policy : CallPolicy} {valid : σ → Prop} {state : σ}
  {present : List String} {initial wanted : AttributeMap} {binding : String × Bytes}
  {name : String} {before after : Standing}

/-- Writing one attribute, against any provider that serves the policy, is what the policy says. -/
theorem wrote_writeAttribute (h : provider.Serves target held shows policy valid)
    (hvalid : valid state) (journal : Journal) (progress : SyncProgress)
    (binding : String × Bytes) :
    valid ((writeAttribute provider.journaled target progress binding).run
        (state, journal)).state.1 ∧
      Wrote policy binding ⟨held state, journal, progress⟩ (standing held
        ((writeAttribute provider.journaled target progress binding).run (state, journal))) := by
  obtain ⟨hafter, hheld, hanswer⟩ := h.set binding.1 binding.2 hvalid
  unfold writeAttribute
  cases hvalue : ((provider.set target binding.1 binding.2).run state).value with
  | ok _ =>
    rw [hvalue] at hanswer
    have hworks := hanswer.1
    simp only [hworks, if_true] at hheld
    simp only [standing, Task.run_bind, journaled, run_notingDone, hvalue, noted, Task.run_pure,
      hheld]
    exact ⟨hafter, .done hworks⟩
  | error error =>
    rw [hvalue] at hanswer
    have hfault : (policy.set binding.1 binding.2).Faults error := hanswer
    simp only [Verdict.isWorking_of_faults hfault, Bool.false_eq_true, if_false] at hheld
    simp only [standing, Task.run_bind, journaled, run_notingDone, hvalue, noted, List.append_nil,
      run_fail, hheld]
    exact ⟨hafter, .failed hfault⟩

/-- The round for one binding is what the policy says, as long as the value of its name is still the
first one. -/
theorem bound_syncBinding (h : provider.Serves target held shows policy valid)
    (hvalid : valid state) (hpresent : ∀ name, name ∈ present ↔ lists shows initial name = true)
    (hsame : (held state).get? binding.1 = initial.get? binding.1) (journal : Journal)
    (progress : SyncProgress) :
    valid ((syncBinding provider.journaled target present progress binding).run
        (state, journal)).state.1 ∧
      Bound policy shows initial binding ⟨held state, journal, progress⟩ (standing held
        ((syncBinding provider.journaled target present progress binding).run
          (state, journal))) := by
  unfold syncBinding
  by_cases hlisted : binding.1 ∈ present
  · have hlists := (hpresent _).1 hlisted
    obtain ⟨hafter, hheld, hanswer⟩ := h.get hvalid (Bool.and_eq_true_iff.1 hlists).2
    simp only [hlisted, if_true, Task.run_bind, journaled, Task.run_onFirst]
    cases hvalue : ((provider.get target binding.1).run state).value with
    | error error =>
      rw [hvalue] at hanswer
      simp only [standing, run_fail, hheld]
      exact ⟨hafter, .unread hlists hanswer⟩
    | ok current =>
      rw [hvalue] at hanswer
      obtain ⟨hworks, hcurrent⟩ := hanswer
      rw [hsame] at hcurrent
      by_cases heq : current = some binding.2
      · simp only [heq, if_true, standing, Task.run_pure, hheld]
        exact ⟨hafter, .same hlists hworks (hcurrent.symm.trans heq)⟩
      · have hasks : asks policy shows initial binding = true := by
          simp [asks, hlists, hworks, ← hcurrent, heq]
        obtain ⟨hlast, hwrote⟩ := wrote_writeAttribute h hafter journal progress binding
        rw [hheld] at hwrote
        simp only [heq, if_false]
        exact ⟨hlast, .wrote hasks hwrote⟩
  · have hasks : asks policy shows initial binding = true := by
      rw [hpresent, Bool.not_eq_true] at hlisted
      simp [asks, hlisted]
    obtain ⟨hlast, hwrote⟩ := wrote_writeAttribute h hvalid journal progress binding
    simp only [hlisted, if_false]
    exact ⟨hlast, .wrote hasks hwrote⟩

/-- The round for one listed name is what the policy says, as long as the name is still there. -/
theorem dropped_removeUnwanted (h : provider.Serves target held shows policy valid)
    (hvalid : valid state) (hheld : (held state).contains name = true) (journal : Journal)
    (progress : SyncProgress) (wanted : AttributeMap) :
    valid ((removeUnwanted provider.journaled target wanted progress name).run
        (state, journal)).state.1 ∧
      Dropped policy wanted name ⟨held state, journal, progress⟩ (standing held
        ((removeUnwanted provider.journaled target wanted progress name).run
          (state, journal))) := by
  unfold removeUnwanted
  cases hwanted : wanted.contains name with
  | true => exact ⟨hvalid, .kept hwanted⟩
  | false =>
    obtain ⟨hafter, hheld, hanswer⟩ := h.remove hvalid hheld
    simp only [Bool.false_eq_true, if_false, Task.run_bind, journaled, run_notingDone]
    cases hvalue : ((provider.remove target name).run state).value with
    | ok _ =>
      rw [hvalue] at hanswer
      have hworks := hanswer.1
      simp only [hworks, if_true] at hheld
      simp only [standing, noted, Task.run_pure, hheld]
      exact ⟨hafter, .done hwanted hworks⟩
    | error error =>
      rw [hvalue] at hanswer
      have hfault : (policy.remove name).Faults error := hanswer
      simp only [Verdict.isWorking_of_faults hfault, Bool.false_eq_true, if_false] at hheld
      simp only [standing, noted, List.append_nil, run_fail, hheld]
      exact ⟨hafter, .failed hwanted hfault⟩

/-! ## What a round changes -/

/-- A restore that begins with the given map writes a binding. -/
def writes (policy : CallPolicy) (shows : String → Bool) (initial : AttributeMap)
    (binding : String × Bytes) : Bool :=
  asks policy shows initial binding && (policy.set binding.1 binding.2).isWorking

/-- A restore removes a name if it is listed. -/
def drops (policy : CallPolicy) (wanted : AttributeMap) (name : String) : Bool :=
  !wanted.contains name && (policy.remove name).isWorking

/-- The round for a binding makes one entry in the journal and one change, or neither. -/
theorem Bound.written_or_kept (h : Bound policy shows initial binding before after) :
    writes policy shows initial binding = true ∧
        after = ⟨before.held.insert binding.1 binding.2, before.journal ++ [.set binding.1],
          before.progress.wrote⟩ ∨
      writes policy shows initial binding = false ∧ after.held = before.held ∧
        after.journal = before.journal ∧
        after.progress.sync.written = before.progress.sync.written ∧
        after.progress.sync.removed = before.progress.sync.removed := by
  cases h with
  | same hlisted hget hsame => exact .inr ⟨by simp [writes, asks, hlisted, hsame], by simp⟩
  | unread hlisted hfault =>
    exact .inr ⟨by simp [writes, asks, hlisted, Verdict.isWorking_of_faults hfault], by simp⟩
  | wrote hasks hwrote =>
    cases hwrote with
    | done hworks => exact .inl ⟨by simp [writes, hasks, hworks], rfl⟩
    | failed hfault =>
      exact .inr ⟨by simp [writes, Verdict.isWorking_of_faults hfault], by simp⟩

/-- The round for a listed name makes one entry in the journal and one removal, or neither. -/
theorem Dropped.removed_or_kept (h : Dropped policy wanted name before after) :
    drops policy wanted name = true ∧
        after = ⟨before.held.erase name, before.journal ++ [.remove name],
          before.progress.removedOne⟩ ∨
      drops policy wanted name = false ∧ after.held = before.held ∧
        after.journal = before.journal ∧
        after.progress.sync.written = before.progress.sync.written ∧
        after.progress.sync.removed = before.progress.sync.removed := by
  cases h with
  | kept hwanted => exact .inr ⟨by simp [drops, hwanted], by simp⟩
  | done hunwanted hworks => exact .inl ⟨by simp [drops, hunwanted, hworks], rfl⟩
  | failed hunwanted hfault =>
    exact .inr ⟨by simp [drops, Verdict.isWorking_of_faults hfault], by simp⟩

/-- The round for a binding changes the value of its own name at most. -/
theorem Bound.get?_eq (h : Bound policy shows initial binding before after) (key : String) :
    after.held.get? key =
      if writes policy shows initial binding = true ∧ binding.1 = key then some binding.2
      else before.held.get? key := by
  rcases h.written_or_kept with ⟨hwrites, rfl⟩ | ⟨hwrites, hheld, -⟩
  · simp [hwrites, AttributeMap.get?_insert]
  · simp [hwrites, hheld]

/-- The round for a listed name takes away that name at most. -/
theorem Dropped.get?_eq (h : Dropped policy wanted name before after) (key : String) :
    after.held.get? key =
      if drops policy wanted name = true ∧ key = name then none else before.held.get? key := by
  rcases h.removed_or_kept with ⟨hdrops, rfl⟩ | ⟨hdrops, hheld, -⟩
  · simp [hdrops, AttributeMap.get?_erase]
  · simp [hdrops, hheld]

/-- The failures that a round of the first loop can meet are passed over. -/
def BindingLenient (policy : CallPolicy) (shows : String → Bool) (initial : AttributeMap)
    (binding : String × Bytes) : Prop :=
  (lists shows initial binding.1 = true → (policy.get binding.1).Lenient) ∧
    (asks policy shows initial binding = true → (policy.set binding.1 binding.2).Lenient)

/-- After the round for a binding there is no error if there was none and the calls for this name
are forgiven. -/
theorem Bound.firstError_eq_none_iff (h : Bound policy shows initial binding before after)
    (hget : (policy.get binding.1).Steady) (hset : (policy.set binding.1 binding.2).Steady) :
    after.progress.firstError = none ↔
      before.progress.firstError = none ∧ BindingLenient policy shows initial binding := by
  cases h with
  | same hlisted hworks hsame =>
    simp [BindingLenient, asks, hlisted, hsame, Verdict.lenient_of_isWorking hworks]
  | unread hlisted hfault =>
    simp [BindingLenient, asks, hlisted, Verdict.isWorking_of_faults hfault,
      hget.lenient_iff hfault, SyncProgress.firstError_failed_eq_none_iff]
  | wrote hasks hwrote =>
    have hread : lists shows initial binding.1 = true → (policy.get binding.1).Lenient := by
      intro hlisted
      simp only [asks, hlisted, if_true, Bool.and_eq_true] at hasks
      exact Verdict.lenient_of_isWorking hasks.1
    cases hwrote with
    | done hworks =>
      have hlenient := Verdict.lenient_of_isWorking hworks
      exact ⟨fun hnone => ⟨hnone, hread, fun _ => hlenient⟩, fun hnone => hnone.1⟩
    | failed hfault =>
      rw [SyncProgress.firstError_failed_eq_none_iff, ← hset.lenient_iff hfault]
      exact and_congr_right fun _ =>
        ⟨fun hlenient => ⟨hread, fun _ => hlenient⟩, fun hall => hall.2 hasks⟩

/-- After the round for a listed name there is no error if there was none and the removal is
forgiven. -/
theorem Dropped.firstError_eq_none_iff (h : Dropped policy wanted name before after)
    (hremove : (policy.remove name).Steady) :
    after.progress.firstError = none ↔ before.progress.firstError = none ∧
      (wanted.contains name = false → (policy.remove name).Lenient) := by
  cases h with
  | kept hwanted => simp [hwanted]
  | done hunwanted hworks =>
    have hlenient := Verdict.lenient_of_isWorking hworks
    exact ⟨fun hnone => ⟨hnone, fun _ => hlenient⟩, fun hnone => hnone.1⟩
  | failed hunwanted hfault =>
    simp [hunwanted, hremove.lenient_iff hfault, SyncProgress.firstError_failed_eq_none_iff]

/-! ## Chains -/

section Chains

variable {α : Type} {round : α → Standing → Standing → Prop} {items : List α} {test : α → Bool}

/-- A chain of rounds journals one call for each item that passes a test, in order, if every round
does so. -/
theorem Chain.journal_eq (h : Chain round items before after) (call : α → AttributeProvider.Call)
    (hround : ∀ item {before after}, round item before after →
      after.journal = before.journal ++ if test item then [call item] else []) :
    after.journal = before.journal ++ (items.filter test).map call := by
  induction h with
  | nil => simp
  | @cons item items _ _ _ head tail ih =>
    rw [ih, hround item head]
    cases htest : test item <;> simp [htest]

/-- A counter grows along a chain by the number of items that raise it. -/
theorem Chain.count_eq (h : Chain round items before after) (count : Standing → Nat)
    (hround : ∀ item {before after}, round item before after →
      count after = count before + if test item then 1 else 0) :
    count after = count before + (items.filter test).length := by
  induction h with
  | nil => simp
  | @cons item items _ _ _ head tail ih =>
    rw [ih, hround item head]
    cases htest : test item
    · simp [htest]
    · simp [htest]
      omega

/-- What every round keeps, a chain of rounds keeps. -/
theorem Chain.eq_of_round {β : Type} (h : Chain round items before after) (part : Standing → β)
    (hround : ∀ item {before after}, round item before after → part after = part before) :
    part after = part before := by
  induction h with
  | nil => rfl
  | cons head tail ih => exact ih.trans (hround _ head)

/-- A property that each round ties to a condition on its item holds after a chain if it held before
and all items meet the condition. -/
theorem Chain.iff_of_round (h : Chain round items before after) (holds : Standing → Prop)
    (needs : α → Prop) (hround : ∀ item ∈ items, ∀ {before after}, round item before after →
      (holds after ↔ holds before ∧ needs item)) :
    holds after ↔ holds before ∧ ∀ item ∈ items, needs item := by
  induction h with
  | nil => simp
  | cons head tail ih =>
    rw [ih fun item hitem => hround item (List.mem_cons_of_mem _ hitem),
      hround _ List.mem_cons_self head, and_assoc, List.forall_mem_cons]

end Chains

end Course

end TreeManifest
