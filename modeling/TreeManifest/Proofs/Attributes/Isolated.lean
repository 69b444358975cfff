import Mathlib.Data.Finset.Card
import Mathlib.Data.Finset.Dedup
import Mathlib.Data.Finset.Lattice.Lemmas
import TreeManifest.Proofs.Attributes.Attempts
import TreeManifest.Proofs.Attributes.Stores

/-!
# Failures of a restore are kept apart

Where each call on an object either works or always fails with an error of its own, a restore treats
every name as if there were no other. A failure that is no refusal is returned when all names were
tried, the first one in the order of the calls. If there is none, the counters and the values that
were in place account for every name that is wanted or listed.

## Main definitions

- `CallPolicy.ofErrors`: calls that fail with given errors.
- `Course.settledValue`: what becomes of the value of one name.
- `Course.hardError?`: the error of a call, unless it is passed over.
- `Course.Isolated`: restores in which failures are kept apart.

## Main statements

- `Course.Bound.firstError_eq`, `Course.Dropped.firstError_eq`: the failure that a round may add.
- `Course.Chain.handled_eq`: what the counters say after a loop.
- `syncAttributes_isolated`: a restore through a store of maps keeps failures apart.
-/

namespace TreeManifest

/-- A call that works unless there is an error for it. -/
def Verdict.ofError : Option MetadataError → Verdict
  | none => .works
  | some error => .fails (· = error)

@[simp] theorem Verdict.isWorking_ofError (error : Option MetadataError) :
    (Verdict.ofError error).isWorking = error.isNone := by
  cases error <;> rfl

theorem Verdict.faults_ofError_iff {known : Option MetadataError} {error : MetadataError} :
    (Verdict.ofError known).Faults error ↔ known = some error := by
  cases known with
  | none => exact ⟨False.elim, nofun⟩
  | some other => exact ⟨fun h => congrArg some h.symm, fun h => (Option.some.inj h).symm⟩

/-- A call that works has the right answer. -/
theorem Verdict.Answers.exists_ok {verdict : Verdict} {right : α → Prop}
    {answer : Except MetadataError α} (h : verdict.Answers right answer)
    (hworks : verdict.isWorking = true) : ∃ value, answer = .ok value ∧ right value := by
  cases answer with
  | ok value => exact ⟨value, rfl, h.2⟩
  | error error =>
    rw [Verdict.isWorking_of_faults h] at hworks
    cases hworks

/-- Calls that fail with given errors. -/
def CallPolicy.ofErrors (errors : AttributeProvider.Call → Option MetadataError) : CallPolicy where
  list := .ofError (errors .list)
  get name := .ofError (errors (.get name))
  set name _ := .ofError (errors (.set name))
  remove name := .ofError (errors (.remove name))

/-- The names of which a restore has written, removed or passed over something. -/
def SyncProgress.handled (progress : SyncProgress) : Nat :=
  progress.sync.written + progress.sync.removed + progress.sync.skipped

namespace SyncProgress

variable {progress : SyncProgress} {error : MetadataError}

/-- An error that is no refusal is kept unless there is one already. -/
theorem firstError_failed (progress : SyncProgress) (error : MetadataError) :
    (progress.failed error).firstError =
      progress.firstError.or ((some error).filter fun error => !error.errorClass.isRefusal) := by
  unfold failed
  cases hrefusal : error.errorClass.isRefusal with
  | true => simp [Option.filter, hrefusal]
  | false => cases progress.firstError <;> simp [Option.filter, hrefusal]

/-- An error that is forgiven counts as one more name that was handled. -/
theorem handled_failed (h : (progress.failed error).firstError = none) :
    progress.firstError = none ∧ (progress.failed error).handled = progress.handled + 1 := by
  obtain ⟨hnone, hrefusal⟩ := (firstError_failed_eq_none_iff progress error).1 h
  refine ⟨hnone, ?_⟩
  rw [failed, if_pos hrefusal, handled, handled]
  rfl

theorem handled_wrote (progress : SyncProgress) :
    progress.wrote.handled = progress.handled + 1 := by
  unfold handled wrote
  dsimp only
  omega

theorem handled_removedOne (progress : SyncProgress) :
    progress.removedOne.handled = progress.handled + 1 := by
  unfold handled removedOne
  dsimp only
  omega

end SyncProgress

namespace Course

open AttributeProvider

/-- What becomes of the value of a name, by the value that is stored, the one that is wanted and the
errors of the calls with this name. -/
def settledValue (errors : AttributeProvider.Call → Option MetadataError) (name : String) :
    Option Bytes → Option Bytes → Option Bytes
  | none, none => none
  | none, some wanted => if (errors (.set name)).isSome then none else some wanted
  | some stored, none => if (errors (.remove name)).isSome then some stored else none
  | some stored, some wanted =>
    if (errors (.get name)).isSome ∨ (errors (.set name)).isSome then some stored else some wanted

/-- The error of a call, unless it is passed over. -/
def hardError? (errors : AttributeProvider.Call → Option MetadataError)
    (call : AttributeProvider.Call) : Option MetadataError :=
  (errors call).filter fun error => !error.errorClass.isRefusal

def isInPlace (errors : AttributeProvider.Call → Option MetadataError) (held : AttributeMap)
    (binding : String × Bytes) : Bool :=
  (errors (.get binding.1)).isNone && held.get? binding.1 == some binding.2

variable {errors : AttributeProvider.Call → Option MetadataError} {shows : String → Bool}
  {initial wanted : AttributeMap} {binding : String × Bytes} {name : String}
  {before after : Standing} {present : List String}

theorem hardError?_eq_none {call : AttributeProvider.Call} (h : errors call = none) :
    hardError? errors call = none := by
  rw [hardError?, h, Option.filter_none]

/-- A call that works has no hard failure. -/
theorem hardError?_of_isWorking {call : AttributeProvider.Call}
    (h : (Verdict.ofError (errors call)).isWorking = true) : hardError? errors call = none := by
  rw [Verdict.isWorking_ofError, Option.isNone_iff_eq_none] at h
  exact hardError?_eq_none h

/-! ## Failures -/

/-- A failure is kept if it is the first one that is no refusal. -/
theorem firstError_failed_of_faults {call : AttributeProvider.Call} {error : MetadataError}
    (h : (Verdict.ofError (errors call)).Faults error) (progress : SyncProgress) :
    (progress.failed error).firstError = progress.firstError.or (hardError? errors call) := by
  rw [SyncProgress.firstError_failed, hardError?, Verdict.faults_ofError_iff.1 h]

/-- A round of the first loop adds the failure that its calls meet, if it is no refusal. -/
theorem Bound.firstError_eq (h : Bound (.ofErrors errors) shows initial binding before after) :
    after.progress.firstError = before.progress.firstError.or
      ((bindingCalls (.ofErrors errors) shows initial binding).findSome? (hardError? errors)) := by
  unfold bindingCalls
  cases h with
  | same hlisted hget hsame =>
    have hquiet : asks (.ofErrors errors) shows initial binding = false := by
      simp [asks, hlisted, hsame]
    simp [hlisted, hquiet, hardError?_of_isWorking hget]
  | @unread error hlisted hfault =>
    have hquiet : asks (.ofErrors errors) shows initial binding = false := by
      simp [asks, hlisted, Verdict.isWorking_of_faults hfault]
    rw [firstError_failed_of_faults hfault]
    simp [hlisted, hquiet]
  | wrote hasks hwrote =>
    -- What is written was read before, if it was listed.
    have hget : ((if lists shows initial binding.1 then
        [AttributeProvider.Call.get binding.1] else []).findSome? (hardError? errors)) = none := by
      cases hlisted : lists shows initial binding.1 with
      | false => rfl
      | true =>
        rw [asks, if_pos hlisted] at hasks
        simp [hardError?_of_isWorking (Bool.and_eq_true_iff.1 hasks).1]
    rw [List.findSome?_append, hget, Option.none_or, if_pos hasks, List.findSome?_singleton]
    cases hwrote with
    | done hworks =>
      rw [hardError?_of_isWorking hworks, Option.or_none]
      rfl
    | failed hfault => exact firstError_failed_of_faults hfault before.progress

/-- So does a round of the second loop. -/
theorem Dropped.firstError_eq (h : Dropped (.ofErrors errors) wanted name before after) :
    after.progress.firstError = before.progress.firstError.or
      ((removalCalls wanted name).findSome? (hardError? errors)) := by
  unfold removalCalls
  cases h with
  | kept hwanted => simp [hwanted]
  | done hunwanted hworks =>
    simp [hunwanted, hardError?_of_isWorking hworks, SyncProgress.removedOne]
  | failed hunwanted hfault =>
    rw [firstError_failed_of_faults hfault]
    simp [hunwanted]

/-- A loop keeps the first failure that its calls meet. -/
theorem Chain.firstError_eq {α : Type} {round : α → Standing → Standing → Prop} {items : List α}
    (h : Chain round items before after) (calls : α → List AttributeProvider.Call)
    (hround : ∀ item {before after}, round item before after →
      after.progress.firstError =
        before.progress.firstError.or ((calls item).findSome? (hardError? errors))) :
    after.progress.firstError = before.progress.firstError.or
      ((items.flatMap calls).findSome? (hardError? errors)) := by
  induction h with
  | nil => simp
  | cons head tail ih =>
    rw [ih, hround _ head, List.flatMap_cons, List.findSome?_append, Option.or_assoc]

/-! ## Counters -/

/-- A round of the first loop counts its name, unless the wanted value is in place. -/
theorem Bound.handled_eq
    (h : Bound (.ofErrors errors) (fun _ => true) initial binding before after)
    (hnone : after.progress.firstError = none) :
    before.progress.firstError = none ∧ after.progress.handled = before.progress.handled +
      if isInPlace errors initial binding then 0 else 1 := by
  cases h with
  | same hlisted hget hsame =>
    have hread : (errors (.get binding.1)).isNone = true :=
      (Verdict.isWorking_ofError _).symm.trans hget
    exact ⟨hnone, by simp [isInPlace, hread, hsame]⟩
  | unread hlisted hfault =>
    have hplace : isInPlace errors initial binding = false := by
      simp [isInPlace, Verdict.faults_ofError_iff.1 hfault]
    rw [hplace]
    exact SyncProgress.handled_failed hnone
  | wrote hasks hwrote =>
    have hplace : isInPlace errors initial binding = false := by
      unfold asks lists at hasks
      cases hcontains : initial.contains binding.1 with
      | false =>
        have hmissing : initial.get? binding.1 = none := by
          simpa [AttributeMap.contains] using hcontains
        simp [isInPlace, hmissing]
      | true =>
        simp only [hcontains, Bool.and_true, if_true, Bool.and_eq_true, bne_iff_ne] at hasks
        simp [isInPlace, hasks.2]
    rw [hplace]
    cases hwrote with
    | done hworks => exact ⟨hnone, SyncProgress.handled_wrote _⟩
    | failed hfault => exact SyncProgress.handled_failed hnone

/-- A round of the second loop counts its name, unless it is wanted. -/
theorem Dropped.handled_eq {policy : CallPolicy} (h : Dropped policy wanted name before after)
    (hnone : after.progress.firstError = none) :
    before.progress.firstError = none ∧ after.progress.handled = before.progress.handled +
      if wanted.contains name then 0 else 1 := by
  cases h with
  | kept hwanted => exact ⟨hnone, by simp [hwanted]⟩
  | done hunwanted hworks =>
    rw [hunwanted]
    exact ⟨hnone, SyncProgress.handled_removedOne _⟩
  | failed hunwanted hfault =>
    rw [hunwanted]
    exact SyncProgress.handled_failed hnone

/-- A loop that meets no failure but refusals counts every item that a test does not leave out. -/
theorem Chain.handled_eq {α : Type} {round : α → Standing → Standing → Prop} {items : List α}
    {test : α → Bool} (h : Chain round items before after)
    (hround : ∀ item {before after}, round item before after →
      after.progress.firstError = none → before.progress.firstError = none ∧
        after.progress.handled = before.progress.handled + if test item then 0 else 1)
    (hnone : after.progress.firstError = none) :
    before.progress.firstError = none ∧
      after.progress.handled + items.countP test = before.progress.handled + items.length := by
  induction h with
  | nil => exact ⟨hnone, rfl⟩
  | @cons item items _ _ _ head tail ih =>
    obtain ⟨hmiddle, htail⟩ := ih hnone
    obtain ⟨hbefore, hhead⟩ := hround item head hmiddle
    refine ⟨hbefore, ?_⟩
    rw [List.countP_cons, List.length_cons]
    cases htest : test item with
    | true =>
      rw [htest, if_pos rfl] at hhead
      rw [if_pos rfl]
      omega
    | false =>
      rw [htest, if_neg Bool.false_ne_true] at hhead
      rw [if_neg Bool.false_ne_true]
      omega

/-- The number of names that are wanted or listed. -/
theorem card_names (wanted : AttributeMap) (hnodup : present.Nodup) :
    (wanted.keys.toFinset ∪ present.toFinset).card + present.countP wanted.contains =
      wanted.size + present.length := by
  have hboth : wanted.keys.toFinset ∩ present.toFinset =
      (present.filter wanted.contains).toFinset := by
    ext name
    simp [AttributeMap.contains_iff, and_comm]
  have hcard := Finset.card_union_add_card_inter wanted.keys.toFinset present.toFinset
  rw [hboth, List.toFinset_card_of_nodup wanted.nodup_keys, List.toFinset_card_of_nodup hnodup,
    List.toFinset_card_of_nodup (hnodup.filter _), ← List.countP_eq_length_filter] at hcard
  rw [hcard, AttributeMap.keys, List.length_map]
  rfl

/-! ## Whole restores -/

/-- A synchronization fails with the error that was kept first. -/
theorem answer_eq_error_iff {progress : SyncProgress} {error : MetadataError} :
    answer progress = .error error ↔ progress.firstError = some error := by
  unfold answer
  cases progress.firstError <;> simp

/-- What becomes of a name depends on what is stored and wanted of it and on its own errors. -/
theorem Ran.get?_eq_settledValue
    (h : Ran (.ofErrors errors) (fun _ => true) wanted before after) (name : String) :
    after.held.get? name =
      settledValue errors name (before.held.get? name) (wanted.get? name) := by
  rw [h.get?_eq name]
  have hlists : lists (fun _ => true) before.held name = (before.held.get? name).isSome :=
    Bool.and_true _
  have hget : ((CallPolicy.ofErrors errors).get name).isWorking = (errors (.get name)).isNone :=
    Verdict.isWorking_ofError _
  have hset : ∀ value,
      ((CallPolicy.ofErrors errors).set name value).isWorking = (errors (.set name)).isNone :=
    fun _ => Verdict.isWorking_ofError _
  have hremove :
      ((CallPolicy.ofErrors errors).remove name).isWorking = (errors (.remove name)).isNone :=
    Verdict.isWorking_ofError _
  cases hstored : before.held.get? name with
  | none =>
    cases wanted.get? name with
    | none => simp [hlists, hstored, settledValue]
    | some value =>
      cases herror : errors (.set name) <;>
        simp [settledValue, writes, asks, hlists, hstored, hset, herror]
  | some stored =>
    cases wanted.get? name with
    | none =>
      cases herror : errors (.remove name) <;>
        simp [settledValue, hlists, hstored, hremove, herror]
    | some value =>
      by_cases hsame : stored = value
      · simp [settledValue, hsame]
      · cases hread : errors (.get name) <;> cases herror : errors (.set name) <;>
          simp [settledValue, writes, asks, hlists, hstored, hget, hset, hread, herror, hsame]

/-- A restore fails with the first failure in the order of its calls, refusals aside. -/
theorem firstError_of_chains {start middle last : Standing} (hstart : start.progress = {})
    (hbindings : Chain (Bound (.ofErrors errors) shows initial) wanted.toList start middle)
    (hremovals : Chain (Dropped (.ofErrors errors) wanted) present middle last) :
    last.progress.firstError =
      (attempts (.ofErrors errors) shows initial wanted present).findSome? (hardError? errors) := by
  rw [hremovals.firstError_eq (removalCalls wanted) fun _ => Dropped.firstError_eq,
    hbindings.firstError_eq (bindingCalls (.ofErrors errors) shows initial)
      fun _ => Bound.firstError_eq, hstart, attempts, List.findSome?_append]
  rfl

/-- A restore that meets no failure but refusals accounts for every name. -/
theorem handled_of_chains {start middle last : Standing} (hstart : start.progress = {})
    (hbindings :
      Chain (Bound (.ofErrors errors) (fun _ => true) initial) wanted.toList start middle)
    (hremovals : Chain (Dropped (.ofErrors errors) wanted) present middle last)
    (hnodup : present.Nodup) (hnone : last.progress.firstError = none) :
    last.progress.handled + wanted.toList.countP (isInPlace errors initial) =
      (wanted.keys.toFinset ∪ present.toFinset).card := by
  obtain ⟨hmiddle, hsecond⟩ := hremovals.handled_eq (fun _ => Dropped.handled_eq) hnone
  obtain ⟨-, hfirst⟩ := hbindings.handled_eq (fun _ => Bound.handled_eq) hmiddle
  have hzero : start.progress.handled = 0 := by rw [hstart]; rfl
  have hcard := card_names wanted hnodup
  have hsize : wanted.toList.length = wanted.size := rfl
  omega

/-- Restores in which failures are kept apart: an object has the given map and lists the given
names, the calls made may fail with the given errors, and the restore leaves a map and returns an
answer. -/
structure Isolated (errors : AttributeProvider.Call → Option MetadataError)
    (wanted held : AttributeMap) (present : List String) (calls : List AttributeProvider.Call)
    (after : AttributeMap) (answer : Except MetadataError AttributeSync) : Prop where
  /-- What becomes of a name depends on what is stored and wanted of it and on its own errors. -/
  get?_eq : ∀ name,
    after.get? name = settledValue errors name (held.get? name) (wanted.get? name)
  /-- The wanted names are tried in ascending order, and then the listed ones. -/
  calls_eq : calls =
    .list :: attempts (.ofErrors errors) (fun _ => true) held wanted present
  /-- The first failure in the order of the calls is returned, refusals aside. -/
  answer_eq_error_iff : ∀ error,
    answer = .error error ↔ calls.findSome? (hardError? errors) = some error
  /-- If there is none, every name is counted once, or it has the wanted value already. -/
  accounts : ∀ sync, answer = .ok sync →
    sync.written + sync.removed + sync.skipped + wanted.toList.countP (isInPlace errors held) =
      (wanted.keys.toFinset ∪ present.toFinset).card

section

variable {σ : Type} {provider : AttributeProvider σ} {target : Path} {held : σ → AttributeMap}
  {policy : CallPolicy} {valid : σ → Prop} {state : σ} {entry : Entry}

/-- The loops of a restore that could list the names, and what it leaves and answers. -/
theorem exists_chains (h : provider.Serves target held shows policy valid) (hvalid : valid state)
    (hcarries : entry.kind.carriesAttributes = true)
    (hlist : ((provider.list target).run state).value = .ok present) :
    ∃ middle after,
      Chain (Bound policy shows (held state)) (entry.attributes.getD .empty).toList
        ⟨held state, [], {}⟩ middle ∧
      Chain (Dropped policy (entry.attributes.getD .empty)) present middle after ∧
      held ((syncAttributes provider entry target).run state).state = after.held ∧
      ((syncAttributes provider entry target).run state).value = answer after.progress := by
  obtain ⟨hlisted, hheld, hanswer⟩ := h.list hvalid
  rw [hlist] at hanswer
  obtain ⟨-, hnodup, hpresent⟩ := hanswer
  obtain ⟨-, middle, hbindings, hremovals⟩ := chains_syncListed h hlisted hnodup
    (by simpa [lists, hheld] using hpresent) (entry.attributes.getD .empty) ([] : Journal)
  rw [hheld] at hbindings
  -- The journal does not matter for the rest of the run.
  obtain ⟨journal, hrun⟩ :=
    mirrors_syncAttributes (shadows_journaled provider) entry target state ([] : Journal)
  rw [syncAttributes_of_carries hcarries, Task.run_bind, run_list_journaled, hlist] at hrun
  refine ⟨middle, _, hbindings, hremovals, ?_, ?_⟩
  · exact (congrArg (fun run => held run.state.1) hrun).symm
  · exact (congrArg Run.value hrun).symm

end

end Course

open AttributeProvider

variable {σ : Type} {provider : AttributeProvider σ} {store : σ → Path → AttributeMap}
  {errors : Path → AttributeProvider.Call → Option MetadataError} {valid : σ → Prop} {state : σ}

/-- A restore through a store of maps in which calls fail with errors of their own, and in which the
names can be listed, keeps the failures apart. -/
theorem syncAttributes_isolated
    (h : provider.BackedBy store (fun target => .ofErrors (errors target)) valid)
    (hvalid : valid state) (entry : Entry) (hcarries : entry.kind.carriesAttributes = true)
    (target : Path) (hlist : errors target .list = none) :
    ∃ present, ((provider.list target).run state).value = .ok present ∧ present.Nodup ∧
      (∀ name, name ∈ present ↔ (store state target).contains name = true) ∧
      Course.Isolated (errors target) (entry.attributes.getD .empty) (store state target) present
        ((syncAttributes provider.recorded entry target).run (state, [])).state.2
        (store ((syncAttributes provider entry target).run state).state target)
        ((syncAttributes provider entry target).run state).value := by
  have hserves := h.serves target (store state)
  have hvalid' : valid state ∧ ∀ other, other ≠ target → store state other = store state other :=
    ⟨hvalid, fun _ _ => rfl⟩
  have hworks : (CallPolicy.ofErrors (errors target)).list.isWorking = true :=
    (Verdict.isWorking_ofError _).trans (Option.isNone_iff_eq_none.2 hlist)
  obtain ⟨-, -, hanswer⟩ := hserves.list hvalid'
  obtain ⟨present, hpresent, hnodup, hmem⟩ := hanswer.exists_ok hworks
  have hlists : ∀ name,
      name ∈ present ↔ Course.lists (fun _ => true) (store state target) name = true := by
    simpa [Course.lists] using hmem
  obtain ⟨middle, after, hbindings, hremovals, hafter, hvalue⟩ :=
    Course.exists_chains hserves hvalid' hcarries hpresent
  have hran : Course.Ran (.ofErrors (errors target)) (fun _ => true)
      (entry.attributes.getD .empty) ⟨store state target, [], {}⟩ after :=
    .intro hnodup hlists hbindings hremovals
  have hcalls := Course.calls_syncAttributes hserves hvalid' hcarries hpresent
  refine ⟨present, hpresent, hnodup, by simpa using hmem, ?_, hcalls, ?_, ?_⟩
  · intro name
    rw [hafter]
    exact hran.get?_eq_settledValue name
  · intro error
    rw [hvalue, Course.answer_eq_error_iff, Course.firstError_of_chains rfl hbindings hremovals,
      hcalls, List.findSome?_cons, Course.hardError?_eq_none hlist]
  · intro sync hsync
    rw [hvalue, Course.answer_eq_ok_iff] at hsync
    obtain ⟨hnone, rfl⟩ := hsync
    exact Course.handled_of_chains rfl hbindings hremovals hnodup hnone

/-! ## Objects in memory -/

namespace MemoryStore

/-- The error of a call on an object with the given failures. -/
def callError (failures : List AttributeFailure) (attempt : Attempt) (kind : AttributeCall)
    (target : Path) (name : Option String) : Option MetadataError :=
  (failures.find? (·.concerns kind name)).map (⟨attempt, target, ·.error⟩)

/-- The errors of the calls on objects with the given failures. -/
def callErrors (failures : Path → List AttributeFailure) (target : Path) :
    AttributeProvider.Call → Option MetadataError
  | .list => callError (failures target) .listAttributes .list target none
  | .get name => callError (failures target) .readAttribute .get target (some name)
  | .set name => callError (failures target) .writeAttribute .set target (some name)
  | .remove name => callError (failures target) .removeAttribute .remove target (some name)

theorem verdict_eq_ofError (failures : List AttributeFailure) (attempt : Attempt)
    (kind : AttributeCall) (target : Path) (name : Option String) :
    verdict failures attempt kind target name =
      .ofError (callError failures attempt kind target name) := by
  unfold verdict callError
  cases failures.find? (·.concerns kind name) <;> rfl

/-- The calls of a store in memory fail as its list of failures says. -/
theorem callPolicy_eq_ofErrors (failures : Path → List AttributeFailure) :
    callPolicy failures = fun target => .ofErrors (callErrors failures target) := by
  funext target
  simp only [callPolicy, CallPolicy.ofErrors, callErrors, verdict_eq_ofError]

/-- The objects in memory are a store of maps in which calls fail with errors of their own. -/
theorem backedBy_ofErrors (failures : Path → List AttributeFailure) :
    MemoryStore.provider.BackedBy maps (fun target => .ofErrors (callErrors failures target))
      (Plain failures) := by
  rw [← callPolicy_eq_ofErrors]
  exact backedBy failures

end MemoryStore

/-- An object of which one attribute must not be read and one not be made, with more failures. -/
def guardedFile (more : List AttributeFailure) : MemoryStore :=
  ⟨[([0x61], {
    values := .ofList [("user.a", [1]), ("user.b", [2]), ("user.c", [3]), ("user.e", [5])]
    failures := [⟨.get, some "user.a", .os .eacces⟩, ⟨.set, some "user.d", .os .eperm⟩] ++
      more })]⟩

def heavyFailures : List AttributeFailure :=
  [⟨.set, some "user.f", .os .enametoolong⟩, ⟨.remove, some "user.c", .os .ebusy⟩]

def mixedFile : Entry :=
  { Entry.new [0x61] 0o100644 with
    attributes := some (.ofList
      [("user.a", [9]), ("user.b", [2]), ("user.d", [4]), ("user.f", [6])]) }

theorem plain_guardedFile (more : List AttributeFailure) :
    MemoryStore.Plain (fun target => ((guardedFile more).object target).failures)
      (guardedFile more) := by
  intro target
  by_cases hfile : ([0x61] : Path) = target <;> simp [guardedFile, MemoryStore.object, hfile]

/-- Of two failures that are no refusals the first one is returned, and a name that comes after them
is removed nevertheless. Where both calls work, five names are counted and one was in place. -/
theorem syncAttributes_isolated_guardedFile :
    ((syncAttributes MemoryStore.provider mixedFile [0x61]).run (guardedFile heavyFailures)).value =
        .error ⟨.writeAttribute, [0x61], .os .enametoolong⟩ ∧
      (((syncAttributes MemoryStore.provider mixedFile [0x61]).run
        (guardedFile heavyFailures)).state.maps [0x61]).get? "user.e" = none ∧
      ((syncAttributes MemoryStore.provider mixedFile [0x61]).run (guardedFile [])).value =
        .ok { written := 1, removed := 2, skipped := 2 } ∧
      1 + 2 + 2 + (mixedFile.attributes.getD .empty).toList.countP (Course.isInPlace
        (MemoryStore.callErrors (fun target => ((guardedFile []).object target).failures) [0x61])
        ((guardedFile []).maps [0x61])) = 6 := by
  obtain ⟨_, -, -, -, hfailing⟩ := syncAttributes_isolated (MemoryStore.backedBy_ofErrors _)
    (plain_guardedFile heavyFailures) mixedFile (by decide) [0x61] (by decide)
  obtain ⟨present, hpresent, -, -, hworking⟩ := syncAttributes_isolated
    (MemoryStore.backedBy_ofErrors _) (plain_guardedFile []) mixedFile (by decide) [0x61]
    (by decide)
  obtain rfl : present = ["user.a", "user.b", "user.c", "user.e"] :=
    Except.ok.inj (hpresent.symm.trans (by decide))
  have hvalue : ((syncAttributes MemoryStore.provider mixedFile [0x61]).run
      (guardedFile [])).value = .ok { written := 1, removed := 2, skipped := 2 } := by decide
  have hsync := hworking.accounts _ hvalue
  refine ⟨?_, ?_, hvalue, hsync⟩
  · rw [hfailing.answer_eq_error_iff]
    decide
  · rw [hfailing.get?_eq]
    decide

end TreeManifest
