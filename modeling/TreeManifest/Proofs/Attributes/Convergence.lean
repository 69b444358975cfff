import TreeManifest.Proofs.Attributes.Stores
import TreeManifest.Proofs.Attributes.Sync

/-!
# Restores through a store of maps

A restore that meets no failure makes the map of its object equal to the wanted one and touches no
other object. Whatever fails, the next restore of the same entry makes no change.

## Main statements

- `syncAttributes_converges`: the store and the counts after a restore without failures.
- `syncAttributes_again_quiet`: the next restore changes nothing.
-/

namespace TreeManifest

open AttributeProvider

variable {σ : Type} {provider : AttributeProvider σ} {store : σ → Path → AttributeMap}
  {policy : Path → CallPolicy} {valid : σ → Prop} {state : σ}

namespace Course

variable {shows : String → Bool} {entry : Entry} {initial wanted : AttributeMap}
  {before after : Standing}

theorem steady_unfailing : CallPolicy.unfailing.Steady :=
  ⟨fun _ _ h => h.elim, fun _ _ _ h => h.elim, fun _ _ _ _ h => h.elim, fun _ _ _ h => h.elim⟩

/-- Nothing is written blindly where everything that is held is listed. -/
theorem rewritten_of_listed (policy : CallPolicy) (entry : Entry) :
    rewritten policy (fun _ => true) entry = [] := by
  simp [rewritten]

/-- Without failures a restore writes what is missing or different. -/
theorem writes_unfailing (initial : AttributeMap) :
    writes .unfailing (fun _ => true) initial =
      fun binding => decide (initial.get? binding.1 ≠ some binding.2) := by
  funext binding
  have hmissing : initial.contains binding.1 = false → initial.get? binding.1 = none := by
    simp [AttributeMap.contains]
  simp only [writes, asks, lists, CallPolicy.unfailing, Verdict.isWorking, Bool.and_true,
    Bool.true_and]
  cases hcontains : initial.contains binding.1 with
  | true => by_cases hsame : initial.get? binding.1 = some binding.2 <;> simp [hsame]
  | false => simp [hmissing hcontains]

/-- Without failures a restore removes what is not wanted. -/
theorem drops_unfailing (wanted : AttributeMap) (name : String) :
    drops .unfailing wanted name = !wanted.contains name := by
  simp [drops, CallPolicy.unfailing, Verdict.isWorking]

/-- Without failures a restore ends with the wanted map. -/
theorem Ran.held_eq_of_unfailing (h : Ran .unfailing (fun _ => true) wanted before after) :
    after.held = wanted := by
  refine AttributeMap.ext_get? fun name => ?_
  rw [h.get?_eq name]
  cases hwanted : wanted.get? name with
  | some value =>
    dsimp only
    rw [writes_unfailing]
    by_cases hsame : before.held.get? name = some value <;> simp [hsame]
  | none =>
    have hmissing : before.held.contains name = false → before.held.get? name = none := by
      simp [AttributeMap.contains]
    cases hcontains : before.held.contains name with
    | true => simp [lists, hcontains, CallPolicy.unfailing, Verdict.isWorking]
    | false => simp [lists, hcontains, hmissing]

/-- Without failures a restore succeeds and counts what was missing, different or not wanted. -/
theorem Ran.answer_eq_of_unfailing (h : Ran .unfailing (fun _ => true) wanted before after)
    (hstart : before.progress = {}) :
    answer after.progress = .ok {
      written := (wanted.toList.filter fun binding =>
        before.held.get? binding.1 ≠ some binding.2).length
      removed := (before.held.keys.filter fun name => !wanted.contains name).length
      skipped := 0 } := by
  have hnone : after.progress.firstError = none := by
    rw [h.firstError_eq_none_iff steady_unfailing, hstart]
    exact ⟨⟨rfl, fun _ _ => ⟨fun _ _ h => h.elim, fun _ _ h => h.elim⟩⟩, fun _ _ _ _ h => h.elim⟩
  have hwritten := h.written_eq
  have hremoved := h.removed_eq
  have hskipped := h.skipped_eq (fun _ => rfl) (fun _ _ => rfl) (fun _ => rfl)
  simp only [hstart, Nat.zero_add, writes_unfailing, drops_unfailing, Bool.true_and]
    at hwritten hremoved hskipped
  refine answer_eq_ok_iff.2 ⟨hnone, ?_⟩
  change (⟨_, _, _⟩ : AttributeSync) = _
  rw [hwritten, hremoved, hskipped]

end Course

/-! ## Restores without failures -/

/-- A restore that meets no failure makes the map of its object equal to the wanted one, touches no
other object and counts exactly what differed. An entry of a kind without attributes leads to no
call at all. -/
theorem syncAttributes_converges (h : provider.BackedBy store (fun _ => .unfailing) valid)
    (hvalid : valid state) (entry : Entry) (target : Path) :
    (entry.kind.carriesAttributes = true →
      ((syncAttributes provider entry target).run state).value = .ok {
          written := ((entry.attributes.getD .empty).toList.filter fun binding =>
            (store state target).get? binding.1 ≠ some binding.2).length
          removed := ((store state target).keys.filter fun name =>
            !(entry.attributes.getD .empty).contains name).length
          skipped := 0 } ∧
        store ((syncAttributes provider entry target).run state).state target =
          entry.attributes.getD .empty ∧
        ∀ other, other ≠ target →
          store ((syncAttributes provider entry target).run state).state other =
            store state other) ∧
      (entry.kind.carriesAttributes = false → ∀ calls,
        (syncAttributes provider.recorded entry target).run (state, calls) =
          ⟨.ok {}, (state, calls), []⟩) := by
  constructor
  · intro hcarries
    obtain ⟨_, ⟨-, hothers⟩, -, hsynced⟩ := Course.synced_run
      (h.serves target (store state)) ⟨hvalid, fun _ _ => rfl⟩ entry
    obtain ⟨after, hran, hheld, -, hanswer⟩ := hsynced.exists_ran hcarries rfl
    refine ⟨?_, ?_, hothers⟩
    · rw [← hanswer, hran.answer_eq_of_unfailing rfl]
    · rw [← hran.held_eq_of_unfailing, hheld]
  · intro hcarries calls
    rw [Course.syncAttributes_of_not_carries hcarries]
    rfl

def twoFiles : MemoryStore :=
  ⟨[([0x61], { values := .ofList [("user.a", [1]), ("user.b", [2])] }),
    ([0x62], { values := .ofList [("user.c", [3])] })]⟩

/-- An entry for the first of them, with one attribute changed and another one replaced. -/
def changedFile : Entry :=
  { Entry.new [0x61] 0o100644 with
    attributes := some (.ofList [("user.a", [9]), ("user.d", [4])]) }

theorem plain_twoFiles : MemoryStore.Plain (fun _ => []) twoFiles := by
  intro target
  by_cases hfirst : ([0x61] : Path) = target
  · simp [twoFiles, MemoryStore.object, hfirst]
  · by_cases hsecond : ([0x62] : Path) = target <;>
      simp [twoFiles, MemoryStore.object, hfirst, hsecond]

theorem syncAttributes_converges_twoFiles :
    ((syncAttributes MemoryStore.provider changedFile [0x61]).run twoFiles).value =
        .ok { written := 2, removed := 1, skipped := 0 } ∧
      (((syncAttributes MemoryStore.provider changedFile [0x61]).run twoFiles).state.maps
        [0x61]).toList = [("user.a", [9]), ("user.d", [4])] ∧
      ((syncAttributes MemoryStore.provider changedFile [0x61]).run twoFiles).state.maps [0x62] =
        twoFiles.maps [0x62] := by
  obtain ⟨hvalue, hwanted, hothers⟩ := (syncAttributes_converges (MemoryStore.backedBy fun _ => [])
    plain_twoFiles changedFile [0x61]).1 (by decide)
  refine ⟨hvalue.trans (by decide), ?_, hothers [0x62] (by decide)⟩
  rw [hwanted]
  decide

/-! ## Restores once more -/

/-- Whatever fails, the next restore of an entry writes nothing, removes nothing and leaves the
store as the first one did. -/
theorem syncAttributes_again_quiet (h : provider.BackedBy store policy valid)
    (hvalid : valid state) (entry : Entry) (target : Path) :
    let first := (syncAttributes provider entry target).run state
    let second := (syncAttributes provider entry target).run first.state
    store second.state = store first.state ∧
      ((syncAttributes provider.journaled entry target).run (first.state, [])).state =
        (second.state, []) := by
  intro first second
  obtain ⟨_, ⟨hmiddle, -⟩, -, hsynced⟩ := Course.synced_run
    (h.serves target (store state)) ⟨hvalid, fun _ _ => rfl⟩ entry
  obtain ⟨changes, ⟨-, hothers⟩, hjournal, hagain⟩ := Course.synced_run
    (h.serves target (store first.state)) ⟨hmiddle, fun _ _ => rfl⟩ entry
  obtain ⟨hheld, hchanges⟩ := hsynced.again hagain
  rw [Course.rewritten_of_listed, List.map_nil] at hchanges
  refine ⟨funext fun other => ?_, ?_⟩
  · by_cases hother : other = target
    · rw [hother]
      exact hheld
    · exact hothers other hother
  · rw [hjournal, hchanges]

/-- An object of which one attribute cannot be read, one not made and one not removed. -/
def stubbornFile : MemoryStore :=
  ⟨[([0x61], {
    values := .ofList [("user.a", [1]), ("user.b", [2]), ("user.c", [3])]
    failures := [⟨.get, some "user.a", .os .eacces⟩, ⟨.set, some "user.d", .os .eperm⟩,
      ⟨.remove, some "user.b", .os .ebusy⟩] })]⟩

theorem plain_stubbornFile :
    MemoryStore.Plain (fun target => (stubbornFile.object target).failures) stubbornFile := by
  intro target
  by_cases hfile : ([0x61] : Path) = target <;> simp [stubbornFile, MemoryStore.object, hfile]

/-- The first restore removes `user.c` and fails. The next one removes nothing. -/
theorem syncAttributes_again_quiet_stubbornFile :
    ((syncAttributes MemoryStore.provider changedFile [0x61]).run stubbornFile).value =
        .error ⟨.removeAttribute, [0x61], .os .ebusy⟩ ∧
      (((syncAttributes MemoryStore.provider changedFile [0x61]).run stubbornFile).state.maps
        [0x61]).toList = [("user.a", [1]), ("user.b", [2])] ∧
      ((syncAttributes MemoryStore.provider.journaled changedFile [0x61]).run
        (((syncAttributes MemoryStore.provider changedFile [0x61]).run stubbornFile).state,
          [])).state.2 = [] := by
  refine ⟨by decide, by decide, ?_⟩
  rw [(syncAttributes_again_quiet (MemoryStore.backedBy _) plain_stubbornFile changedFile
    [0x61]).2]

end TreeManifest
