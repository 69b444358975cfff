import Mathlib.Logic.Function.Basic
import TreeManifest.Attributes.Memory
import TreeManifest.Proofs.Attributes.Course

/-!
# Stores of attributes

Where a provider keeps one map for each object, each of its objects is served, and a call on one
object leaves the others alone. The objects in memory are such a store while they list the names
that they bind.

## Main definitions

- `AttributeProvider.BackedBy`: the calls of a provider act on a store of maps.
- `MemoryStore.callPolicy`: what the failures of an object in memory make of the calls on it.

## Main statements

- `AttributeProvider.BackedBy.serves`: a store of maps serves each of its objects.
- `MemoryStore.backedBy`: the objects in memory are a store of maps.
-/

namespace TreeManifest

open AttributeProvider

variable {σ : Type}

/-- No call fails. -/
def CallPolicy.unfailing : CallPolicy where
  list := .works
  get _ := .works
  set _ _ := .works
  remove _ := .works

/-- The calls of a provider act on a store of maps, one for each object, and a call that fails has
no effect. `valid` is kept by all calls. -/
structure AttributeProvider.BackedBy (provider : AttributeProvider σ)
    (store : σ → Path → AttributeMap) (policy : Path → CallPolicy) (valid : σ → Prop) : Prop where
  list : ∀ {state} (target), valid state →
    valid ((provider.list target).run state).state ∧
    store ((provider.list target).run state).state = store state ∧
    (policy target).list.Answers
      (fun names => names.Nodup ∧
        ∀ name, name ∈ names ↔ (store state target).contains name = true)
      ((provider.list target).run state).value
  get : ∀ {state} (target name), valid state →
    valid ((provider.get target name).run state).state ∧
    store ((provider.get target name).run state).state = store state ∧
    ((policy target).get name).Answers (· = (store state target).get? name)
      ((provider.get target name).run state).value
  set : ∀ {state} (target name value), valid state →
    valid ((provider.set target name value).run state).state ∧
    store ((provider.set target name value).run state).state =
      (if ((policy target).set name value).isWorking then
        Function.update (store state) target ((store state target).insert name value)
      else store state) ∧
    ((policy target).set name value).Answers (fun _ => True)
      ((provider.set target name value).run state).value
  remove : ∀ {state} (target name), valid state →
    (store state target).contains name = true →
    valid ((provider.remove target name).run state).state ∧
    store ((provider.remove target name).run state).state =
      (if ((policy target).remove name).isWorking then
        Function.update (store state) target ((store state target).erase name)
      else store state) ∧
    ((policy target).remove name).Answers (fun _ => True)
      ((provider.remove target name).run state).value

section

variable {provider : AttributeProvider σ} {store : σ → Path → AttributeMap}
  {policy : Path → CallPolicy} {valid : σ → Prop} {state : σ}

/-- A change to the map of one object leaves the maps of the others alone. -/
theorem maps_after_change {before after : Path → AttributeMap} {target : Path} {map : AttributeMap}
    {works : Bool} (h : after = if works then Function.update before target map else before) :
    (after target = if works then map else before target) ∧
      ∀ other, other ≠ target → after other = before other := by
  subst h
  cases works with
  | false => exact ⟨rfl, fun _ _ => rfl⟩
  | true => exact ⟨Function.update_self .., fun _ hother => Function.update_of_ne hother ..⟩

/-- A store of maps serves each of its objects and leaves the others alone. -/
theorem AttributeProvider.BackedBy.serves (h : provider.BackedBy store policy valid)
    (target : Path) (initial : Path → AttributeMap) :
    provider.Serves target (store · target) (fun _ => true) (policy target)
      (fun state => valid state ∧ ∀ other, other ≠ target → store state other = initial other) where
  list := by
    intro state ⟨hvalid, hothers⟩
    obtain ⟨hafter, hstore, hanswer⟩ := h.list target hvalid
    simp only [hstore, and_true, true_and]
    exact ⟨⟨hafter, hothers⟩, hanswer⟩
  get := by
    intro state name ⟨hvalid, hothers⟩ _
    obtain ⟨hafter, hstore, hanswer⟩ := h.get target name hvalid
    simp only [hstore, true_and]
    exact ⟨⟨hafter, hothers⟩, hanswer⟩
  set := by
    intro state name value ⟨hvalid, hothers⟩
    obtain ⟨hafter, hstore, hanswer⟩ := h.set target name value hvalid
    obtain ⟨hmap, hkept⟩ := maps_after_change hstore
    exact ⟨⟨hafter, fun other hother => (hkept other hother).trans (hothers other hother)⟩, hmap,
      hanswer⟩
  remove := by
    intro state name ⟨hvalid, hothers⟩ hheld
    obtain ⟨hafter, hstore, hanswer⟩ := h.remove target name hvalid hheld
    obtain ⟨hmap, hkept⟩ := maps_after_change hstore
    exact ⟨⟨hafter, fun other hother => (hkept other hother).trans (hothers other hother)⟩, hmap,
      hanswer⟩

end

/-! ## Objects in memory -/

namespace MemoryStore

theorem object_put (store : MemoryStore) (target other : Path) (object : MemoryObject) :
    (store.put target object).object other =
      if other = target then object else store.object other := by
  unfold put
  split
  next hany =>
    -- Replacing objects moves none of them to another path.
    have hpath : ((·.1 == other) ∘ fun item : Path × MemoryObject =>
        if item.1 == target then (target, object) else item) = (·.1 == other) := by
      funext item
      by_cases hitem : item.1 = target <;> simp [hitem]
    simp only [MemoryStore.object, List.find?_map, hpath]
    cases hfind : store.objects.find? (·.1 == other) with
    | none =>
      have hne : other ≠ target := by
        rintro rfl
        obtain ⟨item, hmem, hitem⟩ := List.any_eq_true.1 hany
        exact List.find?_eq_none.1 hfind item hmem hitem
      simp [hne]
    | some item =>
      have hitem : item.1 = other := by simpa using List.find?_some hfind
      by_cases hother : other = target <;> simp [hitem, hother]
  next hany =>
    simp only [MemoryStore.object, List.find?_append]
    by_cases hother : other = target
    · subst hother
      have hnone : store.objects.find? (·.1 == other) = none :=
        List.find?_eq_none.2 fun item hmem hitem => hany (List.any_eq_true.2 ⟨item, hmem, hitem⟩)
      simp [hnone]
    · cases store.objects.find? (·.1 == other) <;> simp [Ne.symm hother, hother]

def verdict (failures : List AttributeFailure) (attempt : Attempt) (kind : AttributeCall)
    (target : Path) (name : Option String) : Verdict :=
  match failures.find? (·.concerns kind name) with
  | some failure => .fails (· = ⟨attempt, target, failure.error⟩)
  | none => .works

def callPolicy (failures : Path → List AttributeFailure) (target : Path) : CallPolicy where
  list := verdict (failures target) .listAttributes .list target none
  get name := verdict (failures target) .readAttribute .get target (some name)
  set name _ := verdict (failures target) .writeAttribute .set target (some name)
  remove name := verdict (failures target) .removeAttribute .remove target (some name)

def maps (store : MemoryStore) (target : Path) : AttributeMap := (store.object target).values

/-- The objects have the given failures, and each lists the names that it binds. -/
def Plain (failures : Path → List AttributeFailure) (store : MemoryStore) : Prop :=
  ∀ target, (store.object target).listing = none ∧ (store.object target).failures = failures target

variable {failures : Path → List AttributeFailure} {store : MemoryStore}

theorem Plain.put (h : Plain failures store) (target : Path) {object : MemoryObject}
    (hlisting : object.listing = none) (hfailures : object.failures = failures target) :
    Plain failures (store.put target object) := by
  intro other
  rw [object_put]
  by_cases hother : other = target
  · simp [hother, hlisting, hfailures]
  · simp [hother, h other]

theorem maps_put (store : MemoryStore) (target : Path) (object : MemoryObject) :
    (store.put target object).maps = Function.update store.maps target object.values := by
  funext other
  by_cases hother : other = target
  · simp [maps, object_put, hother]
  · simp [maps, object_put, hother, Function.update_of_ne]

/-- A call fails with the error that the object has for it, or else acts on the object. -/
theorem run_call (h : Plain failures store) (attempt : Attempt) (kind : AttributeCall)
    (target : Path) (name : Option String) (act : MemoryObject → α × MemoryObject)
    (hact : ∀ object, (act object).2.listing = object.listing ∧
      (act object).2.failures = object.failures) :
    Plain failures ((call attempt kind target name act).run store).state ∧
      ((call attempt kind target name act).run store).state.maps =
        (if (verdict (failures target) attempt kind target name).isWorking then
          Function.update store.maps target (act (store.object target)).2.values
        else store.maps) ∧
      (verdict (failures target) attempt kind target name).Answers
        (· = (act (store.object target)).1)
        ((call attempt kind target name act).run store).value := by
  obtain ⟨hlisting, hfailures⟩ := h target
  have hsame : Function.update store.maps target (store.object target).values = store.maps :=
    Function.update_eq_self target store.maps
  simp only [call, Task.run_perform, failure?, verdict, ← hfailures]
  cases (store.object target).failures.find? (·.concerns kind name) with
  | some failure =>
    refine ⟨h.put target hlisting hfailures, ?_, rfl⟩
    exact (maps_put _ _ _).trans hsame
  | none =>
    refine ⟨h.put target ((hact _).1.trans hlisting) ((hact _).2.trans hfailures), ?_, rfl, rfl⟩
    exact maps_put _ _ _

/-- A call that only reads leaves the maps as they are. -/
theorem maps_of_reading {verdict : Verdict} {target : Path} {maps : Path → AttributeMap}
    (h : maps = if verdict.isWorking then Function.update store.maps target (store.maps target)
      else store.maps) : maps = store.maps := by
  rw [h, Function.update_eq_self, ite_self]

/-- The objects in memory are a store of maps. -/
theorem backedBy (failures : Path → List AttributeFailure) :
    MemoryStore.provider.BackedBy maps (callPolicy failures) (Plain failures) where
  list {store} target h := by
    obtain ⟨hafter, hmaps, hanswer⟩ := run_call h .listAttributes .list target none
      (fun object => (object.listing.getD object.values.keys, object)) fun _ => ⟨rfl, rfl⟩
    refine ⟨hafter, maps_of_reading hmaps, hanswer.imp ?_⟩
    rintro names rfl
    simp only [(h target).1, Option.getD_none]
    exact ⟨AttributeMap.nodup_keys _, fun name => AttributeMap.contains_iff.symm⟩
  get target name h := by
    obtain ⟨hafter, hmaps, hanswer⟩ := run_call h .readAttribute .get target (some name)
      (fun object => (object.values.get? name, object)) fun _ => ⟨rfl, rfl⟩
    exact ⟨hafter, maps_of_reading hmaps, hanswer⟩
  set target name value h := by
    obtain ⟨hafter, hmaps, hanswer⟩ := run_call h .writeAttribute .set target (some name)
      (fun object => ((), { object with values := object.values.insert name value }))
      fun _ => ⟨rfl, rfl⟩
    exact ⟨hafter, hmaps, hanswer.imp fun _ _ => trivial⟩
  remove target name h _ := by
    obtain ⟨hafter, hmaps, hanswer⟩ := run_call h .removeAttribute .remove target (some name)
      (fun object => ((), { object with values := object.values.erase name }))
      fun _ => ⟨rfl, rfl⟩
    exact ⟨hafter, hmaps, hanswer.imp fun _ _ => trivial⟩

end MemoryStore

end TreeManifest
