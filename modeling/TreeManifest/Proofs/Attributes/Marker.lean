import TreeManifest.Proofs.Attributes.Captured

/-!
# The exclusion marker

The marker of an object is looked up among its captured attributes, or read if there are none. Where
listing gives the names that are present and reading always leads to the same, either way gives the
same answer: whatever can be read is present, so it is captured whenever the names can be listed.

## Main definitions

- `AttributeProvider.Faithful`: listing and reading agree about what is present.

## Main statements

- `AttributeProvider.Reads.value_isExcluded`: when a marker is found by reading it.
- `AttributeProvider.Faithful.value_isExcluded_captured`: capture makes no difference.
-/

namespace TreeManifest.AttributeProvider

variable {σ : Type} {provider : AttributeProvider σ} {target : Path}
  {readings : String → Option (Option Bytes)} {valid : σ → Prop} {state : σ} {entry : Entry}

namespace Reads

theorem valid_captureAttributes (h : provider.Reads target readings valid) (hvalid : valid state)
    (entry : Entry) : valid ((captureAttributes provider entry target).run state).state := by
  rw [captureAttributes]
  split
  · exact hvalid
  · rw [Task.run_bind]
    dsimp only
    rcases ((provider.list target).run state).value with error | names
    · exact h.list hvalid
    · exact (h.run_readListed (h.list hvalid) names).1

/-- Without captured attributes an object is left out if a marker can be read. -/
theorem value_isExcluded (h : provider.Reads target readings valid) (hvalid : valid state)
    (hentry : entry.attributes = none) :
    ((Exclusion.isExcluded provider target entry).run state).value =
      (readings Exclusion.markerName).join.isSome := by
  obtain ⟨-, hreading⟩ := h.get Exclusion.markerName hvalid
  rw [Exclusion.isExcluded, hentry, ← hreading, Task.run_bind]
  rcases ((provider.get target Exclusion.markerName).run state).value with error | value <;> rfl

end Reads

/-- When listing works it gives the names that are present, and what is absent cannot be read.
Reading an attribute always leads to the same. -/
structure Faithful (provider : AttributeProvider σ) (target : Path) (present : String → Prop)
    (readings : String → Option (Option Bytes)) (valid : σ → Prop) : Prop extends
    provider.Reads target readings valid where
  mem_iff : ∀ {state names}, valid state → ((provider.list target).run state).value = .ok names →
    ∀ name, name ∈ names ↔ present name
  of_absent : ∀ {name}, ¬ present name → readings name = some none ∨ readings name = none

namespace Faithful

variable {present : String → Prop}

theorem present_of_reading (h : provider.Faithful target present readings valid) {name : String}
    {value : Bytes} (hreading : readings name = some (some value)) : present name := by
  by_contra habsent
  rcases h.of_absent habsent with hnothing | hfailure
  · rw [hreading] at hnothing
    cases hnothing
  · rw [hreading] at hfailure
    cases hfailure

/-- A marker is captured if it can be read, whenever the names can be listed. -/
theorem contains_markerName (h : provider.Faithful target present readings valid)
    (hvalid : valid state) {names : List String}
    (hlist : ((provider.list target).run state).value = .ok names) :
    (AttributeMap.ofList (names.filterMap (readable? readings))).contains Exclusion.markerName =
      (readings Exclusion.markerName).join.isSome := by
  rw [Bool.eq_iff_iff, AttributeMap.contains_ofList, Option.isSome_iff_exists]
  simp only [mem_filterMap_readable?, Option.join_eq_some_iff]
  constructor
  · rintro ⟨value, -, -, hreading⟩
    exact ⟨value, hreading⟩
  · rintro ⟨value, hreading⟩
    have hlisted := (h.mem_iff hvalid hlist _).2 (h.present_of_reading hreading)
    exact ⟨value, hlisted, by decide, hreading⟩

/-- Whether an object is left out does not depend on whether its attributes were captured. -/
theorem value_isExcluded_captured (h : provider.Faithful target present readings valid)
    (hvalid : valid state) (hentry : entry.attributes = none) :
    ((Exclusion.isExcluded provider target
        ((captureAttributes provider entry target).run state).value.2).run
      ((captureAttributes provider entry target).run state).state).value =
      ((Exclusion.isExcluded provider target entry).run state).value := by
  have hafter := h.valid_captureAttributes hvalid entry
  rw [h.value_isExcluded hvalid hentry]
  cases hcarries : entry.kind.carriesAttributes with
  | false =>
    rw [captureAttributes_of_not_carries hcarries]
    exact h.value_isExcluded hvalid hentry
  | true =>
    cases hlist : ((provider.list target).run state).value with
    | error error =>
      rw [(run_captureAttributes_of_unlisted hcarries hlist).1]
      exact h.value_isExcluded hafter hentry
    | ok names =>
      have hcontains := h.contains_markerName hvalid hlist
      rw [value_captureAttributes_of_listed hcarries hlist,
        (h.run_readListed (h.list hvalid) names).2]
      dsimp only
      rw [Entry.putAttributes_some]
      cases hempty : (AttributeMap.ofList (names.filterMap (readable? readings))).isEmpty with
      | true => exact h.value_isExcluded hafter rfl
      | false => exact hcontains

end Faithful

end TreeManifest.AttributeProvider
