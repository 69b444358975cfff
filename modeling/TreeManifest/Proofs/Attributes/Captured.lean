import TreeManifest.Attributes
import TreeManifest.Proofs.Attributes.Stores

/-!
# What capture takes over

Where reading an attribute of an object always leads to the same, capture takes over exactly the
values that can be read under the visible names that are listed, however often they are listed. An
entry gets no map when there is none, and the number returned is the size of the map.

## Main definitions

- `AttributeProvider.Reads`: what reading the attributes of an object leads to.
- `AttributeProvider.readable?`: what is taken over for a listed name.

## Main statements

- `AttributeProvider.Reads.run_readListed`: the bindings that capture collects.
- `captureAttributes_exact`: the map, the number and the entry after capture.
-/

namespace TreeManifest

/-! ## Maps of lists with repetitions -/

namespace AttributeMap

variable {bindings : List (String × Bytes)} {name : String} {value : Bytes}

theorem get?_or_mem_of_get?_foldl_insert {map : AttributeMap}
    (h : (bindings.foldl (fun map binding => map.insert binding.1 binding.2) map).get? name =
      some value) :
    map.get? name = some value ∨ (name, value) ∈ bindings := by
  induction bindings generalizing map with
  | nil => exact .inl h
  | cons binding rest ih =>
    rcases ih h with hinsert | hrest
    · rw [get?_insert] at hinsert
      split at hinsert
      · next hkey =>
        cases hinsert
        exact .inr (hkey ▸ List.mem_cons_self)
      · exact .inl hinsert
    · exact .inr (List.mem_cons_of_mem _ hrest)

/-- What a map binds was in the list that it was made of. -/
theorem mem_of_get?_ofList (h : (ofList bindings).get? name = some value) :
    (name, value) ∈ bindings :=
  (get?_or_mem_of_get?_foldl_insert h).resolve_left nofun

/-- The map of a list in which all bindings of one name agree has these bindings. -/
theorem get?_ofList_eq_some_iff
    (h : ∀ name first second, (name, first) ∈ bindings → (name, second) ∈ bindings →
      first = second) :
    (ofList bindings).get? name = some value ↔ (name, value) ∈ bindings := by
  refine ⟨mem_of_get?_ofList, fun hmem => ?_⟩
  obtain ⟨other, hother⟩ := Option.isSome_iff_exists.1 (contains_ofList.2 ⟨value, hmem⟩)
  rw [hother, h name other value (mem_of_get?_ofList hother) hmem]

/-- A list with the bindings of a map in any order makes that map. -/
theorem ofList_of_perm {map : AttributeMap} (h : bindings.Perm map.toList) :
    ofList bindings = map := by
  refine ext_get? fun name => Option.ext fun value => ?_
  have hsame : ∀ name first second, (name, first) ∈ bindings → (name, second) ∈ bindings →
      first = second := by
    intro name first second hfirst hsecond
    have hget := get?_eq_some_iff.2 (h.mem_iff.1 hfirst)
    exact Option.some.inj (hget.symm.trans (get?_eq_some_iff.2 (h.mem_iff.1 hsecond)))
  rw [get?_ofList_eq_some_iff hsame, get?_eq_some_iff, h.mem_iff]

/-- The map of the bindings of a map is that map. -/
theorem ofList_toList (map : AttributeMap) : ofList map.toList = map :=
  ofList_of_perm (.refl _)

end AttributeMap

/-! ## Reading -/

namespace AttributeProvider

/-- Reading an attribute of an object always leads to the same: to a value, to nothing, or to a
failure, for which there is `none`. Listing and reading keep `valid`. -/
structure Reads {σ : Type} (provider : AttributeProvider σ) (target : Path)
    (readings : String → Option (Option Bytes)) (valid : σ → Prop) : Prop where
  list : ∀ {state}, valid state → valid ((provider.list target).run state).state
  get : ∀ {state} (name), valid state →
    valid ((provider.get target name).run state).state ∧
    ((provider.get target name).run state).value.toOption = readings name

/-- The binding that capture takes over for a listed name. -/
def readable? (readings : String → Option (Option Bytes)) (name : String) :
    Option (String × Bytes) :=
  if AttributeName.IsVisible name then (readings name).join.map (name, ·) else none

theorem mem_filterMap_readable? {readings : String → Option (Option Bytes)} {names : List String}
    {name : String} {value : Bytes} :
    (name, value) ∈ names.filterMap (readable? readings) ↔
      name ∈ names ∧ AttributeName.IsVisible name ∧ readings name = some (some value) := by
  rw [List.mem_filterMap]
  constructor
  · rintro ⟨listed, hlisted, hreadable⟩
    obtain ⟨hvisible, hjoin⟩ := Option.ite_none_right_eq_some.1 hreadable
    obtain ⟨found, hfound, heq⟩ := Option.map_eq_some_iff.1 hjoin
    obtain ⟨rfl, rfl⟩ := Prod.mk.inj heq
    exact ⟨hlisted, hvisible, Option.join_eq_some_iff.1 hfound⟩
  · rintro ⟨hname, hvisible, hreading⟩
    refine ⟨name, hname, ?_⟩
    rw [readable?, if_pos hvisible, hreading]
    rfl

namespace Reads

variable {σ : Type} {provider : AttributeProvider σ} {target : Path}
  {readings : String → Option (Option Bytes)} {valid : σ → Prop} {state : σ}

/-- Capture collects what can be read of every visible name that is listed. -/
theorem run_readListed (h : provider.Reads target readings valid) (hvalid : valid state)
    (names : List String) :
    valid ((readListed provider target names).run state).state ∧
      ((readListed provider target names).run state).value =
        names.filterMap (readable? readings) := by
  induction names generalizing state with
  | nil => exact ⟨hvalid, rfl⟩
  | cons name rest ih =>
    rw [readListed, List.filterMap_cons, readable?]
    by_cases hvisible : AttributeName.IsVisible name
    · obtain ⟨hnext, hreading⟩ := h.get name hvalid
      rw [if_pos hvisible, if_pos hvisible, Task.run_bind, ← hreading]
      rcases ((provider.get target name).run state).value with error | _ | value
      · exact ih hnext
      · exact ih hnext
      · exact ⟨(ih hnext).1, congrArg ((name, value) :: ·) (ih hnext).2⟩
    · rw [if_neg hvisible, if_neg hvisible]
      exact ih hvalid

end Reads

end AttributeProvider

open AttributeProvider

variable {σ : Type} {provider : AttributeProvider σ} {target : Path}
  {readings : String → Option (Option Bytes)} {valid : σ → Prop} {state : σ} {entry : Entry}

/-! ## Capture -/

theorem Entry.putAttributes_some (entry : Entry) (map : AttributeMap) :
    entry.putAttributes (some map) =
      { entry with attributes := if map.isEmpty then none else some map } := by
  unfold putAttributes
  cases hempty : map.isEmpty <;> simp [hempty]

/-- Once the names are listed, capture makes a map of what it reads. -/
theorem value_captureAttributes_of_listed {names : List String}
    (hcarries : entry.kind.carriesAttributes = true)
    (hlist : ((provider.list target).run state).value = .ok names) :
    ((captureAttributes provider entry target).run state).value =
      let bindings :=
        ((readListed provider target names).run ((provider.list target).run state).state).value
      (.ok (AttributeMap.ofList bindings).size,
        entry.putAttributes (some (.ofList bindings))) := by
  rw [captureAttributes, if_neg (by simp [hcarries]), Task.run_bind, hlist]
  rfl

/-- Without the names, capture ends after it has tried to list them. -/
theorem run_captureAttributes_of_unlisted {error : MetadataError}
    (hcarries : entry.kind.carriesAttributes = true)
    (hlist : ((provider.list target).run state).value = .error error) :
    ((captureAttributes provider entry target).run state).value = (.error error, entry) ∧
      ((captureAttributes provider entry target).run state).state =
        ((provider.list target).run state).state := by
  rw [captureAttributes, if_neg (by simp [hcarries]), Task.run_bind, hlist]
  exact ⟨rfl, rfl⟩

theorem captureAttributes_of_not_carries (hcarries : entry.kind.carriesAttributes = false) :
    captureAttributes provider entry target = pure (.ok 0, entry) := by
  rw [captureAttributes, if_pos (by simp [hcarries])]

/-- Capture takes over exactly the visible names that are listed and can be read. When the names
cannot be listed or the kind has no attributes, the entry stays as it is and nothing is read. -/
theorem captureAttributes_exact (h : provider.Reads target readings valid) (hvalid : valid state)
    (entry : Entry) :
    (entry.kind.carriesAttributes = true → ∀ names,
      ((provider.list target).run state).value = .ok names → ∃ map : AttributeMap,
        (∀ name value, map.get? name = some value ↔
          name ∈ names ∧ AttributeName.IsVisible name ∧ readings name = some (some value)) ∧
        ((captureAttributes provider entry target).run state).value = (.ok map.size,
          { entry with attributes := if map.isEmpty then none else some map })) ∧
      (entry.kind.carriesAttributes = true → ∀ error,
        ((provider.list target).run state).value = .error error →
          ((captureAttributes provider entry target).run state).value = (.error error, entry) ∧
          ((captureAttributes provider.recorded entry target).run (state, [])).state.2 =
            [.list]) ∧
      (entry.kind.carriesAttributes = false →
        ((captureAttributes provider entry target).run state).value = (.ok 0, entry) ∧
        ((captureAttributes provider.recorded entry target).run (state, [])).state.2 = []) := by
  refine ⟨?_, ?_, ?_⟩
  · intro hcarries names hlist
    refine ⟨.ofList (names.filterMap (readable? readings)), fun name value => ?_, ?_⟩
    · rw [AttributeMap.get?_ofList_eq_some_iff, mem_filterMap_readable?]
      -- The bindings of a name agree, for they were all read in the same way.
      intro name first second hfirst hsecond
      obtain ⟨-, -, hfirst⟩ := mem_filterMap_readable?.1 hfirst
      obtain ⟨-, -, hsecond⟩ := mem_filterMap_readable?.1 hsecond
      rw [hfirst] at hsecond
      exact Option.some.inj (Option.some.inj hsecond)
    · rw [value_captureAttributes_of_listed hcarries hlist,
        (h.run_readListed (h.list hvalid) names).2]
      dsimp only
      rw [Entry.putAttributes_some]
  · intro hcarries error hlist
    have hrecorded : ((provider.recorded.list target).run (state, [])).value = .error error := hlist
    refine ⟨(run_captureAttributes_of_unlisted hcarries hlist).1, ?_⟩
    rw [(run_captureAttributes_of_unlisted hcarries hrecorded).2]
    rfl
  · intro hcarries
    rw [captureAttributes_of_not_carries hcarries, captureAttributes_of_not_carries hcarries]
    exact ⟨rfl, rfl⟩

/-! ## Objects in memory -/

namespace MemoryStore

/-- What reading the attributes of an object leads to. -/
def readingsOf (object : MemoryObject) (name : String) : Option (Option Bytes) :=
  if (failure? object .get (some name)).isSome then none else some (object.values.get? name)

/-- Reading an object in memory leads to its values, unless it fails. -/
theorem reads (target : Path) (object : MemoryObject) :
    MemoryStore.provider.Reads target (readingsOf object)
      (fun store => store.object target = object) := by
  have hkept : ∀ store : MemoryStore,
      (store.put target (store.object target)).object target = store.object target := by
    intro store
    rw [object_put, if_pos rfl]
  constructor
  · rintro store rfl
    simp only [provider, call, Task.run_perform]
    split <;> exact hkept store
  · rintro store name rfl
    simp only [provider, call, Task.run_perform, readingsOf]
    cases failure? (store.object target) .get (some name) <;> exact ⟨hkept store, rfl⟩

end MemoryStore

/-- An object that lists a name twice, one with an empty name, one reserved, one that has vanished
and one that cannot be read. -/
def oddlyListedFile : MemoryStore :=
  ⟨[([0x61], {
    values := .ofList [("", [0]), ("\x00flags", [1]), ("user.a", [2]), ("user.b", [3]),
      ("user.c", [4])]
    listing := some ["user.b", "", "\x00flags", "user.a", "user.b", "user.c", "user.d"]
    failures := [⟨.get, some "user.c", .os .ebusy⟩] })]⟩

def staleFile : Entry :=
  { Entry.new [0x61] 0o100644 with attributes := some (.ofList [("user.c", [9])]) }

/-- Capture takes over the two attributes that remain in place of the former one. -/
theorem captureAttributes_exact_oddlyListedFile :
    ∃ map : AttributeMap, map.get? "user.a" = some [2] ∧ map.get? "user.b" = some [3] ∧
      map.get? "user.c" = none ∧ map.get? "" = none ∧ map.size = 2 ∧
      ((captureAttributes MemoryStore.provider staleFile [0x61]).run oddlyListedFile).value =
        (.ok map.size, { staleFile with attributes := some map }) := by
  have hobject : oddlyListedFile.object [0x61] = oddlyListedFile.object [0x61] := rfl
  obtain ⟨map, hmap, hvalue⟩ := (captureAttributes_exact
    (MemoryStore.reads [0x61] (oddlyListedFile.object [0x61])) hobject staleFile).1 (by decide)
    ["user.b", "", "\x00flags", "user.a", "user.b", "user.c", "user.d"] rfl
  have hmissing : ∀ name, ¬ (AttributeName.IsVisible name ∧
      (MemoryStore.readingsOf (oddlyListedFile.object [0x61]) name).isSome = true) →
        map.get? name = none := by
    intro name hnot
    rw [Option.eq_none_iff_forall_ne_some]
    intro value hget
    obtain ⟨-, hvisible, hreading⟩ := (hmap name value).1 hget
    exact hnot ⟨hvisible, hreading ▸ rfl⟩
  have hfirst : map.get? "user.a" = some [2] := (hmap _ _).2 (by decide)
  have hsize : map.size = 2 := by
    have hcount : ((captureAttributes MemoryStore.provider staleFile [0x61]).run
        oddlyListedFile).value.1 = .ok 2 := rfl
    rw [hvalue] at hcount
    exact Except.ok.inj hcount
  have hsome : map.isEmpty = false := by
    rw [AttributeMap.isEmpty, List.isEmpty_eq_false_iff, ← List.length_pos_iff]
    exact Nat.lt_of_lt_of_eq Nat.two_pos hsize.symm
  rw [hsome] at hvalue
  exact ⟨map, hfirst, (hmap _ _).2 (by decide), hmissing _ (by decide), hmissing _ (by decide),
    hsize, hvalue⟩

end TreeManifest
