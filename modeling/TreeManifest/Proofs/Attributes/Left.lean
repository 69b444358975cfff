import TreeManifest.Proofs.Attributes.Namespaces

/-!
# The map that a restore of attributes leaves

What a restore leaves of the attributes of an object depends on the rights of the process and on the
map that it begins with, and not on the path by which the object is reached. So it is a function of
maps. Where every change is refused it keeps the map, and to remove everything twice is to do so
once.

## Main definitions

- `NativeAttributes.left`: the map that a restore leaves.

## Main statements

- `NativeAttributes.left_of_synced`: what a restore through the provider of a system leaves.
- `NativeAttributes.left_left_empty`: removing everything is idempotent.
-/

namespace TreeManifest

namespace AttributeMap

/-- Ascending bindings that are made one after the other hide those of the same names. -/
theorem get?_foldl_insert {bindings : List (String × Bytes)}
    (h : bindings.Pairwise fun a b => a.1 < b.1) (map : AttributeMap) (name : String) :
    (bindings.foldl (fun map binding => map.insert binding.1 binding.2) map).get? name =
      (lookup name bindings).or (map.get? name) := by
  induction bindings generalizing map with
  | nil => rfl
  | cons binding rest ih =>
    obtain ⟨key, value⟩ := binding
    obtain ⟨hkey, hrest⟩ := List.pairwise_cons.1 h
    rw [List.foldl_cons, ih hrest, get?_insert]
    by_cases hname : key = name
    · subst hname
      have hlater : lookup key rest = none := by
        rw [Option.eq_none_iff_forall_ne_some]
        intro other hother
        exact String.lt_irrefl key (hkey _ ((lookup_eq_some_iff hrest).1 hother))
      simp [lookup, hlater]
    · simp [lookup, hname]

/-- A test on whole bindings, in an ascending list. -/
theorem lookup_filter_binding (keep : String × Bytes → Bool) (name : String)
    {list : List (String × Bytes)} (h : list.Pairwise fun a b => a.1 < b.1) :
    lookup name (list.filter keep) = (lookup name list).filter fun value => keep (name, value) := by
  refine Option.ext fun value => ?_
  rw [lookup_eq_some_iff (h.filter keep), List.mem_filter, Option.filter_eq_some_iff,
    lookup_eq_some_iff h]

end AttributeMap

namespace NativeAttributes

variable {privilege : Privilege} {rights : AttributeRights} {target : Path} {entry : Entry}
  {wanted start : AttributeMap} {name : String}

/-- The map that a restore of some wanted bindings leaves. -/
def left (privilege : Privilege) (rights : AttributeRights) (wanted start : AttributeMap) :
    AttributeMap :=
  (wanted.toList.filter (Course.writes (callPolicy rights []) (shows privilege rights) start)).foldl
    (fun map binding => map.insert binding.1 binding.2)
    (start.filter fun name => !(Course.lists (shows privilege rights) start name &&
      Course.drops (callPolicy rights []) wanted name))

theorem get?_left (privilege : Privilege) (rights : AttributeRights) (wanted start : AttributeMap)
    (name : String) : (left privilege rights wanted start).get? name =
      match wanted.get? name with
      | some value =>
        if Course.writes (callPolicy rights []) (shows privilege rights) start (name, value) then
          some value
        else start.get? name
      | none =>
        if Course.lists (shows privilege rights) start name &&
          ((callPolicy rights []).remove name).isWorking then none
        else start.get? name := by
  rw [left, AttributeMap.get?_foldl_insert (wanted.ascending.filter _),
    AttributeMap.lookup_filter_binding _ _ wanted.ascending, AttributeMap.get?_filter, Course.drops,
    AttributeMap.contains]
  change Option.or (Option.filter _ (wanted.get? name)) _ = _
  cases hwanted : wanted.get? name with
  | none =>
    cases Course.lists (shows privilege rights) start name <;>
      cases ((callPolicy rights []).remove name).isWorking <;> simp
  | some value =>
    cases hwrites : Course.writes (callPolicy rights []) (shows privilege rights) start
      (name, value) <;> simp [Option.filter, hwrites]

/-! ## Paths -/

theorem isWorking_changeVerdict_eq (attempt : Attempt) (target : Path) (name : String)
    (refusal : Option IoError) : (changeVerdict attempt target name refusal).isWorking =
      (decide (AttributeName.IsVisible name) && refusal.isNone) := by
  by_cases hvisible : AttributeName.IsVisible name
  · rw [isWorking_changeVerdict hvisible, decide_eq_true hvisible, Bool.true_and]
  · rw [decide_eq_false hvisible, Bool.false_and, changeVerdict, AttributeProvider.checkName]
    cases hcheck : AttributeName.check name with
    | ok _ => exact absurd (AttributeName.check_eq_ok_iff.1 hcheck) hvisible
    | error error => rfl

/-- Which bindings are written does not depend on the path. -/
theorem writes_callPolicy (rights : AttributeRights) (target other : Path) :
    Course.writes (callPolicy rights target) = Course.writes (callPolicy rights other) := by
  funext shows start binding
  simp only [Course.writes, Course.asks, callPolicy, isWorking_verdict,
    isWorking_changeVerdict_eq]

/-- A restore through the provider of a system leaves a map that does not depend on the path. -/
theorem left_of_synced {held after : AttributeMap} {journal noted : AttributeProvider.Journal}
    {answer : Except MetadataError AttributeSync} (hcarries : entry.kind.carriesAttributes = true)
    (hlist : rights.list = none)
    (h : Course.Synced (callPolicy rights target) (shows privilege rights) entry held journal after
      noted answer) : after = left privilege rights (entry.attributes.getD .empty) held := by
  have hworks : (callPolicy rights target).list.isWorking = true :=
    isWorking_verdict.trans (by rw [hlist]; rfl)
  obtain ⟨standing, hran, rfl, -, -⟩ := h.exists_ran hcarries hworks
  refine AttributeMap.ext_get? fun name => ?_
  have hremove : ∀ name, ((callPolicy rights target).remove name).isWorking =
      ((callPolicy rights []).remove name).isWorking := fun name =>
    (isWorking_changeVerdict_eq _ _ _ _).trans (isWorking_changeVerdict_eq _ _ _ _).symm
  rw [get?_left, writes_callPolicy rights [] target, ← hremove]
  exact hran.get?_eq name

/-! ## Special cases -/

/-- Where every change is refused, the map is kept. -/
theorem left_of_refused (hset : ∀ name value, (rights.set name value).isNone = false)
    (hremove : ∀ name, (rights.remove name).isNone = false) :
    left privilege rights wanted start = start := by
  refine AttributeMap.ext_get? fun name => ?_
  rw [get?_left]
  simp only [Course.writes, callPolicy, isWorking_changeVerdict_eq, hset, hremove, Bool.and_false,
    Bool.false_eq_true, if_false]
  split <;> rfl

/-- Once everything is removed that can be, there is nothing left to be removed. -/
theorem left_left_empty (privilege : Privilege) (rights : AttributeRights) (start : AttributeMap) :
    left privilege rights .empty (left privilege rights .empty start) =
      left privilege rights .empty start := by
  refine AttributeMap.ext_get? fun name => ?_
  have honce := get?_left privilege rights .empty start name
  rw [get?_left]
  simp only [AttributeMap.get?_empty] at honce ⊢
  split
  · next hremoved =>
    rw [honce]
    split
    · rfl
    · next hkept =>
      -- What is still listed was listed before.
      rw [if_neg hkept] at honce
      rw [Course.lists_congr honce] at hremoved
      exact absurd hremoved hkept
  · rfl

end NativeAttributes

end TreeManifest
