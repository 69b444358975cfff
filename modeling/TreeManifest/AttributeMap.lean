import TreeManifest.Bytes

/-!
# Attribute maps

A finite map from attribute names to values, kept as a list of bindings in ascending order of the
names. Two maps with the same bindings are equal as values, so entries can be compared field by
field and a map is always written in the same order.

## Main definitions

- `AttributeMap`: the bindings with the proof that they ascend.
- `insert`, `erase`, `filter`, `ofList`: construction; a later binding of a name replaces an
  earlier one.
- `get?`, `contains`, `keys`, `size`: what a map holds.

## Main statements

- `get?_insert`, `get?_erase`, `get?_filter`: each operation through the view `get?`.
- `ext_get?`: a map is determined by its bindings.
-/

namespace TreeManifest

/-- A map from attribute names to values. The bindings ascend strictly by name. -/
structure AttributeMap where
  toList : List (String × Bytes)
  ascending : toList.Pairwise fun a b => a.1 < b.1
  deriving DecidableEq

namespace AttributeMap

def empty : AttributeMap := ⟨[], .nil⟩

instance : Inhabited AttributeMap := ⟨empty⟩

def isEmpty (map : AttributeMap) : Bool := map.toList.isEmpty

def size (map : AttributeMap) : Nat := map.toList.length

/-- The bound names in ascending order. -/
def keys (map : AttributeMap) : List String := map.toList.map Prod.fst

/-- The value bound to a name in a list of bindings. -/
def lookup (name : String) : List (String × Bytes) → Option Bytes
  | [] => none
  | (key, value) :: rest => if key = name then some value else lookup name rest

def get? (map : AttributeMap) (name : String) : Option Bytes := lookup name map.toList

def contains (map : AttributeMap) (name : String) : Bool := (map.get? name).isSome

/-- Puts a binding at its place in an ascending list, replacing a binding of the same name. -/
def place (name : String) (value : Bytes) : List (String × Bytes) → List (String × Bytes)
  | [] => [(name, value)]
  | (key, old) :: rest =>
    if name < key then (name, value) :: (key, old) :: rest
    else if key = name then (name, value) :: rest
    else (key, old) :: place name value rest

theorem mem_of_mem_place {name : String} {value : Bytes} {list : List (String × Bytes)}
    {binding : String × Bytes} (h : binding ∈ place name value list) :
    binding = (name, value) ∨ binding ∈ list := by
  induction list with
  | nil => simpa [place] using h
  | cons head rest ih =>
    obtain ⟨key, old⟩ := head
    unfold place at h
    split at h
    · simpa using h
    · split at h
      · rcases List.mem_cons.1 h with h | h
        · exact .inl h
        · exact .inr (List.mem_cons_of_mem _ h)
      · rcases List.mem_cons.1 h with h | h
        · exact .inr (h ▸ List.mem_cons_self)
        · exact (ih h).imp_right (List.mem_cons_of_mem _)

/-- Of two names that do not precede one another, neither differs from the other. -/
theorem lt_of_not_lt_of_ne {a b : String} (hab : ¬ a < b) (hne : b ≠ a) : b < a := by
  rcases Decidable.em (b < a) with h | h
  · exact h
  · exact absurd (String.le_antisymm (String.not_lt.1 hab) (String.not_lt.1 h)) hne

theorem place_ascending (name : String) (value : Bytes) {list : List (String × Bytes)}
    (h : list.Pairwise fun a b => a.1 < b.1) :
    (place name value list).Pairwise fun a b => a.1 < b.1 := by
  induction list with
  | nil => simp [place]
  | cons head rest ih =>
    obtain ⟨key, old⟩ := head
    obtain ⟨hkey, hrest⟩ := List.pairwise_cons.1 h
    unfold place
    split
    next hlt =>
      refine List.pairwise_cons.2 ⟨fun b hb => ?_, h⟩
      rcases List.mem_cons.1 hb with rfl | hb
      · exact hlt
      · exact String.lt_trans hlt (hkey b hb)
    next hlt =>
      split
      next heq => exact List.pairwise_cons.2 ⟨fun b hb => heq ▸ hkey b hb, hrest⟩
      next hne =>
        refine List.pairwise_cons.2 ⟨fun b hb => ?_, ih hrest⟩
        rcases mem_of_mem_place hb with rfl | hb
        · exact lt_of_not_lt_of_ne hlt hne
        · exact hkey b hb

def insert (map : AttributeMap) (name : String) (value : Bytes) : AttributeMap :=
  ⟨place name value map.toList, place_ascending name value map.ascending⟩

def filter (map : AttributeMap) (keep : String → Bool) : AttributeMap :=
  ⟨map.toList.filter fun binding => keep binding.1, map.ascending.filter _⟩

/-- Removes the binding of a name. -/
def erase (map : AttributeMap) (name : String) : AttributeMap :=
  map.filter (· != name)

/-- The map of a list of bindings, in which a later binding of a name wins. -/
def ofList (bindings : List (String × Bytes)) : AttributeMap :=
  bindings.foldl (fun map binding => map.insert binding.1 binding.2) empty

@[simp] theorem get?_empty (name : String) : empty.get? name = none := rfl

theorem lookup_place (name key : String) (value : Bytes) {list : List (String × Bytes)}
    (h : list.Pairwise fun a b => a.1 < b.1) :
    lookup key (place name value list) = if name = key then some value else lookup key list := by
  induction list with
  | nil => simp [place, lookup]
  | cons head rest ih =>
    obtain ⟨first, old⟩ := head
    obtain ⟨_, hrest⟩ := List.pairwise_cons.1 h
    unfold place
    split
    · rfl
    · split
      next heq => subst heq; by_cases hk : first = key <;> simp [lookup, hk]
      next hne =>
        by_cases hk : first = key
        · have : name ≠ key := fun hn => hne (hk.trans hn.symm)
          simp [lookup, hk, this]
        · simp [lookup, hk, ih hrest]

theorem get?_insert (map : AttributeMap) (name key : String) (value : Bytes) :
    (map.insert name value).get? key = if name = key then some value else map.get? key :=
  lookup_place name key value map.ascending

theorem lookup_filter (keep : String → Bool) (name : String) (list : List (String × Bytes)) :
    lookup name (list.filter fun binding => keep binding.1) =
      if keep name then lookup name list else none := by
  induction list with
  | nil => simp [lookup]
  | cons head rest ih =>
    obtain ⟨key, value⟩ := head
    by_cases hkey : key = name
    · subst hkey
      by_cases hk : keep key = true <;> simp [lookup, hk, ih]
    · by_cases hk : keep key = true <;> simp [lookup, hk, hkey, ih]

theorem get?_filter (map : AttributeMap) (keep : String → Bool) (name : String) :
    (map.filter keep).get? name = if keep name then map.get? name else none :=
  lookup_filter keep name map.toList

theorem get?_erase (map : AttributeMap) (name key : String) :
    (map.erase name).get? key = if key = name then none else map.get? key := by
  rw [erase, get?_filter]
  by_cases h : key = name <;> simp [h]

theorem lookup_eq_some_iff {name : String} {value : Bytes} {list : List (String × Bytes)}
    (h : list.Pairwise fun a b => a.1 < b.1) :
    lookup name list = some value ↔ (name, value) ∈ list := by
  induction list with
  | nil => simp [lookup]
  | cons head rest ih =>
    obtain ⟨key, old⟩ := head
    obtain ⟨hkey, hrest⟩ := List.pairwise_cons.1 h
    by_cases hk : key = name
    · subst hk
      have : (key, value) ∉ rest := fun hm => String.lt_irrefl key (hkey (key, value) hm)
      simp only [lookup, if_pos, Option.some.injEq, List.mem_cons, Prod.mk.injEq, true_and, this,
        or_false]
      exact eq_comm
    · simp [lookup, hk, ih hrest, Ne.symm hk]

theorem get?_eq_some_iff {map : AttributeMap} {name : String} {value : Bytes} :
    map.get? name = some value ↔ (name, value) ∈ map.toList :=
  lookup_eq_some_iff map.ascending

theorem contains_iff {map : AttributeMap} {name : String} :
    map.contains name = true ↔ name ∈ map.keys := by
  simp only [contains, Option.isSome_iff_exists, get?_eq_some_iff, keys, List.mem_map]
  constructor
  · rintro ⟨value, h⟩
    exact ⟨_, h, rfl⟩
  · rintro ⟨⟨key, value⟩, h, rfl⟩
    exact ⟨value, h⟩

theorem contains_insert (map : AttributeMap) (name key : String) (value : Bytes) :
    (map.insert name value).contains key = true ↔ name = key ∨ map.contains key = true := by
  rw [contains, get?_insert, contains]
  by_cases hname : name = key
  · simp [hname]
  · simp [hname]

theorem contains_foldl_insert (bindings : List (String × Bytes)) (map : AttributeMap)
    (name : String) :
    (bindings.foldl (fun map binding => map.insert binding.1 binding.2) map).contains name = true ↔
      map.contains name = true ∨ ∃ value, (name, value) ∈ bindings := by
  induction bindings generalizing map with
  | nil => simp
  | cons binding rest ih =>
    obtain ⟨key, first⟩ := binding
    rw [List.foldl_cons, ih, contains_insert]
    constructor
    · rintro ((rfl | hmap) | ⟨value, hvalue⟩)
      · exact .inr ⟨first, List.mem_cons_self⟩
      · exact .inl hmap
      · exact .inr ⟨value, List.mem_cons_of_mem _ hvalue⟩
    · rintro (hmap | ⟨value, hvalue⟩)
      · exact .inl (.inr hmap)
      · rcases List.mem_cons.1 hvalue with heq | hvalue
        · exact .inl (.inl (congrArg Prod.fst heq).symm)
        · exact .inr ⟨value, hvalue⟩

theorem contains_ofList {bindings : List (String × Bytes)} {name : String} :
    (ofList bindings).contains name = true ↔ ∃ value, (name, value) ∈ bindings := by
  rw [ofList, contains_foldl_insert]
  simp [contains]

theorem mem_keys_filter {map : AttributeMap} {keep : String → Bool} {name : String} :
    name ∈ (map.filter keep).keys ↔ name ∈ map.keys ∧ keep name = true := by
  rw [← contains_iff, ← contains_iff, contains, get?_filter, contains]
  by_cases hkeep : keep name = true <;> simp [hkeep]

theorem nodup_keys (map : AttributeMap) : map.keys.Nodup := by
  refine map.ascending.map Prod.fst fun first second hlt heq => ?_
  exact String.lt_irrefl _ (heq ▸ hlt)

/-- Ascending lists with the same members are equal. -/
theorem eq_of_mem_iff {a b : List (String × Bytes)} (ha : a.Pairwise fun a b => a.1 < b.1)
    (hb : b.Pairwise fun a b => a.1 < b.1) (h : ∀ binding, binding ∈ a ↔ binding ∈ b) : a = b := by
  induction a generalizing b with
  | nil =>
    cases b with
    | nil => rfl
    | cons head rest => exact absurd ((h head).2 List.mem_cons_self) List.not_mem_nil
  | cons x xs ih =>
    cases b with
    | nil => exact absurd ((h x).1 List.mem_cons_self) List.not_mem_nil
    | cons y ys =>
      obtain ⟨hx, hxs⟩ := List.pairwise_cons.1 ha
      obtain ⟨hy, hys⟩ := List.pairwise_cons.1 hb
      have hxy : x = y := by
        rcases List.mem_cons.1 ((h x).1 List.mem_cons_self) with hxy | hmem
        · exact hxy
        · rcases List.mem_cons.1 ((h y).2 List.mem_cons_self) with hyx | hmem'
          · exact hyx.symm
          · exact absurd (hx y hmem') (String.lt_asymm (hy x hmem))
      subst hxy
      refine congrArg (x :: ·) (ih hxs hys fun binding => ⟨fun hm => ?_, fun hm => ?_⟩)
      · rcases List.mem_cons.1 ((h binding).1 (List.mem_cons_of_mem _ hm)) with rfl | hm'
        · exact absurd (hx _ hm) (String.lt_irrefl _)
        · exact hm'
      · rcases List.mem_cons.1 ((h binding).2 (List.mem_cons_of_mem _ hm)) with rfl | hm'
        · exact absurd (hy _ hm) (String.lt_irrefl _)
        · exact hm'

/-- A map is determined by the values that it binds. -/
theorem ext_get? {a b : AttributeMap} (h : ∀ name, a.get? name = b.get? name) : a = b := by
  have : a.toList = b.toList := by
    refine eq_of_mem_iff a.ascending b.ascending fun (name, value) => ?_
    rw [← get?_eq_some_iff, ← get?_eq_some_iff, h name]
  cases a
  cases b
  simpa using this

end AttributeMap

end TreeManifest
