import Mathlib.Data.List.Chain
import Mathlib.Data.List.Nodup
import TreeManifest.Proofs.Order.Sorting

/-!
# Sorting is stable and reports the first tie

Sorting puts entries into ascending order and leaves entries with one key in the order in which they
were. An ascending list can break the canonical order only by a tie of neighbours, so the check of a
sorted list names its first tie or accepts it, and it accepts exactly the lists without ties.

## Main definitions

- `Order.Ascending`: lists in which no entry comes strictly before an earlier one.
- `Order.IsStableSort`: the ascending list of given entries in which ties keep their order.
- `Order.FirstTie`: the first two neighbours of a list with one key.

## Main statements

- `Order.isStableSort_sort`: sorting is stable.
- `Order.exists_firstTie`: the check of an ascending list names its first tie.
- `Order.sort_eq_of_perm`: entries with distinct keys are sorted to one list.
- `Order.sortEntries_stable`: sorting with its check.
-/

namespace TreeManifest.Order

/-- A list in which no entry comes strictly before an earlier one. -/
def Ascending (entries : List Entry) : Prop :=
  entries.Pairwise fun a b => (compareEntries a b).isLE = true

/-- The given entries in ascending order, in which entries with one key keep their relative
order. -/
structure IsStableSort (entries sorted : List Entry) : Prop where
  perm : sorted.Perm entries
  ascending : Ascending sorted
  stable : ∀ key, (sorted.filter fun entry => entryKey entry = key) =
    entries.filter fun entry => entryKey entry = key

/-- The first two neighbours with one key: the position of the first one, and the second one. -/
def FirstTie (entries : List Entry) (index : Nat) (second : Entry) : Prop :=
  ∃ front first back, entries = front ++ first :: second :: back ∧ front.length = index ∧
    entryKey first = entryKey second ∧
    (front ++ [first]).IsChain fun a b => entryKey a ≠ entryKey b

variable {entries : List Entry}

theorem compareEntries_eq_eq_iff {a b : Entry} :
    compareEntries a b = .eq ↔ entryKey a = entryKey b := by
  rw [compareEntries_eq_compare_entryKey, Std.LawfulEqOrd.compare_eq_iff_eq]

theorem Precedes.entryKey_ne {a b : Entry} (h : Precedes a b) : entryKey a ≠ entryKey b :=
  mt compareEntries_eq_eq_iff.2 h.ne_eq

/-- Keys are distinct when no two entries tie. -/
theorem nodup_map_entryKey_iff :
    (entries.map entryKey).Nodup ↔ entries.Pairwise fun a b => compareEntries a b ≠ .eq := by
  rw [List.Nodup, List.pairwise_map]
  exact List.Pairwise.iff fun a b => (compareEntries_eq_eq_iff (a := a) (b := b)).not.symm

/-- A canonical list has no key twice. -/
theorem Canonical.nodup_map_entryKey (h : Canonical entries) : (entries.map entryKey).Nodup :=
  nodup_map_entryKey_iff.2 (h.imp fun hab => hab.ne_eq)

/-! ## Stability -/

theorem ascending_sort (entries : List Entry) : Ascending (sort entries) :=
  List.pairwise_mergeSort (fun _ _ _ => Std.TransCmp.isLE_trans) isLE_or_isLE entries

/-- Sorting keeps the relative order of entries with one key. -/
theorem isStableSort_sort (entries : List Entry) : IsStableSort entries (sort entries) where
  perm := List.mergeSort_perm entries _
  ascending := ascending_sort entries
  stable key := by
    -- Entries with one key are in ascending order as they stand, so they are a part of the result.
    have htied : (entries.filter fun entry => entryKey entry = key).Pairwise fun a b =>
        (compareEntries a b).isLE = true := by
      refine List.pairwise_of_forall_mem_list fun a ha b hb => ?_
      have ha := (List.mem_filter.1 ha).2
      have hb := (List.mem_filter.1 hb).2
      rw [decide_eq_true_eq] at ha hb
      rw [compareEntries_eq_eq_iff.2 (ha.trans hb.symm)]
      rfl
    have hsub := (List.sublist_mergeSort (fun _ _ _ => Std.TransCmp.isLE_trans) isLE_or_isLE htied
      List.filter_sublist).filter fun entry => decide (entryKey entry = key)
    rw [List.filter_filter] at hsub
    simp only [Bool.and_self] at hsub
    exact (hsub.eq_of_length ((List.mergeSort_perm entries _).filter _).length_eq.symm).symm

/-- Entries with distinct keys are sorted to one list, however they stand. -/
theorem sort_eq_of_perm {first second : List Entry} (hperm : first.Perm second)
    (hkeys : (first.map entryKey).Nodup) : sort first = sort second := by
  refine mergeSort_eq_of_perm hperm fun a ha b hb hab => ?_
  exact List.inj_on_of_nodup_map hkeys ha hb (compareEntries_eq_eq_iff.1 hab)

/-! ## The check of sorted entries -/

/-- The check of an ascending list that is not canonical names its first tie. -/
theorem exists_firstTie (hascending : Ascending entries) (hcanonical : ¬ Canonical entries)
    (index : Nat) : ∃ place second, FirstTie entries place second ∧
      checkFrom index entries =
        .error (.duplicateKey (index + place) (index + place + 1) second.displayPath) := by
  induction entries generalizing index with
  | nil => exact absurd List.Pairwise.nil hcanonical
  | cons a rest ih =>
    cases rest with
    | nil => exact absurd (List.pairwise_singleton _ _) hcanonical
    | cons b rest =>
      obtain ⟨ha, hrest⟩ := List.pairwise_cons.1 hascending
      rw [checkFrom]
      cases hab : compareEntries a b with
      | gt =>
        have hle := ha b List.mem_cons_self
        rw [hab] at hle
        cases hle
      | eq =>
        exact ⟨0, b, ⟨[], a, rest, rfl, rfl, compareEntries_eq_eq_iff.1 hab, .singleton _⟩, rfl⟩
      | lt =>
        -- The first two entries are in order, so the tie is among the later ones.
        have hne : ¬ Canonical (b :: rest) := fun h =>
          hcanonical (canonical_cons_cons_iff.2 ⟨hab, h⟩)
        obtain ⟨place, second, ⟨front, first, back, hsplit, hlength, htie, hchain⟩, hcheck⟩ :=
          ih hrest hne (index + 1)
        have hhead : (front ++ [first]).head? = some b := by
          have h := congrArg List.head? hsplit
          cases front with
          | nil => exact h.symm
          | cons head front => exact h.symm
        refine ⟨place + 1, second, ⟨a :: front, first, back, by rw [hsplit]; rfl,
          by rw [List.length_cons, hlength], htie, hchain.cons fun other hother => ?_⟩, ?_⟩
        · rw [hhead, Option.mem_some_iff] at hother
          exact hother ▸ Precedes.entryKey_ne hab
        · rw [show index + (place + 1) = index + 1 + place by omega]
          exact hcheck

/-- Sorting is stable whether or not its check succeeds. The check succeeds for entries with
distinct keys, and otherwise it names the first tie in the sorted list. Entries with distinct keys
are sorted to one list however they stand, and the check accepts exactly the lists in which every
entry comes strictly before all later ones. -/
theorem sortEntries_stable (entries : List Entry) :
    IsStableSort entries (sortEntries entries).1 ∧
      ((sortEntries entries).2 = .ok () ↔ (entries.map entryKey).Nodup) ∧
      (¬ (entries.map entryKey).Nodup → ∃ index second,
        FirstTie (sortEntries entries).1 index second ∧
        (sortEntries entries).2 = .error (.duplicateKey index (index + 1) second.displayPath)) ∧
      (∀ index path, (sortEntries entries).2 ≠ .error (.outOfOrder index path)) ∧
      (∀ other : List Entry, entries.Perm other → (entries.map entryKey).Nodup →
        sortEntries entries = sortEntries other) ∧
      (check entries = .ok () ↔ entries.Pairwise Precedes) := by
  have hcanonical : Canonical (sort entries) ↔ (entries.map entryKey).Nodup := by
    constructor
    · intro h
      exact ((List.mergeSort_perm entries _).map entryKey).nodup_iff.1 h.nodup_map_entryKey
    · intro h
      exact canonical_sort (nodup_map_entryKey_iff.1 h)
  have htie := fun h => exists_firstTie (ascending_sort entries) h 0
  simp only [Nat.zero_add] at htie
  refine ⟨isStableSort_sort entries, check_eq_ok_iff.trans hcanonical,
    fun hkeys => htie (mt hcanonical.1 hkeys), fun index path => ?_,
    fun other hperm hkeys => ?_, check_eq_ok_iff⟩
  · by_cases h : Canonical (sort entries)
    · have hok : (sortEntries entries).2 = .ok () := check_eq_ok_iff.2 h
      simp [hok]
    · obtain ⟨place, second, -, herror⟩ := htie h
      have herror : (sortEntries entries).2 = _ := herror
      simp [herror]
  · rw [sortEntries, sortEntries, sort_eq_of_perm hperm hkeys]

/-- The files `y`, `x`, `z`, `/x` and `x/`, of which the second, the fourth and the fifth have one
key and the sizes 1, 2 and 3. -/
def spelledThrice : List Entry :=
  [.new (Bytes.ofString "y") 0o100644,
    { Entry.new (Bytes.ofString "x") 0o100644 with size := 1 },
    .new (Bytes.ofString "z") 0o100644,
    { Entry.new (Bytes.ofString "/x") 0o100644 with size := 2 },
    { Entry.new (Bytes.ofString "x/") 0o100644 with size := 3 }]

/-- Sorting the files with three spellings of one path reports the first two spellings, and their
order stays. Files with distinct keys are sorted to one list from both directions. -/
theorem sortEntries_stable_spelledThrice :
    (¬ (spelledThrice.map entryKey).Nodup ∧ IsStableSort spelledThrice (sort spelledThrice) ∧
      ∃ index second, FirstTie (sortEntries spelledThrice).1 index second ∧
        (sortEntries spelledThrice).2 =
          .error (.duplicateKey index (index + 1) second.displayPath)) ∧
    (spelledThrice.take 3).Perm (spelledThrice.take 3).reverse ∧
    ((spelledThrice.take 3).map entryKey).Nodup ∧
    sortEntries (spelledThrice.take 3) = sortEntries (spelledThrice.take 3).reverse := by
  have hties : ¬ (spelledThrice.map entryKey).Nodup := by decide
  have hperm : (spelledThrice.take 3).Perm (spelledThrice.take 3).reverse :=
    (List.reverse_perm _).symm
  have hkeys : ((spelledThrice.take 3).map entryKey).Nodup := by decide
  obtain ⟨hstable, -, htie, -⟩ := sortEntries_stable spelledThrice
  obtain ⟨-, -, -, -, hsorted, -⟩ := sortEntries_stable (spelledThrice.take 3)
  exact ⟨⟨hties, hstable, htie hties⟩, hperm, hkeys, hsorted _ hperm hkeys⟩

end TreeManifest.Order
