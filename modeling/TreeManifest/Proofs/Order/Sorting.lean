import TreeManifest.Path
import TreeManifest.Proofs.Order.Canonical

/-!
# Sorted lists do not remember where they come from

A list that is sorted by an order without ties among its members depends on the members alone.

## Main statements

- `Order.mergeSort_eq_of_perm`: lists with the same members are sorted to one list.
- `Order.check_map`, `Order.sort_map`: sorting and its check look at the keys of entries only.
- `Order.canonical_sort`: sorting gives a canonical list, unless entries tie.
- `Path.compareSteps_eq_eq_iff`: the order of failed directories ties paths with the same steps.
-/

namespace TreeManifest

namespace Order

/-- Of any two members one does not come after the other. -/
theorem isLE_or_isLE {α : Type} {cmp : α → α → Ordering} [Std.OrientedCmp cmp] (a b : α) :
    ((cmp a b).isLE || (cmp b a).isLE) = true := by
  rw [@Std.OrientedCmp.eq_swap _ cmp _ b a]
  cases cmp a b <;> rfl

/-- Lists with the same members are sorted to one list, unless members tie. -/
theorem mergeSort_eq_of_perm {α : Type} {cmp : α → α → Ordering} [Std.TransCmp cmp]
    {first second : List α} (hperm : first.Perm second)
    (hties : ∀ a ∈ first, ∀ b ∈ first, cmp a b = .eq → a = b) :
    first.mergeSort (fun a b => (cmp a b).isLE) = second.mergeSort fun a b => (cmp a b).isLE := by
  have htrans : ∀ a b c : α, (cmp a b).isLE = true → (cmp b c).isLE = true →
      (cmp a c).isLE = true := fun _ _ _ => Std.TransCmp.isLE_trans
  refine List.Perm.eq_of_pairwise ?_ (List.pairwise_mergeSort htrans isLE_or_isLE first)
    (List.pairwise_mergeSort htrans isLE_or_isLE second)
    (((List.mergeSort_perm first _).trans hperm).trans (List.mergeSort_perm second _).symm)
  -- Members that precede each other tie.
  intro a b ha hb hab hba
  refine hties a (List.mem_mergeSort.1 ha) b (hperm.mem_iff.2 (List.mem_mergeSort.1 hb)) ?_
  exact Std.OrientedCmp.isLE_antisymm hab hba

/-- A change of entries that leaves path and kind alone. -/
def KeepsKey (change : Entry → Entry) : Prop :=
  ∀ entry, (change entry).path = entry.path ∧ (change entry).isDirectory = entry.isDirectory

variable {change : Entry → Entry}

theorem compareEntries_map (h : KeepsKey change) (a b : Entry) :
    compareEntries (change a) (change b) = compareEntries a b := by
  rw [compareEntries, compareEntries, (h a).1, (h a).2, (h b).1, (h b).2]

theorem sort_map (h : KeepsKey change) (entries : List Entry) :
    sort (entries.map change) = (sort entries).map change := by
  rw [sort, sort]
  refine (List.map_mergeSort fun a _ b _ => ?_).symm
  rw [compareEntries_map h]

theorem checkFrom_map (h : KeepsKey change) (index : Nat) (entries : List Entry) :
    checkFrom index (entries.map change) = checkFrom index entries := by
  induction entries generalizing index with
  | nil => rfl
  | cons a rest ih =>
    cases rest with
    | nil => rfl
    | cons b rest =>
      have htail := ih (index + 1)
      rw [List.map_cons] at htail
      have hpath : (change b).displayPath = b.displayPath := congrArg Utf8.lossy (h b).1
      simp only [List.map_cons, checkFrom, compareEntries_map h, htail, hpath]

theorem check_map (h : KeepsKey change) (entries : List Entry) :
    check (entries.map change) = check entries :=
  checkFrom_map h 0 entries

/-- Entries tie only if their paths have the same components. -/
theorem components_eq_of_compareEntries_eq {a b : Entry} (ha : Bytes.nul ∉ a.path)
    (hb : Bytes.nul ∉ b.path) (h : compareEntries a b = .eq) :
    Path.components a.path = Path.components b.path := by
  rw [compareEntries_eq_compare_entryKey, entryKey, entryKey, sortKey, sortKey,
    compare_componentsKey _ _ (terminator_notMem_of_mem_components ha)
      (terminator_notMem_of_mem_components hb)] at h
  exact (compareComponents_eq_eq_iff.1 h).1

/-- Sorting puts entries into strict canonical order, unless two of them tie. -/
theorem canonical_sort {entries : List Entry}
    (h : entries.Pairwise fun a b => compareEntries a b ≠ .eq) :
    Canonical (sort entries) := by
  have hsorted : (sort entries).Pairwise fun a b => (compareEntries a b).isLE = true :=
    List.pairwise_mergeSort (fun a b c => Std.TransCmp.isLE_trans) isLE_or_isLE entries
  have hne : (sort entries).Pairwise fun a b => compareEntries a b ≠ .eq :=
    (List.mergeSort_perm entries _).symm.pairwise h
      fun hab hba => hab (compareEntries_eq_comm.1 hba)
  refine hsorted.imp₂ ?_ hne
  intro a b hle hne
  unfold Precedes
  revert hle hne
  cases compareEntries a b <;> simp

end Order

namespace Path

def Step.bytes : Step → Bytes
  | .name bytes => bytes
  | _ => []

/-- Steps go by kind, and names by their bytes. -/
theorem Step.compare_eq_compareLex :
    Step.compare = compareLex (compareOn Step.rank) (compareOn Step.bytes) := by
  funext a b
  cases a <;> cases b <;> rfl

instance : Std.TransCmp Step.compare := by
  rw [Step.compare_eq_compareLex]
  infer_instance

instance : Std.LawfulEqCmp Step.compare where
  eq_of_compare {a b} h := by
    rw [Step.compare_eq_compareLex, compareLex_eq_eq] at h
    have hrank : a.rank = b.rank := Std.LawfulEqOrd.eq_of_compare h.1
    have hbytes : a.bytes = b.bytes := Std.LawfulEqOrd.eq_of_compare h.2
    cases a <;> cases b <;> simp_all [Step.rank, Step.bytes]

instance : Std.TransCmp compareSteps := by
  have h : compareSteps = fun a b => List.compareLex Step.compare (steps a) (steps b) := rfl
  rw [h]
  exact {
    eq_swap := Std.OrientedCmp.eq_swap
    isLE_trans := Std.TransCmp.isLE_trans }

/-- The order of failed directories ties paths with the same steps. -/
theorem compareSteps_eq_eq_iff {a b : Path} : compareSteps a b = .eq ↔ steps a = steps b :=
  @Std.LawfulEqCmp.compare_eq_iff_eq _ (List.compareLex Step.compare) _ (steps a) (steps b)

end Path

end TreeManifest
