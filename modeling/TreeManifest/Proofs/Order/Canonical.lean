import TreeManifest.Order.Sorted
import TreeManifest.Proofs.Order.Hierarchy

/-!
# Canonical lists

The check of neighbours accepts exactly the lists in which every entry comes strictly before all
later ones. Whatever lies beneath a directory comes after it.

## Main definitions

- `Order.Precedes`: the strict canonical order of entries.
- `Order.Canonical`: lists in strict canonical order.
- `Entry.IsBeneath`: entries of objects beneath a directory.

## Main statements

- `Order.check_eq_ok_iff`: the check accepts exactly the canonical lists.
- `Order.precedes_of_isBeneath`: a directory precedes what lies beneath it.
-/

namespace TreeManifest

/-- Whether an entry belongs to an object beneath a directory. -/
def Entry.IsBeneath (entry directory : Entry) : Prop :=
  directory.isDirectory = true ∧ ∃ below ≠ [],
    Path.components entry.path = Path.components directory.path ++ below

namespace Order

/-- The strict canonical order of entries. -/
def Precedes (a b : Entry) : Prop := compareEntries a b = .lt

/-- A list in which every entry precedes all later ones. -/
def Canonical (entries : List Entry) : Prop := entries.Pairwise Precedes

/-- Entries are ordered as their keys are. -/
theorem compareEntries_eq_compare_entryKey (a b : Entry) :
    compareEntries a b = compare (entryKey a) (entryKey b) :=
  comparePaths_eq_compare_sortKey a.path a.isDirectory b.path b.isDirectory

-- Whole keys are computed by structural recursion, a cursor is not.
instance (a b : Entry) : Decidable (Precedes a b) :=
  decidable_of_iff (compare (entryKey a) (entryKey b) = .lt) (by
    rw [Precedes, compareEntries_eq_compare_entryKey])

instance (entries : List Entry) : Decidable (Canonical entries) :=
  inferInstanceAs (Decidable (entries.Pairwise Precedes))

@[simp] theorem compareEntries_self (entry : Entry) : compareEntries entry entry = .eq :=
  Std.ReflCmp.compare_self

/-- Entries of one kind at one path tie. -/
theorem compareEntries_of_path_eq {a b : Entry} (hpath : a.path = b.path)
    (hdirectory : a.isDirectory = b.isDirectory) : compareEntries a b = .eq := by
  rw [← compareEntries_self a, compareEntries, compareEntries, hpath, hdirectory]

theorem compareEntries_eq_comm {a b : Entry} :
    compareEntries a b = .eq ↔ compareEntries b a = .eq :=
  Std.OrientedCmp.eq_comm

theorem precedes_irrefl (entry : Entry) : ¬ Precedes entry entry := by
  simp [Precedes]

theorem Precedes.trans {a b c : Entry} (hab : Precedes a b) (hbc : Precedes b c) : Precedes a c :=
  Std.TransCmp.lt_trans hab hbc

theorem Precedes.asymm {a b : Entry} (hab : Precedes a b) : ¬ Precedes b a :=
  fun hba => precedes_irrefl a (hab.trans hba)

theorem Precedes.ne_eq {a b : Entry} (hab : Precedes a b) : compareEntries a b ≠ .eq := by
  rw [hab]
  decide

/-- What does not come first comes second. -/
theorem precedes_of_compareEntries_gt {a b : Entry} (h : compareEntries a b = .gt) :
    Precedes b a :=
  Std.OrientedCmp.gt_iff_lt.1 h

/-- Entries with one key precede the same entries. -/
theorem Precedes.congr_left {a b c : Entry} (hac : Precedes a c) (h : compareEntries a b = .eq) :
    Precedes b c :=
  Std.TransCmp.lt_of_eq_of_lt (compareEntries_eq_comm.1 h) hac

/-- Entries with the same key are preceded by the same ones. -/
theorem Precedes.congr_right {a b c : Entry} (hab : Precedes a b) (h : compareEntries b c = .eq) :
    Precedes a c :=
  Std.TransCmp.lt_of_lt_of_eq hab h

/-- A canonical list goes on behind its first entry with a canonical list. -/
theorem canonical_cons_cons_iff {a b : Entry} {rest : List Entry} :
    Canonical (a :: b :: rest) ↔ Precedes a b ∧ Canonical (b :: rest) := by
  constructor
  · intro h
    exact ⟨(List.pairwise_cons.1 h).1 b List.mem_cons_self, (List.pairwise_cons.1 h).2⟩
  · rintro ⟨hab, h⟩
    refine List.pairwise_cons.2 ⟨fun c hc => ?_, h⟩
    rcases List.mem_cons.1 hc with rfl | hc
    · exact hab
    · exact hab.trans ((List.pairwise_cons.1 h).1 c hc)

/-- Checking neighbours decides whether a list is canonical. -/
theorem checkFrom_eq_ok_iff {index : Nat} {entries : List Entry} :
    checkFrom index entries = .ok () ↔ Canonical entries := by
  induction entries generalizing index with
  | nil => simp [checkFrom, Canonical]
  | cons a rest ih =>
    cases rest with
    | nil => simp [checkFrom, Canonical]
    | cons b rest =>
      rw [canonical_cons_cons_iff, checkFrom]
      cases hab : compareEntries a b with
      | lt => simpa [Precedes, hab] using ih
      | eq => simp [Precedes, hab]
      | gt => simp [Precedes, hab]

/-- Comparing neighbours suffices: the accepted lists are the canonical ones. -/
theorem check_eq_ok_iff {entries : List Entry} : check entries = .ok () ↔ Canonical entries :=
  checkFrom_eq_ok_iff

/-- A common beginning makes no difference to the order. -/
theorem compare_append_left (shared a b : Bytes) :
    compare (shared ++ a) (shared ++ b) = compare a b := by
  induction shared with
  | nil => rfl
  | cons byte shared ih => simp [List.compare_cons_cons, Std.ReflOrd.compare_self, ih]

/-- The key of a directory comes before the key of any path that goes on below it. -/
theorem compare_componentsKey_append (names below : List Bytes) (hbelow : below ≠ [])
    (isDirectory : Bool) :
    compare (componentsKey true names) (componentsKey isDirectory (names ++ below)) = .lt := by
  induction names with
  | nil =>
    obtain ⟨name, below, rfl⟩ := List.exists_cons_of_ne_nil hbelow
    rfl
  | cons name names ih =>
    cases names with
    | nil =>
      obtain ⟨next, below, rfl⟩ := List.exists_cons_of_ne_nil hbelow
      rfl
    | cons next names =>
      simp only [List.cons_append, componentsKey, List.compare_cons_cons, List.isEmpty_cons,
        Std.ReflOrd.compare_self, Ordering.eq_then, compare_append_left] at ih ⊢
      exact ih

/-- A directory precedes whatever lies beneath it. -/
theorem precedes_of_isBeneath {entry directory : Entry} (h : entry.IsBeneath directory) :
    Precedes directory entry := by
  obtain ⟨hdir, below, hbelow, hcomponents⟩ := h
  rw [Precedes, compareEntries_eq_compare_entryKey, entryKey, entryKey, sortKey, sortKey, hdir,
    hcomponents]
  exact compare_componentsKey_append _ below hbelow _

end Order

end TreeManifest
