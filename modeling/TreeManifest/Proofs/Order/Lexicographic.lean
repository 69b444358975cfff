import TreeManifest.Proofs.Order.Hierarchy

/-!
# The canonical order is the unsigned order of keys

A cursor walks a path and gives the bytes of its sort key one by one, and two paths are compared
along their cursors. All the bytes that a cursor gives are the key that is built from the
components, whatever slashes and zeros the path holds, so the comparison is that of two strings of
unsigned bytes.

## Main definitions

- `Order.Cursor.bytes`: all the bytes that a cursor gives until it ends.
- `Order.LexLess`: one string of bytes comes before another one, bytes read as numbers.

## Main statements

- `Order.Cursor.bytes_start`: a cursor in front of a path gives the sort key of the path.
- `Order.comparePaths_unsigned_lexicographic`: comparing two paths is comparing their sort keys.
-/

namespace TreeManifest.Order

namespace Cursor

/-- The bytes that a cursor gives one after the other until it ends. -/
def bytes (cursor : Cursor) : Bytes :=
  match _h : cursor.next? with
  | none => []
  | some (byte, after) => byte :: bytes after
termination_by cursor.remaining
decreasing_by exact remaining_next? (by assumption)

theorem bytes_eq_key (cursor : Cursor) : cursor.bytes = cursor.key := by
  fun_induction bytes cursor with
  | case1 cursor hend => exact (key_eq_nil hend).symm
  | case2 cursor byte after hnext ih => rw [ih, key_eq_cons hnext]

/-- A cursor in front of a path gives the sort key of the path, byte by byte. -/
@[simp] theorem bytes_start (path : Path) (isDirectory : Bool) :
    (start path isDirectory).bytes = sortKey path isDirectory := by
  rw [bytes_eq_key, key_start]

end Cursor

/-- The first string is a proper prefix of the second one, or it has the smaller number at the
first place where they differ. -/
def LexLess (a b : Bytes) : Prop :=
  List.Lex (fun x y => x.toNat < y.toNat) a b

theorem compare_eq_lt_iff {a b : Bytes} : compare a b = .lt ↔ LexLess a b := by
  rw [LexLess]
  induction a generalizing b with
  | nil =>
    cases b with
    | nil => simp
    | cons y b => simp
  | cons x a ih =>
    cases b with
    | nil => simp
    | cons y b =>
      -- Either the first bytes decide, or they are equal and the rest decides.
      rw [List.compare_cons_cons, Ordering.then_eq_lt, Std.compare_eq_lt,
        Std.LawfulEqOrd.compare_eq_iff_eq, List.cons_lex_cons_iff, ih, UInt8.lt_iff_toNat_lt]

theorem compare_eq_gt_iff {a b : Bytes} : compare a b = .gt ↔ LexLess b a := by
  rw [Std.OrientedCmp.gt_iff_lt, compare_eq_lt_iff]

/-- Comparing two paths step by step is the unsigned lexicographic comparison of their sort keys,
for all strings of bytes. -/
theorem comparePaths_unsigned_lexicographic (a : Path) (aIsDirectory : Bool) (b : Path)
    (bIsDirectory : Bool) :
    (Cursor.start a aIsDirectory).bytes = sortKey a aIsDirectory ∧
      comparePaths a aIsDirectory b bIsDirectory =
        compare (sortKey a aIsDirectory) (sortKey b bIsDirectory) ∧
      (comparePaths a aIsDirectory b bIsDirectory = .lt ↔
        LexLess (sortKey a aIsDirectory) (sortKey b bIsDirectory)) ∧
      (comparePaths a aIsDirectory b bIsDirectory = .eq ↔
        sortKey a aIsDirectory = sortKey b bIsDirectory) ∧
      (comparePaths a aIsDirectory b bIsDirectory = .gt ↔
        LexLess (sortKey b bIsDirectory) (sortKey a aIsDirectory)) := by
  have hkeys := comparePaths_eq_compare_sortKey a aIsDirectory b bIsDirectory
  refine ⟨Cursor.bytes_start a aIsDirectory, hkeys, ?_, ?_, ?_⟩
  · rw [hkeys, compare_eq_lt_iff]
  · rw [hkeys, Std.LawfulEqOrd.compare_eq_iff_eq]
  · rw [hkeys, compare_eq_gt_iff]

/-- Doubled, leading and trailing slashes give no byte, and a zero in a name is a byte like any
other. -/
example : sortKey [0x2F, 0x61, 0x2F, 0x2F, 0x00, 0x2F] true = [2, 0x61, 0, 1, 0x00, 0] := by
  decide

end TreeManifest.Order
