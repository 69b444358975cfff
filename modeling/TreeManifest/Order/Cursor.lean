import TreeManifest.Order.Key

/-!
# Comparing paths without building their keys

A cursor gives the bytes of a sort key one by one while it moves along the path, so two paths are
compared up to their first difference and no key is stored.

## Main definitions

- `Order.Cursor`: a position in the key of a path.
- `Order.Cursor.next?`: the next byte of the key.
- `Order.comparePaths`, `Order.compareEntries`: the canonical order.
-/

namespace TreeManifest.Order

/-- A position in the sort key of a path. -/
structure Cursor where
  /-- The bytes of the path beyond the current component. -/
  rest : Bytes
  /-- Whether the whole path leads to a directory. -/
  isDirectory : Bool
  /-- The bytes of the current component that are still to come, or `none` between components. -/
  segment : Option Bytes

namespace Cursor

/-- The cursor in front of the key of a path. -/
def start (path : Path) (isDirectory : Bool) : Cursor := ⟨path, isDirectory, none⟩

/-- The next byte of the key and the cursor behind it, or nothing at the end of the key. -/
def next? (cursor : Cursor) : Option (UInt8 × Cursor) :=
  match cursor.segment with
  | some (byte :: more) => some (byte, { cursor with segment := some more })
  | some [] => some (terminator, { cursor with segment := none })
  | none =>
    match cursor.rest.dropWhile (· == Bytes.slash) with
    | [] => none
    | byte :: rest =>
      let name := byte :: rest.takeWhile (· != Bytes.slash)
      let after := rest.dropWhile (· != Bytes.slash)
      let hasMore := after.any (· != Bytes.slash)
      some ((Rank.of hasMore cursor.isDirectory).byte,
        { cursor with rest := after, segment := some name })

/-- A bound on the number of bytes that a cursor still gives. -/
def remaining (cursor : Cursor) : Nat :=
  3 * cursor.rest.length + cursor.segment.elim 0 (·.length + 1)

theorem remaining_next? {cursor after : Cursor} {byte : UInt8}
    (h : cursor.next? = some (byte, after)) : after.remaining < cursor.remaining := by
  obtain ⟨rest, isDirectory, segment⟩ := cursor
  unfold next? at h
  split at h
  · next heq => cases h; simp only at heq; subst heq; simp [remaining]
  · next heq => cases h; simp only at heq; subst heq; simp [remaining]
  · next heq =>
    simp only at heq h
    subst heq
    split at h
    · cases h
    · next b r hdrop =>
      cases h
      have hle : (b :: r).length ≤ rest.length := by
        rw [← hdrop]
        exact (List.dropWhile_sublist _).length_le
      have hsplit : (r.takeWhile (· != Bytes.slash) ++ r.dropWhile (· != Bytes.slash)).length =
          r.length := congrArg List.length List.takeWhile_append_dropWhile
      simp only [List.length_append, List.length_cons] at hsplit hle
      simp only [remaining, Option.elim, List.length_cons]
      omega

/-- Compares the keys that two cursors still give. -/
def compare (a b : Cursor) : Ordering :=
  match _h : a.next? with
  | none => if b.next?.isNone then .eq else .lt
  | some (x, a') =>
    match b.next? with
    | none => .gt
    | some (y, b') =>
      match Ord.compare x y with
      | .eq => compare a' b'
      | decided => decided
termination_by a.remaining
decreasing_by exact remaining_next? (by assumption)

end Cursor

/-- The canonical order of two paths. -/
def comparePaths (a : Path) (aIsDirectory : Bool) (b : Path) (bIsDirectory : Bool) : Ordering :=
  (Cursor.start a aIsDirectory).compare (Cursor.start b bIsDirectory)

/-- The canonical order of two entries. -/
def compareEntries (a b : Entry) : Ordering :=
  comparePaths a.path a.isDirectory b.path b.isDirectory

end TreeManifest.Order
