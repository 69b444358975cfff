import Mathlib.Data.List.Basic
import TreeManifest.Order.Cursor

/-!
# The canonical order is the hierarchical order

Paths are compared byte by byte along their sort keys. The terminator after every name makes this
the order that compares lists of components level by level.

## Main definitions

- `Order.Cursor.key`: the bytes that a cursor still gives.

## Main statements

- `Order.comparePaths_eq_compare_sortKey`: comparing cursors compares the whole keys.
- `Order.compare_componentsKey`: keys of components without NUL compare level by level.
- `Order.comparePaths_hierarchical`: the canonical order on paths without NUL.
-/

namespace TreeManifest

namespace Path

@[simp] theorem components_nil : components [] = [] := rfl

@[simp] theorem components_slash_cons (path : Path) :
    components (Bytes.slash :: path) = components path := by
  simp [components, pieces]

/-- Leading slashes add no component. -/
theorem components_dropWhile_slash (path : Path) :
    components (path.dropWhile (· == Bytes.slash)) = components path := by
  induction path with
  | nil => rfl
  | cons byte rest ih =>
    by_cases h : byte = Bytes.slash
    · subst h
      simpa using ih
    · simp [h]

/-- The first piece of a path reaches up to the first slash, and the other pieces are those behind
that slash. -/
theorem exists_pieces_eq (path : Path) :
    ∃ more, pieces path = path.takeWhile (· != Bytes.slash) :: more ∧
      components (path.dropWhile (· != Bytes.slash)) = more.filter fun piece => !piece.isEmpty := by
  induction path with
  | nil => exact ⟨[], rfl, rfl⟩
  | cons byte rest ih =>
    by_cases h : byte = Bytes.slash
    · subst h
      refine ⟨pieces rest, by simp [pieces], ?_⟩
      rw [List.dropWhile_cons_of_neg (by simp), components_slash_cons]
      rfl
    · obtain ⟨more, hpieces, hmore⟩ := ih
      exact ⟨more, by simp [pieces, h, hpieces], by simp [h, hmore]⟩

/-- A path that does not begin with a slash begins with a component. -/
theorem components_cons_of_ne_slash {byte : UInt8} (h : byte ≠ Bytes.slash) (rest : Bytes) :
    components (byte :: rest) =
      (byte :: rest.takeWhile (· != Bytes.slash)) ::
        components (rest.dropWhile (· != Bytes.slash)) := by
  obtain ⟨more, hpieces, hmore⟩ := exists_pieces_eq rest
  simp [components, pieces, h, hpieces] at hmore ⊢
  exact hmore.symm

/-- Only slashes make up a path without components. -/
theorem components_eq_nil_iff {path : Path} :
    components path = [] ↔ ∀ byte ∈ path, byte = Bytes.slash := by
  induction path with
  | nil => simp
  | cons byte rest ih =>
    by_cases h : byte = Bytes.slash
    · subst h
      simp [ih]
    · simp [components_cons_of_ne_slash h, h]

/-- The pieces of a path are made of its bytes without the slashes. -/
theorem mem_of_mem_pieces {path : Path} {piece : Bytes} {byte : UInt8}
    (hpiece : piece ∈ pieces path) (hbyte : byte ∈ piece) : byte ∈ path ∧ byte ≠ Bytes.slash := by
  induction path generalizing piece with
  | nil => simp_all [pieces]
  | cons first rest ih =>
    by_cases h : first = Bytes.slash
    · rw [pieces, if_pos h] at hpiece
      rcases List.mem_cons.1 hpiece with rfl | hpiece
      · simp at hbyte
      · exact ⟨List.mem_cons_of_mem _ (ih hpiece hbyte).1, (ih hpiece hbyte).2⟩
    · obtain ⟨more, hmore, -⟩ := exists_pieces_eq rest
      rw [pieces, if_neg h, hmore] at hpiece
      rw [hmore] at ih
      rcases List.mem_cons.1 hpiece with rfl | hpiece
      · rcases List.mem_cons.1 hbyte with rfl | hbyte
        · exact ⟨List.mem_cons_self, h⟩
        · have hrest := ih List.mem_cons_self hbyte
          exact ⟨List.mem_cons_of_mem _ hrest.1, hrest.2⟩
      · have hrest := ih (List.mem_cons_of_mem _ hpiece) hbyte
        exact ⟨List.mem_cons_of_mem _ hrest.1, hrest.2⟩

/-- A component holds bytes of its path, and no slash. -/
theorem mem_of_mem_components {path : Path} {name : Bytes} {byte : UInt8}
    (hname : name ∈ components path) (hbyte : byte ∈ name) :
    byte ∈ path ∧ byte ≠ Bytes.slash :=
  mem_of_mem_pieces (List.mem_filter.1 hname).1 hbyte

end Path

namespace Order

namespace Cursor

def key (cursor : Cursor) : Bytes :=
  match cursor.segment with
  | none => sortKey cursor.rest cursor.isDirectory
  | some more => more ++ terminator :: sortKey cursor.rest cursor.isDirectory

@[simp] theorem key_start (path : Path) (isDirectory : Bool) :
    (start path isDirectory).key = sortKey path isDirectory := rfl

/-- The sort key of a path starts with the rank and the bytes of its first component. -/
theorem sortKey_eq_of_dropWhile {path : Path} {byte : UInt8} {rest : Bytes} (isDirectory : Bool)
    (h : path.dropWhile (· == Bytes.slash) = byte :: rest) :
    sortKey path isDirectory =
      (Rank.of ((rest.dropWhile (· != Bytes.slash)).any (· != Bytes.slash)) isDirectory).byte ::
        (byte :: rest.takeWhile (· != Bytes.slash) ++
          terminator :: sortKey (rest.dropWhile (· != Bytes.slash)) isDirectory) := by
  have hne : byte ≠ Bytes.slash := by
    have := List.head?_dropWhile_not (· == Bytes.slash) path
    rw [h] at this
    simpa using this
  have hmore : (!(Path.components (rest.dropWhile (· != Bytes.slash))).isEmpty) =
      (rest.dropWhile (· != Bytes.slash)).any (· != Bytes.slash) := by
    rw [Bool.eq_iff_iff]
    simp [Path.components_eq_nil_iff]
  rw [sortKey, ← Path.components_dropWhile_slash, h, Path.components_cons_of_ne_slash hne,
    componentsKey, hmore, sortKey]

/-- A cursor at its end has an empty key. -/
theorem key_eq_nil {cursor : Cursor} (h : cursor.next? = none) : cursor.key = [] := by
  obtain ⟨rest, isDirectory, segment⟩ := cursor
  unfold next? at h
  split at h
  · cases h
  · cases h
  · next heq =>
    simp only at heq h
    subst heq
    split at h
    · next hdrop =>
      rw [key, sortKey, ← Path.components_dropWhile_slash, hdrop]
      rfl
    · cases h

/-- A cursor gives its key byte by byte. -/
theorem key_eq_cons {cursor after : Cursor} {byte : UInt8}
    (h : cursor.next? = some (byte, after)) : cursor.key = byte :: after.key := by
  obtain ⟨rest, isDirectory, segment⟩ := cursor
  unfold next? at h
  split at h
  · next heq => cases h; simp only at heq; subst heq; rfl
  · next heq => cases h; simp only at heq; subst heq; rfl
  · next heq =>
    simp only at heq h
    subst heq
    split at h
    · cases h
    · next hdrop =>
      cases h
      exact sortKey_eq_of_dropWhile isDirectory hdrop

/-- Cursors are compared by all the bytes that they still give. -/
theorem compare_eq_compare_key (a b : Cursor) : a.compare b = Ord.compare a.key b.key := by
  fun_induction Cursor.compare a b with
  | case1 a b ha hb =>
    rw [key_eq_nil ha, key_eq_nil (Option.isNone_iff_eq_none.1 hb)]
    rfl
  | case2 a b ha hb =>
    obtain ⟨⟨y, b'⟩, hb⟩ := Option.ne_none_iff_exists'.1 (mt Option.isNone_iff_eq_none.2 hb)
    rw [key_eq_nil ha, key_eq_cons hb]
    rfl
  | case3 a b x a' ha hb =>
    rw [key_eq_cons ha, key_eq_nil hb]
    rfl
  | case4 a b x a' ha y b' hb heq ih =>
    rw [key_eq_cons ha, key_eq_cons hb, List.compare_cons_cons, heq, ih]
    rfl
  | case5 a b x a' ha y b' hb hne =>
    rw [key_eq_cons ha, key_eq_cons hb, List.compare_cons_cons]
    cases hc : Ord.compare x y with
    | eq => exact absurd hc hne
    | lt => rfl
    | gt => rfl

end Cursor

/-- Comparing two paths step by step compares their sort keys. -/
theorem comparePaths_eq_compare_sortKey (a : Path) (aIsDirectory : Bool) (b : Path)
    (bIsDirectory : Bool) :
    comparePaths a aIsDirectory b bIsDirectory =
      compare (sortKey a aIsDirectory) (sortKey b bIsDirectory) := by
  rw [comparePaths, Cursor.compare_eq_compare_key, Cursor.key_start, Cursor.key_start]

instance : Std.TransCmp fun a b : Path × Bool => comparePaths a.1 a.2 b.1 b.2 := by
  have h : (fun a b : Path × Bool => comparePaths a.1 a.2 b.1 b.2) =
      compareOn fun path => sortKey path.1 path.2 := by
    funext a b
    exact comparePaths_eq_compare_sortKey a.1 a.2 b.1 b.2
  rw [h]
  infer_instance

instance : Std.TransCmp compareEntries := by
  have h : compareEntries = compareOn entryKey := by
    funext a b
    exact comparePaths_eq_compare_sortKey a.path a.isDirectory b.path b.isDirectory
  rw [h]
  infer_instance

/-- A terminator that no name holds separates the comparison of names from that of the rest. -/
theorem compare_append_terminator {a b : Bytes} (ha : terminator ∉ a) (hb : terminator ∉ b)
    (x y : Bytes) :
    compare (a ++ terminator :: x) (b ++ terminator :: y) = (compare a b).then (compare x y) := by
  induction a generalizing b with
  | nil =>
    cases b with
    | nil => simp [List.compare_cons_cons, Std.ReflOrd.compare_self]
    | cons byte b =>
      -- The terminator is the least byte, so the shorter name comes first.
      have hlt : compare terminator byte = .lt := by
        rw [Std.compare_eq_lt]
        exact UInt8.pos_iff_ne_zero.2 fun h => hb (h ▸ List.mem_cons_self)
      simp [List.compare_cons_cons, hlt]
  | cons byte a ih =>
    cases b with
    | nil =>
      have hgt : compare byte terminator = .gt := by
        rw [Std.compare_eq_gt]
        exact UInt8.pos_iff_ne_zero.2 fun h => ha (h ▸ List.mem_cons_self)
      simp [List.compare_cons_cons, hgt]
    | cons byte' b =>
      rw [List.cons_append, List.cons_append, List.compare_cons_cons, List.compare_cons_cons,
        ih (fun h => ha (List.mem_cons_of_mem _ h)) (fun h => hb (List.mem_cons_of_mem _ h)),
        Ordering.then_assoc]

/-- The keys of two lists of components without NUL compare level by level. -/
theorem compare_componentsKey {as bs : List Bytes} (aIsDirectory bIsDirectory : Bool)
    (ha : ∀ name ∈ as, terminator ∉ name) (hb : ∀ name ∈ bs, terminator ∉ name) :
    compare (componentsKey aIsDirectory as) (componentsKey bIsDirectory bs) =
      compareComponents aIsDirectory bIsDirectory as bs := by
  induction as generalizing bs with
  | nil => cases bs <;> rfl
  | cons a as ih =>
    cases bs with
    | nil => rfl
    | cons b bs =>
      rw [componentsKey, componentsKey, List.compare_cons_cons,
        compare_append_terminator (ha a List.mem_cons_self) (hb b List.mem_cons_self),
        ih (fun name h => ha name (List.mem_cons_of_mem _ h))
          (fun name h => hb name (List.mem_cons_of_mem _ h)),
        ← Ordering.then_assoc]
      rfl

/-- Components of a path without zero bytes never contain the terminator. -/
theorem terminator_notMem_of_mem_components {path : Path} (h : Bytes.nul ∉ path) :
    ∀ name ∈ Path.components path, terminator ∉ name :=
  fun _ hname hmem => h (Path.mem_of_mem_components hname hmem).1

/-- Ranks are told apart by their bytes. -/
theorem Rank.byte_injective : Function.Injective Rank.byte := by
  intro a b h
  cases a <;> cases b <;> first | rfl | exact absurd h (by decide)

/-- Only equal lists of components tie, and only where the last component has one rank. -/
theorem compareComponents_eq_eq_iff {aIsDirectory bIsDirectory : Bool} {as bs : List Bytes} :
    compareComponents aIsDirectory bIsDirectory as bs = .eq ↔
      as = bs ∧ (as = [] ∨ aIsDirectory = bIsDirectory) := by
  induction as generalizing bs with
  | nil => cases bs <;> simp [compareComponents]
  | cons a as ih =>
    cases bs with
    | nil => simp [compareComponents]
    | cons b bs =>
      simp only [compareComponents, Ordering.then_eq_eq, Std.LawfulEqOrd.compare_eq_iff_eq,
        Rank.byte_injective.eq_iff, ih, List.cons.injEq, reduceCtorEq, false_or]
      constructor
      · -- The rank of the last component tells a directory from anything else.
        rintro ⟨⟨hrank, rfl⟩, rfl, hdir⟩
        refine ⟨⟨rfl, rfl⟩, ?_⟩
        rcases hdir with rfl | hdir
        · revert hrank
          cases aIsDirectory <;> cases bIsDirectory <;> decide
        · exact hdir
      · rintro ⟨⟨rfl, rfl⟩, rfl⟩
        exact ⟨⟨rfl, rfl⟩, rfl, .inr rfl⟩

/-- On paths without NUL the canonical order compares the lists of components level by level, and
it ties exactly the spellings of one path. It is a total preorder. -/
theorem comparePaths_hierarchical :
    (∀ (a b : Path) (aIsDirectory bIsDirectory : Bool), Bytes.nul ∉ a → Bytes.nul ∉ b →
      comparePaths a aIsDirectory b bIsDirectory =
          compareComponents aIsDirectory bIsDirectory (Path.components a) (Path.components b) ∧
        (comparePaths a aIsDirectory b bIsDirectory = .eq ↔
          Path.components a = Path.components b ∧
            (Path.components a = [] ∨ aIsDirectory = bIsDirectory))) ∧
    (∀ (a : Path) (aIsDirectory : Bool), comparePaths a aIsDirectory a aIsDirectory = .eq) ∧
    (∀ (a b : Path) (aIsDirectory bIsDirectory : Bool),
      comparePaths b bIsDirectory a aIsDirectory =
        (comparePaths a aIsDirectory b bIsDirectory).swap) ∧
    ∀ (a b c : Path) (aIsDirectory bIsDirectory cIsDirectory : Bool),
      (comparePaths a aIsDirectory b bIsDirectory).isLE →
      (comparePaths b bIsDirectory c cIsDirectory).isLE →
      (comparePaths a aIsDirectory c cIsDirectory).isLE := by
  let order (a b : Path × Bool) : Ordering := comparePaths a.1 a.2 b.1 b.2
  refine ⟨?_, ?_, ?_, ?_⟩
  · intro a b aIsDirectory bIsDirectory ha hb
    have heq : comparePaths a aIsDirectory b bIsDirectory =
        compareComponents aIsDirectory bIsDirectory (Path.components a) (Path.components b) := by
      rw [comparePaths_eq_compare_sortKey]
      exact compare_componentsKey aIsDirectory bIsDirectory
        (terminator_notMem_of_mem_components ha) (terminator_notMem_of_mem_components hb)
    exact ⟨heq, heq ▸ compareComponents_eq_eq_iff⟩
  · intro a aIsDirectory
    exact @Std.ReflCmp.compare_self _ order _ (a, aIsDirectory)
  · intro a b aIsDirectory bIsDirectory
    exact @Std.OrientedCmp.eq_swap _ order _ (b, bIsDirectory) (a, aIsDirectory)
  · intro a b c aIsDirectory bIsDirectory cIsDirectory hab hbc
    exact @Std.TransCmp.isLE_trans _ order _ (a, aIsDirectory) (b, bIsDirectory)
      (c, cIsDirectory) hab hbc

/-- The files `a/b`, `a\x01/b` and `b/a` stand in this order: the name `a` ends before the byte `1`
counts. -/
theorem comparePaths_hierarchical_small_byte :
    (Bytes.nul ∉ [0x61, 0x2F, 0x62] ∧ Bytes.nul ∉ [0x61, 0x01, 0x2F, 0x62] ∧
      comparePaths [0x61, 0x2F, 0x62] false [0x61, 0x01, 0x2F, 0x62] false =
        compareComponents false false [[0x61], [0x62]] [[0x61, 0x01], [0x62]]) ∧
    (comparePaths [0x61, 0x2F, 0x62] false [0x61, 0x01, 0x2F, 0x62] false).isLE ∧
    (comparePaths [0x61, 0x01, 0x2F, 0x62] false [0x62, 0x2F, 0x61] false).isLE ∧
    (comparePaths [0x61, 0x2F, 0x62] false [0x62, 0x2F, 0x61] false).isLE := by
  have h : (comparePaths [0x61, 0x2F, 0x62] false [0x61, 0x01, 0x2F, 0x62] false).isLE := by
    rw [comparePaths_eq_compare_sortKey]
    decide
  have h' : (comparePaths [0x61, 0x01, 0x2F, 0x62] false [0x62, 0x2F, 0x61] false).isLE := by
    rw [comparePaths_eq_compare_sortKey]
    decide
  exact ⟨⟨by decide, by decide,
      (comparePaths_hierarchical.1 _ _ false false (by decide) (by decide)).1⟩,
    h, h', comparePaths_hierarchical.2.2.2 _ _ _ false false false h h'⟩

end Order

end TreeManifest
