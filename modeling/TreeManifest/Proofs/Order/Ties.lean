import TreeManifest.Order.Total
import TreeManifest.Proofs.Order.Stability
import TreeManifest.Proofs.Path.Names

/-!
# Ties of the total order

The total order of entries decides by every field except the spelling of the path, which it reads
through the sort key only. It ties exactly the entries that have one key and agree in all other
fields. Two spellings of one path, such as `a//b` and `a/b`, therefore tie although the entries
differ, and entries whose paths are spelled without superfluous slashes tie only if they are equal.

## Main definitions

- `Path.IsPlain`: paths without NUL and without superfluous slashes.

## Main statements

- `Order.compareTotal_eq_eq_iff`: the ties of the total order.
- `Order.compareTotal_eq_eq_iff_eq_iff`: ties are equalities except for two spellings of one path.
- `Order.compareTotal_ties`: the ties among all entries, without NUL, and among plain paths.
-/

namespace TreeManifest

/-- A path without NUL that is its components with single slashes between them. -/
structure Path.IsPlain (path : Path) : Prop where
  eq_ofNames : path = Path.ofNames (Path.components path)
  nul_notMem : Bytes.nul ∉ path

instance (path : Path) : Decidable (Path.IsPlain path) :=
  decidable_of_iff (path = Path.ofNames (Path.components path) ∧ Bytes.nul ∉ path)
    ⟨fun ⟨heq, hnul⟩ => ⟨heq, hnul⟩, fun ⟨heq, hnul⟩ => ⟨heq, hnul⟩⟩

theorem Path.IsPlain.eq {first second : Path} (h : first.IsPlain) (h' : second.IsPlain)
    (hsame : Path.components first = Path.components second) : first = second := by
  rw [h.eq_ofNames, h'.eq_ofNames, hsame]

/-! ## Orders of the fields -/

instance : Std.TransCmp AttributeMap.compareBinding :=
  inferInstanceAs (Std.TransCmp (compareLex (compareOn Prod.fst) (compareOn Prod.snd)))

instance : Std.LawfulEqCmp AttributeMap.compareBinding where
  eq_of_compare {a b} h := by
    rw [AttributeMap.compareBinding, Ordering.then_eq_eq, Std.LawfulEqOrd.compare_eq_iff_eq,
      Std.LawfulEqOrd.compare_eq_iff_eq] at h
    exact Prod.ext h.1 h.2

instance : Std.TransOrd AttributeMap :=
  have h : Std.TransCmp (List.compareLex AttributeMap.compareBinding) := inferInstance
  { eq_swap := h.eq_swap, isLE_trans := h.isLE_trans }

instance : Std.LawfulEqOrd AttributeMap where
  eq_of_compare {a b} h := by
    change List.compareLex AttributeMap.compareBinding a.toList b.toList = .eq at h
    have hlist : a.toList = b.toList := Std.LawfulEqCmp.eq_of_compare h
    cases a
    cases b
    simpa using hlist

instance : Std.TransOrd ObjectId :=
  inferInstanceAs (Std.TransCmp (compareLex (compareOn ObjectId.device) (compareOn ObjectId.inode)))

instance : Std.LawfulEqOrd ObjectId where
  eq_of_compare {a b} h := by
    have hfields : a.device = b.device ∧ a.inode = b.inode := by
      rwa [← Std.LawfulEqOrd.compare_eq_iff_eq (a := a.device),
        ← Std.LawfulEqOrd.compare_eq_iff_eq (a := a.inode), ← Ordering.then_eq_eq]
    cases a
    cases b
    simpa using hfields

theorem HardlinkRole.rank_injective : Function.Injective HardlinkRole.rank := by
  intro a b h
  cases a <;> cases b <;> first | rfl | cases h

namespace Order

/-- The total order is a total preorder. -/
instance : Std.TransCmp compareTotal :=
  inferInstanceAs (Std.TransCmp
    (compareLex (compareLex (compareLex (compareLex (compareLex (compareLex (compareLex
      (compareLex (compareLex (compareLex (compareLex (compareLex compareEntries
        (compareOn Entry.mode)) (compareOn Entry.size)) (compareOn Entry.modTime))
        (compareOn Entry.uid)) (compareOn Entry.gid)) (compareOn Entry.flags))
        (compareOn Entry.startChunk)) (compareOn Entry.startOffset)) (compareOn Entry.link))
        (compareOn Entry.attributes)) (compareOn fun entry => entry.role.rank))
        (compareOn Entry.identity)))

/-- Entries tie in the total order exactly if they have one key and agree in everything but the
path. -/
theorem compareTotal_eq_eq_iff {a b : Entry} :
    compareTotal a b = .eq ↔ entryKey a = entryKey b ∧ { a with path := b.path } = b := by
  have hfields : { a with path := b.path } = b ↔ a.mode = b.mode ∧ a.size = b.size ∧
      a.modTime = b.modTime ∧ a.uid = b.uid ∧ a.gid = b.gid ∧ a.flags = b.flags ∧
      a.startChunk = b.startChunk ∧ a.startOffset = b.startOffset ∧ a.link = b.link ∧
      a.attributes = b.attributes ∧ a.role = b.role ∧ a.identity = b.identity := by
    cases a
    cases b
    simp only [Entry.mk.injEq, true_and]
    tauto
  simp only [hfields, compareTotal, Ordering.then_eq_eq, compareEntries_eq_eq_iff,
    Std.LawfulEqOrd.compare_eq_iff_eq, HardlinkRole.rank_injective.eq_iff, and_assoc]

/-- Entries that differ in the path only tie as soon as both paths have the same components. -/
theorem entryKey_eq_of_components_eq {a b : Entry}
    (hcomponents : Path.components a.path = Path.components b.path)
    (hrest : { a with path := b.path } = b) : entryKey a = entryKey b := by
  have hdir : a.isDirectory = b.isDirectory := by
    rw [← hrest]
    rfl
  rw [entryKey, entryKey, sortKey, sortKey, hcomponents, hdir]

/-- Without NUL two entries tie exactly if their paths have the same components and everything else
agrees. -/
theorem compareTotal_eq_eq_iff_components {a b : Entry} (ha : Bytes.nul ∉ a.path)
    (hb : Bytes.nul ∉ b.path) : compareTotal a b = .eq ↔
      Path.components a.path = Path.components b.path ∧ { a with path := b.path } = b := by
  rw [compareTotal_eq_eq_iff]
  constructor
  · rintro ⟨hkey, hrest⟩
    exact ⟨components_eq_of_compareEntries_eq ha hb (compareEntries_eq_eq_iff.2 hkey), hrest⟩
  · rintro ⟨hcomponents, hrest⟩
    exact ⟨entryKey_eq_of_components_eq hcomponents hrest, hrest⟩

/-- A tie is an equality unless the entries have two spellings of one path. -/
theorem compareTotal_eq_eq_iff_eq_iff {a b : Entry} : (compareTotal a b = .eq ↔ a = b) ↔
    ¬ (a.path ≠ b.path ∧ entryKey a = entryKey b ∧ { a with path := b.path } = b) := by
  rw [compareTotal_eq_eq_iff]
  constructor
  · rintro h ⟨hpath, htie⟩
    exact hpath (congrArg Entry.path (h.1 htie))
  · intro h
    constructor
    · rintro ⟨hkey, hrest⟩
      have hpath : a.path = b.path := by
        by_contra hpath
        exact h ⟨hpath, hkey, hrest⟩
      rw [← hrest, ← hpath]
    · rintro rfl
      exact ⟨rfl, rfl⟩

/-- The total order ties the entries with one key that agree in everything but the path, so it is
consistent with equality except for two spellings of one path. Without NUL the ties are the entries
that agree up to superfluous slashes in the path, and among plain paths an entry ties with itself
only. -/
theorem compareTotal_ties (a b : Entry) :
    (compareTotal a b = .eq ↔ entryKey a = entryKey b ∧ { a with path := b.path } = b) ∧
    ((compareTotal a b = .eq ↔ a = b) ↔
      ¬ (a.path ≠ b.path ∧ entryKey a = entryKey b ∧ { a with path := b.path } = b)) ∧
    (Bytes.nul ∉ a.path → Bytes.nul ∉ b.path → (compareTotal a b = .eq ↔
      Path.components a.path = Path.components b.path ∧ { a with path := b.path } = b)) ∧
    (Path.IsPlain a.path → Path.IsPlain b.path → (compareTotal a b = .eq ↔ a = b)) := by
  refine ⟨compareTotal_eq_eq_iff, compareTotal_eq_eq_iff_eq_iff,
    compareTotal_eq_eq_iff_components, fun ha hb => compareTotal_eq_eq_iff_eq_iff.2 ?_⟩
  rintro ⟨hpath, htie⟩
  have hcomponents := ((compareTotal_eq_eq_iff_components ha.nul_notMem hb.nul_notMem).1
    (compareTotal_eq_eq_iff.2 htie)).1
  exact hpath (ha.eq hb hcomponents)

/-- The file `a/b` under a path with the given bytes. -/
def spelledFile (path : String) : Entry := .new (Bytes.ofString path) 0o100644

/-- The spellings `a//b` and `a/b` of one path tie, and the files `a/b` and `a/c` do not. -/
theorem compareTotal_ties_spelledFile :
    (Bytes.nul ∉ (spelledFile "a//b").path ∧ Bytes.nul ∉ (spelledFile "a/b").path ∧
      compareTotal (spelledFile "a//b") (spelledFile "a/b") = .eq) ∧
    Path.IsPlain (spelledFile "a/b").path ∧ Path.IsPlain (spelledFile "a/c").path ∧
      compareTotal (spelledFile "a/b") (spelledFile "a/c") ≠ .eq := by
  have hdoubled : Bytes.nul ∉ (spelledFile "a//b").path := by decide
  have hsingle : Bytes.nul ∉ (spelledFile "a/b").path := by decide
  have hplain : Path.IsPlain (spelledFile "a/b").path := by decide
  have hother : Path.IsPlain (spelledFile "a/c").path := by decide
  refine ⟨⟨hdoubled, hsingle, ((compareTotal_ties _ _).2.2.1 hdoubled hsingle).2 (by decide)⟩,
    hplain, hother, fun h => ?_⟩
  exact absurd (((compareTotal_ties _ _).2.2.2 hplain hother).1 h) (by decide)

/-- Two spellings of one path make different entries that tie. -/
theorem not_forall_compareTotal_eq_iff :
    ¬ ∀ a b : Entry, compareTotal a b = .eq ↔ a = b := by
  intro h
  have htie : compareTotal (spelledFile "a//b") (spelledFile "a/b") = .eq :=
    compareTotal_eq_eq_iff.2 (by decide)
  exact absurd ((h _ _).1 htie) (by decide)

end Order

end TreeManifest
