import Mathlib.Data.List.Nodup
import TreeManifest.Diff
import TreeManifest.Proofs.Order.Canonical

/-!
# The merge of two listings is their outer join

Every key of either listing gives exactly one item, and the items come in canonical order.

## Main definitions

- `Diff.Describes`: the items that two listings call for.
- `Diff.IsOuterJoin`: the lists that hold every such item once, in order, and nothing else.

## Main statements

- `Diff.mem_merge_iff`: the merge holds the items that its listings call for.
- `Diff.merge_isOuterJoin`: the merge of canonical listings is their outer join.
-/

namespace TreeManifest.Diff

open TreeManifest.Order

/-- Whether two listings call for an item: an entry without a partner of the same key in the other
listing is removed or added, and partners are compared by their metadata. -/
def Describes (old new : List Entry) : DiffItem → Prop
  | .removed a => a ∈ old ∧ ∀ b ∈ new, compareEntries a b ≠ .eq
  | .added b => b ∈ new ∧ ∀ a ∈ old, compareEntries a b ≠ .eq
  | .changed a b => (a ∈ old ∧ b ∈ new ∧ compareEntries a b = .eq) ∧ a.sameMetadata b = false
  | .unchanged b => ∃ a, (a ∈ old ∧ b ∈ new ∧ compareEntries a b = .eq) ∧ a.sameMetadata b = true

/-- A list of items that is the full outer join of two listings. -/
structure IsOuterJoin (old new : List Entry) (items : List DiffItem) : Prop where
  /-- Every item that the listings call for occurs once. -/
  once : ∀ item, Describes old new item → items.count item = 1
  /-- There are no other items. -/
  only : ∀ item ∈ items, Describes old new item
  /-- The items come in strict canonical order. -/
  ascending : items.Pairwise fun a b => Precedes a.entry b.entry
  /-- The item of a directory comes before the items beneath it. -/
  parentsFirst : ∀ i j, (hi : i < items.length) → (hj : j < items.length) →
    items[j].entry.IsBeneath items[i].entry → i < j

theorem describes_compareOne {old new : List Entry} {a b : Entry} (ha : a ∈ old) (hb : b ∈ new)
    (hab : compareEntries a b = .eq) : Describes old new (compareOne a b) := by
  unfold compareOne
  split
  · next h => exact ⟨a, ⟨ha, hb, hab⟩, h⟩
  · next h => exact ⟨⟨ha, hb, hab⟩, by simpa using h⟩

/-- With no new listing everything was removed. -/
theorem describes_nil_right {old : List Entry} {item : DiffItem} :
    Describes old [] item ↔ item ∈ old.map .removed := by
  cases item <;> simp [Describes]

/-- With no old listing everything was added. -/
theorem describes_nil_left {new : List Entry} {item : DiffItem} :
    Describes [] new item ↔ item ∈ new.map .added := by
  cases item <;> simp [Describes]

/-- An old entry that precedes the whole new listing was removed. -/
theorem describes_cons_left {a : Entry} {old new : List Entry} {item : DiffItem}
    (hnew : ∀ b ∈ new, compareEntries a b ≠ .eq) :
    Describes (a :: old) new item ↔ item = .removed a ∨ Describes old new item := by
  cases item with
  | removed x =>
    simp only [Describes, List.mem_cons, DiffItem.removed.injEq]
    constructor
    · rintro ⟨rfl | hx, h⟩
      · exact .inl rfl
      · exact .inr ⟨hx, h⟩
    · rintro (rfl | ⟨hx, h⟩)
      · exact ⟨.inl rfl, hnew⟩
      · exact ⟨.inr hx, h⟩
  | added b =>
    simp only [Describes, List.mem_cons, forall_eq_or_imp, reduceCtorEq, false_or]
    exact ⟨fun h => ⟨h.1, h.2.2⟩, fun h => ⟨h.1, hnew b h.1, h.2⟩⟩
  | changed x b =>
    simp only [Describes, List.mem_cons, reduceCtorEq, false_or]
    constructor
    · rintro ⟨⟨rfl | hx, hb, h⟩, hsame⟩
      · exact absurd h (hnew b hb)
      · exact ⟨⟨hx, hb, h⟩, hsame⟩
    · rintro ⟨⟨hx, hb, h⟩, hsame⟩
      exact ⟨⟨.inr hx, hb, h⟩, hsame⟩
  | unchanged b =>
    simp only [Describes, List.mem_cons, reduceCtorEq, false_or]
    constructor
    · rintro ⟨x, ⟨rfl | hx, hb, h⟩, hsame⟩
      · exact absurd h (hnew b hb)
      · exact ⟨x, ⟨hx, hb, h⟩, hsame⟩
    · rintro ⟨x, ⟨hx, hb, h⟩, hsame⟩
      exact ⟨x, ⟨.inr hx, hb, h⟩, hsame⟩

/-- A new entry that precedes the whole old listing was added. -/
theorem describes_cons_right {b : Entry} {old new : List Entry} {item : DiffItem}
    (hold : ∀ a ∈ old, compareEntries a b ≠ .eq) :
    Describes old (b :: new) item ↔ item = .added b ∨ Describes old new item := by
  cases item with
  | removed a =>
    simp only [Describes, List.mem_cons, forall_eq_or_imp, reduceCtorEq, false_or]
    exact ⟨fun h => ⟨h.1, h.2.2⟩, fun h => ⟨h.1, hold a h.1, h.2⟩⟩
  | added y =>
    simp only [Describes, List.mem_cons, DiffItem.added.injEq]
    constructor
    · rintro ⟨rfl | hy, h⟩
      · exact .inl rfl
      · exact .inr ⟨hy, h⟩
    · rintro (rfl | ⟨hy, h⟩)
      · exact ⟨.inl rfl, hold⟩
      · exact ⟨.inr hy, h⟩
  | changed a y =>
    simp only [Describes, List.mem_cons, reduceCtorEq, false_or]
    constructor
    · rintro ⟨⟨ha, rfl | hy, h⟩, hsame⟩
      · exact absurd h (hold a ha)
      · exact ⟨⟨ha, hy, h⟩, hsame⟩
    · rintro ⟨⟨ha, hy, h⟩, hsame⟩
      exact ⟨⟨ha, .inr hy, h⟩, hsame⟩
  | unchanged y =>
    simp only [Describes, List.mem_cons, reduceCtorEq, false_or]
    constructor
    · rintro ⟨a, ⟨ha, rfl | hy, h⟩, hsame⟩
      · exact absurd h (hold a ha)
      · exact ⟨a, ⟨ha, hy, h⟩, hsame⟩
    · rintro ⟨a, ⟨ha, hy, h⟩, hsame⟩
      exact ⟨a, ⟨ha, .inr hy, h⟩, hsame⟩

/-- Two partners without further partners give one item of their own. -/
theorem describes_cons_cons {a b : Entry} {old new : List Entry} {item : DiffItem}
    (hab : compareEntries a b = .eq) (hnew : ∀ y ∈ new, compareEntries a y ≠ .eq)
    (hold : ∀ x ∈ old, compareEntries x b ≠ .eq) :
    Describes (a :: old) (b :: new) item ↔ item = compareOne a b ∨ Describes old new item := by
  constructor
  · intro h
    cases item with
    | removed x =>
      obtain ⟨hx, h⟩ := h
      rcases List.mem_cons.1 hx with rfl | hx
      · exact absurd hab (h b List.mem_cons_self)
      · exact .inr ⟨hx, fun y hy => h y (List.mem_cons_of_mem _ hy)⟩
    | added y =>
      obtain ⟨hy, h⟩ := h
      rcases List.mem_cons.1 hy with rfl | hy
      · exact absurd hab (h a List.mem_cons_self)
      · exact .inr ⟨hy, fun x hx => h x (List.mem_cons_of_mem _ hx)⟩
    | changed x y =>
      obtain ⟨⟨hx, hy, h⟩, hsame⟩ := h
      rcases List.mem_cons.1 hx with rfl | hx <;> rcases List.mem_cons.1 hy with rfl | hy
      · exact .inl (by simp [compareOne, hsame])
      · exact absurd h (hnew y hy)
      · exact absurd h (hold x hx)
      · exact .inr ⟨⟨hx, hy, h⟩, hsame⟩
    | unchanged y =>
      obtain ⟨x, ⟨hx, hy, h⟩, hsame⟩ := h
      rcases List.mem_cons.1 hx with rfl | hx <;> rcases List.mem_cons.1 hy with rfl | hy
      · exact .inl (by simp [compareOne, hsame])
      · exact absurd h (hnew y hy)
      · exact absurd h (hold x hx)
      · exact .inr ⟨x, ⟨hx, hy, h⟩, hsame⟩
  · rintro (rfl | h)
    · exact describes_compareOne List.mem_cons_self List.mem_cons_self hab
    · cases item with
      | removed x =>
        refine ⟨List.mem_cons_of_mem _ h.1, ?_⟩
        rw [List.forall_mem_cons]
        exact ⟨hold x h.1, h.2⟩
      | added y =>
        refine ⟨List.mem_cons_of_mem _ h.1, ?_⟩
        rw [List.forall_mem_cons]
        exact ⟨hnew y h.1, h.2⟩
      | changed x y =>
        obtain ⟨⟨hx, hy, h⟩, hsame⟩ := h
        exact ⟨⟨List.mem_cons_of_mem _ hx, List.mem_cons_of_mem _ hy, h⟩, hsame⟩
      | unchanged y =>
        obtain ⟨x, ⟨hx, hy, h⟩, hsame⟩ := h
        exact ⟨x, ⟨List.mem_cons_of_mem _ hx, List.mem_cons_of_mem _ hy, h⟩, hsame⟩

/-- An entry that precedes the head of a canonical list has no partner in it. -/
theorem ne_eq_of_precedes_head {a b : Entry} {rest : List Entry} (hab : Precedes a b)
    (h : Canonical (b :: rest)) : ∀ c ∈ b :: rest, compareEntries a c ≠ .eq := by
  intro c hc
  rcases List.mem_cons.1 hc with rfl | hc
  · exact hab.ne_eq
  · exact (hab.trans ((List.pairwise_cons.1 h).1 c hc)).ne_eq

/-- The merge of canonical listings holds exactly the items that they call for. -/
theorem mem_merge_iff {old new : List Entry} (hold : Canonical old) (hnew : Canonical new)
    {item : DiffItem} : item ∈ merge old new ↔ Describes old new item := by
  fun_induction merge old new with
  | case1 new => exact describes_nil_left.symm
  | case2 old _ => exact describes_nil_right.symm
  | case3 a old b new hab ih =>
    rw [List.mem_cons, ih (List.pairwise_cons.1 hold).2 hnew,
      describes_cons_left (ne_eq_of_precedes_head hab hnew)]
  | case4 a old b new hab ih =>
    have hba := precedes_of_compareEntries_gt hab
    rw [List.mem_cons, ih hold (List.pairwise_cons.1 hnew).2, describes_cons_right]
    intro x hx
    exact mt compareEntries_eq_comm.1 (ne_eq_of_precedes_head hba hold x hx)
  | case5 a old b new hab ih =>
    -- Partners tie, so whatever follows one of them follows the other as well.
    obtain ⟨ha, hold⟩ := List.pairwise_cons.1 hold
    obtain ⟨hb, hnew⟩ := List.pairwise_cons.1 hnew
    rw [List.mem_cons, ih hold hnew, describes_cons_cons hab]
    · intro y hy
      exact ((hb y hy).congr_left (compareEntries_eq_comm.1 hab)).ne_eq
    · intro x hx
      exact mt compareEntries_eq_comm.1 ((ha x hx).congr_left hab).ne_eq

/-- The entry of an item comes from one of the listings. -/
theorem exists_mem_of_describes {old new : List Entry} {item : DiffItem}
    (h : Describes old new item) : item.entry ∈ old ∨ item.entry ∈ new := by
  cases item with
  | removed a => exact .inl h.1
  | added b => exact .inr h.1
  | changed a b => exact .inr h.1.2.1
  | unchanged b => exact .inr (h.choose_spec.1.2.1)

theorem entry_compareOne (a b : Entry) : (compareOne a b).entry = b := by
  unfold compareOne
  split <;> rfl

theorem precedes_entry_of_mem_merge {old new : List Entry} (hold : Canonical old)
    (hnew : Canonical new) {first : Entry} (ho : ∀ a ∈ old, Precedes first a)
    (hn : ∀ b ∈ new, Precedes first b) : ∀ item ∈ merge old new, Precedes first item.entry := by
  intro item hitem
  rcases exists_mem_of_describes ((mem_merge_iff hold hnew).1 hitem) with h | h
  · exact ho _ h
  · exact hn _ h

/-- The items of the merge of canonical listings come in strict canonical order. -/
theorem merge_ascending {old new : List Entry} (hold : Canonical old) (hnew : Canonical new) :
    (merge old new).Pairwise fun a b => Precedes a.entry b.entry := by
  fun_induction merge old new with
  | case1 new => exact List.pairwise_map.2 hnew
  | case2 old _ => exact List.pairwise_map.2 hold
  | case3 a old b new hab ih =>
    obtain ⟨ha, hold⟩ := List.pairwise_cons.1 hold
    refine List.pairwise_cons.2 ⟨precedes_entry_of_mem_merge hold hnew ha ?_, ih hold hnew⟩
    rw [List.forall_mem_cons]
    exact ⟨hab, fun c hc => Precedes.trans hab ((List.pairwise_cons.1 hnew).1 c hc)⟩
  | case4 a old b new hab ih =>
    have hba := precedes_of_compareEntries_gt hab
    obtain ⟨hb, hnew⟩ := List.pairwise_cons.1 hnew
    refine List.pairwise_cons.2 ⟨precedes_entry_of_mem_merge hold hnew ?_ hb, ih hold hnew⟩
    rw [List.forall_mem_cons]
    exact ⟨hba, fun c hc => hba.trans ((List.pairwise_cons.1 hold).1 c hc)⟩
  | case5 a old b new hab ih =>
    obtain ⟨ha, hold⟩ := List.pairwise_cons.1 hold
    obtain ⟨hb, hnew⟩ := List.pairwise_cons.1 hnew
    refine List.pairwise_cons.2 ⟨?_, ih hold hnew⟩
    rw [entry_compareOne]
    exact precedes_entry_of_mem_merge hold hnew (fun x hx => (ha x hx).congr_left hab) hb

/-- The merge of two canonical listings is their full outer join. -/
theorem merge_isOuterJoin {old new : List Entry} (hold : check old = .ok ())
    (hnew : check new = .ok ()) : IsOuterJoin old new (merge old new) := by
  rw [check_eq_ok_iff] at hold hnew
  have hascending := merge_ascending hold hnew
  have hnodup : (merge old new).Nodup := by
    refine hascending.imp ?_
    intro a b hab heq
    subst b
    exact precedes_irrefl a.entry hab
  refine ⟨?_, ?_, hascending, ?_⟩
  · intro item h
    exact List.count_eq_one_of_mem hnodup ((mem_merge_iff hold hnew).2 h)
  · intro item h
    exact (mem_merge_iff hold hnew).1 h
  · intro i j hi hj hbeneath
    by_contra hle
    -- The order of places contradicts the order of keys: a directory precedes what it holds.
    have hij := precedes_of_isBeneath hbeneath
    rcases Nat.lt_or_eq_of_le (Nat.le_of_not_lt hle) with hlt | rfl
    · exact hij.asymm (List.pairwise_iff_getElem.1 hascending j i hj hi hlt)
    · exact precedes_irrefl _ hij

/-- The files `a` and `g` and the directory `d` become the file `a` with other permissions and the
directory `d` with a file `d/y`. -/
theorem merge_isOuterJoin_four_items :
    check [.new [0x61] 0o100644, .new [0x67] 0o100644, .new [0x64] 0o040755] = .ok () ∧
    check [.new [0x61] 0o100600, .new [0x64] 0o040755, .new [0x64, 0x2F, 0x79] 0o100644] =
      .ok () ∧
    IsOuterJoin
      [.new [0x61] 0o100644, .new [0x67] 0o100644, .new [0x64] 0o040755]
      [.new [0x61] 0o100600, .new [0x64] 0o040755, .new [0x64, 0x2F, 0x79] 0o100644]
      [.changed (.new [0x61] 0o100644) (.new [0x61] 0o100600), .removed (.new [0x67] 0o100644),
        .unchanged (.new [0x64] 0o040755), .added (.new [0x64, 0x2F, 0x79] 0o100644)] := by
  have hold : check [.new [0x61] 0o100644, .new [0x67] 0o100644, .new [0x64] 0o040755] = .ok () :=
    check_eq_ok_iff.2 (by decide)
  have hnew : check [.new [0x61] 0o100600, .new [0x64] 0o040755,
      .new [0x64, 0x2F, 0x79] 0o100644] = .ok () :=
    check_eq_ok_iff.2 (by decide)
  have hmerge : merge [.new [0x61] 0o100644, .new [0x67] 0o100644, .new [0x64] 0o040755]
      [.new [0x61] 0o100600, .new [0x64] 0o040755, .new [0x64, 0x2F, 0x79] 0o100644] =
      [.changed (.new [0x61] 0o100644) (.new [0x61] 0o100600), .removed (.new [0x67] 0o100644),
        .unchanged (.new [0x64] 0o040755), .added (.new [0x64, 0x2F, 0x79] 0o100644)] := by
    decide +kernel
  exact ⟨hold, hnew, hmerge ▸ merge_isOuterJoin hold hnew⟩

end TreeManifest.Diff
