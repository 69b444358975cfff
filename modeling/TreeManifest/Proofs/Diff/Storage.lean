import TreeManifest.Proofs.Diff.OuterJoin
import TreeManifest.Proofs.Path.Names
import TreeManifest.Proofs.Record.RoundTrip

/-!
# A stored listing does not differ from its original

Storing an entry may change its path and forgets its identity. The canonical order takes no notice of
a slash at the end of a path, and the comparison of two entries takes no notice of identities, so a
listing that was stored and loaded again is compared with its original without any difference.

## Main definitions

- `Diff.Agrees`: entries that a comparison of listings cannot tell apart.

## Main statements

- `Order.compareEntries_stored`: an entry keeps its place in the canonical order.
- `Diff.merge_eq_map_unchanged`: listings that agree entry by entry have unchanged items only.
- `Diff.merge_stored`: a listing and the one that is loaded from its written form agree.
-/

namespace TreeManifest

namespace Entry

/-- A slash at the end of a path is not a component, so dropping it leaves the components alone. -/
theorem components_stored (entry : Entry) :
    Path.components entry.stored.path = Path.components entry.path := by
  show Path.components (Record.trimDirectoryPath entry) = _
  unfold Record.trimDirectoryPath
  split
  · next h =>
    have hpath : entry.path.dropLast ++ [Bytes.slash] = entry.path :=
      List.dropLast_append_getLast? Bytes.slash h.2.2
    have hcomponents := Path.components_append_slash entry.path.dropLast []
    rw [hpath, Path.components_nil, List.append_nil] at hcomponents
    exact hcomponents.symm
  · rfl

end Entry

namespace Order

theorem compareEntries_stored (entry : Entry) : compareEntries entry entry.stored = .eq := by
  have hkey : entryKey entry.stored = entryKey entry := by
    rw [entryKey, sortKey, Entry.components_stored]
    rfl
  rw [compareEntries_eq_compare_entryKey, hkey]
  exact Std.ReflCmp.compare_self

/-- A canonical list stays canonical when its entries are stored. -/
theorem canonical_stored {entries : List Entry} (h : Canonical entries) :
    Canonical (entries.map Entry.stored) := by
  rw [Canonical, List.pairwise_map]
  refine h.imp ?_
  intro a b hab
  exact (hab.congr_left (compareEntries_stored a)).congr_right (compareEntries_stored b)

end Order

namespace Diff

open TreeManifest.Order

structure Agrees (old new : Entry) : Prop where
  tied : compareEntries old new = .eq
  same : old.sameMetadata new = true

/-- An entry and what is stored of it agree in all that a comparison looks at. -/
theorem agrees_stored (entry : Entry) : Agrees entry entry.stored where
  tied := compareEntries_stored entry
  same := by simp [Entry.sameMetadata, Entry.stored]

theorem Agrees.symm {old new : Entry} (h : Agrees old new) : Agrees new old where
  tied := compareEntries_eq_comm.1 h.tied
  same := by
    have hsame := h.same
    simp only [Entry.sameMetadata, Bool.and_eq_true, beq_iff_eq] at hsame ⊢
    tauto

/-- Both listings move on together, and every pair of heads is unchanged. -/
theorem merge_eq_map_unchanged {old new : List Entry} (h : List.Forall₂ Agrees old new) :
    merge old new = new.map .unchanged := by
  induction h with
  | nil => simp [merge]
  | @cons a b old new hab _ ih =>
    rw [merge, hab.tied, List.map_cons, ih, compareOne, if_pos hab.same]

/-- A canonical listing of well-formed entries can be stored: all of it is loaded again, in
canonical order, and comparing it with the original in either direction finds every entry
unchanged. -/
theorem merge_stored {entries : List Entry} (hcheck : check entries = .ok ())
    (hwf : ∀ entry ∈ entries, entry.WellFormed) :
    ∃ stored, entries.mapM (fun entry => Entry.parse entry.render) = .ok stored ∧
      stored.length = entries.length ∧
      check stored = .ok () ∧
      merge entries stored = stored.map .unchanged ∧
      merge stored entries = entries.map .unchanged := by
  have hcanonical := canonical_stored (check_eq_ok_iff.1 hcheck)
  have hagrees : List.Forall₂ Agrees entries (entries.map Entry.stored) := by
    rw [List.forall₂_map_right_iff, List.forall₂_same]
    intro entry _
    exact agrees_stored entry
  refine ⟨entries.map Entry.stored, Entry.mapM_parse_render hwf, List.length_map _,
    check_eq_ok_iff.2 hcanonical, merge_eq_map_unchanged hagrees, merge_eq_map_unchanged ?_⟩
  exact hagrees.flip.imp fun _ _ h => h.symm

/-- The top of a tree, a file and a directory with a slash too many at the end of their paths, and a
file below that directory behind three slashes. -/
def slashes : List Entry :=
  [.root,
    { Entry.new [0x66, 0x2F] 0o100644 with attributes := some (.ofList [("user.a", [1])]) },
    { Entry.new [0x64, 0x2F, 0x2F] 0o40755 with identity := some ⟨1, 2⟩ },
    .new [0x64, 0x2F, 0x2F, 0x2F, 0x67] 0o100644]

theorem merge_stored_slashes :
    check slashes = .ok () ∧ (∀ entry ∈ slashes, entry.WellFormed) ∧
    ∃ stored, slashes.mapM (fun entry => Entry.parse entry.render) = .ok stored ∧
      stored.map Entry.path =
        [[], [0x66, 0x2F], [0x64, 0x2F], [0x64, 0x2F, 0x2F, 0x2F, 0x67]] ∧
      check stored = .ok () ∧
      merge slashes stored = stored.map .unchanged ∧
      merge stored slashes = slashes.map .unchanged := by
  have hcheck : check slashes = .ok () := check_eq_ok_iff.2 (by decide)
  have hwf : ∀ entry ∈ slashes, entry.WellFormed := by
    unfold slashes
    simp only [List.forall_mem_cons]
    refine ⟨Entry.wellFormed_root, ?_, Entry.wellFormed_new [0x64, 0x2F, 0x2F] 0o40755,
      Entry.wellFormed_new _ _, nofun⟩
    rintro map ⟨⟩
    decide
  obtain ⟨stored, hstored, -, hcanonical, hforth, hback⟩ := merge_stored hcheck hwf
  refine ⟨hcheck, hwf, stored, hstored, ?_, hcanonical, hforth, hback⟩
  rw [Entry.mapM_parse_render hwf] at hstored
  rw [← Except.ok.inj hstored]
  decide

end Diff

end TreeManifest
