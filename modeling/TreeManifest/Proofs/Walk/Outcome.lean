import TreeManifest.Proofs.Hardlink.Groups
import TreeManifest.Proofs.Walk.Captured
import TreeManifest.Proofs.Walk.Schedule

/-!
# The outcome of a walk

A run that ends with an outcome has collected the marks of its tree, and putting entries in order
and settling roles neither adds nor drops any of them. So the entries of an outcome stand for the
captured children, one for each.

## Main definitions

- `Walk.Yields`: a run of a walk ends with a given outcome.
- `WalkOutcome.marks`: the marks in an outcome.
- `Walk.StandsFor`: what an entry of an outcome has in common with the child that was captured.

## Main statements

- `Walk.Yields.marks_eq`: an outcome holds the marks of its tree.
- `Walk.Yields.canonical`, `Walk.Yields.consistent`: its entries are in order, with settled roles.
- `Walk.Yields.exists_child`, `Walk.Yields.exists_entry`: entries and captured children correspond.
-/

namespace TreeManifest

open TreeManifest.Walk (Mark)

def WalkOutcome.marks (outcome : WalkOutcome) : List Mark :=
  outcome.entries.map (fun entry => (Mark.captured entry).outline) ++
    List.replicate outcome.stats.directories .listed ++ Walk.statsMarks outcome.stats.listing ++
    outcome.errors.map .failed

namespace Walk

/-- A run of a walk ends with the given outcome. -/
def Yields (lister : Lister) (config : WalkConfig) (outcome : WalkOutcome) : Prop :=
  ∃ state, Reaches lister config (.start config) state ∧ state.isDone = true ∧
    result lister state = .ok outcome

/-- What an entry of an outcome has in common with the captured child that it stands for. -/
structure StandsFor (lister : Lister) (entry : Entry) (child : Child) (kept : Entry) : Prop where
  captures : lister.Captures child kept
  path_eq : entry.path = kept.path
  mode_eq : entry.mode = kept.mode
  identity_eq : entry.identity = some child.stat.identity
  groupOf_eq : Hardlink.groupOf entry = lister.tracked? kept child.stat.linkCount
  eq_of_groupOf_eq_none : Hardlink.groupOf entry = none → entry = kept

variable {lister : Lister} {config : WalkConfig} {outcome : WalkOutcome} {state : State}
  {entry kept : Entry} {child : Child}

/-! ## Parts of an outcome -/

/-- An outcome by the parts of the state that it is made of. -/
theorem eq_of_result_eq_ok (h : result lister state = .ok outcome) :
    Order.check (Order.sort state.received) = .ok () ∧ outcome = {
      entries := Hardlink.settle (Order.sort state.received)
      errors := state.errors.mergeSort fun a b => (Path.compareSteps a.path b.path).isLE
      stats := sortSkipped state.stats } := by
  unfold result at h
  split at h
  · cases h
  · rw [conclude_eq_match] at h
    split at h
    · cases h
    · split at h
      · cases h
      · next hcheck => exact ⟨hcheck, (Except.ok.inj h).symm⟩

theorem statsMarks_sortSkipped_perm (stats : Stats) :
    (statsMarks (sortSkipped stats).listing).Perm (statsMarks stats.listing) :=
  List.Perm.append_left _ ((List.mergeSort_perm _ _).map Mark.skipped)

/-- Order and roles leave the marks of a final state alone. -/
theorem marks_perm_collected (hdone : state.isDone = true)
    (h : result lister state = .ok outcome) : outcome.marks.Perm state.collected := by
  obtain ⟨-, rfl⟩ := eq_of_result_eq_ok h
  have hentries : ((Hardlink.settle (Order.sort state.received)).map
      fun entry => (Mark.captured entry).outline).Perm
        ((state.received ++ state.channel).map fun entry => (Mark.captured entry).outline) := by
    have hmap : ∀ entries : List Entry, entries.map (fun entry => (Mark.captured entry).outline) =
        (entries.map Hardlink.outline).map Mark.captured := fun entries => by
      rw [List.map_map]
      rfl
    rw [(isDone_eq_true_iff.1 hdone).1, List.append_nil, hmap, hmap,
      Hardlink.map_outline_settle]
    exact ((List.mergeSort_perm state.received _).map Hardlink.outline).map Mark.captured
  exact ((hentries.append (.refl _)).append (statsMarks_sortSkipped_perm state.stats)).append
    ((List.mergeSort_perm _ _).map Mark.failed)

/-- An outcome holds the marks of its tree. -/
theorem Yields.marks_eq (htree : lister.IsTree) (h : Yields lister config outcome) :
    ∃ depth, lister.Accounts (lister.account depth) ∧
      (outcome.marks : Multiset Mark) = lister.account depth [] := by
  obtain ⟨state, hreaches, hdone, hresult⟩ := h
  obtain ⟨bound, hbound⟩ := htree.hasLabels.exists_bound
  have haccounts := Lister.accounts_of_bound htree.hasLabels hbound
  have hfinal := accounted_reaches haccounts (accounted_start lister config _) hreaches
  refine ⟨bound + 1, haccounts, ?_⟩
  rw [← hfinal.collected_eq hdone]
  exact Multiset.coe_eq_coe.2 (marks_perm_collected hdone hresult)

/-- The entries of an outcome are in strict canonical order. -/
theorem canonical_of_result (h : result lister state = .ok outcome) :
    Order.Canonical outcome.entries := by
  obtain ⟨hcheck, rfl⟩ := eq_of_result_eq_ok h
  rw [← Order.check_eq_ok_iff, ← Order.check_map Hardlink.keepsKey_outline,
    Hardlink.map_outline_settle, Order.check_map Hardlink.keepsKey_outline]
  exact hcheck

/-- A walk ends with a canonical list. -/
theorem Yields.canonical (h : Yields lister config outcome) : Order.Canonical outcome.entries := by
  obtain ⟨state, -, -, hresult⟩ := h
  exact canonical_of_result hresult

/-- A walk ends with roles that fit their places. -/
theorem Yields.consistent (h : Yields lister config outcome) :
    Hardlink.Consistent outcome.entries := by
  obtain ⟨state, -, -, hresult⟩ := h
  obtain ⟨-, rfl⟩ := eq_of_result_eq_ok hresult
  exact Hardlink.consistent_settle _

/-! ## Entries and captured children -/

/-- The entries among the marks of an outcome are the outlines of its entries. -/
theorem captured_mem_marks_iff : .captured entry ∈ outcome.marks ↔
    ∃ member ∈ outcome.entries, Hardlink.outline member = entry := by
  simp [WalkOutcome.marks, statsMarks, Mark.outline]

theorem mode_outline (entry : Entry) : (Hardlink.outline entry).mode = entry.mode := by
  unfold Hardlink.outline
  split <;> rfl

theorem identity_outline (entry : Entry) :
    (Hardlink.outline entry).identity = entry.identity := by
  unfold Hardlink.outline
  split <;> rfl

/-- A captured entry belongs to a group exactly if it is tracked. -/
theorem groupOf_classify (hrole : kept.role = .none) (linkCount : UInt64) :
    Hardlink.groupOf (lister.classify {} kept linkCount).1 = lister.tracked? kept linkCount := by
  rw [Lister.classify_eq]
  cases htracked : lister.tracked? kept linkCount with
  | none => exact if_pos hrole
  | some identity => exact identity_of_tracked?_eq_some htracked

/-- Entries with the outline of a captured child stand for it. -/
theorem standsFor_of_outline_eq (hcaptures : lister.Captures child kept)
    (h : Hardlink.outline entry =
      Hardlink.outline (lister.classify {} kept child.stat.linkCount).1) :
    StandsFor lister entry child kept := by
  have hgroup : Hardlink.groupOf entry = lister.tracked? kept child.stat.linkCount := by
    rw [← Hardlink.groupOf_outline, h, Hardlink.groupOf_outline,
      groupOf_classify hcaptures.role_eq_none]
  refine ⟨hcaptures, ?_, ?_, ?_, hgroup, fun hnone => ?_⟩
  · rw [← Hardlink.path_outline, h, Hardlink.path_outline, Lister.path_classify]
  · rw [← mode_outline, h, mode_outline, Lister.mode_classify]
  · rw [← identity_outline, h, identity_outline, Lister.identity_classify,
      hcaptures.identity_eq]
  · rw [Hardlink.outline_of_groupOf_eq_none hnone, Lister.classify_eq, ← hgroup, hnone,
      Hardlink.outline_of_groupOf_eq_none (if_pos hcaptures.role_eq_none)] at h
    exact h

/-- Every entry of an outcome stands for a captured child. -/
theorem Yields.exists_child (htree : lister.IsTree) (h : Yields lister config outcome)
    (hentry : entry ∈ outcome.entries) : ∃ child kept, StandsFor lister entry child kept := by
  obtain ⟨depth, haccounts, hmarks⟩ := h.marks_eq htree
  have hmem : .captured (Hardlink.outline entry) ∈ outcome.marks :=
    captured_mem_marks_iff.2 ⟨entry, hentry, rfl⟩
  rw [← Multiset.mem_coe, hmarks, Lister.captured_mem_account_iff htree haccounts] at hmem
  obtain ⟨child, kept, hcaptures, houtline⟩ := hmem
  exact ⟨child, kept, standsFor_of_outline_eq hcaptures houtline⟩

/-- For every captured child there is an entry in the outcome. -/
theorem Yields.exists_entry (htree : lister.IsTree) (h : Yields lister config outcome)
    (hcaptures : lister.Captures child kept) :
    ∃ entry ∈ outcome.entries, StandsFor lister entry child kept := by
  obtain ⟨depth, haccounts, hmarks⟩ := h.marks_eq htree
  have hmem := (Lister.captured_mem_account_iff htree haccounts).2 ⟨child, kept, hcaptures, rfl⟩
  rw [← hmarks, Multiset.mem_coe, captured_mem_marks_iff] at hmem
  obtain ⟨entry, hentry, houtline⟩ := hmem
  exact ⟨entry, hentry, standsFor_of_outline_eq hcaptures houtline⟩

theorem StandsFor.isDirectory_eq (h : StandsFor lister entry child kept) :
    entry.isDirectory = kept.isDirectory := by
  rw [Entry.isDirectory, Entry.kind, h.mode_eq]
  rfl

theorem StandsFor.kind_eq (h : StandsFor lister entry child kept) :
    entry.kind = child.stat.kind := by
  rw [← h.captures.kind_eq, Entry.kind, h.mode_eq]
  rfl

/-- An entry of an outcome stands for the object found at its location. -/
theorem StandsFor.lstat_eq (htree : lister.IsTree) (h : StandsFor lister entry child kept) :
    lister.view.lstat (Path.join lister.root entry.path) = .ok child.stat := by
  rw [h.path_eq]
  exact h.captures.lstat_eq htree

/-! ## Runs in which the workers take turns -/

/-- A walk yields what its first run ends with. -/
theorem exists_yields_of_runFrom {α : Type} {look : WalkOutcome → α} {value : α} (fuel : Nat)
    (hdone : (runFrom lister config fuel (.start config)).isDone = true)
    (hresult : (result lister (runFrom lister config fuel (.start config))).toOption.map look =
      some value) : ∃ outcome, Yields lister config outcome ∧ look outcome = value := by
  obtain ⟨outcome, houtcome, hlook⟩ := Option.map_eq_some_iff.1 hresult
  exact ⟨outcome, ⟨_, reaches_runFrom lister config fuel (.refl _), hdone,
    Lister.eq_ok_of_toOption_eq_some houtcome⟩, hlook⟩

/-- The outcome of the tree with a file that has two names. -/
theorem exists_yields_linkedTree :
    ∃ outcome, Yields linkedTree (.ofProcessors 1) outcome ∧
      outcome.entries.map (fun entry => (entry.path, entry.role)) =
        [([0x61], .canonical), ([0x64], .none), ([0x64, 0x2F, 0x62], .linkTo)] :=
  exists_yields_of_runFrom 30 (by cbv) (by cbv)

end Walk

end TreeManifest
