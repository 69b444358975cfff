import Mathlib.Tactic.LinearCombination
import Mathlib.Tactic.Ring
import TreeManifest.Proofs.Walk.Outcome

/-!
# A walk is complete and keeps account

The outcome of a walk has an entry for every object that the walk could come to and capture, and for
nothing else. Its counters agree with its entries.

## Main definitions

- `Walk.IsListed`: a directory below the root that has an entry and could be listed.
- `Walk.Exhaustive`: outcomes with the right entries and counters.

## Main statements

- `Walk.Yields.exhaustive`: every outcome of a walk of a tree is exhaustive.
-/

namespace TreeManifest.Walk

/-- A directory below the root that has an entry in an outcome and could be listed. -/
def IsListed (lister : Lister) (outcome : WalkOutcome) (path : Path) : Prop :=
  (∃ entry ∈ outcome.entries, entry.path = path ∧ entry.isDirectory = true) ∧
    ∃ found, lister.view.readDirectory (lister.directory path) = .ok found

/-- Outcomes that have an entry for every object which a walk could come to and capture, and that
count entries and directories as they should. -/
structure Exhaustive (lister : Lister) (outcome : WalkOutcome) : Prop where
  nodup : (outcome.entries.map (·.path)).Nodup
  /-- A path has an entry if its directory was listed and gave its last name, all directories
  between have entries and were listed, and the object can be captured. -/
  mem_iff : ∀ path, path ∈ outcome.entries.map (·.path) ↔
    ∃ names name found, path = Path.ofNames (names ++ [name]) ∧
      (∀ front, front <+: names → front ≠ [] → IsListed lister outcome (Path.ofNames front)) ∧
      lister.view.readDirectory (lister.directory (Path.ofNames names)) = .ok found ∧
      .ok name ∈ found ∧ lister.CanCapture path
  /-- Whatever lies above an entry is a directory and no symlink, is not left out and could be
  listed. -/
  above : ∀ entry ∈ outcome.entries, ∀ front back,
    Path.components entry.path = front ++ back → front ≠ [] → back ≠ [] →
    ∃ stat found, lister.view.lstat (Path.join lister.root (Path.ofNames front)) = .ok stat ∧
      stat.kind = .directory ∧
      (lister.options.excludeByAttribute = true →
        lister.isMarked .directory (Path.join lister.root (Path.ofNames front)) = false) ∧
      lister.view.readDirectory (lister.directory (Path.ofNames front)) = .ok found
  emitted_eq : outcome.stats.listing.emitted = outcome.entries.length
  directories_add : outcome.stats.directories + outcome.errors.length =
    1 + outcome.entries.countP (·.isDirectory)

variable {lister : Lister} {config : WalkConfig} {outcome : WalkOutcome}

/-! ## Paths -/

theorem Yields.nodup_map_path (htree : lister.IsTree) (h : Yields lister config outcome) :
    (outcome.entries.map (·.path)).Nodup := by
  obtain ⟨depth, -, hmarks⟩ := h.marks_eq htree
  have hperm : outcome.marks.Perm ((lister.marks depth []).map Mark.outline) :=
    Multiset.coe_eq_coe.1 hmarks
  have hnodup := (distinct_marks htree depth).nodup
  rw [← (hperm.filterMap _).nodup_iff, WalkOutcome.marks, List.append_assoc, List.append_assoc,
    List.filterMap_append, List.filterMap_map] at hnodup
  have hplaces : outcome.entries.filterMap
      ((fun mark : Mark => mark.place? lister.root) ∘ fun entry => (Mark.captured entry).outline) =
        (outcome.entries.map (·.path)).map fun path => (false, lister.stepsTo path) := by
    rw [List.map_map, ← List.filterMap_eq_map]
    congr 1
    funext entry
    exact Mark.place?_outline lister.root (.captured entry)
  have hfirst := hnodup.of_append_left
  rw [hplaces] at hfirst
  exact hfirst.of_map

/-- The directories that a walk has come to below the root were listed if they could be. -/
theorem Yields.isListed (htree : lister.IsTree) (h : Yields lister config outcome) {path : Path}
    (hvisits : lister.Visits path) (hne : path ≠ [])
    (hfound : ∃ found, lister.view.readDirectory (lister.directory path) = .ok found) :
    IsListed lister outcome path := by
  obtain ⟨child, kept, hcaptures, rfl, hdirectory⟩ := hvisits.exists_captures hne
  obtain ⟨entry, hentry, hstands⟩ := h.exists_entry htree hcaptures
  exact ⟨⟨entry, hentry, hstands.path_eq, hstands.isDirectory_eq.trans hdirectory⟩, hfound⟩

theorem Yields.visits (htree : lister.IsTree) (h : Yields lister config outcome) {entry : Entry}
    (hentry : entry ∈ outcome.entries) (hdirectory : entry.isDirectory = true) :
    lister.Visits entry.path := by
  obtain ⟨child, kept, hstands⟩ := h.exists_child htree hentry
  rw [hstands.path_eq]
  exact hstands.captures.visits (hstands.isDirectory_eq.symm.trans hdirectory)

/-- The names that lead to an entry, and the directories that they lead through. -/
theorem Yields.exists_names (htree : lister.IsTree) (h : Yields lister config outcome)
    {entry : Entry} (hentry : entry ∈ outcome.entries) :
    ∃ names name found, (∀ other ∈ names ++ [name], Path.IsName other) ∧
      entry.path = Path.ofNames (names ++ [name]) ∧
      (∀ front, front <+: names → front ≠ [] → IsListed lister outcome (Path.ofNames front)) ∧
      lister.view.readDirectory (lister.directory (Path.ofNames names)) = .ok found ∧
      .ok name ∈ found := by
  obtain ⟨child, kept, hstands⟩ := h.exists_child htree hentry
  obtain ⟨names, name, found, hnames, hpath, hfound, hname, hfront⟩ :=
    hstands.captures.exists_names htree
  refine ⟨names, name, found, hnames, hstands.path_eq.trans hpath, fun front hbegins hne => ?_,
    hfound, hname⟩
  obtain ⟨hvisits, hlisted⟩ := hfront front hbegins
  refine h.isListed htree hvisits (fun hnil => hne ?_) hlisted
  have hproper : ∀ other ∈ front, Path.IsName other := fun other hother =>
    hnames other (List.mem_append_left _ (hbegins.subset hother))
  exact (Path.ofNames_eq_nil_iff hproper).1 hnil

/-- A path has an entry exactly if a walk can come to it and capture its object. -/
theorem Yields.mem_map_path_iff (htree : lister.IsTree) (h : Yields lister config outcome)
    (path : Path) : path ∈ outcome.entries.map (·.path) ↔
      ∃ names name found, path = Path.ofNames (names ++ [name]) ∧
        (∀ front, front <+: names → front ≠ [] → IsListed lister outcome (Path.ofNames front)) ∧
        lister.view.readDirectory (lister.directory (Path.ofNames names)) = .ok found ∧
        .ok name ∈ found ∧ lister.CanCapture path := by
  constructor
  · intro hpath
    obtain ⟨entry, hentry, rfl⟩ := List.mem_map.1 hpath
    obtain ⟨child, kept, hstands⟩ := h.exists_child htree hentry
    obtain ⟨names, name, found, -, hpath, hfront, hfound, hname⟩ := h.exists_names htree hentry
    refine ⟨names, name, found, hpath, hfront, hfound, hname, ?_⟩
    rw [hstands.path_eq]
    exact hstands.captures.canCapture htree
  · rintro ⟨names, name, found, rfl, hfront, hfound, hname, hcan⟩
    -- The directory of the object was visited: it is the root, or it has an entry.
    have hvisits : lister.Visits (Path.ofNames names) := by
      by_cases hne : names = []
      · rw [hne]
        exact .root
      · obtain ⟨⟨directory, hentry, hpath, hdirectory⟩, -⟩ :=
          hfront names List.prefix_rfl hne
        rw [← hpath]
        exact h.visits htree hentry hdirectory
    rw [Path.ofNames_append_singleton] at hcan ⊢
    obtain ⟨child, kept, hcaptures, hkept⟩ :=
      hvisits.exists_captures_child htree hfound hname hcan
    obtain ⟨entry, hentry, hstands⟩ := h.exists_entry htree hcaptures
    exact List.mem_map.2 ⟨entry, hentry, hstands.path_eq.trans hkept⟩

theorem Yields.exists_above (htree : lister.IsTree) (h : Yields lister config outcome)
    {entry : Entry} (hentry : entry ∈ outcome.entries) {front back : List Bytes}
    (hcomponents : Path.components entry.path = front ++ back) (hfront : front ≠ [])
    (hback : back ≠ []) :
    ∃ stat found, lister.view.lstat (Path.join lister.root (Path.ofNames front)) = .ok stat ∧
      stat.kind = .directory ∧
      (lister.options.excludeByAttribute = true →
        lister.isMarked .directory (Path.join lister.root (Path.ofNames front)) = false) ∧
      lister.view.readDirectory (lister.directory (Path.ofNames front)) = .ok found := by
  obtain ⟨names, name, -, hnames, hpath, hlisted, -, -⟩ := h.exists_names htree hentry
  have hbegins : front <+: names := by
    rw [hpath, Path.components_ofNames hnames] at hcomponents
    rcases List.prefix_concat_iff.1 ⟨back, hcomponents.symm⟩ with rfl | hbegins
    · exact absurd (List.self_eq_append_right.1 hcomponents) hback
    · exact hbegins
  obtain ⟨⟨directory, hmem, hsame, hdirectory⟩, found, hfound⟩ := hlisted front hbegins hfront
  obtain ⟨child, kept, hstands⟩ := h.exists_child htree hmem
  have hstat := hstands.lstat_eq htree
  obtain ⟨stat, hstat', -, hfree⟩ := hstands.captures.canCapture htree
  rw [← hstands.path_eq, hstat] at hstat'
  rw [← hstands.path_eq, hsame] at hfree
  cases hstat'
  have hkind : child.stat.kind = .directory :=
    hstands.kind_eq.symm.trans (beq_iff_eq.1 hdirectory)
  rw [hkind] at hfree
  rw [hsame] at hstat
  exact ⟨child.stat, found, hstat, hkind, hfree, hfound⟩

/-! ## Counters -/

/-- A weight that every directory of a tree leaves over: what is counted for it has the given
weight, and its entry has that weight against it. Entries are weighed against their counter. -/
def Mark.weight (counted sent : Int) : Mark → Int
  | .listed | .failed _ => counted
  | .emitted => sent
  | .captured entry => -sent - if entry.isDirectory then counted else 0
  | .skipped _ | .excluded => 0

theorem Mark.weight_outline (counted sent : Int) (entry : Entry) :
    (Mark.captured entry).outline.weight counted sent =
      -sent - if entry.isDirectory then counted else 0 := by
  show -sent - (if (Hardlink.outline entry).isDirectory then counted else 0) = _
  rw [(Hardlink.keepsKey_outline entry).2]

theorem sum_map_weight_entries (counted sent : Int) (entries : List Entry) :
    (entries.map fun entry => (Mark.captured entry).outline.weight counted sent).sum =
      -(entries.length * sent) - entries.countP (·.isDirectory) * counted := by
  induction entries with
  | nil => simp
  | cons entry entries ih =>
    rw [List.map_cons, List.sum_cons, ih, Mark.weight_outline, List.length_cons, List.countP_cons]
    cases entry.isDirectory <;> simp <;> ring

theorem sum_map_weight_marks (counted sent : Int) (outcome : WalkOutcome) :
    (outcome.marks.map (Mark.weight counted sent)).sum =
      -(outcome.entries.length * sent) - outcome.entries.countP (·.isDirectory) * counted +
        outcome.stats.directories * counted + outcome.stats.listing.emitted * sent +
        outcome.errors.length * counted := by
  have hentries := sum_map_weight_entries counted sent outcome.entries
  simp only [Mark.outline, Mark.weight] at hentries
  simp [WalkOutcome.marks, statsMarks, Mark.outline, Mark.weight, Function.comp_def, hentries,
    add_assoc]

/-- Only the directory of the root has no entry of its own. -/
theorem Yields.weight_eq (htree : lister.IsTree) (h : Yields lister config outcome)
    (counted sent : Int) :
    (outcome.stats.directories + outcome.errors.length) * counted +
        outcome.stats.listing.emitted * sent =
      (1 + outcome.entries.countP (·.isDirectory)) * counted + outcome.entries.length * sent := by
  obtain ⟨depth, haccounts, hmarks⟩ := h.marks_eq htree
  have hsum := @Lister.sum_map_account _ _ htree haccounts (Mark.weight counted sent) counted rfl
    (fun _ => rfl) (fun _ => rfl) rfl (fun entry => by
      rw [Mark.weight_outline, Mark.weight]
      ring) [] .root
  rw [← hmarks, Multiset.map_coe, Multiset.sum_coe, sum_map_weight_marks] at hsum
  linear_combination hsum

/-- The counter of sent entries is the number of entries. -/
theorem Yields.emitted_eq (htree : lister.IsTree) (h : Yields lister config outcome) :
    outcome.stats.listing.emitted = outcome.entries.length := by
  have hweight := h.weight_eq htree 0 1
  omega

/-- Every directory, the root included, was either listed or failed. -/
theorem Yields.directories_add (htree : lister.IsTree) (h : Yields lister config outcome) :
    outcome.stats.directories + outcome.errors.length =
      1 + outcome.entries.countP (·.isDirectory) := by
  have hweight := h.weight_eq htree 1 0
  omega

/-- The outcome of a walk of a finite tree has an entry for every object that the walk could come to
and capture, no path twice and nothing else, and its counters agree with its entries. -/
theorem Yields.exhaustive (htree : lister.IsTree) (h : Yields lister config outcome) :
    Exhaustive lister outcome where
  nodup := h.nodup_map_path htree
  mem_iff := h.mem_map_path_iff htree
  above _ hentry _ _ hcomponents hfront hback :=
    h.exists_above htree hentry hcomponents hfront hback
  emitted_eq := h.emitted_eq htree
  directories_add := h.directories_add htree

/-- The outcome of the tree with a file that has two names is exhaustive. -/
theorem exhaustive_linkedTree :
    linkedTree.IsTree ∧ ∃ outcome, Yields linkedTree (.ofProcessors 1) outcome ∧
      Exhaustive linkedTree outcome := by
  obtain ⟨outcome, hyields, -⟩ := exists_yields_linkedTree
  exact ⟨isTree_linkedTree, outcome, hyields, hyields.exhaustive isTree_linkedTree⟩

end TreeManifest.Walk
