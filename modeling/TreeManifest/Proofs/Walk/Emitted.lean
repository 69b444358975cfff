import TreeManifest.Proofs.Entry.Operations
import TreeManifest.Proofs.Walk.Outcome

/-!
# Emitted entries

Whatever a walk sends on was captured of a child of its tree and given a role, so it keeps the rule
for attribute maps, and its path ends in a name. Sorting and settling keep both, so the same is true
of the entries of an outcome.

## Main definitions

- `Lister.UsesLabels`: trees with names that paths can take up.
- `Lister.Emits`: the entries that a walk can send.

## Main statements

- `Walk.emits_of_reaches`: at any moment, the captured entries are such entries.
- `Walk.wellFormed_of_result`: the entries of an outcome are well-formed.
- `Walk.getLast?_path_of_result`: their paths do not end in a slash.
-/

namespace TreeManifest

namespace Lister

/-- The directories of a tree hold names that paths can take up. -/
def UsesLabels (lister : Lister) : Prop :=
  ∀ directory names name, lister.HasDirectory directory →
    lister.view.readDirectory (lister.directory directory) = .ok names → .ok name ∈ names →
    Path.IsLabel name

/-- The entries that a walk can send: captured of a child of the tree, with some role. -/
def Emits (lister : Lister) (entry : Entry) : Prop :=
  ∃ child kept tracker, lister.IsChild child ∧ lister.selected child = .kept kept ∧
    entry = (lister.classify tracker kept child.stat.linkCount).1

variable {lister : Lister} {entry : Entry}

/-- Capture gives an object a map of attributes only if it has a binding with a visible name. -/
theorem wellFormed_filled {child : Child} (hchild : lister.IsChild child) (link : Option Bytes) :
    (lister.filled child link).WellFormed := by
  have hbare : child.entry.attributes = none := by
    rw [hchild.entry_eq]
    rfl
  have hcaptured := (Entry.wellFormed_of_attributes_eq_none hbare).captureAttributes
    lister.provider child.location ()
  rw [value_captureAttributes child.location hbare] at hcaptured
  intro map hmap
  rw [filled] at hmap
  dsimp only at hmap
  split at hmap
  · exact hcaptured map hmap
  · cases hmap

theorem wellFormed_classify {kept : Entry} (h : kept.WellFormed) (tracker : Hardlink.Tracker)
    (linkCount : UInt64) : (lister.classify tracker kept linkCount).1.WellFormed := by
  rw [classify_eq]
  split
  · exact h
  · split
    · exact h.congr rfl
    · exact Entry.wellFormed_of_attributes_eq_none rfl

/-- A lister sends well-formed entries only. -/
theorem Emits.wellFormed (h : lister.Emits entry) : entry.WellFormed := by
  obtain ⟨child, kept, tracker, hchild, hkept, rfl⟩ := h
  obtain ⟨link, -, rfl⟩ := exists_of_selected_eq_kept hchild hkept
  exact wellFormed_classify (wellFormed_filled hchild link) tracker _

/-- The path of a sent entry ends in a name. -/
theorem Emits.exists_label (hlabels : lister.UsesLabels) (h : lister.Emits entry) :
    ∃ directory name, Path.IsLabel name ∧ entry.path = Path.child directory name := by
  obtain ⟨child, kept, tracker, hchild, hkept, rfl⟩ := h
  obtain ⟨link, -, rfl⟩ := exists_of_selected_eq_kept hchild hkept
  obtain ⟨directory, children, skipped, hdirectory, hopened, hmem⟩ := hchild
  obtain ⟨names, name, stat, hnames, hname, -, rfl⟩ := exists_of_mem_opened hopened hmem
  exact ⟨directory, name, hlabels directory names name hdirectory hnames hname,
    path_classify tracker _ _⟩

end Lister

namespace Walk

variable {lister : Lister} {config : WalkConfig} {state : State} {outcome : WalkOutcome}
  {entry : Entry}

/-- Every state that can be reached is sound. -/
theorem sound_of_reaches (h : Reaches lister config (.start config) state) :
    Sound lister state := by
  induction h with
  | refl => exact sound_start lister config
  | tail _ step ih => exact sound_step step ih

/-- At any moment, whatever was captured is an entry that the walk can send. -/
theorem emits_of_reaches (h : Reaches lister config (.start config) state) :
    ∀ entry ∈ state.emitted, lister.Emits entry := by
  induction h with
  | refl =>
    intro entry hentry
    rw [emitted_start] at hentry
    exact absurd hentry (Multiset.notMem_zero entry)
  | @tail middle last steps step ih =>
    intro entry hentry
    rcases emitted_step (sound_of_reaches steps) step with ⟨-, hemitted⟩ |
        ⟨child, kept, hchild, hkept, -, hemitted⟩
    · exact ih entry (hemitted ▸ hentry)
    · rw [hemitted, Multiset.mem_add, Multiset.mem_singleton] at hentry
      rcases hentry with hentry | rfl
      · exact ih entry hentry
      · exact ⟨child, kept, middle.tracker, hchild, hkept, rfl⟩

theorem emits_of_mem_received (h : Reaches lister config (.start config) state)
    (hentry : entry ∈ state.received) : lister.Emits entry := by
  refine emits_of_reaches h entry ?_
  rw [State.emitted, Multiset.mem_add, Multiset.mem_coe]
  exact .inl (List.mem_append_left _ hentry)

/-- The entries of an outcome keep the rule for attribute maps. -/
theorem wellFormed_of_result (h : Reaches lister config (.start config) state)
    (hresult : result lister state = .ok outcome) : ∀ entry ∈ outcome.entries, entry.WellFormed := by
  obtain ⟨-, rfl⟩ := eq_of_result_eq_ok hresult
  refine Entry.wellFormed_settle fun entry hentry => ?_
  exact (emits_of_mem_received h (List.mem_mergeSort.1 hentry)).wellFormed

/-- Every entry of an outcome is a received one, up to what settling decides. -/
theorem exists_received_outline_eq (hresult : result lister state = .ok outcome)
    (hentry : entry ∈ outcome.entries) :
    ∃ other ∈ state.received, Hardlink.outline other = Hardlink.outline entry := by
  obtain ⟨-, rfl⟩ := eq_of_result_eq_ok hresult
  have houtline := List.mem_map_of_mem (f := Hardlink.outline) hentry
  rw [Hardlink.map_outline_settle] at houtline
  obtain ⟨other, hother, heq⟩ := List.mem_map.1 houtline
  exact ⟨other, List.mem_mergeSort.1 hother, heq⟩

/-- Every entry of an outcome has the path of a received one. -/
theorem exists_received_of_result (hresult : result lister state = .ok outcome)
    (hentry : entry ∈ outcome.entries) : ∃ other ∈ state.received, other.path = entry.path := by
  obtain ⟨other, hother, heq⟩ := exists_received_outline_eq hresult hentry
  refine ⟨other, hother, ?_⟩
  rw [← Hardlink.path_outline other, heq, Hardlink.path_outline]

/-- The path of an entry of an outcome does not end in a slash. -/
theorem getLast?_path_of_result (hlabels : lister.UsesLabels)
    (h : Reaches lister config (.start config) state)
    (hresult : result lister state = .ok outcome) (hentry : entry ∈ outcome.entries) :
    entry.path.getLast? ≠ some Bytes.slash := by
  obtain ⟨other, hother, hpath⟩ := exists_received_of_result hresult hentry
  obtain ⟨directory, name, hname, hchild⟩ :=
    (emits_of_mem_received h hother).exists_label hlabels
  rw [← hpath, hchild]
  exact Path.getLast?_child_ne_slash directory hname

end Walk

end TreeManifest
