import TreeManifest.Proofs.Walk.Outcome

/-!
# Links in the outcome of a walk

When hard links are tracked, exactly the objects with several names get a role. The first name of
such an object in canonical order is canonical, and the others are links that lead back to it. The
link field serves two purposes, so the role decides whether a symlink keeps its target.

## Main definitions

- `Walk.LinksHold`: outcomes in which roles and links agree with the names of objects.

## Main statements

- `Walk.Yields.linksHold`: they do in every outcome of a walk that tracks hard links.
- `Walk.Yields.symlink_target`: a symlink keeps its target if it has no role, and only then.
-/

namespace TreeManifest.Walk

/-- Outcomes in which roles and links agree with the names of objects. -/
structure LinksHold (lister : Lister) (outcome : WalkOutcome) : Prop where
  canonical : Order.Canonical outcome.entries
  /-- An entry has a role if its object is no directory and has several names. -/
  role_ne_none_iff : ∀ entry ∈ outcome.entries, ∃ stat,
    lister.view.lstat (Path.join lister.root entry.path) = .ok stat ∧
    entry.identity = some stat.identity ∧
    (entry.role ≠ .none ↔ stat.kind ≠ .directory ∧ 1 < stat.linkCount)
  /-- The first entry of an object is canonical, and the others are links. -/
  exists_canonical : ∀ identity,
    (∃ entry ∈ outcome.entries, entry.role ≠ .none ∧ entry.identity = some identity) →
    ∃ front canonical back, outcome.entries = front ++ canonical :: back ∧
      canonical.role = .canonical ∧ canonical.identity = some identity ∧
      (∀ other ∈ front, other.identity = some identity → other.role = .none) ∧
      ∀ other ∈ back, other.identity = some identity → other.role ≠ .none → other.role = .linkTo
  /-- A link carries nothing and leads to the canonical entry of its object, which comes first. -/
  exists_of_linkTo : ∀ front entry back, outcome.entries = front ++ entry :: back →
    entry.role = .linkTo → entry.size = 0 ∧ entry.attributes = none ∧ entry.flags = none ∧
    ∃ canonical ∈ front, canonical.role = .canonical ∧ canonical.identity = entry.identity ∧
      entry.link = some canonical.path

variable {lister : Lister} {config : WalkConfig} {outcome : WalkOutcome} {entry kept : Entry}
  {child : Child}

/-- The object of a captured child is tracked if it is no directory and has several names. -/
theorem tracked?_of_captures (htrack : lister.options.trackHardlinks = true)
    (h : lister.Captures child kept) : lister.tracked? kept child.stat.linkCount =
      if child.stat.kind ≠ .directory ∧ 1 < child.stat.linkCount then some child.stat.identity
      else none := by
  have hkind : kept.isDirectory = true ↔ child.stat.kind = .directory := by
    rw [← h.kind_eq]
    exact beq_iff_eq
  unfold Lister.tracked?
  simp only [h.identity_eq, hkind, htrack, true_and, not_or, UInt64.not_le, ne_eq]

theorem StandsFor.role_ne_none_iff (htrack : lister.options.trackHardlinks = true)
    (h : StandsFor lister entry child kept) :
    entry.role ≠ .none ↔ child.stat.kind ≠ .directory ∧ 1 < child.stat.linkCount := by
  have hgroup := h.groupOf_eq
  rw [tracked?_of_captures htrack h.captures] at hgroup
  constructor
  · intro hrole
    by_contra hsingle
    rw [if_neg hsingle, Hardlink.groupOf, if_neg hrole, h.identity_eq] at hgroup
    cases hgroup
  · intro hshared
    rw [if_pos hshared] at hgroup
    exact (Hardlink.groupOf_eq_some_iff.1 hgroup).1

/-- Roles and links agree with the names of objects in every outcome of a walk that tracks hard
links. -/
theorem Yields.linksHold (htree : lister.IsTree) (htrack : lister.options.trackHardlinks = true)
    (h : Yields lister config outcome) : LinksHold lister outcome where
  canonical := h.canonical
  role_ne_none_iff := by
    intro entry hentry
    obtain ⟨child, kept, hstands⟩ := h.exists_child htree hentry
    exact ⟨child.stat, hstands.lstat_eq htree, hstands.identity_eq,
      hstands.role_ne_none_iff htrack⟩
  exists_canonical := by
    rintro identity ⟨entry, hentry, hmember⟩
    obtain ⟨front, canonical, back, hsplit, hgroup, hrole, hfront, hback⟩ :=
      h.consistent.exists_canonical hentry (Hardlink.groupOf_eq_some_iff.2 hmember)
    refine ⟨front, canonical, back, hsplit, hrole, (Hardlink.groupOf_eq_some_iff.1 hgroup).2,
      ?_, ?_⟩
    · intro other hother hsame
      by_contra hne
      exact hfront other hother (Hardlink.groupOf_eq_some_iff.2 ⟨hne, hsame⟩)
    · intro other hother hsame hne
      exact hback other hother (Hardlink.groupOf_eq_some_iff.2 ⟨hne, hsame⟩)
  exists_of_linkTo := by
    intro front entry back hsplit hlink
    have hentry : entry ∈ outcome.entries := by simp [hsplit]
    have hconsistent := h.consistent
    obtain ⟨child, kept, hstands⟩ := h.exists_child htree hentry
    have hgroup : Hardlink.groupOf entry = some child.stat.identity :=
      Hardlink.groupOf_eq_some_iff.2 ⟨by simp [hlink], hstands.identity_eq⟩
    rw [hsplit] at hconsistent
    obtain ⟨hsize, hattributes, hflags, canonical, hcanonical, hsame, hrole, hpath⟩ :=
      hconsistent.exists_of_linkTo hgroup hlink
    refine ⟨hsize, hattributes, hflags, canonical, hcanonical, hrole, ?_, hpath⟩
    rw [hstands.identity_eq]
    exact (Hardlink.groupOf_eq_some_iff.1 hsame).2

/-- Roles and links agree in the outcome of the tree with a file that has two names. -/
theorem linksHold_linkedTree :
    linkedTree.IsTree ∧ linkedTree.options.trackHardlinks = true ∧
      ∃ outcome, Yields linkedTree (.ofProcessors 1) outcome ∧ LinksHold linkedTree outcome := by
  obtain ⟨outcome, hyields, -⟩ := exists_yields_linkedTree
  exact ⟨isTree_linkedTree, rfl, outcome, hyields, hyields.linksHold isTree_linkedTree rfl⟩

/-! ## Symlinks -/

/-- The canonical entry of a group has no link. -/
theorem Yields.link_eq_none (htree : lister.IsTree) (h : Yields lister config outcome)
    (hentry : entry ∈ outcome.entries) (hrole : entry.role = .canonical) : entry.link = none := by
  obtain ⟨child, kept, hstands⟩ := h.exists_child htree hentry
  have hgroup : Hardlink.groupOf entry = some child.stat.identity :=
    Hardlink.groupOf_eq_some_iff.2 ⟨by simp [hrole], hstands.identity_eq⟩
  obtain ⟨front, back, hsplit⟩ := List.append_of_mem hentry
  have hplace := h.consistent front entry back hsplit _ hgroup
  cases hfirst : Hardlink.firstPath? child.stat.identity front with
  | none =>
    rw [hfirst] at hplace
    exact hplace.2
  | some path =>
    rw [hfirst, Hardlink.HasRole, hrole] at hplace
    cases hplace.1

def twinStat : Stat := ⟨0o120777, 1, 0, 0, 0, 2, 0, ⟨1, 7⟩⟩

/-- A tree with the symlink `r/a`, which is also `r/b` and leads to `t`. -/
def twinTree : Lister :=
  .native [0x72] {} {
    stat := fun _ => .ok (linkedStat false)
    lstat := fun _ => .ok twinStat
    readLink := fun _ => .ok [0x74]
    readDirectory := fun path =>
      if path = [0x72] then .ok [.ok [0x61], .ok [0x62]] else .error (.os .enotdir)
    attributeNames := fun _ => .ok []
    attributeValue := fun _ _ => .ok none
    openObject := fun _ _ => .error (.os .eloop)
    flagWord := fun _ => .ok 0 }

theorem hasDirectory_twinTree {directory : Path} (h : twinTree.HasDirectory directory) :
    directory = [] := by
  induction h with
  | root => rfl
  | child hparent hnames hname hstat hkind ih =>
    cases hstat
    exact absurd hkind (by decide)

theorem isTree_twinTree : twinTree.IsTree where
  finite := (Set.finite_singleton []).subset fun _ => hasDirectory_twinTree
  isName hdirectory hnames hname := by
    cases hasDirectory_twinTree hdirectory
    cases hnames
    rcases List.mem_pair.1 hname with hname | hname <;> cases hname <;> constructor <;> decide
  nodup hdirectory hnames := by
    cases hasDirectory_twinTree hdirectory
    cases hnames
    decide
  stat_eq := by
    rintro first second stat other ⟨-, -, -, -, -, -, -, hstat⟩ ⟨-, -, -, -, -, -, -, hother⟩ -
    exact Except.ok.inj (hstat.symm.trans hother)

theorem exists_yields_twinTree :
    ∃ outcome, Yields twinTree (.ofProcessors 1) outcome ∧
      outcome.entries.map (fun entry => (entry.path, entry.kind, entry.role, entry.link)) =
        [([0x61], .symlink, .canonical, none), ([0x62], .symlink, .linkTo, some [0x61])] :=
  exists_yields_of_runFrom 30 (by cbv) (by cbv)

/-- The canonical entry of the symlink with two names. -/
theorem exists_mem_twinTree : ∃ outcome, Yields twinTree (.ofProcessors 1) outcome ∧
    ∃ entry ∈ outcome.entries, entry.kind = .symlink ∧ entry.role = .canonical ∧
      entry.link = none := by
  obtain ⟨outcome, hyields, hentries⟩ := exists_yields_twinTree
  have hfirst : (([0x61], .symlink, .canonical, none) :
      Path × FileKind × HardlinkRole × Option Bytes) ∈
        outcome.entries.map fun entry => (entry.path, entry.kind, entry.role, entry.link) := by
    rw [hentries]
    exact List.mem_cons_self
  obtain ⟨entry, hentry, heq⟩ := List.mem_map.1 hfirst
  rw [Prod.mk.injEq, Prod.mk.injEq, Prod.mk.injEq] at heq
  obtain ⟨-, hkind, hrole, hlink⟩ := heq
  exact ⟨outcome, hyields, entry, hentry, hkind, hrole, hlink⟩

/-- A symlink with one name keeps its target. One with several names loses it: the canonical entry
has no link at all, and the link of every other entry is a path. -/
theorem Yields.symlink_target (htree : lister.IsTree) (h : Yields lister config outcome)
    (hentry : entry ∈ outcome.entries) (hsymlink : entry.kind = .symlink) :
    ∃ target, lister.view.readLink (Path.join lister.root entry.path) = .ok target ∧
      (entry.role = .none → entry.link = some target) ∧
      (entry.role = .canonical → entry.link = none) := by
  obtain ⟨child, kept, hstands⟩ := h.exists_child htree hentry
  obtain ⟨target, hread, hlink⟩ :=
    hstands.captures.exists_target htree (hstands.kind_eq.symm.trans hsymlink)
  rw [← hstands.path_eq] at hread
  refine ⟨target, hread, fun hrole => ?_, h.link_eq_none htree hentry⟩
  rw [hstands.eq_of_groupOf_eq_none (if_pos hrole)]
  exact hlink

/-- The target of the symlink with two names can be read, and its canonical entry is without it. -/
theorem symlink_target_twinTree : twinTree.IsTree ∧ ∃ outcome entry,
    Yields twinTree (.ofProcessors 1) outcome ∧ entry ∈ outcome.entries ∧ entry.kind = .symlink ∧
      ∃ target, twinTree.view.readLink (Path.join twinTree.root entry.path) = .ok target ∧
        (entry.role = .none → entry.link = some target) ∧
        (entry.role = .canonical → entry.link = none) := by
  obtain ⟨outcome, hyields, entry, hentry, hkind, -, -⟩ := exists_mem_twinTree
  exact ⟨isTree_twinTree, outcome, entry, hyields, hentry, hkind,
    hyields.symlink_target isTree_twinTree hentry hkind⟩

/-- Not every symlink that is no link to another name has its target. -/
theorem not_forall_symlink_link : ¬ ∀ (lister : Lister) (config : WalkConfig)
    (outcome : WalkOutcome) (entry : Entry), lister.IsTree → Yields lister config outcome →
      entry ∈ outcome.entries → entry.kind = .symlink → entry.role ≠ .linkTo →
      ∃ target, lister.view.readLink (Path.join lister.root entry.path) = .ok target ∧
        entry.link = some target := by
  intro hall
  obtain ⟨outcome, hyields, entry, hentry, hkind, hrole, hlink⟩ := exists_mem_twinTree
  obtain ⟨target, -, hkept⟩ := hall twinTree (.ofProcessors 1) outcome entry isTree_twinTree
    hyields hentry hkind (by simp [hrole])
  rw [hlink] at hkept
  cases hkept

end TreeManifest.Walk
