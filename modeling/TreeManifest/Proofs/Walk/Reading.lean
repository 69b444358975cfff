import TreeManifest.Proofs.Walk.Marks

/-!
# Reading the tree

The system gives the names in a directory in any order, and an object can be read through any of its
names. Neither choice makes a difference to what a tree gives.

## Main definitions

- `ReadingOrder`: an order of the names in every directory.
- `Lister.reordered`: the lister of the same tree when its directories are read in a given order.
- `Lister.ReadsByObject`: what is read of an object does not depend on the name that leads to it.
- `Lister.HasContents`: what the names of every object carry.

## Main statements

- `Lister.isTree_reordered`: a tree is one in every order.
- `Lister.account_reordered`: a tree gives the same marks in every order.
- `Lister.exists_hasContents`: what is kept of an object is determined by its identity.
-/

namespace TreeManifest

/-- An order of the names in every directory. -/
structure ReadingOrder where
  arrange : Path → List (Except IoError Bytes) → List (Except IoError Bytes)
  perm : ∀ path names, (arrange path names).Perm names

def Snapshot.reordered (view : Snapshot) (order : ReadingOrder) : Snapshot :=
  { view with readDirectory := fun path => (view.readDirectory path).map (order.arrange path) }

namespace Lister

open TreeManifest.Walk (Mark)

/-- The lister of the same tree when its directories are read in the given order. -/
def reordered (lister : Lister) (order : ReadingOrder) : Lister :=
  { lister with view := lister.view.reordered order }

/-- What can be read of an object does not depend on the name that leads to it. -/
structure ReadsByObject (lister : Lister) : Prop where
  names : ∀ {first second stat other}, lister.HasObject first stat →
    lister.HasObject second other → stat.identity = other.identity →
    ((lister.provider.list first).run ()).value.toOption =
      ((lister.provider.list second).run ()).value.toOption
  value : ∀ {first second stat other} (name : String), lister.HasObject first stat →
    lister.HasObject second other → stat.identity = other.identity →
    ((lister.provider.get first name).run ()).value.toOption =
      ((lister.provider.get second name).run ()).value.toOption
  flags : ∀ {first second stat other}, lister.HasObject first stat →
    lister.HasObject second other → stat.identity = other.identity →
    (Flags.read lister.view first stat).toOption = (Flags.read lister.view second other).toOption

/-- What is kept of a child is the given content of its object. -/
def HasContents (lister : Lister) (contents : ObjectId → Content) : Prop :=
  ∀ child entry, lister.IsChild child → lister.selected child = .kept entry →
    entry.content = contents child.stat.identity

variable {lister : Lister}

/-! ## The order of names -/

/-- Another reading order permutes the names of a directory. -/
theorem readDirectory_reordered {order : ReadingOrder} {path : Path}
    {names : List (Except IoError Bytes)}
    (h : (lister.reordered order).view.readDirectory path = .ok names) :
    ∃ names', lister.view.readDirectory path = .ok names' ∧ names.Perm names' := by
  have hmap : (lister.view.readDirectory path).map (order.arrange path) = .ok names := h
  cases hread : lister.view.readDirectory path with
  | error error =>
    rw [hread] at hmap
    cases hmap
  | ok names' =>
    rw [hread] at hmap
    cases hmap
    exact ⟨names', rfl, order.perm path names'⟩

/-- Another reading order leads to no further directory. -/
theorem hasDirectory_of_reordered {order : ReadingOrder} {directory : Path}
    (h : (lister.reordered order).HasDirectory directory) : lister.HasDirectory directory := by
  induction h with
  | root => exact .root
  | child hparent hnames hname hstat hkind ih =>
    obtain ⟨names, hnames', hperm⟩ := readDirectory_reordered hnames
    exact .child ih hnames' (hperm.mem_iff.1 hname) hstat hkind

/-- Another reading order leads to no further object. -/
theorem hasObject_of_reordered {order : ReadingOrder} {location : Path} {stat : Stat}
    (h : (lister.reordered order).HasObject location stat) : lister.HasObject location stat := by
  obtain ⟨parent, names, name, hparent, hnames, hname, hlocation, hstat⟩ := h
  obtain ⟨names', hnames', hperm⟩ := readDirectory_reordered hnames
  exact ⟨parent, names', name, hasDirectory_of_reordered hparent, hnames', hperm.mem_iff.1 hname,
    hlocation, hstat⟩

/-- A tree stays a tree in every reading order. -/
theorem isTree_reordered (htree : lister.IsTree) (order : ReadingOrder) :
    (lister.reordered order).IsTree where
  finite := htree.finite.subset fun _ => hasDirectory_of_reordered
  isName hdirectory hnames hname := by
    obtain ⟨names', hnames', hperm⟩ := readDirectory_reordered hnames
    exact htree.isName (hasDirectory_of_reordered hdirectory) hnames' (hperm.mem_iff.1 hname)
  nodup hdirectory hnames := by
    obtain ⟨names', hnames', hperm⟩ := readDirectory_reordered hnames
    have hnodup := htree.nodup (hasDirectory_of_reordered hdirectory) hnames'
    exact (hperm.filterMap Except.toOption).nodup_iff.2 hnodup
  stat_eq hfirst hsecond :=
    htree.stat_eq (hasObject_of_reordered hfirst) (hasObject_of_reordered hsecond)

/-- Opening in another reading order inspects the same names, permuted. -/
theorem opened_reordered (order : ReadingOrder) (directory : Path) :
    (lister.reordered order).opened directory =
      match lister.view.readDirectory (lister.directory directory) with
      | .error error => .error (lister.openError directory error)
      | .ok names => .ok
          (((order.arrange (lister.directory directory) names).filterMap
            (lister.found? directory)).mergeSort fun a b =>
              (Order.compareEntries a.entry b.entry).isLE,
          (order.arrange (lister.directory directory) names).filterMap
            (lister.lost? directory)) := by
  have hread : (lister.reordered order).view.readDirectory
      ((lister.reordered order).directory directory) =
        (lister.view.readDirectory (lister.directory directory)).map
          (order.arrange (lister.directory directory)) := rfl
  rw [opened_eq, hread]
  cases lister.view.readDirectory (lister.directory directory) <;> rfl

/-- A directory that cannot be read cannot be read in any order. -/
theorem opened_reordered_error (order : ReadingOrder) {directory : Path} {error : WalkError}
    (h : lister.opened directory = .error error) :
    (lister.reordered order).opened directory = .error error := by
  rw [opened_eq] at h
  rw [opened_reordered]
  cases hnames : lister.view.readDirectory (lister.directory directory) with
  | error source =>
    rw [hnames] at h
    exact h
  | ok names =>
    rw [hnames] at h
    cases h

/-- The children of a directory are the same in every order, and so are the skipped paths. -/
theorem opened_reordered_ok (order : ReadingOrder) {directory : Path} {children : List Child}
    {skipped : List Path} (h : lister.opened directory = .ok (children, skipped)) :
    ∃ children' skipped', (lister.reordered order).opened directory = .ok (children', skipped') ∧
      children'.Perm children ∧ skipped'.Perm skipped := by
  rw [opened_eq] at h
  rw [opened_reordered]
  cases hnames : lister.view.readDirectory (lister.directory directory) with
  | error source =>
    rw [hnames] at h
    cases h
  | ok names =>
    rw [hnames] at h
    cases h
    have hperm := order.perm (lister.directory directory) names
    refine ⟨_, _, rfl, ?_, hperm.filterMap _⟩
    exact ((List.mergeSort_perm _ _).trans (hperm.filterMap _)).trans (List.mergeSort_perm _ _).symm

/-- Another reading order brings no further child. -/
theorem isChild_of_reordered {order : ReadingOrder} {child : Child}
    (h : (lister.reordered order).IsChild child) : lister.IsChild child := by
  obtain ⟨directory, children, skipped, hdirectory, hopened, hmem⟩ := h
  have hdirectory' := hasDirectory_of_reordered hdirectory
  cases hfound : lister.opened directory with
  | error error =>
    rw [opened_reordered_error order hfound] at hopened
    cases hopened
  | ok found =>
    obtain ⟨children', skipped'⟩ := found
    obtain ⟨children'', skipped'', hopened', hperm, -⟩ := opened_reordered_ok order hfound
    rw [hopened'] at hopened
    cases hopened
    exact ⟨directory, children', skipped', hdirectory', hfound, hperm.mem_iff.1 hmem⟩

/-- What is kept of a child is the same in every order. -/
theorem HasContents.reordered {contents : ObjectId → Content} (h : lister.HasContents contents)
    (order : ReadingOrder) : (lister.reordered order).HasContents contents :=
  fun child entry hchild hselected => h child entry (isChild_of_reordered hchild) hselected

/-- The marks of a directory are the same in every order. -/
theorem marks_reordered_perm (order : ReadingOrder) (depth : Nat) (directory : Path) :
    ((lister.reordered order).marks depth directory).Perm (lister.marks depth directory) := by
  induction depth generalizing directory with
  | zero => exact .refl _
  | succ depth ih =>
    have hchild : ∀ child : Child,
        ((lister.reordered order).childMarks ((lister.reordered order).marks depth) child).Perm
          (lister.childMarks (lister.marks depth) child) := by
      intro child
      -- A child is inspected and captured by its location, whatever came before it.
      have hselected : (lister.reordered order).selected child = lister.selected child := rfl
      unfold childMarks
      rw [hselected]
      split
      · exact .refl _
      · exact .refl _
      · refine .cons _ (.cons _ ?_)
        split
        · exact ih _
        · exact .refl _
    cases hopened : lister.opened directory with
    | error error =>
      rw [marks, marks, opened_reordered_error order hopened, hopened]
    | ok found =>
      obtain ⟨children, skipped⟩ := found
      obtain ⟨children', skipped', hopened', hchildren, hskipped⟩ :=
        opened_reordered_ok order hopened
      rw [marks, marks, hopened, hopened']
      exact .cons _ ((hskipped.map _).append (hchildren.flatMap fun child _ => hchild child))

/-- Directories have the same account in every reading order. -/
theorem account_reordered (order : ReadingOrder) :
    (lister.reordered order).account = lister.account := by
  funext depth directory
  exact Multiset.coe_eq_coe.2 ((marks_reordered_perm order depth directory).map _)

/-! ## The names of an object -/

theorem toOption_eq_none_iff {ε α : Type} {answer : Except ε α} :
    answer.toOption = none ↔ ∃ error, answer = .error error := by
  cases answer with
  | error error => exact ⟨fun _ => ⟨error, rfl⟩, fun _ => rfl⟩
  | ok value =>
    constructor
    · intro h
      cases h
    · rintro ⟨error, h⟩
      cases h

theorem eq_ok_of_toOption_eq_some {ε α : Type} {answer : Except ε α} {value : α}
    (h : answer.toOption = some value) : answer = .ok value := by
  cases answer with
  | error error => cases h
  | ok found => exact congrArg Except.ok (Option.some.inj h)

/-- Locations with the same attributes are captured alike. -/
theorem attributesAt_congr {first second : Path}
    (hnames : ((lister.provider.list first).run ()).value.toOption =
      ((lister.provider.list second).run ()).value.toOption)
    (hvalue : ∀ name, ((lister.provider.get first name).run ()).value.toOption =
      ((lister.provider.get second name).run ()).value.toOption) (kind : FileKind) :
    lister.attributesAt kind first = lister.attributesAt kind second := by
  unfold attributesAt
  split
  · rfl
  · cases hfirst : ((lister.provider.list first).run ()).value with
    | error error =>
      rw [hfirst] at hnames
      obtain ⟨error', hsecond⟩ := toOption_eq_none_iff.1 hnames.symm
      rw [hsecond]
    | ok names =>
      rw [hfirst] at hnames
      rw [eq_ok_of_toOption_eq_some hnames.symm]
      have hread : lister.attributeAt? first = lister.attributeAt? second := by
        funext name
        rw [attributeAt?, attributeAt?, hvalue]
      dsimp only
      rw [value_readListed, value_readListed, hread]

theorem flagsAt_eq_join (location : Path) (stat : Stat) :
    lister.flagsAt location stat = (Flags.read lister.view location stat).toOption.join := by
  unfold flagsAt
  cases Flags.read lister.view location stat <;> rfl

/-- What is kept of an object is determined by its identity. -/
theorem content_eq (htree : lister.IsTree) (hreads : lister.ReadsByObject) {child other : Child}
    {entry entry' : Entry} (hchild : lister.IsChild child) (hother : lister.IsChild other)
    (hkept : lister.selected child = .kept entry) (hkept' : lister.selected other = .kept entry')
    (hidentity : child.stat.identity = other.stat.identity) : entry.content = entry'.content := by
  obtain ⟨link, -, rfl⟩ := exists_of_selected_eq_kept hchild hkept
  obtain ⟨link', -, rfl⟩ := exists_of_selected_eq_kept hother hkept'
  -- Size and kind come from the inspection, the rest from what is read at either location.
  have hstat := htree.stat_eq hchild.hasObject hother.hasObject hidentity
  have hsize : child.entry.size = other.entry.size := by
    rw [hchild.entry_eq, hother.entry_eq, hstat]
    rfl
  have hkind : child.entry.kind = other.entry.kind := by
    rw [hchild.entry_eq, hother.entry_eq, hstat]
    rfl
  have hattributes := attributesAt_congr
    (hreads.names hchild.hasObject hother.hasObject hidentity)
    (fun name => hreads.value name hchild.hasObject hother.hasObject hidentity) child.entry.kind
  have hflags : lister.flagsAt child.location child.stat =
      lister.flagsAt other.location other.stat := by
    rw [flagsAt_eq_join, flagsAt_eq_join, hreads.flags hchild.hasObject hother.hasObject hidentity]
  rw [Entry.content, Entry.content, Content.mk.injEq]
  refine ⟨hsize, ?_, ?_⟩
  · rw [filled, filled, hattributes, hkind]
  · rw [filled, filled, hflags]

/-- Where metadata is a matter of the object, every object has one content. -/
theorem exists_hasContents (htree : lister.IsTree) (hreads : lister.ReadsByObject) :
    ∃ contents, lister.HasContents contents := by
  have hall : ∀ identity : ObjectId, ∃ content : Content, ∀ child entry, lister.IsChild child →
      lister.selected child = .kept entry → child.stat.identity = identity →
      entry.content = content := by
    intro identity
    by_cases hsome : ∃ child entry, lister.IsChild child ∧ lister.selected child = .kept entry ∧
        child.stat.identity = identity
    · obtain ⟨child, entry, hchild, hkept, hidentity⟩ := hsome
      refine ⟨entry.content, fun other entry' hother hkept' hidentity' => ?_⟩
      exact content_eq htree hreads hother hchild hkept' hkept (hidentity'.trans hidentity.symm)
    · -- Any content fits an object of which no name is kept.
      refine ⟨.none, fun child entry hchild hkept hidentity => ?_⟩
      exact absurd ⟨child, entry, hchild, hkept, hidentity⟩ hsome
  choose contents hcontents using hall
  exact ⟨contents, fun child entry hchild hkept => hcontents _ child entry hchild hkept rfl⟩

end Lister

end TreeManifest
