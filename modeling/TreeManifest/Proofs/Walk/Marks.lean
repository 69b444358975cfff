import Mathlib.Algebra.BigOperators.Group.Multiset.Basic
import Mathlib.Algebra.Order.Group.Multiset
import Mathlib.Data.Set.Finite.Lattice
import TreeManifest.Proofs.Hardlink.Settle
import TreeManifest.Proofs.Walk.Tree

/-!
# What a tree gives

Every object of a tree leaves marks in the result of a walk: an entry, a failure, a skipped path, or
a counter that goes up by one. The marks of a directory are found by listing it and then, one after
the other, its subdirectories.

## Main definitions

- `Walk.Mark`: what a walk leaves behind, one piece at a time.
- `Lister.marks`: the marks of a directory down to a depth.
- `Walk.Mark.place?`: the steps that lead to the object of an entry or of a failure.
- `Lister.GivesPlaces`: places of marks that follow the tree.
- `Lister.Locates`: marks of directories that have their places there or below.
- `Lister.Accounts`: a measure of directories that is the sum of what listing finds.

## Main statements

- `Lister.nodup_places_of_hasLabels`: in a tree no two marks have one place.
- `Lister.nodup_places`: no two entries and no two failures of a tree have one place.
- `Lister.HasDirectory.induction_kept`: induction from the leaves of a tree to its root.
- `Lister.accounts_of_bound`: from some depth on, the marks of a finite tree account for it.
-/

namespace TreeManifest

namespace Walk

/-- A piece of the result of a walk. -/
inductive Mark where
  | captured (entry : Entry)
  | failed (error : WalkError)
  | skipped (path : Path)
  | excluded
  | emitted
  | listed

namespace Mark

def outline : Mark → Mark
  | .captured entry => .captured (Hardlink.outline entry)
  | mark => mark

/-- The place of an entry or of a failure, and whether it is that of a failure. -/
def place? (root : Path) : Mark → Option (Bool × List Path.Step)
  | .captured entry =>
    some (false, Path.steps root ++ (Path.components entry.path).map .name)
  | .failed error => some (true, Path.steps error.path)
  | _ => none

theorem place?_outline (root : Path) (mark : Mark) :
    mark.outline.place? root = mark.place? root := by
  cases mark with
  | captured entry =>
    show some (false, _ ++ (Path.components (Hardlink.outline entry).path).map _) = _
    rw [Hardlink.path_outline]
    rfl
  | _ => rfl

end Mark

end Walk

namespace Lister

open TreeManifest.Walk (Mark)

/-- The marks of a child, given those of the directories below. -/
def childMarks (lister : Lister) (below : Path → List Mark) (child : Child) : List Mark :=
  match lister.selected child with
  | .skipped => [.skipped child.entry.path]
  | .excluded => [.excluded]
  | .kept entry =>
    .captured (lister.classify {} entry child.stat.linkCount).1 :: .emitted ::
      if entry.isDirectory then below entry.path else []

/-- The marks of a directory down to a depth. -/
def marks (lister : Lister) : Nat → Path → List Mark
  | 0, _ => []
  | depth + 1, directory =>
    match lister.opened directory with
    | .error error => [.failed error]
    | .ok (children, skipped) =>
      .listed :: (skipped.map .skipped ++ children.flatMap (lister.childMarks (lister.marks depth)))

variable {lister : Lister}

/-! ## Places -/

/-- The steps that lead to an object of the tree. -/
def stepsTo (lister : Lister) (relative : Path) : List Path.Step :=
  Path.steps lister.root ++ (Path.components relative).map .name

/-- A listed directory is found where the steps of its path lead from the root. -/
theorem steps_directory (htree : lister.IsTree) {directory : Path}
    (h : lister.HasDirectory directory) :
    Path.steps (lister.directory directory) = lister.stepsTo directory := by
  obtain ⟨names, hnames, rfl⟩ := h.exists_names htree
  by_cases hne : names = []
  · subst hne
    show Path.steps lister.root = Path.steps lister.root ++ []
    rw [List.append_nil]
  · rw [directory_ofNames lister hnames hne, Path.steps_join_ofNames _ hnames hne, stepsTo,
      Path.components_ofNames hnames]

theorem stepsTo_child {name : Bytes} (parent : Path) (h : Path.IsLabel name) :
    lister.stepsTo (Path.child parent name) = lister.stepsTo parent ++ [.name name] := by
  rw [stepsTo, Path.components_child _ h, List.map_append, ← List.append_assoc]
  rfl

/-- A role leaves alone whatever neither the role itself nor the loss of a content concerns. -/
theorem classify_keeps {α : Type} {field : Entry → α}
    (hrole : ∀ entry role, field { entry with role := role } = field entry)
    (hdemote : ∀ entry path, field (Hardlink.demote path entry) = field entry)
    (tracker : Hardlink.Tracker) (entry : Entry) (linkCount : UInt64) :
    field (lister.classify tracker entry linkCount).1 = field entry := by
  rw [classify_eq]
  split
  · rfl
  · split
    · exact hrole entry .canonical
    · exact hdemote entry _

theorem path_classify (tracker : Hardlink.Tracker) (entry : Entry) (linkCount : UInt64) :
    (lister.classify tracker entry linkCount).1.path = entry.path :=
  classify_keeps (fun _ _ => rfl) (fun _ _ => rfl) tracker entry linkCount

theorem mode_classify (tracker : Hardlink.Tracker) (entry : Entry) (linkCount : UInt64) :
    (lister.classify tracker entry linkCount).1.mode = entry.mode :=
  classify_keeps (fun _ _ => rfl) (fun _ _ => rfl) tracker entry linkCount

theorem identity_classify (tracker : Hardlink.Tracker) (entry : Entry) (linkCount : UInt64) :
    (lister.classify tracker entry linkCount).1.identity = entry.identity :=
  classify_keeps (fun _ _ => rfl) (fun _ _ => rfl) tracker entry linkCount

theorem isDirectory_classify (tracker : Hardlink.Tracker) (entry : Entry) (linkCount : UInt64) :
    (lister.classify tracker entry linkCount).1.isDirectory = entry.isDirectory :=
  classify_keeps (fun _ _ => rfl) (fun _ _ => rfl) tracker entry linkCount

theorem path_openError (relative : Path) (error : IoError) :
    (lister.openError relative error).path = lister.directory relative := by
  unfold openError
  split <;> rfl

/-- A failure is that of reading the names. -/
theorem exists_of_opened_eq_error {relative : Path} {error : WalkError}
    (h : lister.opened relative = .error error) :
    ∃ source, error = lister.openError relative source := by
  rw [opened_eq] at h
  split at h
  · next source _ => exact ⟨source, (Except.error.inj h).symm⟩
  · cases h

/-- Only the failure of the root is anything else than a directory that is passed over. -/
theorem eq_nil_of_opened_eq_error {relative : Path} {error : WalkError}
    (h : lister.opened relative = .error error)
    (hne : ∀ source, error ≠ .readDirectory (lister.directory relative) source) :
    relative = [] := by
  obtain ⟨source, rfl⟩ := exists_of_opened_eq_error h
  by_cases hempty : relative.isEmpty = true
  · exact List.isEmpty_iff.1 hempty
  · exact absurd (if_neg hempty) (hne source)

/-- The path of a child ends in its name. -/
theorem exists_label (htree : lister.HasLabels) {directory : Path} {children : List Child}
    {skipped : List Path} {child : Child} (hdirectory : lister.HasDirectory directory)
    (hopened : lister.opened directory = .ok (children, skipped)) (hchild : child ∈ children) :
    ∃ name, Path.IsLabel name ∧ child.entry.path = Path.child directory name := by
  obtain ⟨names, name, stat, hnames, hname, -, rfl⟩ := exists_of_mem_opened hopened hchild
  exact ⟨name, htree.isLabel hdirectory hnames hname, rfl⟩

/-- Places that follow the tree: an entry has the place of its path, a failure that of its directory
or none, and nothing else has a place. -/
structure GivesPlaces (lister : Lister) (place? : Mark → Option (Bool × List Path.Step)) : Prop where
  captured : ∀ entry, place? (.captured entry) = some (false, lister.stepsTo entry.path)
  failed : ∀ {directory error isFailure place}, lister.HasDirectory directory →
    lister.opened directory = .error error → place? (.failed error) = some (isFailure, place) →
    isFailure = true ∧ place = lister.stepsTo directory
  skipped : ∀ path, place? (.skipped path) = none
  excluded : place? .excluded = none
  emitted : place? .emitted = none
  listed : place? .listed = none

/-- Where names are proper, the places of failed directories follow the tree too. -/
theorem givesPlaces_place? (htree : lister.IsTree) :
    lister.GivesPlaces (·.place? lister.root) where
  captured _ := rfl
  failed hdirectory hopened hplace := by
    obtain ⟨source, rfl⟩ := exists_of_opened_eq_error hopened
    rw [Mark.place?, path_openError, steps_directory htree hdirectory] at hplace
    cases hplace
    exact ⟨rfl, rfl⟩
  skipped _ := rfl
  excluded := rfl
  emitted := rfl
  listed := rfl

variable {place? : Mark → Option (Bool × List Path.Step)}

/-- Whatever a directory gives has its place at the directory or below it, and below it when it is
an entry. -/
def Locates (lister : Lister) (place? : Mark → Option (Bool × List Path.Step))
    (below : Path → List Mark) : Prop :=
  ∀ path, lister.HasDirectory path → ∀ mark ∈ below path, ∀ isFailure place,
    place? mark = some (isFailure, place) →
    ∃ rest, place = lister.stepsTo path ++ rest ∧ (isFailure = false → rest ≠ [])

/-- Whatever a child gives has its place at the child or below it. -/
theorem exists_place_of_mem_childMarks (hplaces : lister.GivesPlaces place?)
    {below : Path → List Mark} (hbelow : lister.Locates place? below) {child : Child}
    (hchild : lister.IsChild child) {mark : Mark} (hmark : mark ∈ lister.childMarks below child)
    {isFailure : Bool} {place : List Path.Step}
    (hplace : place? mark = some (isFailure, place)) :
    ∃ rest, place = lister.stepsTo child.entry.path ++ rest := by
  unfold childMarks at hmark
  split at hmark
  · rw [List.mem_singleton.1 hmark, hplaces.skipped] at hplace
    cases hplace
  · rw [List.mem_singleton.1 hmark, hplaces.excluded] at hplace
    cases hplace
  · next entry hselected =>
    obtain ⟨link, -, rfl⟩ := exists_of_selected_eq_kept hchild hselected
    rcases List.mem_cons.1 hmark with rfl | hmark
    · rw [hplaces.captured, path_classify] at hplace
      cases hplace
      exact ⟨[], (List.append_nil _).symm⟩
    · rcases List.mem_cons.1 hmark with rfl | hmark
      · rw [hplaces.emitted] at hplace
        cases hplace
      · split at hmark
        · next hdirectory =>
          have hpath := hasDirectory_of_selected_eq_kept hchild hselected hdirectory
          obtain ⟨rest, hrest, -⟩ := hbelow _ hpath mark hmark isFailure place hplace
          exact ⟨rest, hrest⟩
        · exact absurd hmark List.not_mem_nil

/-- The marks of a directory have their places there or below. -/
theorem locates_marks (htree : lister.HasLabels) (hplaces : lister.GivesPlaces place?)
    (depth : Nat) : lister.Locates place? (lister.marks depth) := by
  induction depth with
  | zero => exact fun _ _ _ hmark => absurd hmark List.not_mem_nil
  | succ depth ih =>
    intro directory hdirectory mark hmark isFailure place hplace
    unfold marks at hmark
    split at hmark
    · next error hopened =>
      -- A failure lies at its directory, every other mark below it.
      rw [List.mem_singleton.1 hmark] at hplace
      obtain ⟨rfl, rfl⟩ := hplaces.failed hdirectory hopened hplace
      exact ⟨[], (List.append_nil _).symm, fun h => by cases h⟩
    · next children skipped hopened =>
      rcases List.mem_cons.1 hmark with rfl | hmark
      · rw [hplaces.listed] at hplace
        cases hplace
      rcases List.mem_append.1 hmark with hmark | hmark
      · obtain ⟨path, -, rfl⟩ := List.mem_map.1 hmark
        rw [hplaces.skipped] at hplace
        cases hplace
      · obtain ⟨child, hmem, hmark⟩ := List.mem_flatMap.1 hmark
        have hchild : lister.IsChild child :=
          ⟨directory, children, skipped, hdirectory, hopened, hmem⟩
        obtain ⟨rest, rfl⟩ := exists_place_of_mem_childMarks hplaces ih hchild hmark hplace
        obtain ⟨name, hname, hpath⟩ := exists_label htree hdirectory hopened hmem
        refine ⟨.name name :: rest, ?_, fun _ => List.cons_ne_nil _ _⟩
        rw [hpath, stepsTo_child _ hname, List.append_assoc]
        rfl

/-- No name of a directory leads to two children. -/
theorem pairwise_path_ne (htree : lister.HasLabels) {directory : Path} {children : List Child}
    {skipped : List Path} (hdirectory : lister.HasDirectory directory)
    (hopened : lister.opened directory = .ok (children, skipped)) :
    children.Pairwise fun a b => lister.stepsTo a.entry.path ≠ lister.stepsTo b.entry.path := by
  rw [opened_eq] at hopened
  split at hopened
  · cases hopened
  · next names hnames =>
    cases hopened
    -- The relation is symmetric, so it may be shown in the order in which the names were read.
    refine (List.mergeSort_perm _ _).symm.pairwise ?_ fun h => h.symm
    have hnodup := htree.nodup hdirectory hnames
    rw [List.Nodup, List.pairwise_filterMap] at hnodup
    rw [List.pairwise_filterMap]
    refine hnodup.imp_of_mem ?_
    intro first second hfirst hsecond hne a ha b hb heq
    obtain ⟨name, stat, rfl, -, rfl⟩ := exists_of_found?_eq_some ha
    obtain ⟨other, stat', rfl, -, rfl⟩ := exists_of_found?_eq_some hb
    refine hne name rfl other rfl ?_
    have hname := htree.isLabel hdirectory hnames hfirst
    have hother := htree.isLabel hdirectory hnames hsecond
    have hsteps : lister.stepsTo directory ++ [.name name] =
        lister.stepsTo directory ++ [.name other] := by
      rw [← stepsTo_child _ hname, ← stepsTo_child _ hother]
      exact heq
    simpa using hsteps

/-- If the marks below directories have places of their own, so have those of a child. -/
theorem nodup_places_childMarks (hplaces : lister.GivesPlaces place?) {below : Path → List Mark}
    (hbelow : lister.Locates place? below)
    (hnodup : ∀ path, lister.HasDirectory path → ((below path).filterMap place?).Nodup)
    {child : Child} (hchild : lister.IsChild child) :
    ((lister.childMarks below child).filterMap place?).Nodup := by
  unfold childMarks
  split
  · rw [List.filterMap_cons_none (hplaces.skipped _)]
    exact List.nodup_nil
  · rw [List.filterMap_cons_none hplaces.excluded]
    exact List.nodup_nil
  · next entry hselected =>
    have hentry : place? (Mark.captured (lister.classify {} entry child.stat.linkCount).1) =
        some (false, lister.stepsTo entry.path) := by
      rw [hplaces.captured, path_classify]
    rw [List.filterMap_cons_some hentry, List.filterMap_cons_none hplaces.emitted,
      List.nodup_cons]
    split
    · next hdirectory =>
      have hpath := hasDirectory_of_selected_eq_kept hchild hselected hdirectory
      refine ⟨fun hmem => ?_, hnodup _ hpath⟩
      -- What lies below takes a further step, so it is not at the place of the entry.
      obtain ⟨mark, hmark, hplace⟩ := List.mem_filterMap.1 hmem
      obtain ⟨rest, hrest, hne⟩ := hbelow _ hpath mark hmark _ _ hplace
      exact hne rfl (List.self_eq_append_right.1 hrest)
    · exact ⟨List.not_mem_nil, List.nodup_nil⟩

/-- No two marks of a directory have one place. -/
theorem nodup_places_of_hasLabels (htree : lister.HasLabels) (hplaces : lister.GivesPlaces place?)
    (depth : Nat) (directory : Path) (hdirectory : lister.HasDirectory directory) :
    ((lister.marks depth directory).filterMap place?).Nodup := by
  induction depth generalizing directory with
  | zero => exact List.nodup_nil
  | succ depth ih =>
    have hlocates := locates_marks htree hplaces depth
    unfold marks
    split
    · next error hopened =>
      cases hplace : place? (.failed error) with
      | none => simp [hplace]
      | some place => simp [hplace]
    · next children skipped hopened =>
      have hchildren : ∀ child ∈ children, lister.IsChild child := fun child hmem =>
        ⟨directory, children, skipped, hdirectory, hopened, hmem⟩
      have hskipped : (skipped.map Mark.skipped).filterMap place? = [] := by
        refine List.filterMap_eq_nil_iff.2 fun mark hmark => ?_
        obtain ⟨path, -, rfl⟩ := List.mem_map.1 hmark
        exact hplaces.skipped path
      rw [List.filterMap_cons_none hplaces.listed, List.filterMap_append, hskipped,
        List.nil_append, List.filterMap_flatMap, List.nodup_flatMap]
      refine ⟨fun child hmem =>
        nodup_places_childMarks hplaces hlocates ih (hchildren child hmem), ?_⟩
      refine (pairwise_path_ne htree hdirectory hopened).imp_of_mem ?_
      intro a b ha hb hne
      -- Equally many steps lead to two children, so one place cannot lie below both.
      obtain ⟨name, hname, hpath⟩ := exists_label htree hdirectory hopened ha
      obtain ⟨other, hother, hpath'⟩ := exists_label htree hdirectory hopened hb
      have hlength :
          (lister.stepsTo a.entry.path).length = (lister.stepsTo b.entry.path).length := by
        rw [hpath, hpath', stepsTo_child _ hname, stepsTo_child _ hother, List.length_append,
          List.length_append]
        rfl
      intro place hplace hplace'
      obtain ⟨mark, hmark, hfirst⟩ := List.mem_filterMap.1 hplace
      obtain ⟨mark', hmark', hsecond⟩ := List.mem_filterMap.1 hplace'
      obtain ⟨rest, hrest⟩ :=
        exists_place_of_mem_childMarks hplaces hlocates (hchildren a ha) hmark hfirst
      obtain ⟨rest', hrest'⟩ :=
        exists_place_of_mem_childMarks hplaces hlocates (hchildren b hb) hmark' hsecond
      exact hne (List.append_inj_left (hrest.symm.trans hrest') hlength)

/-- No two entries and no two failures of a directory have one place. -/
theorem nodup_places (htree : lister.IsTree) (depth : Nat) (directory : Path)
    (hdirectory : lister.HasDirectory directory) :
    ((lister.marks depth directory).filterMap (·.place? lister.root)).Nodup :=
  nodup_places_of_hasLabels htree.hasLabels (givesPlaces_place? htree) depth directory hdirectory

/-! ## Accounts -/

/-- What a child gives, given what the directories below give. -/
def childAccount (lister : Lister) (account : Path → Multiset Mark) (child : Child) :
    Multiset Mark :=
  match lister.selected child with
  | .skipped => {.skipped child.entry.path}
  | .excluded => {.excluded}
  | .kept entry =>
    {(Mark.captured (lister.classify {} entry child.stat.linkCount).1).outline} + {.emitted} +
      if entry.isDirectory then account entry.path else 0

/-- Directories give what listing them finds, and what their subdirectories give. -/
def Accounts (lister : Lister) (account : Path → Multiset Mark) : Prop :=
  ∀ directory, lister.HasDirectory directory → account directory =
    match lister.opened directory with
    | .error error => {.failed error}
    | .ok (children, skipped) =>
      {.listed} + (skipped.map Mark.skipped : Multiset Mark) +
        (children.map (lister.childAccount account)).sum

/-- Paths grow on the way down. -/
theorem length_lt_of_isChild (htree : lister.HasLabels) {directory : Path} {children : List Child}
    {skipped : List Path} {child : Child} (hdirectory : lister.HasDirectory directory)
    (hopened : lister.opened directory = .ok (children, skipped)) (hchild : child ∈ children) :
    directory.length < child.entry.path.length := by
  obtain ⟨name, hname, hpath⟩ := exists_label htree hdirectory hopened hchild
  have hpositive : 0 < name.length := List.length_pos_iff.2 hname.ne_nil
  rw [hpath, Path.child]
  split
  · next hempty =>
    rw [List.isEmpty_iff.1 hempty]
    exact hpositive
  · rw [List.length_append, List.length_cons]
    omega

/-- The paths of the directories of a tree have bounded lengths. -/
theorem HasLabels.exists_bound (htree : lister.HasLabels) :
    ∃ bound, ∀ directory, lister.HasDirectory directory → directory.length ≤ bound := by
  obtain ⟨bound, hbound⟩ := (htree.finite.image List.length).bddAbove
  exact ⟨bound, fun directory hdirectory => hbound (Set.mem_image_of_mem _ hdirectory)⟩

/-- What a directory inherits from its kept subdirectories holds of all directories. -/
theorem HasDirectory.induction_kept (htree : lister.HasLabels) {motive : Path → Prop}
    (hstep : ∀ directory, lister.HasDirectory directory →
      (∀ children skipped child entry, lister.opened directory = .ok (children, skipped) →
        child ∈ children → lister.selected child = .kept entry → entry.isDirectory = true →
        motive entry.path) → motive directory)
    {directory : Path} (h : lister.HasDirectory directory) : motive directory := by
  obtain ⟨bound, hbound⟩ := htree.exists_bound
  -- Paths grow downwards and are bounded, so the induction is on the length that is left.
  generalize hleft : bound - directory.length = left
  induction left using Nat.strong_induction_on generalizing directory with
  | _ left ih =>
    refine hstep directory h fun children skipped child entry hopened hmem hkept hdirectory => ?_
    have hchild : lister.IsChild child := ⟨directory, children, skipped, h, hopened, hmem⟩
    have hlonger := length_lt_of_isChild htree h hopened hmem
    have hbelow := hasDirectory_of_selected_eq_kept hchild hkept hdirectory
    have hlength := hbound _ hbelow
    obtain ⟨link, -, rfl⟩ := exists_of_selected_eq_kept hchild hkept
    refine ih _ ?_ hbelow rfl
    change bound - child.entry.path.length < left
    change child.entry.path.length ≤ bound at hlength
    omega

/-- Children give the same marks when their directories do. -/
theorem childMarks_congr {below below' : Path → List Mark} {child : Child}
    (hchild : lister.IsChild child)
    (h : lister.HasDirectory child.entry.path → below child.entry.path = below' child.entry.path) :
    lister.childMarks below child = lister.childMarks below' child := by
  unfold childMarks
  split
  · rfl
  · rfl
  · next entry hselected =>
    split
    · next hdirectory =>
      have hpath := hasDirectory_of_selected_eq_kept hchild hselected hdirectory
      obtain ⟨link, -, rfl⟩ := exists_of_selected_eq_kept hchild hselected
      exact congrArg (fun marks => _ :: _ :: marks) (h hpath)
    · rfl

/-- Depths beyond the longest path make no difference. -/
theorem marks_eq_of_lt (htree : lister.HasLabels) {bound : Nat}
    (hbound : ∀ directory, lister.HasDirectory directory → directory.length ≤ bound)
    {depth depth' : Nat} {directory : Path} (hdirectory : lister.HasDirectory directory)
    (h : bound < directory.length + depth) (h' : bound < directory.length + depth') :
    lister.marks depth directory = lister.marks depth' directory := by
  have hlength := hbound directory hdirectory
  -- A child is deeper by one level and its path is longer, so the bound is passed for it too.
  induction depth generalizing depth' directory with
  | zero => omega
  | succ depth ih =>
    cases depth' with
    | zero => omega
    | succ depth' =>
      unfold marks
      split
      · rfl
      · next children skipped hopened =>
        have hchildren : children.flatMap (lister.childMarks (lister.marks depth)) =
            children.flatMap (lister.childMarks (lister.marks depth')) := by
          refine List.flatMap_congr fun child hmem => ?_
          have hlonger := length_lt_of_isChild htree hdirectory hopened hmem
          refine childMarks_congr ⟨directory, children, skipped, hdirectory, hopened, hmem⟩ ?_
          intro hpath
          exact ih hpath (by omega) (by omega) (hbound _ hpath)
        rw [hchildren]

def account (lister : Lister) (depth : Nat) (directory : Path) : Multiset Mark :=
  ((lister.marks depth directory).map Mark.outline : List Mark)

/-- The marks of a child make up its account. -/
theorem coe_map_childMarks (depth : Nat) (child : Child) :
    (((lister.childMarks (lister.marks depth) child).map Mark.outline : List Mark) :
      Multiset Mark) =
      lister.childAccount (lister.account depth) child := by
  unfold childMarks childAccount account
  split
  · rfl
  · rfl
  · rw [List.map_cons, List.map_cons, ← Multiset.cons_coe, ← Multiset.cons_coe,
      ← Multiset.singleton_add, ← Multiset.singleton_add, add_assoc]
    split <;> rfl

/-- Marks taken together are the sum of those of each part. -/
theorem coe_flatMap {α : Type} (list : List α) (find : α → List Mark) :
    ((list.flatMap find : List Mark) : Multiset Mark) =
      (list.map fun a => (find a : Multiset Mark)).sum := by
  induction list with
  | nil => rfl
  | cons a list ih =>
    rw [List.flatMap_cons, List.map_cons, List.sum_cons, ← ih]
    rfl

/-- Beyond the longest path of a directory, the marks of a tree account for it. -/
theorem accounts_of_bound (htree : lister.HasLabels) {bound : Nat}
    (hbound : ∀ directory, lister.HasDirectory directory → directory.length ≤ bound) :
    lister.Accounts (lister.account (bound + 1)) := by
  intro directory hdirectory
  rw [account, marks]
  split
  · rfl
  · next children skipped hopened =>
    have hchildren : children.flatMap (lister.childMarks (lister.marks bound)) =
        children.flatMap (lister.childMarks (lister.marks (bound + 1))) := by
      refine List.flatMap_congr fun child hmem => ?_
      have hlonger := length_lt_of_isChild htree hdirectory hopened hmem
      refine childMarks_congr ⟨directory, children, skipped, hdirectory, hopened, hmem⟩ ?_
      intro hpath
      exact marks_eq_of_lt htree hbound hpath (by omega) (by omega)
    have hskipped : (skipped.map Mark.skipped).map Mark.outline = skipped.map Mark.skipped := by
      rw [List.map_map]
      rfl
    rw [hchildren, List.map_cons, List.map_append, hskipped, List.map_flatMap,
      ← Multiset.cons_coe, ← Multiset.coe_add, coe_flatMap, ← Multiset.singleton_add, add_assoc]
    simp only [coe_map_childMarks]
    rfl

/-! ## Where marks come from -/

/-- What a mark of a tree stands for. -/
inductive FromTree (lister : Lister) : Mark → Prop where
  | captured {child : Child} {entry : Entry} (hchild : lister.IsChild child)
      (hselected : lister.selected child = .kept entry) :
      FromTree lister (.captured (lister.classify {} entry child.stat.linkCount).1)
  | failed {directory : Path} {error : WalkError} (hdirectory : lister.HasDirectory directory)
      (hopened : lister.opened directory = .error error) : FromTree lister (.failed error)
  | skipped (path : Path) : FromTree lister (.skipped path)
  | excluded : FromTree lister .excluded
  | emitted : FromTree lister .emitted
  | listed : FromTree lister .listed

/-- The marks of a child come from the tree if those below it do. -/
theorem fromTree_of_mem_childMarks {below : Path → List Mark}
    (hbelow : ∀ path, lister.HasDirectory path → ∀ mark ∈ below path, lister.FromTree mark)
    {child : Child} (hchild : lister.IsChild child) {mark : Mark}
    (hmark : mark ∈ lister.childMarks below child) : lister.FromTree mark := by
  unfold childMarks at hmark
  split at hmark
  · rw [List.mem_singleton.1 hmark]
    exact .skipped _
  · rw [List.mem_singleton.1 hmark]
    exact .excluded
  · next entry hselected =>
    rcases List.mem_cons.1 hmark with rfl | hmark
    · exact .captured hchild hselected
    rcases List.mem_cons.1 hmark with rfl | hmark
    · exact .emitted
    split at hmark
    · next hdirectory =>
      exact hbelow _ (hasDirectory_of_selected_eq_kept hchild hselected hdirectory) mark hmark
    · exact absurd hmark List.not_mem_nil

/-- The marks of a directory come from the tree. -/
theorem fromTree_of_mem_marks (depth : Nat) (directory : Path)
    (hdirectory : lister.HasDirectory directory) (mark : Mark)
    (hmark : mark ∈ lister.marks depth directory) : lister.FromTree mark := by
  induction depth generalizing directory mark with
  | zero => exact absurd hmark List.not_mem_nil
  | succ depth ih =>
    unfold marks at hmark
    split at hmark
    · next error hopened =>
      rw [List.mem_singleton.1 hmark]
      exact .failed hdirectory hopened
    · next children skipped hopened =>
      rcases List.mem_cons.1 hmark with rfl | hmark
      · exact .listed
      rcases List.mem_append.1 hmark with hmark | hmark
      · obtain ⟨path, -, rfl⟩ := List.mem_map.1 hmark
        exact .skipped path
      · obtain ⟨child, hmem, hmark⟩ := List.mem_flatMap.1 hmark
        exact fromTree_of_mem_childMarks ih
          ⟨directory, children, skipped, hdirectory, hopened, hmem⟩ hmark

theorem nul_notMem_child {parent name : Bytes} (hparent : Bytes.nul ∉ parent)
    (hname : Bytes.nul ∉ name) : Bytes.nul ∉ Path.child parent name := by
  unfold Path.child
  split
  · exact hname
  · intro hmem
    rcases List.mem_append.1 hmem with hmem | hmem
    · exact hparent hmem
    rcases List.mem_cons.1 hmem with hslash | hmem
    · exact absurd hslash (by decide)
    · exact hname hmem

/-- Paths of listed directories have no zero byte. -/
theorem HasDirectory.nul_notMem (htree : lister.HasLabels) {directory : Path}
    (h : lister.HasDirectory directory) : Bytes.nul ∉ directory := by
  induction h with
  | root => exact List.not_mem_nil
  | child hparent hnames hname hstat hkind ih =>
    exact nul_notMem_child ih (htree.isLabel hparent hnames hname).nul_notMem

/-- The path of a captured entry is a path of the system. -/
theorem nul_notMem_of_captured (htree : lister.HasLabels) {entry : Entry}
    (h : lister.FromTree (.captured entry)) : Bytes.nul ∉ entry.path := by
  cases h with
  | @captured child entry hchild hselected =>
    obtain ⟨link, -, rfl⟩ := exists_of_selected_eq_kept hchild hselected
    obtain ⟨directory, children, skipped, hdirectory, hopened, hmem⟩ := hchild
    obtain ⟨name, hname, hpath⟩ := exists_label htree hdirectory hopened hmem
    rw [path_classify]
    show Bytes.nul ∉ child.entry.path
    rw [hpath]
    exact nul_notMem_child (hdirectory.nul_notMem htree) hname.nul_notMem

/-- Only the root can fail fatally. -/
theorem eq_of_isFatal {error other : WalkError} (h : lister.FromTree (.failed error))
    (h' : lister.FromTree (.failed other)) (hfatal : error.isFatal = true)
    (hfatal' : other.isFatal = true) : error = other := by
  have hroot : ∀ {directory : Path} {error : WalkError}, lister.opened directory = .error error →
      error.isFatal = true → directory = [] := by
    intro directory error hopened hfatal
    refine eq_nil_of_opened_eq_error hopened ?_
    rintro source rfl
    cases hfatal
  cases h with
  | failed hdirectory hopened =>
    cases h' with
    | failed hdirectory' hopened' =>
      have hempty := hroot hopened hfatal
      have hempty' := hroot hopened' hfatal'
      subst hempty hempty'
      exact Except.error.inj (hopened.symm.trans hopened')

end Lister

end TreeManifest
