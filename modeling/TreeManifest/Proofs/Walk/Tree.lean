import Mathlib
import TreeManifest.Proofs.Attributes.Captured
import TreeManifest.Proofs.Path.Names
import TreeManifest.Walk.Lister

/-!
# The tree of a lister

The directories of a tree are the root and whatever the names in a directory of the tree show to be
a directory. What a walk finds in a directory and what it makes of a child do not change while it
runs, so both are functions of the lister.

## Main definitions

- `Lister.HasDirectory`, `Lister.HasObject`: the directories and the objects of the tree.
- `Lister.HasLabels`: finitely many directories, whose names tell their objects apart.
- `Lister.IsTree`: such a tree with proper names, where an identity belongs to one object.
- `Lister.opened`, `Lister.selected`: what is found in a directory, and what becomes of a child.
- `Lister.IsChild`: the children of the directories of the tree.

## Main statements

- `Lister.opened_eq`: the children of a directory and the paths that could not be inspected.
- `Lister.exists_of_selected_eq_kept`: what capture leaves alone.

## Design notes

Mathlib is imported whole for the modules that build on this one. They run walks of small trees with
`cbv`, which needs equations of library functions from many parts of Mathlib.
-/

namespace TreeManifest

namespace Lister

/-- The directories of a tree, by their relative paths. -/
inductive HasDirectory (lister : Lister) : Path → Prop where
  | root : HasDirectory lister []
  | child {parent : Path} {names : List (Except IoError Bytes)} {name : Bytes} {stat : Stat}
      (hparent : HasDirectory lister parent)
      (hnames : lister.view.readDirectory (lister.directory parent) = .ok names)
      (hname : .ok name ∈ names)
      (hstat : lister.view.lstat (Path.join (lister.directory parent) name) = .ok stat)
      (hkind : stat.kind = .directory) : HasDirectory lister (Path.child parent name)

/-- The objects of a tree: where they are inspected, and what is known about them. -/
def HasObject (lister : Lister) (location : Path) (stat : Stat) : Prop :=
  ∃ parent names name, lister.HasDirectory parent ∧
    lister.view.readDirectory (lister.directory parent) = .ok names ∧ .ok name ∈ names ∧
    location = Path.join (lister.directory parent) name ∧ lister.view.lstat location = .ok stat

/-- A finite tree with names that tell its objects apart: paths can take them up, and no directory
holds one of them twice. -/
structure HasLabels (lister : Lister) : Prop where
  finite : {directory | lister.HasDirectory directory}.Finite
  isLabel : ∀ {directory names name}, lister.HasDirectory directory →
    lister.view.readDirectory (lister.directory directory) = .ok names → .ok name ∈ names →
    Path.IsLabel name
  nodup : ∀ {directory names}, lister.HasDirectory directory →
    lister.view.readDirectory (lister.directory directory) = .ok names →
    (names.filterMap Except.toOption).Nodup

/-- A finite tree. A directory holds proper names and none of them twice, and locations with one
identity are names of one object. -/
structure IsTree (lister : Lister) : Prop where
  finite : {directory | lister.HasDirectory directory}.Finite
  isName : ∀ {directory names name}, lister.HasDirectory directory →
    lister.view.readDirectory (lister.directory directory) = .ok names → .ok name ∈ names →
    Path.IsName name
  nodup : ∀ {directory names}, lister.HasDirectory directory →
    lister.view.readDirectory (lister.directory directory) = .ok names →
    (names.filterMap Except.toOption).Nodup
  stat_eq : ∀ {first second stat other}, lister.HasObject first stat →
    lister.HasObject second other → stat.identity = other.identity → stat = other

def opened (lister : Lister) (directory : Path) : Except WalkError (List Child × List Path) :=
  ((lister.openDirectory directory).run ()).value

def selected (lister : Lister) (child : Child) : Selection :=
  ((lister.select child).run ()).value

/-- The children of the directories of a tree. -/
def IsChild (lister : Lister) (child : Child) : Prop :=
  ∃ directory children skipped, lister.HasDirectory directory ∧
    lister.opened directory = .ok (children, skipped) ∧ child ∈ children

def found? (lister : Lister) (relative : Path) : Except IoError Bytes → Option Child
  | .error _ => none
  | .ok name =>
    match lister.view.lstat (Path.join (lister.directory relative) name) with
    | .ok stat => some ⟨.ofStat (Path.child relative name) stat,
        Path.join (lister.directory relative) name, stat⟩
    | .error _ => none

def lost? (lister : Lister) (relative : Path) : Except IoError Bytes → Option Path
  | .error _ => none
  | .ok name =>
    match lister.view.lstat (Path.join (lister.directory relative) name) with
    | .ok _ => none
    | .error _ => some (Path.child relative name)

variable {lister : Lister}

/-- In a tree every name is a label. -/
theorem IsTree.hasLabels (htree : lister.IsTree) : lister.HasLabels where
  finite := htree.finite
  isLabel hdirectory hnames hname := (htree.isName hdirectory hnames hname).isLabel
  nodup := htree.nodup

/-- Every name is either found or lost. -/
theorem value_inspectNames (relative : Path) (names : List (Except IoError Bytes)) :
    ((lister.inspectNames relative names).run ()).value =
      (names.filterMap (lister.found? relative), names.filterMap (lister.lost? relative)) := by
  induction names with
  | nil => rfl
  | cons name rest ih =>
    cases name with
    | error error =>
      simp only [inspectNames, Task.run_bind, ih]
      rfl
    | ok name =>
      cases hstat : lister.view.lstat (Path.join (lister.directory relative) name) with
      | ok stat =>
        have hfound : lister.found? relative (.ok name) =
            some ⟨.ofStat (Path.child relative name) stat,
              Path.join (lister.directory relative) name, stat⟩ := by
          simp only [found?, hstat]
        have hlost : lister.lost? relative (.ok name) = none := by
          simp only [lost?, hstat]
        rw [List.filterMap_cons_some hfound, List.filterMap_cons_none hlost]
        simp only [inspectNames, hstat, Task.run_bind, Task.run_pure, ih]
      | error error =>
        have hfound : lister.found? relative (.ok name) = none := by
          simp only [found?, hstat]
        have hlost : lister.lost? relative (.ok name) = some (Path.child relative name) := by
          simp only [lost?, hstat]
        rw [List.filterMap_cons_none hfound, List.filterMap_cons_some hlost]
        simp only [inspectNames, hstat, Task.run_bind, Task.run_pure, ih]

def openError (lister : Lister) (relative : Path) (error : IoError) : WalkError :=
  if relative.isEmpty then .root (lister.directory relative) error
  else .readDirectory (lister.directory relative) error

/-- Opening a directory reads, inspects and sorts its names. -/
theorem opened_eq (relative : Path) : lister.opened relative =
    match lister.view.readDirectory (lister.directory relative) with
    | .error error => .error (lister.openError relative error)
    | .ok names => .ok
        ((names.filterMap (lister.found? relative)).mergeSort fun a b =>
          (Order.compareEntries a.entry b.entry).isLE,
        names.filterMap (lister.lost? relative)) := by
  unfold opened openDirectory
  cases lister.view.readDirectory (lister.directory relative) with
  | error error => rfl
  | ok names =>
    simp only [Task.run_bind, Task.run_pure, value_inspectNames]

theorem exists_of_found?_eq_some {relative : Path} {name : Except IoError Bytes} {child : Child}
    (h : lister.found? relative name = some child) :
    ∃ bytes stat, name = .ok bytes ∧
      lister.view.lstat (Path.join (lister.directory relative) bytes) = .ok stat ∧
      child = ⟨.ofStat (Path.child relative bytes) stat,
        Path.join (lister.directory relative) bytes, stat⟩ := by
  unfold found? at h
  split at h
  · cases h
  · split at h
    · next stat hstat => exact ⟨_, stat, rfl, hstat, (Option.some.inj h).symm⟩
    · cases h

/-- A child stands for a name that could be inspected. -/
theorem exists_of_mem_opened {relative : Path} {children : List Child} {skipped : List Path}
    {child : Child} (h : lister.opened relative = .ok (children, skipped))
    (hchild : child ∈ children) :
    ∃ names name stat, lister.view.readDirectory (lister.directory relative) = .ok names ∧
      .ok name ∈ names ∧ lister.view.lstat (Path.join (lister.directory relative) name) = .ok stat ∧
      child = ⟨.ofStat (Path.child relative name) stat,
        Path.join (lister.directory relative) name, stat⟩ := by
  rw [opened_eq] at h
  split at h
  · cases h
  · next names hnames =>
    cases h
    obtain ⟨name, hname, hfound⟩ := List.mem_filterMap.1 (List.mem_mergeSort.1 hchild)
    obtain ⟨bytes, stat, rfl, hstat, rfl⟩ := exists_of_found?_eq_some hfound
    exact ⟨names, bytes, stat, hnames, hname, hstat, rfl⟩

/-! ## Captured children -/

/-- An attribute of an object by its name, none where it cannot be read. -/
def attributeAt? (lister : Lister) (location : Path) (name : String) : Option (String × Bytes) :=
  if AttributeName.IsVisible name then
    ((lister.provider.get location name).run ()).value.toOption.join.map (name, ·)
  else none

/-- The listed attributes are read one by one. -/
theorem value_readListed (location : Path) (names : List String) :
    ((readListed lister.provider location names).run ()).value =
      names.filterMap (lister.attributeAt? location) := by
  have hreads : lister.provider.Reads location
      (fun name => ((lister.provider.get location name).run ()).value.toOption)
      (fun _ => True) :=
    ⟨fun _ => trivial, fun _ _ => ⟨trivial, rfl⟩⟩
  exact (hreads.run_readListed trivial names).2

/-- The attributes of an object of the given kind, none where they cannot be read. -/
def attributesAt (lister : Lister) (kind : FileKind) (location : Path) : Option AttributeMap :=
  if !kind.carriesAttributes then none
  else
    match ((lister.provider.list location).run ()).value with
    | .error _ => none
    | .ok names => (some (AttributeMap.ofList
        ((readListed lister.provider location names).run ()).value)).filter fun map => !map.isEmpty

/-- The flag word of an object, none where it cannot be read. -/
def flagsAt (lister : Lister) (location : Path) (stat : Stat) : Option UInt32 :=
  match Flags.read lister.view location stat with
  | .error _ => none
  | .ok flags => flags

/-- The entry of a child with what can be captured, and with the given link. -/
def filled (lister : Lister) (child : Child) (link : Option Bytes) : Entry :=
  { child.entry with
    link
    attributes := if lister.options.readAttributes then
      lister.attributesAt child.entry.kind child.location else none
    flags := if lister.options.readAttributes then
      lister.flagsAt child.location child.stat else none }

/-- Capture fills in the attributes that were found. -/
theorem value_captureAttributes {entry : Entry} (location : Path) (h : entry.attributes = none) :
    ((captureAttributes lister.provider entry location).run ()).value.2 =
      { entry with attributes := lister.attributesAt entry.kind location } := by
  have hself : { entry with attributes := none } = entry := by
    rw [← h]
  unfold captureAttributes attributesAt
  split
  · exact hself.symm
  · rw [Task.run_bind]
    cases ((lister.provider.list location).run ()).value with
    | error error => exact hself.symm
    | ok names => rfl

/-- Capture fills in the flag word that was found. -/
theorem value_captureFlags {entry : Entry} (location : Path) (stat : Stat)
    (h : entry.flags = none) :
    ((Flags.capture lister.view entry location stat : Task Unit _).run ()).value.2 =
      { entry with flags := lister.flagsAt location stat } := by
  unfold Flags.capture flagsAt
  cases Flags.read lister.view location stat with
  | error error =>
    show entry = { entry with flags := none }
    rw [← h]
  | ok flags => rfl

theorem value_captureFlags_captureAttributes {entry : Entry} (location : Path) (stat : Stat)
    (hattributes : entry.attributes = none) (hflags : entry.flags = none) :
    ((Flags.capture lister.view
      ((captureAttributes lister.provider entry location).run ()).value.2 location stat :
        Task Unit _).run ()).value.2 =
      { entry with
        attributes := lister.attributesAt entry.kind location
        flags := lister.flagsAt location stat } := by
  rw [value_captureAttributes location hattributes]
  exact value_captureFlags location stat hflags

/-- The link of a child when it is captured: the target of a symlink, if it can be read. -/
def linkOf (lister : Lister) (child : Child) : Except IoError (Option Bytes) :=
  if child.entry.kind = .symlink then (lister.view.readLink child.location).map some
  else .ok child.entry.link

/-- A captured entry differs from the inspected one by its link and by what could be read. -/
theorem value_capture {child : Child} (hattributes : child.entry.attributes = none)
    (hflags : child.entry.flags = none) : ((lister.capture child).run ()).value =
      match lister.linkOf child with
      | .error _ => none
      | .ok link => some (lister.filled child link) := by
  have hlinked : (if child.entry.kind = .symlink then
      (lister.view.readLink child.location).map fun target =>
        { child.entry with link := some target }
      else .ok child.entry) =
        (lister.linkOf child).map fun link => { child.entry with link := link } := by
    unfold linkOf
    split
    · cases lister.view.readLink child.location <;> rfl
    · rfl
  unfold capture
  rw [hlinked]
  cases lister.linkOf child with
  | error error => rfl
  | ok link =>
    unfold filled
    dsimp only [Except.map]
    by_cases hreads : lister.options.readAttributes = true
    · have hcaptured := @value_captureFlags_captureAttributes lister
        { child.entry with link := link } child.location child.stat hattributes hflags
      rw [if_pos hreads, if_pos hreads, if_pos hreads, Task.run_bind]
      refine Eq.trans ?_ (congrArg some hcaptured)
      -- A failure to read the attributes is only reported.
      dsimp only
      split <;> rfl
    · rw [if_neg hreads, if_neg hreads, if_neg hreads, ← hattributes, ← hflags]
      rfl

/-- What becomes of a child, by what was captured of it. -/
theorem selected_eq (child : Child) : lister.selected child =
    match ((lister.capture child).run ()).value with
    | none => .skipped
    | some entry =>
      if lister.options.excludeByAttribute ∧
        ((Exclusion.isExcluded lister.provider child.location entry).run ()).value then .excluded
      else .kept entry := by
  unfold selected select
  rw [Task.run_bind]
  cases ((lister.capture child).run ()).value with
  | none => rfl
  | some entry =>
    dsimp only
    by_cases hexclude : lister.options.excludeByAttribute = true
    · simp only [hexclude, if_true, true_and, Task.run_bind]
      cases ((Exclusion.isExcluded lister.provider child.location entry).run ()).value <;> rfl
    · simp [hexclude]

/-- What is kept of a child has been captured. -/
theorem capture_of_selected_eq_kept {child : Child} {entry : Entry}
    (h : lister.selected child = .kept entry) :
    ((lister.capture child).run ()).value = some entry := by
  rw [selected_eq] at h
  split at h
  · cases h
  · next captured hcapture =>
    split at h
    · cases h
    · rw [hcapture, Selection.kept.inj h]

/-- What is kept of a child of the tree: the inspected entry, with what could be captured. -/
theorem exists_of_selected_eq_kept {child : Child} {entry : Entry} (hchild : lister.IsChild child)
    (h : lister.selected child = .kept entry) :
    ∃ link, lister.linkOf child = .ok link ∧ entry = lister.filled child link := by
  obtain ⟨directory, children, skipped, -, hopened, hmem⟩ := hchild
  obtain ⟨names, name, stat, -, -, -, rfl⟩ := exists_of_mem_opened hopened hmem
  have hcapture := capture_of_selected_eq_kept h
  rw [value_capture rfl rfl] at hcapture
  split at hcapture
  · cases hcapture
  · next link hlink => exact ⟨link, hlink, (Option.some.inj hcapture).symm⟩

/-! ## Roles -/

/-- The object whose names are tracked when an entry is captured, if they are. -/
def tracked? (lister : Lister) (entry : Entry) (linkCount : UInt64) : Option ObjectId :=
  if lister.options.trackHardlinks ∧ ¬ (entry.isDirectory = true ∨ linkCount ≤ 1) then
    entry.identity
  else none

/-- The first name of a tracked object is canonical, and every later one is a link to it. -/
theorem classify_eq (tracker : Hardlink.Tracker) (entry : Entry) (linkCount : UInt64) :
    lister.classify tracker entry linkCount =
      match lister.tracked? entry linkCount with
      | none => (entry, tracker)
      | some identity =>
        match tracker.path? identity with
        | none =>
          ({ entry with role := .canonical }, ⟨(identity, entry.path) :: tracker.seen⟩)
        | some path => (Hardlink.demote path entry, tracker) := by
  unfold classify tracked? Hardlink.Tracker.classify
  by_cases htrack : lister.options.trackHardlinks = true
  · by_cases hsingle : entry.isDirectory = true ∨ linkCount ≤ 1
    · simp [htrack, hsingle]
    · cases hidentity : entry.identity with
      | none => simp [htrack, hsingle]
      | some identity =>
        cases hpath : tracker.path? identity with
        | none => simp [htrack, hsingle, Hardlink.Tracker.observe, hpath]
        | some path =>
          simp [htrack, hsingle, hidentity, Hardlink.Tracker.observe, hpath, Hardlink.demote,
            Entry.clearAttributes]
  · simp [htrack]

/-! ## Places in the tree -/

/-- A child is an object of the tree. -/
theorem IsChild.hasObject {child : Child} (h : lister.IsChild child) :
    lister.HasObject child.location child.stat := by
  obtain ⟨directory, children, skipped, hdirectory, hopened, hmem⟩ := h
  obtain ⟨names, name, stat, hnames, hname, hstat, rfl⟩ := exists_of_mem_opened hopened hmem
  exact ⟨directory, names, name, hdirectory, hnames, hname, rfl, hstat⟩

theorem IsChild.entry_eq {child : Child} (h : lister.IsChild child) :
    child.entry = .ofStat child.entry.path child.stat := by
  obtain ⟨directory, children, skipped, -, hopened, hmem⟩ := h
  obtain ⟨names, name, stat, -, -, -, rfl⟩ := exists_of_mem_opened hopened hmem
  rfl

/-- A kept directory is a directory of the tree. -/
theorem hasDirectory_of_selected_eq_kept {child : Child} {entry : Entry}
    (hchild : lister.IsChild child) (h : lister.selected child = .kept entry)
    (hdirectory : entry.isDirectory = true) : lister.HasDirectory entry.path := by
  obtain ⟨link, -, rfl⟩ := exists_of_selected_eq_kept hchild h
  obtain ⟨parent, children, skipped, hparent, hopened, hmem⟩ := hchild
  obtain ⟨names, name, stat, hnames, hname, hstat, rfl⟩ := exists_of_mem_opened hopened hmem
  exact .child hparent hnames hname hstat (beq_iff_eq.1 hdirectory)

/-- The relative path of a directory is made of the names that lead to it. -/
theorem HasDirectory.exists_names (htree : lister.IsTree) {directory : Path}
    (h : lister.HasDirectory directory) :
    ∃ names, (∀ name ∈ names, Path.IsName name) ∧ directory = Path.ofNames names := by
  induction h with
  | root => exact ⟨[], fun _ hname => absurd hname List.not_mem_nil, rfl⟩
  | @child parent found name stat hparent hnames hname hstat hkind ih =>
    obtain ⟨names, hall, rfl⟩ := ih
    exact ⟨names ++ [name], Path.forall_isName_concat hall (htree.isName hparent hnames hname),
      (Path.ofNames_append_singleton names name).symm⟩

/-- A listed directory is located by joining its names to the root. -/
theorem directory_ofNames (lister : Lister) {names : List Bytes}
    (hnames : ∀ name ∈ names, Path.IsName name) (hne : names ≠ []) :
    lister.directory (Path.ofNames names) = Path.join lister.root (Path.ofNames names) := by
  have hpath : ¬ (Path.ofNames names).isEmpty = true := fun hempty =>
    hne ((Path.ofNames_eq_nil_iff hnames).1 (List.isEmpty_iff.1 hempty))
  exact if_neg hpath

end Lister

end TreeManifest
