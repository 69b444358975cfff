import Mathlib.Algebra.Ring.Int.Defs
import TreeManifest.Proofs.Walk.Marks

/-!
# What a walk captures

A walk begins at the root and goes on into every directory that it keeps. So the captured objects
are those that are kept among the children of these directories, and the account of a tree holds
exactly their entries.

## Main definitions

- `Lister.Visits`: the directories that a walk comes to.
- `Lister.Captures`: the children that it keeps there.
- `Lister.isMarked`: whether the exclusion marker is found on an object.
- `Lister.CanCapture`: what lets an object be kept, once a walk comes across it.

## Main statements

- `Lister.isMarked_eq_true_iff`: a marker is found if it can be read and is listed when it can be.
- `Lister.captured_mem_account_iff`: the account of a tree holds the entries of captured children.
- `Lister.sum_map_account`: weights that cancel within a directory cancel in the whole tree.
- `Lister.exists_names_of_captures`, `Lister.exists_captures`: captured children by their paths.
-/

namespace TreeManifest

namespace Lister

open TreeManifest.Walk (Mark)

/-- The directories that a walk comes to: the root, and what is kept as a directory in a directory
that it comes to. -/
inductive Visits (lister : Lister) : Path → Prop where
  | root : Visits lister []
  | child {directory : Path} {children : List Child} {skipped : List Path} {child : Child}
      {entry : Entry} (hvisits : Visits lister directory)
      (hopened : lister.opened directory = .ok (children, skipped)) (hchild : child ∈ children)
      (hkept : lister.selected child = .kept entry) (hdirectory : entry.isDirectory = true) :
      Visits lister entry.path

/-- The children that a walk keeps, with the entries that it makes of them. -/
def Captures (lister : Lister) (child : Child) (entry : Entry) : Prop :=
  ∃ directory children skipped, lister.Visits directory ∧
    lister.opened directory = .ok (children, skipped) ∧ child ∈ children ∧
    lister.selected child = .kept entry

/-- Whether the exclusion marker is found on an object: among its captured attributes where there
are any, and by reading it elsewhere. -/
def isMarked (lister : Lister) (kind : FileKind) (location : Path) : Bool :=
  match if lister.options.readAttributes then lister.attributesAt kind location else none with
  | some map => map.contains Exclusion.markerName
  | none =>
    match ((lister.provider.get location Exclusion.markerName).run ()).value with
    | .ok value => value.isSome
    | .error _ => false

/-- What lets the object of a path be kept: it can be inspected, its target can be read if it is a
symlink, and it is not left out. -/
def CanCapture (lister : Lister) (path : Path) : Prop :=
  ∃ stat, lister.view.lstat (Path.join lister.root path) = .ok stat ∧
    (stat.kind = .symlink →
      ∃ target, lister.view.readLink (Path.join lister.root path) = .ok target) ∧
    (lister.options.excludeByAttribute = true →
      lister.isMarked stat.kind (Path.join lister.root path) = false)

variable {lister : Lister}

/-! ## Markers -/

/-- An attribute is captured exactly if its name is visible and its value can be read. -/
theorem attributeAt?_eq_some_iff {location : Path} {name key : String} {value : Bytes} :
    lister.attributeAt? location name = some (key, value) ↔
      name = key ∧ AttributeName.IsVisible name ∧
        ((lister.provider.get location name).run ()).value = .ok (some value) := by
  unfold attributeAt?
  by_cases hvisible : AttributeName.IsVisible name
  · rcases ((lister.provider.get location name).run ()).value with _ | _ | _ <;>
      simp [hvisible, Except.toOption]
  · simp [hvisible]

/-- A marker is found if it can be read, provided that listing gives its name when it can be. -/
theorem isMarked_eq_true_iff {kind : FileKind} {location : Path}
    (hlisted : ∀ names value, ((lister.provider.list location).run ()).value = .ok names →
      ((lister.provider.get location Exclusion.markerName).run ()).value = .ok (some value) →
      Exclusion.markerName ∈ names) :
    lister.isMarked kind location = true ↔
      ∃ value, ((lister.provider.get location Exclusion.markerName).run ()).value =
        .ok (some value) := by
  unfold isMarked
  split
  · next map hmap =>
    -- There are captured attributes, so the names were listed and the values were read.
    obtain ⟨names, hnames, rfl⟩ : ∃ names,
        ((lister.provider.list location).run ()).value = .ok names ∧
        AttributeMap.ofList (names.filterMap (lister.attributeAt? location)) = map := by
      split at hmap
      · unfold attributesAt at hmap
        split at hmap
        · cases hmap
        · split at hmap
          · cases hmap
          · next names hnames =>
            obtain ⟨hread, -⟩ := Option.filter_eq_some_iff.1 hmap
            rw [value_readListed] at hread
            exact ⟨names, hnames, Option.some.inj hread⟩
      · cases hmap
    simp only [AttributeMap.contains_ofList, List.mem_filterMap, attributeAt?_eq_some_iff]
    constructor
    · rintro ⟨value, name, -, rfl, -, hvalue⟩
      exact ⟨value, hvalue⟩
    · rintro ⟨value, hvalue⟩
      exact ⟨value, _, hlisted names value hnames hvalue, rfl, by decide, hvalue⟩
  · rcases ((lister.provider.get location Exclusion.markerName).run ()).value with _ | _ | _ <;>
      simp

/-- Whether a child is left out depends on its kind and the marker at its location only. -/
theorem value_isExcluded (child : Child) (link : Option Bytes) :
    ((Exclusion.isExcluded lister.provider child.location
      (lister.filled child link)).run ()).value =
      lister.isMarked child.entry.kind child.location := by
  unfold Exclusion.isExcluded isMarked
  show ((match if lister.options.readAttributes then
      lister.attributesAt child.entry.kind child.location else none with
    | some map => pure (map.contains Exclusion.markerName)
    | none => _ : Task Unit Bool).run ()).value = _
  split
  · rfl
  · rw [Task.run_bind]
    cases ((lister.provider.get child.location Exclusion.markerName).run ()).value <;> rfl

/-- What becomes of a child of which only the inspection is known: it is skipped without its link,
and left out if it is marked. -/
theorem selected_eq_of_bare {child : Child} (hattributes : child.entry.attributes = none)
    (hflags : child.entry.flags = none) : lister.selected child =
      match lister.linkOf child with
      | .error _ => .skipped
      | .ok link =>
        if lister.options.excludeByAttribute ∧
          lister.isMarked child.entry.kind child.location then .excluded
        else .kept (lister.filled child link) := by
  rw [selected_eq, value_capture hattributes hflags]
  cases lister.linkOf child with
  | error error => rfl
  | ok link =>
    dsimp only
    rw [value_isExcluded]

/-- A child is kept exactly if its link can be read and no marker excludes it. -/
theorem selected_eq_kept_iff {child : Child} {entry : Entry} (hchild : lister.IsChild child) :
    lister.selected child = .kept entry ↔
      ∃ link, lister.linkOf child = .ok link ∧ entry = lister.filled child link ∧
        (lister.options.excludeByAttribute = true →
          lister.isMarked child.entry.kind child.location = false) := by
  have hbare : child.entry.attributes = none ∧ child.entry.flags = none := by
    rw [hchild.entry_eq]
    exact ⟨rfl, rfl⟩
  rw [selected_eq_of_bare hbare.1 hbare.2]
  cases lister.linkOf child with
  | error error => simp
  | ok link =>
    dsimp only
    split
    · next hmarked =>
      constructor
      · intro h
        cases h
      · rintro ⟨-, -, -, hfree⟩
        rw [hfree hmarked.1] at hmarked
        cases hmarked.2
    · next hfree =>
      constructor
      · intro h
        refine ⟨link, rfl, (Selection.kept.inj h).symm, fun hexclude => ?_⟩
        rw [hexclude, not_and, Bool.not_eq_true] at hfree
        exact hfree rfl
      · rintro ⟨other, hlink, rfl, -⟩
        rw [Except.ok.inj hlink]

/-! ## Places -/

/-- A name in a directory is found where the path of both leads. -/
theorem join_directory_ofNames (lister : Lister) {names : List Bytes} {name : Bytes}
    (hnames : ∀ name ∈ names, Path.IsName name) (hname : Path.IsName name) :
    Path.join (lister.directory (Path.ofNames names)) name =
      Path.join lister.root (Path.child (Path.ofNames names) name) := by
  by_cases hne : names = []
  · subst hne
    rfl
  · rw [directory_ofNames lister hnames hne, Path.join_join lister.root hnames hne hname]

/-- The location of a name in a listed directory is that of its path below the root. -/
theorem join_directory (htree : lister.IsTree) {directory name : Path}
    (hdirectory : lister.HasDirectory directory) (hname : Path.IsName name) :
    Path.join (lister.directory directory) name =
      Path.join lister.root (Path.child directory name) := by
  obtain ⟨names, hnames, rfl⟩ := hdirectory.exists_names htree
  exact lister.join_directory_ofNames hnames hname

/-- A child is inspected where the path of its entry leads. -/
theorem IsChild.location_eq (htree : lister.IsTree) {child : Child} (h : lister.IsChild child) :
    child.location = Path.join lister.root child.entry.path := by
  obtain ⟨directory, children, skipped, hdirectory, hopened, hmem⟩ := h
  obtain ⟨found, name, stat, hfound, hname, -, rfl⟩ := exists_of_mem_opened hopened hmem
  exact join_directory htree hdirectory (htree.isName hdirectory hfound hname)

/-- Only directories of the tree are visited. -/
theorem Visits.hasDirectory {directory : Path} (h : lister.Visits directory) :
    lister.HasDirectory directory := by
  induction h with
  | root => exact .root
  | child hvisits hopened hchild hkept hdirectory ih =>
    exact hasDirectory_of_selected_eq_kept ⟨_, _, _, ih, hopened, hchild⟩ hkept hdirectory

theorem Captures.isChild {child : Child} {entry : Entry} (h : lister.Captures child entry) :
    lister.IsChild child := by
  obtain ⟨directory, children, skipped, hvisits, hopened, hmem, -⟩ := h
  exact ⟨directory, children, skipped, hvisits.hasDirectory, hopened, hmem⟩

/-- The names that lead to a directory lead to directories, and all but the last were listed. -/
theorem Visits.exists_names (htree : lister.IsTree) {directory : Path}
    (h : lister.Visits directory) :
    ∃ names, (∀ name ∈ names, Path.IsName name) ∧ directory = Path.ofNames names ∧
      ∀ front, front <+: names → lister.Visits (Path.ofNames front) ∧
        (front ≠ names → ∃ found,
          lister.view.readDirectory (lister.directory (Path.ofNames front)) = .ok found) := by
  induction h with
  | root =>
    refine ⟨[], fun _ hname => absurd hname List.not_mem_nil, rfl, fun front hfront => ?_⟩
    rw [List.prefix_nil.1 hfront]
    exact ⟨.root, fun hne => absurd rfl hne⟩
  | @child directory children skipped child entry hvisits hopened hchild hkept hdirectory ih =>
    obtain ⟨names, hnames, rfl, hfront⟩ := ih
    have hpath := Visits.child hvisits hopened hchild hkept hdirectory
    obtain ⟨link, -, rfl⟩ :=
      exists_of_selected_eq_kept ⟨_, _, _, hvisits.hasDirectory, hopened, hchild⟩ hkept
    obtain ⟨found, name, stat, hfound, hname, hstat, rfl⟩ := exists_of_mem_opened hopened hchild
    have hproper := htree.isName hvisits.hasDirectory hfound hname
    have hsame : (lister.filled ⟨.ofStat (Path.child (Path.ofNames names) name) stat,
        Path.join (lister.directory (Path.ofNames names)) name, stat⟩ link).path =
        Path.ofNames (names ++ [name]) := (Path.ofNames_append_singleton names name).symm
    refine ⟨names ++ [name], Path.forall_isName_concat hnames hproper, hsame,
      fun front hbegins => ?_⟩
    rcases List.prefix_concat_iff.1 hbegins with rfl | hbegins
    · exact ⟨hsame ▸ hpath, fun hne => absurd rfl hne⟩
    · refine ⟨(hfront front hbegins).1, fun _ => ?_⟩
      by_cases hlast : front = names
      · exact ⟨found, hlast ▸ hfound⟩
      · exact (hfront front hbegins).2 hlast

/-- Every visited directory but the root was captured before. -/
theorem Visits.exists_captures {directory : Path} (h : lister.Visits directory)
    (hne : directory ≠ []) :
    ∃ child entry, lister.Captures child entry ∧ entry.path = directory ∧
      entry.isDirectory = true := by
  cases h with
  | root => exact absurd rfl hne
  | child hvisits hopened hchild hkept hdirectory =>
    exact ⟨_, _, ⟨_, _, _, hvisits, hopened, hchild, hkept⟩, rfl, hdirectory⟩

/-- A captured directory is visited. -/
theorem Captures.visits {child : Child} {entry : Entry} (h : lister.Captures child entry)
    (hdirectory : entry.isDirectory = true) : lister.Visits entry.path := by
  obtain ⟨directory, children, skipped, hvisits, hopened, hmem, hkept⟩ := h
  exact .child hvisits hopened hmem hkept hdirectory

/-- A captured entry is filled from its child, with the link that was read. -/
theorem Captures.exists_link {child : Child} {entry : Entry} (h : lister.Captures child entry) :
    ∃ link, lister.linkOf child = .ok link ∧ entry = lister.filled child link := by
  have hchild := h.isChild
  obtain ⟨-, -, -, -, -, -, hkept⟩ := h
  exact exists_of_selected_eq_kept hchild hkept

theorem IsChild.kind_eq {child : Child} (h : lister.IsChild child) :
    child.entry.kind = child.stat.kind := by
  rw [h.entry_eq]
  rfl

section

variable {child : Child} {entry : Entry}

theorem Captures.path_eq (h : lister.Captures child entry) : entry.path = child.entry.path := by
  obtain ⟨link, -, rfl⟩ := h.exists_link
  rfl

theorem Captures.kind_eq (h : lister.Captures child entry) : entry.kind = child.stat.kind := by
  rw [← h.isChild.kind_eq]
  obtain ⟨link, -, rfl⟩ := h.exists_link
  rfl

theorem Captures.role_eq_none (h : lister.Captures child entry) : entry.role = .none := by
  have hentry := h.isChild.entry_eq
  obtain ⟨link, -, rfl⟩ := h.exists_link
  exact congrArg Entry.role hentry

theorem Captures.identity_eq (h : lister.Captures child entry) :
    entry.identity = some child.stat.identity := by
  have hentry := h.isChild.entry_eq
  obtain ⟨link, -, rfl⟩ := h.exists_link
  exact congrArg Entry.identity hentry

/-- A captured child has the metadata found at the location of its entry. -/
theorem Captures.lstat_eq (htree : lister.IsTree) (h : lister.Captures child entry) :
    lister.view.lstat (Path.join lister.root entry.path) = .ok child.stat := by
  obtain ⟨-, -, -, -, -, -, -, hstat⟩ := h.isChild.hasObject
  rw [h.path_eq, ← h.isChild.location_eq htree, hstat]

/-- A captured symlink has the target that is read at its path. -/
theorem Captures.exists_target (htree : lister.IsTree) (h : lister.Captures child entry)
    (hsymlink : child.stat.kind = .symlink) :
    ∃ target, lister.view.readLink (Path.join lister.root entry.path) = .ok target ∧
      entry.link = some target := by
  obtain ⟨link, hlink, hentry⟩ := h.exists_link
  rw [linkOf, if_pos (h.isChild.kind_eq.trans hsymlink), h.isChild.location_eq htree,
    ← h.path_eq] at hlink
  cases hread : lister.view.readLink (Path.join lister.root entry.path) with
  | error error =>
    rw [hread] at hlink
    cases hlink
  | ok target =>
    rw [hread] at hlink
    rw [hentry]
    exact ⟨target, rfl, (Except.ok.inj hlink).symm⟩

/-- What is captured can be captured again at its path. -/
theorem Captures.canCapture (htree : lister.IsTree) (h : lister.Captures child entry) :
    lister.CanCapture entry.path := by
  refine ⟨child.stat, h.lstat_eq htree, fun hsymlink => ?_, fun hexclude => ?_⟩
  · obtain ⟨target, hread, -⟩ := h.exists_target htree hsymlink
    exact ⟨target, hread⟩
  · have hchild := h.isChild
    have hpath := h.path_eq
    obtain ⟨-, -, -, -, -, -, hkept⟩ := h
    obtain ⟨-, -, -, hfree⟩ := (selected_eq_kept_iff hchild).1 hkept
    rw [hpath, ← hchild.location_eq htree, ← hchild.kind_eq]
    exact hfree hexclude

end

/-- The path of a captured child: it is a name in a visited directory, and so are the names of all
directories above it. -/
theorem Captures.exists_names (htree : lister.IsTree) {child : Child} {entry : Entry}
    (h : lister.Captures child entry) :
    ∃ names name found, (∀ other ∈ names ++ [name], Path.IsName other) ∧
      entry.path = Path.ofNames (names ++ [name]) ∧
      lister.view.readDirectory (lister.directory (Path.ofNames names)) = .ok found ∧
      .ok name ∈ found ∧
      ∀ front, front <+: names → lister.Visits (Path.ofNames front) ∧ ∃ found,
        lister.view.readDirectory (lister.directory (Path.ofNames front)) = .ok found := by
  obtain ⟨link, -, rfl⟩ := h.exists_link
  obtain ⟨directory, children, skipped, hvisits, hopened, hmem, -⟩ := h
  obtain ⟨names, hnames, rfl, hfront⟩ := hvisits.exists_names htree
  obtain ⟨found, name, stat, hfound, hname, -, rfl⟩ := exists_of_mem_opened hopened hmem
  have hproper := htree.isName hvisits.hasDirectory hfound hname
  refine ⟨names, name, found, Path.forall_isName_concat hnames hproper,
    (Path.ofNames_append_singleton names name).symm, hfound, hname,
    fun front hbegins => ⟨(hfront front hbegins).1, ?_⟩⟩
  by_cases hlast : front = names
  · exact ⟨found, hlast ▸ hfound⟩
  · exact (hfront front hbegins).2 hlast

/-- A name in a visited directory is captured if it can be. -/
theorem Visits.exists_captures_child (htree : lister.IsTree) {directory : Path}
    (h : lister.Visits directory) {found : List (Except IoError Bytes)} {name : Bytes}
    (hfound : lister.view.readDirectory (lister.directory directory) = .ok found)
    (hname : .ok name ∈ found) (hcan : lister.CanCapture (Path.child directory name)) :
    ∃ child entry, lister.Captures child entry ∧ entry.path = Path.child directory name := by
  have hproper := htree.isName h.hasDirectory hfound hname
  obtain ⟨stat, hstat, hreads, hfree⟩ := hcan
  rw [← join_directory htree h.hasDirectory hproper] at hstat hreads hfree
  have hopened := @opened_eq lister directory
  rw [hfound] at hopened
  let child : Child :=
    ⟨.ofStat (Path.child directory name) stat, Path.join (lister.directory directory) name, stat⟩
  have hmem : child ∈ (found.filterMap (lister.found? directory)).mergeSort
      fun a b => (Order.compareEntries a.entry b.entry).isLE := by
    refine List.mem_mergeSort.2 (List.mem_filterMap.2 ⟨.ok name, hname, ?_⟩)
    simp only [found?, hstat, child]
  have hchild : lister.IsChild child := ⟨directory, _, _, h.hasDirectory, hopened, hmem⟩
  obtain ⟨link, hlink⟩ : ∃ link, lister.linkOf child = .ok link := by
    unfold linkOf
    split
    · next hsymlink =>
      obtain ⟨target, htarget⟩ := hreads (hchild.kind_eq.symm.trans hsymlink)
      exact ⟨some target, congrArg (Except.map some) htarget⟩
    · exact ⟨child.entry.link, rfl⟩
  have hkept := (selected_eq_kept_iff hchild).2 ⟨link, hlink, rfl, fun hexclude =>
    hchild.kind_eq ▸ hfree hexclude⟩
  exact ⟨child, lister.filled child link, ⟨directory, _, _, h, hopened, hmem, hkept⟩, rfl⟩

/-! ## Accounts -/

variable {account : Path → Multiset Mark}

/-- A mark of a sum of accounts is one of some account. -/
theorem mem_sum_map_iff {α : Type} {list : List α} {find : α → Multiset Mark} {mark : Mark} :
    mark ∈ (list.map find).sum ↔ ∃ a ∈ list, mark ∈ find a := by
  induction list with
  | nil => simp
  | cons a list ih => simp [ih]

/-- The account of a directory that can be listed: the directory itself, its skipped paths and the
accounts of its children. -/
theorem Accounts.eq_of_opened (h : lister.Accounts account) {directory : Path}
    {children : List Child} {skipped : List Path} (hdirectory : lister.HasDirectory directory)
    (hopened : lister.opened directory = .ok (children, skipped)) :
    account directory = {.listed} + (skipped.map Mark.skipped : Multiset Mark) +
      (children.map (lister.childAccount account)).sum := by
  rw [h directory hdirectory, hopened]

/-- The account of a kept child: its entry, which is sent, and what lies below it. -/
theorem childAccount_eq_of_kept {child : Child} {entry : Entry}
    (h : lister.selected child = .kept entry) : lister.childAccount account child =
      {(Mark.captured (lister.classify {} entry child.stat.linkCount).1).outline} + {.emitted} +
        if entry.isDirectory then account entry.path else 0 := by
  rw [childAccount, h]

/-- What a visited directory gives is given by the root. -/
theorem Visits.mem_account (haccounts : lister.Accounts account) {directory : Path}
    (h : lister.Visits directory) {mark : Mark} (hmark : mark ∈ account directory) :
    mark ∈ account [] := by
  induction h with
  | root => exact hmark
  | child hvisits hopened hchild hkept hdirectory ih =>
    refine ih ?_
    rw [haccounts.eq_of_opened hvisits.hasDirectory hopened]
    refine Multiset.mem_add.2 (.inr (mem_sum_map_iff.2 ⟨_, hchild, ?_⟩))
    rw [childAccount_eq_of_kept hkept, if_pos hdirectory]
    exact Multiset.mem_add.2 (.inr hmark)

/-- An entry in the account of a visited directory was captured below it. -/
theorem Visits.exists_captures_of_mem (htree : lister.IsTree) (haccounts : lister.Accounts account)
    {directory : Path} (h : lister.Visits directory) {entry : Entry}
    (hentry : .captured entry ∈ account directory) :
    ∃ child kept, lister.Captures child kept ∧
      entry = Hardlink.outline (lister.classify {} kept child.stat.linkCount).1 := by
  refine HasDirectory.induction_kept htree.hasLabels
    (motive := fun directory => lister.Visits directory → .captured entry ∈ account directory →
      ∃ child kept, lister.Captures child kept ∧
        entry = Hardlink.outline (lister.classify {} kept child.stat.linkCount).1)
    ?_ h.hasDirectory h hentry
  intro directory hdirectory ih hvisits hmem
  cases hopened : lister.opened directory with
  | error error =>
    rw [haccounts directory hdirectory, hopened] at hmem
    cases Multiset.mem_singleton.1 hmem
  | ok found =>
    obtain ⟨children, skipped⟩ := found
    rw [haccounts.eq_of_opened hdirectory hopened] at hmem
    simp only [Multiset.mem_add, mem_sum_map_iff, Multiset.mem_singleton, Multiset.mem_coe,
      List.mem_map, reduceCtorEq, and_false, exists_false, false_or] at hmem
    obtain ⟨child, hchild, hmem⟩ := hmem
    cases hselected : lister.selected child with
    | skipped =>
      rw [childAccount, hselected] at hmem
      cases Multiset.mem_singleton.1 hmem
    | excluded =>
      rw [childAccount, hselected] at hmem
      cases Multiset.mem_singleton.1 hmem
    | kept kept =>
      -- The entry is that of the child itself, or it lies below it.
      rw [childAccount_eq_of_kept hselected, Multiset.mem_add, Multiset.mem_add] at hmem
      rcases hmem with (hmem | hmem) | hmem
      · exact ⟨child, kept, ⟨directory, children, skipped, hvisits, hopened, hchild, hselected⟩,
          Mark.captured.inj (Multiset.mem_singleton.1 hmem)⟩
      · cases Multiset.mem_singleton.1 hmem
      · split at hmem
        · next hkept =>
          exact ih children skipped child kept hopened hchild hselected hkept
            (.child hvisits hopened hchild hselected hkept) hmem
        · exact absurd hmem (Multiset.notMem_zero _)

/-- The account of a tree holds the entries of captured children. -/
theorem captured_mem_account_iff (htree : lister.IsTree) (haccounts : lister.Accounts account)
    {entry : Entry} : .captured entry ∈ account [] ↔ ∃ child kept, lister.Captures child kept ∧
      entry = Hardlink.outline (lister.classify {} kept child.stat.linkCount).1 := by
  constructor
  · exact Visits.exists_captures_of_mem htree haccounts .root
  · rintro ⟨child, kept, ⟨directory, children, skipped, hvisits, hopened, hmem, hkept⟩, rfl⟩
    refine Visits.mem_account haccounts hvisits ?_
    rw [haccounts.eq_of_opened hvisits.hasDirectory hopened]
    refine Multiset.mem_add.2 (.inr (mem_sum_map_iff.2 ⟨child, hmem, ?_⟩))
    rw [childAccount_eq_of_kept hkept]
    exact Multiset.mem_add.2 (.inl (Multiset.mem_add.2 (.inl (Multiset.mem_singleton_self _))))

theorem sum_map_sum_map {α : Type} (list : List α) (find : α → Multiset Mark)
    (weight : Mark → Int) : (((list.map find).sum).map weight).sum =
      (list.map fun a => ((find a).map weight).sum).sum := by
  induction list with
  | nil => rfl
  | cons a list ih => simp [ih]

/-- Weights that cancel for every child, up to what its directory gives, leave the weight of the
root. -/
theorem sum_map_account (htree : lister.IsTree) (haccounts : lister.Accounts account)
    {weight : Mark → Int} {total : Int} (hlisted : weight .listed = total)
    (hfailed : ∀ error, weight (.failed error) = total)
    (hskipped : ∀ path, weight (.skipped path) = 0) (hexcluded : weight .excluded = 0)
    (hkept : ∀ entry, weight (Mark.captured entry).outline + weight .emitted +
      (if entry.isDirectory then total else 0) = 0)
    {directory : Path} (h : lister.HasDirectory directory) :
    ((account directory).map weight).sum = total := by
  refine HasDirectory.induction_kept htree.hasLabels
    (motive := fun directory => ((account directory).map weight).sum = total) ?_ h
  intro directory hdirectory ih
  cases hopened : lister.opened directory with
  | error error =>
    rw [haccounts directory hdirectory, hopened]
    simp [hfailed]
  | ok found =>
    obtain ⟨children, skipped⟩ := found
    have hchildren : (children.map fun child =>
        ((lister.childAccount account child).map weight).sum).sum = 0 := by
      refine List.sum_eq_zero fun sum hsum => ?_
      obtain ⟨child, hchild, rfl⟩ := List.mem_map.1 hsum
      cases hselected : lister.selected child with
      | skipped => simp [childAccount, hselected, hskipped]
      | excluded => simp [childAccount, hselected, hexcluded]
      | kept entry =>
        have hcancel := hkept (lister.classify {} entry child.stat.linkCount).1
        rw [isDirectory_classify] at hcancel
        rw [childAccount_eq_of_kept hselected]
        by_cases hbelow : entry.isDirectory = true
        · have hsum := ih children skipped child entry hopened hchild hselected hbelow
          simpa [hbelow, hsum, add_assoc] using hcancel
        · simpa [hbelow] using hcancel
    rw [haccounts.eq_of_opened hdirectory hopened]
    simp [sum_map_sum_map, hchildren, hlisted, hskipped, Function.comp_def]

end Lister

end TreeManifest
