import TreeManifest.Proofs.Order.Sorting
import TreeManifest.Proofs.Walk.Balance
import TreeManifest.Proofs.Walk.Captured

/-!
# Listing one directory

Every name in a directory has one of three fates: its object is sent, left out, or skipped. Listing
the directory accounts for each name once, with the counter or the list of its fate, and sends the
entries in strict canonical order. The directories among them are all that is handed back, so a walk
opens no directory whose entry was not sent.

## Main definitions

- `Lister.Fate`, `Lister.fate`: what becomes of a name.
- `Lister.Accounted`: a listing accounts for the names of a directory.
- `Walk.Announced`: the directories that a walk may open.

## Main statements

- `Lister.list_accounts`: what listing a directory says about its names.
-/

namespace TreeManifest

/-! ## Siblings -/

namespace Order

/-- The key of the last component comes behind what the components before it contribute. -/
theorem exists_componentsKey_concat (front : List Bytes) : ∃ key : Bytes, ∀ isDirectory name,
    componentsKey isDirectory (front ++ [name]) = key ++ componentsKey isDirectory [name] := by
  induction front with
  | nil => exact ⟨[], fun _ _ => rfl⟩
  | cons first front ih =>
    obtain ⟨key, hkey⟩ := ih
    refine ⟨Rank.ancestor.byte :: (first ++ terminator :: key), fun isDirectory name => ?_⟩
    have hmore : (front ++ [name]).isEmpty = false :=
      List.isEmpty_eq_false_iff.2 (List.concat_ne_nil name front)
    rw [List.cons_append, componentsKey, hkey, hmore]
    simp [Rank.of]

/-- Two names in one directory tie only if they are the same, whatever the path of the directory
looks like. -/
theorem eq_of_compareEntries_child {relative name other : Bytes} {a b : Entry}
    (ha : a.path = Path.child relative name) (hb : b.path = Path.child relative other)
    (hname : Path.IsLabel name) (hother : Path.IsLabel other) (h : compareEntries a b = .eq) :
    name = other := by
  obtain ⟨key, hkey⟩ := exists_componentsKey_concat (Path.components relative)
  have hnul : ∀ {label : Bytes}, Path.IsLabel label → ∀ found ∈ [label], terminator ∉ found := by
    intro label hlabel found hfound
    rw [List.mem_singleton.1 hfound]
    exact hlabel.nul_notMem
  rw [compareEntries_eq_compare_entryKey, entryKey, entryKey, sortKey, sortKey, ha, hb,
    Path.components_child _ hname, Path.components_child _ hother, hkey, hkey,
    compare_append_left, compare_componentsKey _ _ (hnul hname) (hnul hother)] at h
  exact List.singleton_inj.1 (compareComponents_eq_eq_iff.1 h).1

end Order

/-- The children of a directory are told apart by their names. -/
theorem Path.child_injective (parent : Path) : Function.Injective (Path.child parent) := by
  intro first second h
  unfold Path.child at h
  split at h
  · exact h
  · exact (List.cons.inj (List.append_cancel_left h)).2

@[simp] theorem Listing.stats_keep (listing : Listing) (entry : Entry) :
    (listing.keep entry).stats = listing.stats := by
  unfold keep
  split <;> rfl

namespace Lister

/-! ## Fates -/

/-- What becomes of the object of a name. -/
inductive Fate where
  | sent
  | excluded
  | skipped
  deriving DecidableEq

/-- What becomes of a name in a directory. It is skipped where the object cannot be inspected or is
a symlink whose target cannot be read, and left out where it is marked and marked objects are left
out. -/
def fate (lister : Lister) (relative : Path) (name : Bytes) : Fate :=
  let location := Path.join (lister.directory relative) name
  match lister.view.lstat location with
  | .error _ => .skipped
  | .ok stat =>
    if stat.kind = .symlink ∧ (lister.view.readLink location).toOption = none then .skipped
    else if lister.options.excludeByAttribute ∧ lister.isMarked stat.kind location then .excluded
    else .sent

def Selection.fate : Selection → Fate
  | .skipped => .skipped
  | .excluded => .excluded
  | .kept _ => .sent

variable {lister : Lister} {relative : Path}

/-- A child has the path and the fate of its name. -/
theorem fate_selected {name : Bytes} {child : Child}
    (h : lister.found? relative (.ok name) = some child) :
    child.entry.path = Path.child relative name ∧
      (lister.selected child).fate = lister.fate relative name ∧
      lister.lost? relative (.ok name) = none := by
  obtain ⟨bytes, stat, hname, hstat, rfl⟩ := exists_of_found?_eq_some h
  obtain rfl := Except.ok.inj hname
  refine ⟨rfl, ?_, by simp only [lost?, hstat]⟩
  have hkind : (Entry.ofStat (Path.child relative name) stat).kind = stat.kind := rfl
  rw [selected_eq_of_bare rfl rfl, fate, linkOf]
  simp only [hstat, hkind]
  by_cases hsymlink : stat.kind = .symlink
  · rw [if_pos hsymlink]
    cases lister.view.readLink (Path.join (lister.directory relative) name) with
    | error error =>
      rw [if_pos ⟨hsymlink, rfl⟩]
      rfl
    | ok target =>
      rw [if_neg (by simp [Except.toOption])]
      simp only [Except.map]
      split <;> rfl
  · rw [if_neg hsymlink, if_neg fun hand => hsymlink hand.1]
    dsimp only
    split <;> rfl

/-- A name without a child is skipped. -/
theorem fate_of_found?_eq_none {name : Bytes} (h : lister.found? relative (.ok name) = none) :
    lister.lost? relative (.ok name) = some (Path.child relative name) ∧
      lister.fate relative name = .skipped := by
  cases hstat : lister.view.lstat (Path.join (lister.directory relative) name) with
  | ok stat =>
    simp only [found?, hstat] at h
    cases h
  | error error =>
    simp only [lost?, fate, hstat]
    exact ⟨trivial, trivial⟩

/-- The children and the paths that could not be inspected, one fate at a time. -/
theorem perm_of_fate (relative : Path) (names : List (Except IoError Bytes)) (fate : Fate) :
    ((if fate = .skipped then names.filterMap (lister.lost? relative) else []) ++
      ((names.filterMap (lister.found? relative)).filter
        fun child => (lister.selected child).fate = fate).map (·.entry.path)).Perm
      (((names.filterMap Except.toOption).filter
        fun name => lister.fate relative name = fate).map (Path.child relative)) := by
  induction names with
  | nil => cases fate <;> exact .refl _
  | cons first rest ih =>
    cases first with
    | error error => exact ih
    | ok name =>
      have hname : (Except.ok name : Except IoError Bytes).toOption = some name := rfl
      rw [List.filterMap_cons_some hname]
      cases hfound : lister.found? relative (.ok name) with
      | some child =>
        obtain ⟨hpath, hfate, hlost⟩ := fate_selected hfound
        rw [List.filterMap_cons_some hfound, List.filterMap_cons_none hlost, List.filter_cons,
          List.filter_cons, hfate]
        by_cases hsame : lister.fate relative name = fate
        · simp only [hsame, decide_true, if_true, List.map_cons, hpath]
          exact List.perm_middle.trans (ih.cons _)
        · simp only [hsame, decide_false, Bool.false_eq_true, if_false]
          exact ih
      | none =>
        obtain ⟨hlost, hfate⟩ := fate_of_found?_eq_none hfound
        rw [List.filterMap_cons_none hfound, List.filterMap_cons_some hlost, List.filter_cons,
          hfate]
        cases fate with
        | skipped => exact ih.cons _
        | sent | excluded => exact ih

/-! ## The loop over the children -/

/-- The entries of children that are sent, as far as their places are concerned. -/
def places (lister : Lister) (children : List Child) : List (Path × Bool) :=
  (children.filter fun child => (lister.selected child).fate = .sent).map
    fun child => (child.entry.path, child.entry.isDirectory)

def Bare (child : Child) : Prop := child.entry.attributes = none ∧ child.entry.flags = none

/-- What a listing of some children adds to what was listed before. -/
structure Extends (lister : Lister) (children : List Child) (sent : List Entry)
    (before after : Listing) : Prop where
  places_eq : sent.map (fun entry => (entry.path, entry.isDirectory)) = lister.places children
  emitted_eq : after.stats.emitted = before.stats.emitted + sent.length
  excluded_eq : after.stats.excluded = before.stats.excluded +
    (children.filter fun child => (lister.selected child).fate = .excluded).length
  skipped_eq : after.stats.skipped = before.stats.skipped ++
    (children.filter fun child => (lister.selected child).fate = .skipped).map (·.entry.path)
  subdirectories_eq : after.subdirectories =
    ((sent.filter (·.isDirectory)).map (·.path)).reverse ++ before.subdirectories

section

variable {children : List Child} {child : Child} {sent : List Entry} {before after : Listing}

/-- A skipped child adds its path to the skipped ones and nothing else. -/
theorem Extends.of_skipped (hskipped : lister.selected child = .skipped)
    (h : Extends lister children sent (before.skip child.entry.path) after) :
    Extends lister (child :: children) sent before after where
  places_eq := by
    simp only [h.places_eq, places, List.filter_cons, hskipped, Selection.fate, reduceCtorEq,
      decide_false, Bool.false_eq_true, if_false]
  emitted_eq := h.emitted_eq
  excluded_eq := by
    simp only [h.excluded_eq, List.filter_cons, hskipped, Selection.fate, reduceCtorEq,
      decide_false, Bool.false_eq_true, if_false]
    rfl
  skipped_eq := by
    simp only [h.skipped_eq, List.filter_cons, hskipped, Selection.fate, decide_true, if_true,
      List.map_cons, Listing.skip, List.append_assoc, List.singleton_append]
  subdirectories_eq := h.subdirectories_eq

/-- An excluded child raises a counter and nothing else. -/
theorem Extends.of_excluded (hexcluded : lister.selected child = .excluded)
    (h : Extends lister children sent before.exclude after) :
    Extends lister (child :: children) sent before after where
  places_eq := by
    simp only [h.places_eq, places, List.filter_cons, hexcluded, Selection.fate, reduceCtorEq,
      decide_false, Bool.false_eq_true, if_false]
  emitted_eq := h.emitted_eq
  excluded_eq := by
    simp only [h.excluded_eq, List.filter_cons, hexcluded, Selection.fate, decide_true, if_true,
      List.length_cons, Listing.exclude]
    omega
  skipped_eq := by
    simp only [h.skipped_eq, List.filter_cons, hexcluded, Selection.fate, reduceCtorEq,
      decide_false, Bool.false_eq_true, if_false]
    rfl
  subdirectories_eq := h.subdirectories_eq

/-- A kept child adds its entry, and itself to the subdirectories if it is a directory. -/
theorem Extends.of_kept {entry kept : Entry} (hkept : lister.selected child = .kept kept)
    (hpath : entry.path = child.entry.path)
    (hdirectory : entry.isDirectory = child.entry.isDirectory)
    (h : Extends lister children sent (before.keep entry).emit after) :
    Extends lister (child :: children) (entry :: sent) before after where
  places_eq := by
    simp only [List.map_cons, h.places_eq, places, List.filter_cons, hkept, Selection.fate,
      decide_true, if_true, hpath, hdirectory]
  emitted_eq := by
    simp only [h.emitted_eq, Listing.emit, Listing.stats_keep, List.length_cons]
    omega
  excluded_eq := by
    simp only [h.excluded_eq, List.filter_cons, hkept, Selection.fate, reduceCtorEq,
      decide_false, Bool.false_eq_true, if_false, Listing.emit, Listing.stats_keep]
  skipped_eq := by
    simp only [h.skipped_eq, List.filter_cons, hkept, Selection.fate, reduceCtorEq,
      decide_false, Bool.false_eq_true, if_false, Listing.emit, Listing.stats_keep]
  subdirectories_eq := by
    rw [h.subdirectories_eq, Listing.emit, Listing.keep, List.filter_cons]
    split <;> simp

end

/-- What is kept of a child has its place. -/
theorem place_of_selected_eq_kept {child : Child} {kept : Entry} (hbare : Bare child)
    (h : lister.selected child = .kept kept) :
    kept.path = child.entry.path ∧ kept.isDirectory = child.entry.isDirectory := by
  have hcapture := capture_of_selected_eq_kept h
  rw [value_capture hbare.1 hbare.2] at hcapture
  split at hcapture
  · cases hcapture
  · cases hcapture
    exact ⟨rfl, rfl⟩

/-- Listing children takes them in order, each to its fate. -/
theorem extends_listChildren {received : Bool} {children : List Child} {tracker : Hardlink.Tracker}
    {before after : Listing} (hbare : ∀ child ∈ children, Bare child)
    (h : ((lister.listChildren relative received tracker before children).run ()).value.result =
      .ok after) :
    Extends lister children
      ((lister.listChildren relative received tracker before children).run ()).value.sent
      before after := by
  induction children generalizing tracker before with
  | nil =>
    cases h
    exact ⟨rfl, rfl, rfl, (List.append_nil _).symm, rfl⟩
  | cons child rest ih =>
    obtain ⟨hchild, hrest⟩ := List.forall_mem_cons.1 hbare
    unfold listChildren at h ⊢
    rw [Task.run_bind] at h ⊢
    have hselected : ((lister.select child).run ()).value = lister.selected child := rfl
    simp only [hselected] at h ⊢
    cases hfate : lister.selected child with
    | skipped =>
      simp only [hfate] at h ⊢
      exact .of_skipped hfate (ih hrest h)
    | excluded =>
      simp only [hfate] at h ⊢
      exact .of_excluded hfate (ih hrest h)
    | kept kept =>
      simp only [hfate] at h ⊢
      obtain ⟨hpath, hdirectory⟩ := place_of_selected_eq_kept hchild hfate
      cases received with
      | false => cases h
      | true =>
        simp only [if_true, Task.run_bind, Task.run_pure] at h ⊢
        exact .of_kept hfate ((path_classify tracker kept _).trans hpath)
          ((isDirectory_classify tracker kept _).trans hdirectory) (ih hrest h)

/-! ## The whole directory -/

/-- A listing accounts for the names of a directory: each has one fate, which decides whether its
entry is sent, it is counted as left out, or its path is noted as skipped. The directories among the
entries are handed back in reverse. -/
structure Accounted (lister : Lister) (relative : Path) (names : List Bytes) (sent : List Entry)
    (listing : Listing) : Prop where
  sent_perm : (sent.map (·.path)).Perm
    ((names.filter fun name => lister.fate relative name = .sent).map (Path.child relative))
  skipped_perm : listing.stats.skipped.Perm
    ((names.filter fun name => lister.fate relative name = .skipped).map (Path.child relative))
  emitted_eq : listing.stats.emitted = sent.length
  excluded_eq : listing.stats.excluded =
    (names.filter fun name => lister.fate relative name = .excluded).length
  length_eq : names.length =
    listing.stats.emitted + listing.stats.excluded + listing.stats.skipped.length
  subdirectories_eq : listing.subdirectories =
    ((sent.filter (·.isDirectory)).map (·.path)).reverse

/-- Every name has exactly one fate. -/
theorem length_eq_of_fate (relative : Path) (names : List Bytes) :
    names.length = (names.filter fun name => lister.fate relative name = .sent).length +
      (names.filter fun name => lister.fate relative name = .excluded).length +
      (names.filter fun name => lister.fate relative name = .skipped).length := by
  induction names with
  | nil => rfl
  | cons name rest ih =>
    simp only [List.filter_cons]
    cases lister.fate relative name <;> simp <;> omega

/-- The places of children are the paths of those that are sent. -/
theorem map_path_places (children : List Child) :
    (lister.places children).map Prod.fst =
      (children.filter fun child => (lister.selected child).fate = .sent).map (·.entry.path) := by
  rw [places, List.map_map]
  rfl

/-- The children of an opened directory, and what a listing that goes through them says. -/
theorem exists_extends_of_list {tracker : Hardlink.Tracker} {received : Bool} {listing : Listing}
    (h : ((lister.list tracker relative received).run ()).value.result = .ok listing) :
    ∃ names, lister.view.readDirectory (lister.directory relative) = .ok names ∧
      Extends lister ((names.filterMap (lister.found? relative)).mergeSort fun a b =>
          (Order.compareEntries a.entry b.entry).isLE)
        ((lister.list tracker relative received).run ()).value.sent
        { stats := { skipped := names.filterMap (lister.lost? relative) } } listing := by
  have hopened : ((lister.openDirectory relative).run ()).value = lister.opened relative := rfl
  unfold list at h ⊢
  rw [Task.run_bind] at h ⊢
  simp only [hopened, opened_eq] at h ⊢
  cases hnames : lister.view.readDirectory (lister.directory relative) with
  | error error =>
    simp only [hnames, Task.run_pure] at h
    cases h
  | ok names =>
    simp only [hnames] at h ⊢
    refine ⟨names, rfl, extends_listChildren (fun child hchild => ?_) h⟩
    obtain ⟨name, -, hfound⟩ := List.mem_filterMap.1 (List.mem_mergeSort.1 hchild)
    obtain ⟨bytes, stat, -, -, rfl⟩ := exists_of_found?_eq_some hfound
    exact ⟨rfl, rfl⟩

/-- A listing that takes all children in canonical order accounts for every name. -/
theorem accounted_of_extends {names : List (Except IoError Bytes)} {sent : List Entry}
    {listing : Listing}
    (h : Extends lister ((names.filterMap (lister.found? relative)).mergeSort fun a b =>
        (Order.compareEntries a.entry b.entry).isLE) sent
      { stats := { skipped := names.filterMap (lister.lost? relative) } } listing) :
    Accounted lister relative (names.filterMap Except.toOption) sent listing := by
  -- The order of the children does not matter to their fates.
  have hsorted : ∀ fate, (((names.filterMap (lister.found? relative)).mergeSort fun a b =>
      (Order.compareEntries a.entry b.entry).isLE).filter fun child =>
        (lister.selected child).fate = fate).map (·.entry.path) |>.Perm
      (((names.filterMap (lister.found? relative)).filter fun child =>
        (lister.selected child).fate = fate).map (·.entry.path)) := fun fate =>
    ((List.mergeSort_perm _ _).filter _).map _
  have hsent : (sent.map (·.path)).Perm (((names.filterMap Except.toOption).filter
      fun name => lister.fate relative name = .sent).map (Path.child relative)) := by
    have hpaths : sent.map (·.path) =
        (sent.map fun entry => (entry.path, entry.isDirectory)).map Prod.fst := by
      rw [List.map_map]
      rfl
    rw [hpaths, h.places_eq, map_path_places]
    exact (hsorted .sent).trans (perm_of_fate relative names .sent)
  have hskipped : listing.stats.skipped.Perm (((names.filterMap Except.toOption).filter
      fun name => lister.fate relative name = .skipped).map (Path.child relative)) := by
    rw [h.skipped_eq]
    exact ((hsorted .skipped).append_left _).trans (perm_of_fate relative names .skipped)
  have hexcluded : listing.stats.excluded = ((names.filterMap Except.toOption).filter
      fun name => lister.fate relative name = .excluded).length := by
    have hlength := ((hsorted .excluded).trans (perm_of_fate relative names .excluded)).length_eq
    rw [List.length_map, List.length_map] at hlength
    rw [h.excluded_eq, hlength]
    exact Nat.zero_add _
  have hemitted : listing.stats.emitted = sent.length := h.emitted_eq.trans (Nat.zero_add _)
  refine ⟨hsent, hskipped, hemitted, hexcluded, ?_, ?_⟩
  · have hlength := hsent.length_eq
    rw [List.length_map, List.length_map] at hlength
    rw [@length_eq_of_fate lister relative, hemitted, hexcluded, hskipped.length_eq, hlength,
      List.length_map]
  · exact h.subdirectories_eq.trans (List.append_nil _)

/-- No path is sent twice or skipped as well as sent, where no name is read twice. -/
theorem Accounted.nodup {names : List Bytes} {sent : List Entry} {listing : Listing}
    (h : Accounted lister relative names sent listing) (hnodup : names.Nodup) :
    (sent.map (·.path) ++ listing.stats.skipped).Nodup := by
  refine (h.sent_perm.append h.skipped_perm).nodup_iff.2 ?_
  rw [← List.map_append]
  refine List.Nodup.map (Path.child_injective relative)
    (List.nodup_append.2 ⟨hnodup.filter _, hnodup.filter _, fun name hsent other hskipped => ?_⟩)
  rintro rfl
  have hfirst := (List.mem_filter.1 hsent).2
  have hsecond := (List.mem_filter.1 hskipped).2
  rw [decide_eq_true_eq] at hfirst hsecond
  rw [hfirst] at hsecond
  cases hsecond

/-- The entries that are sent are in canonical order. -/
theorem sorted_of_extends {names : List (Except IoError Bytes)} {sent : List Entry}
    {listing : Listing}
    (h : Extends lister ((names.filterMap (lister.found? relative)).mergeSort fun a b =>
        (Order.compareEntries a.entry b.entry).isLE) sent
      { stats := { skipped := names.filterMap (lister.lost? relative) } } listing) :
    sent.Pairwise fun a b => (Order.compareEntries a b).isLE = true := by
  have hchildren : (lister.places ((names.filterMap (lister.found? relative)).mergeSort
      fun a b => (Order.compareEntries a.entry b.entry).isLE)).Pairwise
      fun a b => (Order.comparePaths a.1 a.2 b.1 b.2).isLE = true := by
    have hmerged : ((names.filterMap (lister.found? relative)).mergeSort fun a b =>
        (Order.compareEntries a.entry b.entry).isLE).Pairwise
        fun a b => (Order.compareEntries a.entry b.entry).isLE = true :=
      List.pairwise_mergeSort (fun a b c => Std.TransCmp.isLE_trans)
        (fun a b => Order.isLE_or_isLE a.entry b.entry) _
    exact List.pairwise_map.2 (hmerged.filter _)
  rw [← h.places_eq, List.pairwise_map] at hchildren
  exact hchildren

/-- The order is strict with names as directories hold them. -/
theorem canonical_of_extends {names : List (Except IoError Bytes)} {sent : List Entry}
    {listing : Listing}
    (h : Extends lister ((names.filterMap (lister.found? relative)).mergeSort fun a b =>
        (Order.compareEntries a.entry b.entry).isLE) sent
      { stats := { skipped := names.filterMap (lister.lost? relative) } } listing)
    (hlabels : ∀ name ∈ names.filterMap Except.toOption, Path.IsLabel name)
    (hnodup : (names.filterMap Except.toOption).Nodup) : Order.Canonical sent := by
  have haccounted := accounted_of_extends h
  have hpaths : sent.Pairwise fun a b => a.path ≠ b.path := by
    have hnodup' := (haccounted.nodup hnodup).of_append_left
    rwa [List.Nodup, List.pairwise_map] at hnodup'
  have hlabelled : ∀ entry ∈ sent, ∃ name, Path.IsLabel name ∧
      entry.path = Path.child relative name := by
    intro entry hentry
    obtain ⟨name, hname, hpath⟩ := List.mem_map.1
      (haccounted.sent_perm.mem_iff.1 (List.mem_map_of_mem hentry))
    exact ⟨name, hlabels name (List.mem_filter.1 hname).1, hpath.symm⟩
  refine ((sorted_of_extends h).and hpaths).imp_of_mem fun {a b} ha hb hand => ?_
  obtain ⟨hle, hne⟩ := hand
  obtain ⟨name, hname, hpath⟩ := hlabelled a ha
  obtain ⟨other, hother, hpath'⟩ := hlabelled b hb
  unfold Order.Precedes
  cases horder : Order.compareEntries a b with
  | lt => rfl
  | eq =>
    refine absurd ?_ hne
    rw [hpath, hpath',
      Order.eq_of_compareEntries_child hpath hpath' hname hother horder]
  | gt =>
    rw [horder] at hle
    cases hle

end Lister

/-! ## Descent -/

namespace Walk

/-- A directory that a walk may open: the root, or the directory of an entry that was sent. -/
def Announced (sent : List Entry) (directory : Path) : Prop :=
  directory = [] ∨ ∃ entry ∈ sent, entry.isDirectory = true ∧ entry.path = directory

/-- The directories that a worker opens or will hand over have been announced. The one of the entry
that it is about to send is announced with that entry. -/
def Phase.Announced (sent : List Entry) : Phase → Prop
  | .opening directory => Walk.Announced sent directory
  | .listing _ _ result | .counting result =>
    ∀ directory ∈ result.subdirectories, Walk.Announced sent directory
  | .sending entry _ _ result =>
    ∀ directory ∈ result.subdirectories, Walk.Announced (sent ++ [entry]) directory
  | .completing subdirectories => ∀ directory ∈ subdirectories, Walk.Announced sent directory
  | .ready | .asleep | .failing _ | .reporting _ | .exited => True

def State.sent (state : State) : List Entry := state.received ++ state.channel

/-- Whatever waits or is held by a worker has been announced. -/
structure Announces (state : State) : Prop where
  stack : ∀ directory ∈ state.pending.stack, Announced state.sent directory
  workers : ∀ phase ∈ state.workers, phase.Announced state.sent

variable {lister : Lister} {config : WalkConfig} {state before after : State}
  {sent more : List Entry} {directory : Path}

/-- A directory that was announced stays announced. -/
theorem Announced.mono (h : Announced sent directory) (hsub : sent ⊆ more) :
    Announced more directory := by
  rcases h with hroot | ⟨entry, hentry, hpath⟩
  · exact .inl hroot
  · exact .inr ⟨entry, hsub hentry, hpath⟩

theorem Phase.Announced.mono {phase : Phase} (h : phase.Announced sent) (hsub : sent ⊆ more) :
    phase.Announced more := by
  cases phase with
  | opening => exact Walk.Announced.mono h hsub
  | listing | counting | completing => exact fun other hother => (h other hother).mono hsub
  | sending entry =>
    exact fun other hother => (h other hother).mono
      (List.append_subset.2 ⟨List.Subset.trans hsub (List.subset_append_left _ _),
        List.subset_append_right _ _⟩)
  | ready | asleep | failing | reporting | exited => trivial

/-- A turn sends at most one entry, and announces what it holds then. -/
theorem announced_turn {phase next : Phase} {middle : State}
    (h : Turn lister config state phase middle next) (hall : Announces state)
    (hphase : phase.Announced state.sent) :
    state.sent ⊆ middle.sent ∧ next.Announced middle.sent ∧
      ∀ directory ∈ middle.pending.stack, Announced middle.sent directory := by
  have hself : state.sent ⊆ state.sent := List.Subset.refl _
  cases h with
  | @take directory rest hopen hstack =>
    have hwaiting := hall.stack
    rw [hstack] at hwaiting
    exact ⟨hself, hwaiting directory List.mem_cons_self,
      fun other hother => hwaiting other (List.mem_cons_of_mem _ hother)⟩
  | leave | close | sleep | refuse | report => exact ⟨hself, trivial, hall.stack⟩
  | enter => exact ⟨hself, fun other hother => absurd hother List.not_mem_nil, hall.stack⟩
  | skip | exclude => exact ⟨hself, hphase, hall.stack⟩
  | @keep child entry classified tracker directory todo listing events hselected hclassify =>
    refine ⟨hself, fun other hother => ?_, hall.stack⟩
    rw [subdirectories_keep] at hother
    split at hother
    · next hdirectory =>
      rcases List.mem_cons.1 hother with rfl | hother
      · exact .inr ⟨classified, List.mem_append_right _ List.mem_cons_self, hdirectory, rfl⟩
      · exact (hphase other hother).mono (List.subset_append_left _ _)
    · exact (hphase other hother).mono (List.subset_append_left _ _)
  | send entry =>
    have hsent : State.sent { state with channel := state.channel ++ [entry] } =
        state.sent ++ [entry] := (List.append_assoc _ _ _).symm
    have hsub : state.sent ⊆ State.sent { state with channel := state.channel ++ [entry] } :=
      hsent ▸ List.subset_append_left _ _
    refine ⟨hsub, fun other hother => ?_, fun other hother => (hall.stack other hother).mono hsub⟩
    rw [hsent]
    exact hphase other hother
  | finish | count => exact ⟨hself, hphase, hall.stack⟩
  | complete subdirectories =>
    refine ⟨hself, trivial, fun other hother => ?_⟩
    rcases List.mem_append.1 hother with hother | hother
    · exact hphase other (List.mem_reverse.1 hother)
    · exact hall.stack other hother
  | abort => exact ⟨hself, trivial, fun _ hother => absurd hother List.not_mem_nil⟩
  | giveBack => exact ⟨hself, trivial, hall.stack⟩

theorem announces_start (config : WalkConfig) : Announces (.start config) where
  stack directory hdirectory := .inl (List.mem_singleton.1 hdirectory)
  workers phase hphase := by
    rw [List.eq_of_mem_replicate hphase]
    trivial

/-- No step opens a directory whose entry was not sent before. -/
theorem announces_step (h : Step lister config before after) (hall : Announces before) :
    Announces after := by
  rcases step_cases h with ⟨entry, rest, hchannel, rfl⟩ |
      ⟨worker, phase, middle, next, hphase, hturn, rfl⟩
  · -- What the collector receives was on its way before.
    have hsent : State.sent { before with
        channel := rest, received := before.received ++ [entry] } = before.sent := by
      rw [State.sent, State.sent, hchannel, List.append_assoc, List.singleton_append]
    exact ⟨hsent ▸ hall.stack, hsent ▸ hall.workers⟩
  · obtain ⟨hsub, hnext, hstack⟩ := announced_turn hturn hall
      (hall.workers phase (List.mem_of_getElem? hphase))
    exact ⟨hstack, forall_mem_workers_put hturn
      (fun other hother => (hall.workers other hother).mono hsub) trivial hnext⟩

/-- At any moment, whatever waits or is held by a worker has been announced. -/
theorem announces_of_reaches (h : Reaches lister config (.start config) state) :
    Announces state := by
  induction h with
  | refl => exact announces_start config
  | tail _ step ih => exact announces_step step ih

end Walk

/-- Listing a directory loses no name and reports none twice. Each name that was read has one of
three fates: its entry is sent, it is counted as left out, or its path is noted as skipped, and the
counters are the sizes of the first two parts. With names as directories hold them, the entries are
sent in strict canonical order, and no path is sent twice or skipped as well as sent. The
directories among the entries, in reverse, are all that is handed back; so a walk never opens a
directory, other than the root, whose entry was not sent before. -/
theorem Lister.list_accounts (lister : Lister) :
    (∀ (tracker : Hardlink.Tracker) (relative : Path) (received : Bool) (listing : Listing),
      let listed := ((lister.list tracker relative received).run ()).value
      listed.result = .ok listing →
      ∃ names, lister.view.readDirectory (lister.directory relative) = .ok names ∧
        let delivered := names.filterMap Except.toOption
        lister.Accounted relative delivered listed.sent listing ∧
        ((∀ name ∈ delivered, Path.IsLabel name) → delivered.Nodup →
          Order.Canonical listed.sent ∧
            (listed.sent.map (·.path) ++ listing.stats.skipped).Nodup)) ∧
    ∀ (config : WalkConfig) (state : Walk.State),
      Walk.Reaches lister config (.start config) state →
      ∀ directory, .opening directory ∈ state.workers →
        directory = [] ∨ ∃ entry ∈ state.received ++ state.channel,
          entry.isDirectory = true ∧ entry.path = directory := by
  constructor
  · intro tracker relative received listing listed h
    obtain ⟨names, hnames, hextends⟩ := exists_extends_of_list h
    have haccounted := accounted_of_extends hextends
    exact ⟨names, hnames, haccounted, fun hlabels hnodup =>
      ⟨canonical_of_extends hextends hlabels hnodup, haccounted.nodup hnodup⟩⟩
  · intro config state h directory hdirectory
    exact (Walk.announces_of_reaches h).workers _ hdirectory

/-- What is known about the object at the end of a path in the tree below, by its name. -/
def mixedStat (path : Path) : Stat :=
  let byte := path.getLast?.getD 0
  ⟨if byte = 0x61 ∨ byte = 0x62 then 0o40755 else if byte = 0x6C then 0o120777 else 0o100644,
    0, 0, 0, 0, 1, 0, ⟨1, byte.toUInt64⟩⟩

/-- A directory with two directories `a` and `b`, a file `f`, a file `g` that is gone when it is
inspected, a symlink `l` whose target cannot be read, and a marked file `m`. One of its names cannot
be read at all. -/
def mixedTree : Lister where
  root := [0x72]
  options := { excludeByAttribute := true }
  view := {
    stat := fun path => .ok (mixedStat path)
    lstat := fun path =>
      if path = [0x72, 0x2F, 0x67] then .error (.os .enoent) else .ok (mixedStat path)
    readLink := fun _ => .error (.os .eacces)
    readDirectory := fun path =>
      if path = [0x72] then
        .ok [.ok [0x6D], .ok [0x62], .error (.os .eacces), .ok [0x67], .ok [0x66], .ok [0x61],
          .ok [0x6C]]
      else .ok []
    attributeNames := fun _ => .ok []
    attributeValue := fun _ _ => .ok none
    openObject := fun _ _ => .error (.os .eloop)
    flagWord := fun _ => .ok 0 }
  provider := {
    list := fun _ => pure (.ok [])
    get := fun location name => pure (.ok (
      if location = [0x72, 0x2F, 0x6D] ∧ name = Exclusion.markerName then some [] else none))
    set := fun _ _ _ => pure (.ok ())
    remove := fun _ _ => pure (.ok ()) }

theorem result_mixedTree : ((mixedTree.list {} [] true).run ()).value.result =
    .ok ⟨[[0x62], [0x61]], ⟨3, 1, [[0x67], [0x6C]]⟩⟩ := by
  cbv

theorem isLabel_mixedTree {name : Bytes}
    (h : name ∈ [[0x6D], [0x62], [0x67], [0x66], [0x61], [0x6C]]) : Path.IsLabel name := by
  have hnames : ∀ name ∈ [[0x6D], [0x62], [0x67], [0x66], [0x61], [0x6C]], Path.IsName name := by
    decide
  exact (hnames name h).isLabel

/-- Of the six names that are read, three are sent, the file first, one is left out, and two are
skipped. A single worker opens the directory `a` once its entry was sent. -/
theorem Lister.list_accounts_mixedTree :
    (let listed := ((mixedTree.list {} [] true).run ()).value
      let listing : Listing := ⟨[[0x62], [0x61]], ⟨3, 1, [[0x67], [0x6C]]⟩⟩
      listed.result = .ok listing ∧
        mixedTree.Accounted [] [[0x6D], [0x62], [0x67], [0x66], [0x61], [0x6C]] listed.sent
          listing ∧
        Order.Canonical listed.sent) ∧
      ∃ state, Walk.Reaches mixedTree (.ofProcessors 1) (.start (.ofProcessors 1)) state ∧
        .opening [0x61] ∈ state.workers ∧ ∃ entry ∈ state.received ++ state.channel,
          entry.isDirectory = true ∧ entry.path = [0x61] := by
  constructor
  · intro listed listing
    obtain ⟨names, hnames, haccounted, hsent⟩ :=
      mixedTree.list_accounts.1 {} [] true listing result_mixedTree
    obtain rfl := Except.ok.inj hnames
    exact ⟨result_mixedTree, haccounted, (hsent (fun _ => isLabel_mixedTree) (by decide)).1⟩
  · have hreaches := Walk.reaches_runFrom mixedTree (.ofProcessors 1) 17
      (.refl (.start (.ofProcessors 1)))
    have hopening : (Walk.runFrom mixedTree (.ofProcessors 1) 17
        (.start (.ofProcessors 1))).workers = [.opening [0x61]] := by
      cbv
    have hmem := hopening ▸ List.mem_singleton_self (Walk.Phase.opening [0x61])
    refine ⟨_, hreaches, hmem, ?_⟩
    exact (mixedTree.list_accounts.2 _ _ hreaches _ hmem).resolve_left (by decide)

end TreeManifest
