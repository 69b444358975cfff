import TreeManifest.Proofs.Attributes.Marker
import TreeManifest.Proofs.Walk.Outcome
import TreeManifest.Proofs.Walk.Sortable

/-!
# What a walk selects does not depend on what it captures

A walk may read the attributes of the objects it lists, or leave them alone. Either way it looks for
the marker of every object, and where listing and reading agree it finds the same ones. So the trees
below the kept directories are the same, and what a walk leaves behind differs only in the metadata
of the entries.

## Main definitions

- `Entry.skeleton`, `Walk.Mark.skeleton`: entries and marks with nothing but path and mode.
- `Lister.readingAttributes`: the same lister with or without capture of attributes.
- `WalkOutcome.selection`: the paths of an outcome, and how many objects were left out.

## Main statements

- `Lister.map_skeleton_marks`: the marks of a directory but for the metadata of their entries.
- `Walk.map_selection_result_eq`: results with the same marks but for metadata select the same.
- `exclusion_independent_of_capture`: neither an object nor a walk depends on capture.
-/

namespace TreeManifest

open TreeManifest.Walk (Mark)

/-- An entry with nothing but its path and its mode. -/
def Entry.skeleton (entry : Entry) : Entry := .new entry.path entry.mode

def Walk.Mark.skeleton : Mark → Mark
  | .captured entry => .captured entry.skeleton
  | mark => mark

/-- The paths of an outcome, and the number of marked objects that were left out. -/
def WalkOutcome.selection (outcome : WalkOutcome) : List Path × Nat :=
  (outcome.entries.map (·.path), outcome.stats.listing.excluded)

theorem Entry.keepsKey_skeleton : Order.KeepsKey Entry.skeleton :=
  fun _ => ⟨rfl, rfl⟩

theorem Entry.skeleton_outline (entry : Entry) :
    (Hardlink.outline entry).skeleton = entry.skeleton := by
  rw [skeleton, skeleton, Hardlink.path_outline, Walk.mode_outline]

theorem Walk.Mark.skeleton_outline (mark : Mark) : mark.outline.skeleton = mark.skeleton := by
  cases mark with
  | captured entry => exact congrArg Mark.captured (Entry.skeleton_outline entry)
  | _ => rfl

namespace Lister

/-- The same lister with or without capture of attributes. -/
def readingAttributes (lister : Lister) (reads : Bool) : Lister :=
  { lister with options := { lister.options with readAttributes := reads } }

variable {lister : Lister}

/-! ## Places -/

/-- Capture of attributes leads to no further directory. -/
theorem hasDirectory_of_readingAttributes {reads : Bool} {directory : Path}
    (h : (lister.readingAttributes reads).HasDirectory directory) :
    lister.HasDirectory directory := by
  induction h with
  | root => exact .root
  | child hparent hnames hname hstat hkind ih => exact .child ih hnames hname hstat hkind

/-- What is assumed about names does not depend on capture of attributes. -/
theorem HasLabels.readingAttributes (htree : lister.HasLabels) (reads : Bool) :
    (lister.readingAttributes reads).HasLabels where
  finite := htree.finite.subset fun _ => hasDirectory_of_readingAttributes
  isLabel hdirectory := htree.isLabel (hasDirectory_of_readingAttributes hdirectory)
  nodup hdirectory := htree.nodup (hasDirectory_of_readingAttributes hdirectory)

/-- Directories are opened alike with or without capture of attributes. -/
theorem opened_readingAttributes (lister : Lister) (reads : Bool) (directory : Path) :
    (lister.readingAttributes reads).opened directory = lister.opened directory := by
  rw [opened_eq, opened_eq]
  rfl

/-! ## Children -/

/-- A marker is found whether or not attributes are captured. -/
theorem isMarked_readingAttributes {location : Path} {present : String → Prop}
    {readings : String → Option (Option Bytes)}
    (h : lister.provider.Faithful location present readings fun _ => True) (reads : Bool)
    (kind : FileKind) :
    (lister.readingAttributes reads).isMarked kind location = lister.isMarked kind location := by
  have hlisted : ∀ names value, ((lister.provider.list location).run ()).value = .ok names →
      ((lister.provider.get location Exclusion.markerName).run ()).value = .ok (some value) →
      Exclusion.markerName ∈ names := by
    intro names value hlist hget
    have hreading : ((lister.provider.get location Exclusion.markerName).run ()).value.toOption =
        readings Exclusion.markerName := (h.get Exclusion.markerName trivial).2
    rw [hget] at hreading
    exact (h.mem_iff trivial hlist _).2 (h.present_of_reading hreading.symm)
  rw [Bool.eq_iff_iff, isMarked_eq_true_iff hlisted]
  exact @isMarked_eq_true_iff (lister.readingAttributes reads) kind location hlisted

variable (hprovider : ∀ location, ∃ present readings,
  lister.provider.Faithful location present readings fun _ => True)

include hprovider

/-- The marks of a child, but for the metadata of their entries. -/
theorem map_skeleton_childMarks (reads : Bool) {child : Child}
    (hattributes : child.entry.attributes = none) (hflags : child.entry.flags = none)
    {below below' : Path → List Mark}
    (hbelow : ∀ path, (below path).map Mark.skeleton = (below' path).map Mark.skeleton) :
    ((lister.readingAttributes reads).childMarks below child).map Mark.skeleton =
      (lister.childMarks below' child).map Mark.skeleton := by
  obtain ⟨present, readings, hfaithful⟩ := hprovider child.location
  have hlink : (lister.readingAttributes reads).linkOf child = lister.linkOf child := rfl
  have hoptions : (lister.readingAttributes reads).options.excludeByAttribute =
      lister.options.excludeByAttribute := rfl
  have hskeleton : ∀ (lister : Lister) link, (lister.classify {} (lister.filled child link)
      child.stat.linkCount).1.skeleton = child.entry.skeleton := by
    intro lister link
    rw [Entry.skeleton, path_classify, mode_classify]
    rfl
  unfold childMarks
  rw [selected_eq_of_bare hattributes hflags, selected_eq_of_bare hattributes hflags, hlink,
    hoptions, isMarked_readingAttributes hfaithful]
  cases lister.linkOf child with
  | error error => rfl
  | ok link =>
    by_cases hmarked : lister.options.excludeByAttribute ∧
        lister.isMarked child.entry.kind child.location
    · simp only [if_pos hmarked]
    · simp only [if_neg hmarked, List.map_cons, Mark.skeleton, hskeleton]
      -- Both entries are those of the child, so they are directories at one path or none is one.
      refine congrArg (fun marks => _ :: _ :: marks) ?_
      change (if child.entry.isDirectory then below child.entry.path else []).map Mark.skeleton =
        (if child.entry.isDirectory then below' child.entry.path else []).map Mark.skeleton
      split
      · exact hbelow child.entry.path
      · rfl

/-- The marks of a directory, but for the metadata of their entries. -/
theorem map_skeleton_marks (reads : Bool) (depth : Nat) (directory : Path) :
    ((lister.readingAttributes reads).marks depth directory).map Mark.skeleton =
      (lister.marks depth directory).map Mark.skeleton := by
  induction depth generalizing directory with
  | zero => rfl
  | succ depth ih =>
    rw [marks, marks, opened_readingAttributes]
    cases hopened : lister.opened directory with
    | error error => rfl
    | ok found =>
      obtain ⟨children, skipped⟩ := found
      have hchildren : children.flatMap (fun child =>
          ((lister.readingAttributes reads).childMarks
            ((lister.readingAttributes reads).marks depth) child).map Mark.skeleton) =
          children.flatMap fun child =>
            (lister.childMarks (lister.marks depth) child).map Mark.skeleton := by
        refine List.flatMap_congr fun child hmem => ?_
        obtain ⟨names, name, stat, -, -, -, rfl⟩ := exists_of_mem_opened hopened hmem
        exact map_skeleton_childMarks hprovider reads rfl rfl ih
      simp only [List.map_cons, List.map_append, List.map_flatMap, hchildren]

end Lister

namespace Walk

variable {lister other : Lister} {config config' : WalkConfig} {state state' : State}

/-! ## Results -/

/-- Of the failures that a walk has noted, at most one is fatal. -/
theorem eq_of_mem_errors_of_isFatal (htree : lister.HasLabels)
    (h : Reaches lister config (.start config) state) {error error' : WalkError}
    (herror : error ∈ state.errors) (herror' : error' ∈ state.errors)
    (hfatal : error.isFatal = true) (hfatal' : error'.isFatal = true) : error = error' := by
  have hfrom : ∀ error ∈ state.errors, lister.FromTree (.failed error) := by
    intro error herror
    have hmark : Mark.failed error ∈ state.collected := by
      simp only [State.collected, List.mem_append, List.mem_map]
      exact .inr ⟨error, herror, rfl⟩
    obtain ⟨found, hfound, houtline⟩ := exists_fromTree_of_mem_collected htree h hmark
    cases found with
    | failed _ =>
      cases houtline
      exact hfound
    | _ => cases houtline
  exact Lister.eq_of_isFatal (hfrom error herror) (hfrom error' herror') hfatal hfatal'

/-- Settling roles keeps all paths. -/
theorem map_path_settle (entries : List Entry) :
    (Hardlink.settle entries).map (·.path) = entries.map (·.path) := by
  have houtline := congrArg (List.map (·.path)) (Hardlink.map_outline_settle entries)
  rw [List.map_map, List.map_map] at houtline
  simpa only [Function.comp_def, Hardlink.path_outline] using houtline

/-- The skeletons of the entries that were collected. -/
theorem filterMap_entry?_skeleton (state : State) :
    (state.collected.map Mark.skeleton).filterMap Mark.entry? =
      (state.received ++ state.channel).map Entry.skeleton := by
  have hskeleton : ∀ mark : Mark, mark.skeleton.entry? = mark.entry?.map Entry.skeleton := by
    intro mark
    cases mark <;> rfl
  simp only [List.filterMap_map, Function.comp_def, hskeleton]
  rw [← List.map_filterMap, filterMap_entry?_collected, List.map_map]
  exact List.map_congr_left fun entry _ => Entry.skeleton_outline entry

theorem filterMap_failure?_skeleton (state : State) :
    (state.collected.map Mark.skeleton).filterMap Mark.failure? = state.errors := by
  rw [List.filterMap_map, ← filterMap_failure?_collected]
  refine congrArg (state.collected.filterMap ·) (funext fun mark => ?_)
  cases mark <;> rfl

theorem filterMap_counter?_skeleton (state : State) :
    (state.collected.map Mark.skeleton).filterMap Mark.counter? =
      state.collected.filterMap Mark.counter? := by
  rw [List.filterMap_map]
  refine congrArg (state.collected.filterMap ·) (funext fun mark => ?_)
  cases mark <;> rfl

/-- Received entries are sorted to the same paths if they are the same but for their metadata. -/
theorem map_path_sort_eq (htree : lister.HasLabels)
    (h : Reaches lister config (.start config) state)
    (hperm : (state.received.map Entry.skeleton).Perm (state'.received.map Entry.skeleton)) :
    (Order.sort state.received).map (·.path) = (Order.sort state'.received).map (·.path) := by
  have hpath : ∀ entries : List Entry,
      entries.map (·.path) = (entries.map Entry.skeleton).map (·.path) := by
    intro entries
    rw [List.map_map]
    rfl
  have hpairwise : (state.received.map Entry.skeleton).Pairwise fun a b =>
      Order.compareEntries a b ≠ .eq := by
    rw [List.pairwise_map]
    simpa only [Order.compareEntries_map Entry.keepsKey_skeleton] using
      pairwise_ne_eq_of_reaches htree h
  have : Std.Symm fun a b : Entry => Order.compareEntries a b ≠ .eq :=
    ⟨fun _ _ hne heq => hne (Order.compareEntries_eq_comm.1 heq)⟩
  have hsorted : Order.sort (state.received.map Entry.skeleton) =
      Order.sort (state'.received.map Entry.skeleton) := by
    refine Order.mergeSort_eq_of_perm hperm fun a ha b hb heq => ?_
    by_contra hne
    exact hpairwise.forall ha hb hne heq
  rw [hpath, hpath (Order.sort _), ← Order.sort_map Entry.keepsKey_skeleton,
    ← Order.sort_map Entry.keepsKey_skeleton, hsorted]

/-- Walks that have collected the same marks, but for the metadata of their entries, select the
same. -/
theorem map_selection_result_eq (htree : lister.HasLabels) (htree' : other.HasLabels)
    (hroot : rootError? lister = rootError? other)
    (h : Reaches lister config (.start config) state)
    (h' : Reaches other config' (.start config') state')
    (hdone : state.isDone = true) (hdone' : state'.isDone = true)
    (hperm : (state.collected.map Mark.skeleton).Perm (state'.collected.map Mark.skeleton)) :
    (result lister state).map WalkOutcome.selection =
      (result other state').map WalkOutcome.selection := by
  have hentries := hperm.filterMap Mark.entry?
  rw [filterMap_entry?_skeleton, filterMap_entry?_skeleton, (isDone_eq_true_iff.1 hdone).1,
    (isDone_eq_true_iff.1 hdone').1, List.append_nil, List.append_nil] at hentries
  have herrors := hperm.filterMap Mark.failure?
  rw [filterMap_failure?_skeleton, filterMap_failure?_skeleton] at herrors
  have hexcluded := (hperm.filterMap Mark.counter?).count_eq Counter.excluded
  rw [filterMap_counter?_skeleton, filterMap_counter?_skeleton, count_counter?_collected,
    count_counter?_collected] at hexcluded
  have hfatal : state.errors.find? (·.isFatal) = state'.errors.find? (·.isFatal) :=
    find?_eq_of_perm herrors fun _ ha _ hb => eq_of_mem_errors_of_isFatal htree h ha hb
  unfold result
  rw [← hroot]
  cases rootError? lister with
  | some error => rfl
  | none =>
    dsimp only
    rw [conclude_eq_match, conclude_eq_match, hfatal, check_sort_received htree h,
      check_sort_received htree' h']
    cases state'.errors.find? (·.isFatal) with
    | some error => rfl
    | none =>
      refine congrArg Except.ok (Prod.ext ?_ hexcluded)
      change (Hardlink.settle (Order.sort state.received)).map (·.path) =
        (Hardlink.settle (Order.sort state'.received)).map (·.path)
      rw [map_path_settle, map_path_settle, map_path_sort_eq htree h hentries]

/-- All walks of a tree, with or without capture of attributes, end, and they select the same. -/
theorem exists_selection (htree : lister.HasLabels)
    (hprovider : ∀ location, ∃ present readings,
      lister.provider.Faithful location present readings fun _ => True) :
    ∃ answer, ∀ (reads : Bool) (config : WalkConfig),
      (∃ state, Reaches (lister.readingAttributes reads) config (.start config) state ∧
        state.isDone = true) ∧
      ∀ state, Reaches (lister.readingAttributes reads) config (.start config) state →
        state.isDone = true →
        (result (lister.readingAttributes reads) state).map WalkOutcome.selection = answer := by
  obtain ⟨bound, hbound⟩ := htree.exists_bound
  have haccounts : ∀ reads, (lister.readingAttributes reads).Accounts
      ((lister.readingAttributes reads).account (bound + 1)) := fun reads =>
    Lister.accounts_of_bound (htree.readingAttributes reads) fun directory hdirectory =>
      hbound directory (Lister.hasDirectory_of_readingAttributes hdirectory)
  have hends : ∀ reads config, ∃ state,
      Reaches (lister.readingAttributes reads) config (.start config) state ∧
        state.isDone = true := fun reads config =>
    exists_done (haccounts reads) (accounted_start _ config _)
  -- The marks of every walk are those of the tree, but for the metadata of the entries.
  have hcollected : ∀ {reads config state},
      Reaches (lister.readingAttributes reads) config (.start config) state →
        state.isDone = true → (state.collected.map Mark.skeleton).Perm
          ((lister.marks (bound + 1) []).map Mark.skeleton) := by
    intro reads config state hreaches hdone
    have hfinal := accounted_reaches (haccounts reads) (accounted_start _ config _) hreaches
    have hperm := (Multiset.coe_eq_coe.1 (hfinal.collected_eq hdone)).map Mark.skeleton
    have houtline : Mark.skeleton ∘ Mark.outline = Mark.skeleton := funext Mark.skeleton_outline
    rwa [List.map_map, houtline, Lister.map_skeleton_marks hprovider] at hperm
  obtain ⟨reference, hreference, hrefdone⟩ := hends true (.ofProcessors 1)
  refine ⟨(result (lister.readingAttributes true) reference).map WalkOutcome.selection,
    fun reads config => ⟨hends reads config, fun state hreaches hdone => ?_⟩⟩
  exact map_selection_result_eq (htree.readingAttributes reads) (htree.readingAttributes true) rfl
    hreaches hreference hdone hrefdone
    ((hcollected hreaches hdone).trans (hcollected hreference hrefdone).symm)

end Walk

/-! ## Exclusion and capture -/

/-- Whether an object is left out does not depend on whether its attributes were captured before.
So all walks of a tree end with the same paths and the same number of objects left out, or with the
same failure, whether or not they capture attributes. -/
theorem exclusion_independent_of_capture :
    (∀ {σ : Type} {provider : AttributeProvider σ} {target : Path} {present : String → Prop}
        {readings : String → Option (Option Bytes)} {valid : σ → Prop} {state : σ} {entry : Entry},
        provider.Faithful target present readings valid → valid state → entry.attributes = none →
          ((Exclusion.isExcluded provider target
              ((captureAttributes provider entry target).run state).value.2).run
            ((captureAttributes provider entry target).run state).state).value =
            ((Exclusion.isExcluded provider target entry).run state).value) ∧
      ∀ {lister : Lister}, lister.HasLabels →
        (∀ location, ∃ present readings,
          lister.provider.Faithful location present readings fun _ => True) →
        ∃ answer, ∀ (reads : Bool) (config : WalkConfig),
          (∃ state, Walk.Reaches (lister.readingAttributes reads) config (.start config) state ∧
            state.isDone = true) ∧
          ∀ state, Walk.Reaches (lister.readingAttributes reads) config (.start config) state →
            state.isDone = true →
            (Walk.result (lister.readingAttributes reads) state).map WalkOutcome.selection =
              answer :=
  ⟨fun hfaithful hvalid hentry => hfaithful.value_isExcluded_captured hvalid hentry,
    fun htree hprovider => Walk.exists_selection htree hprovider⟩

def hasMarker (location : Path) : Bool :=
  location = [0x72, 0x2F, 0x61] ∨ location = [0x72, 0x2F, 0x62]

/-- A tree with the files `r/a`, `r/b` and `r/c`. The names of the first must not be listed. -/
def markedTree : Lister where
  root := [0x72]
  options := { excludeByAttribute := true }
  view := {
    stat := fun _ => .ok (Walk.linkedStat false)
    lstat := fun _ => .ok (Walk.linkedStat true)
    readLink := fun _ => .error (.os .einval)
    readDirectory := fun path =>
      if path = [0x72] then .ok [.ok [0x61], .ok [0x62], .ok [0x63]] else .error (.os .enotdir)
    attributeNames := fun _ => .ok []
    attributeValue := fun _ _ => .ok none
    openObject := fun _ _ => .error (.os .eloop)
    flagWord := fun _ => .ok 0 }
  provider := {
    list := fun location => pure (
      if location = [0x72, 0x2F, 0x61] then .error ⟨.listAttributes, location, .os .eacces⟩
      else .ok (if hasMarker location then [Exclusion.markerName] else []))
    get := fun location name => pure (.ok (
      if hasMarker location ∧ name = Exclusion.markerName then some [] else none))
    set := fun _ _ _ => pure (.ok ())
    remove := fun _ _ => pure (.ok ()) }

theorem hasDirectory_markedTree {directory : Path} (h : markedTree.HasDirectory directory) :
    directory = [] := by
  induction h with
  | root => rfl
  | child hparent hnames hname hstat hkind ih =>
    cases hstat
    exact absurd hkind (by decide)

theorem hasLabels_markedTree : markedTree.HasLabels where
  finite := (Set.finite_singleton []).subset fun _ => hasDirectory_markedTree
  isLabel hdirectory hnames hname := by
    cases hasDirectory_markedTree hdirectory
    cases hnames
    simp only [List.mem_cons, Except.ok.injEq, List.not_mem_nil, or_false] at hname
    rcases hname with rfl | rfl | rfl <;> constructor <;> decide
  nodup hdirectory hnames := by
    cases hasDirectory_markedTree hdirectory
    cases hnames
    decide

theorem faithful_markedTree (location : Path) : markedTree.provider.Faithful location
    (fun name => hasMarker location = true ∧ name = Exclusion.markerName)
    (fun name => some (if hasMarker location ∧ name = Exclusion.markerName then some [] else none))
    fun _ => True where
  list _ := trivial
  get _ _ := ⟨trivial, rfl⟩
  mem_iff := by
    intro state names _ hlist name
    change (if location = [0x72, 0x2F, 0x61] then
        .error ⟨.listAttributes, location, .os .eacces⟩
      else .ok (if hasMarker location then [Exclusion.markerName] else []) :
        Except MetadataError (List String)) = .ok names at hlist
    split at hlist
    · cases hlist
    · cases hlist
      cases hasMarker location <;> simp
  of_absent := by
    intro name habsent
    exact .inl (congrArg some (if_neg habsent))

/-- The marker of `r/a` is found though the names were not listed, and all walks end with `r/c` only
and with two objects left out. -/
theorem exclusion_independent_of_capture_markedTree :
    ((Exclusion.isExcluded markedTree.provider [0x72, 0x2F, 0x61]
        ((captureAttributes markedTree.provider (Entry.new [0x61] 0o100644)
          [0x72, 0x2F, 0x61]).run ()).value.2).run ()).value = true ∧
      ∀ reads config state,
        Walk.Reaches (markedTree.readingAttributes reads) config (.start config) state →
          state.isDone = true →
          (Walk.result (markedTree.readingAttributes reads) state).map WalkOutcome.selection =
            .ok ([[0x63]], 2) := by
  obtain ⟨hobject, hwalk⟩ := exclusion_independent_of_capture
  constructor
  · have hentry : (Entry.new [0x61] 0o100644).attributes = none := rfl
    refine (hobject (faithful_markedTree [0x72, 0x2F, 0x61]) trivial hentry).trans ?_
    decide
  · obtain ⟨answer, hanswer⟩ := hwalk hasLabels_markedTree fun location =>
      ⟨_, _, faithful_markedTree location⟩
    have hdone : (Walk.runFrom (markedTree.readingAttributes false) (.ofProcessors 1) 30
        (.start (.ofProcessors 1))).isDone = true := by
      cbv
    have hresult : (Walk.result (markedTree.readingAttributes false)
        (Walk.runFrom (markedTree.readingAttributes false) (.ofProcessors 1) 30
          (.start (.ofProcessors 1)))).map WalkOutcome.selection = .ok ([[0x63]], 2) := by
      cbv
    have hreaches := Walk.reaches_runFrom (markedTree.readingAttributes false) (.ofProcessors 1) 30
      (.refl (.start (.ofProcessors 1)))
    obtain rfl := ((hanswer false (.ofProcessors 1)).2 _ hreaches hdone).symm.trans hresult
    exact fun reads config => (hanswer reads config).2

end TreeManifest
