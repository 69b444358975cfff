import TreeManifest.Proofs.Walk.Schedule

/-!
# Received entries can always be sorted

Whoever makes the next step, what a walk has received so far is a part of the marks of its tree. No
two entries of a tree have one path, and paths without NUL have keys of their own, so no two of the
received entries tie and the check behind sorting accepts them. It takes no more than names that a
path can take up and that are told apart within their directory; they may well be `.` and `..`.

## Main definitions

- `Walk.Mark.entryPlace?`: the place of an entry.

## Main statements

- `Walk.exists_collected_subperm`: at any moment, what was collected is a part of the marks.
- `Walk.pairwise_ne_eq_of_reaches`: no two received entries tie.
- `Walk.find?_isFatal_eq_none`: a walk whose root can be listed has no fatal failure.
- `Walk.order_error_unreachable`: no walk of a tree fails for the order of its entries.
-/

namespace TreeManifest.Walk

/-- The place of an entry. Nothing else has one. -/
def Mark.entryPlace? (lister : Lister) (mark : Mark) : Option (Bool × List Path.Step) :=
  mark.entry?.map fun entry => (false, lister.stepsTo entry.path)

variable {lister : Lister} {config : WalkConfig} {state : State}
  {account : Path → Multiset Mark}

theorem givesPlaces_entryPlace? (lister : Lister) :
    lister.GivesPlaces (Mark.entryPlace? lister) where
  captured _ := rfl
  failed _ _ hplace := by cases hplace
  skipped _ := rfl
  excluded := rfl
  emitted := rfl
  listed := rfl

/-! ## What was collected so far -/

theorem Accounted.collected_le (h : Accounted lister account state) :
    (state.collected : Multiset Mark) ≤ account [] := by
  have hbalanced := h.balanced
  rw [Balanced] at hbalanced
  rw [← hbalanced]
  exact Multiset.le_add_right _ _

/-- At any moment, what a walk has collected is a part of the marks of its tree. -/
theorem exists_collected_subperm (htree : lister.HasLabels)
    (h : Reaches lister config (.start config) state) :
    ∃ depth, state.collected.Subperm ((lister.marks depth []).map Mark.outline) := by
  obtain ⟨bound, hbound⟩ := htree.exists_bound
  have haccounts := Lister.accounts_of_bound htree hbound
  have haccounted := accounted_reaches haccounts (accounted_start lister config _) h
  exact ⟨bound + 1, Multiset.coe_le.1 haccounted.collected_le⟩

/-- Whatever was collected is a mark of the tree. -/
theorem exists_fromTree_of_mem_collected (htree : lister.HasLabels)
    (h : Reaches lister config (.start config) state) {mark : Mark}
    (hmark : mark ∈ state.collected) : ∃ found, lister.FromTree found ∧ found.outline = mark := by
  obtain ⟨depth, hsubperm⟩ := exists_collected_subperm htree h
  obtain ⟨found, hfound, rfl⟩ := List.mem_map.1 (hsubperm.subset hmark)
  exact ⟨found, Lister.fromTree_of_mem_marks depth [] .root found hfound, rfl⟩

/-! ## Entries -/

theorem nul_notMem_of_mem_received (htree : lister.HasLabels)
    (h : Reaches lister config (.start config) state) {entry : Entry}
    (hentry : entry ∈ state.received) : Bytes.nul ∉ entry.path := by
  have hmark : (Mark.captured entry).outline ∈ state.collected := by
    simp only [State.collected, List.mem_append, List.mem_map]
    exact .inl (.inl (.inl ⟨entry, .inl hentry, rfl⟩))
  obtain ⟨found, hfrom, houtline⟩ := exists_fromTree_of_mem_collected htree h hmark
  cases found with
  | captured captured =>
    have hcaptured := Lister.nul_notMem_of_captured htree hfrom
    have hpath := congrArg Entry.path (Mark.captured.inj houtline)
    rw [Hardlink.path_outline, Hardlink.path_outline] at hpath
    rw [← hpath]
    exact hcaptured
  | _ => cases houtline

theorem Mark.entryPlace?_outline (lister : Lister) (mark : Mark) :
    mark.outline.entryPlace? lister = mark.entryPlace? lister := by
  cases mark with
  | captured entry =>
    show some (false, lister.stepsTo (Hardlink.outline entry).path) = _
    rw [Hardlink.path_outline]
    rfl
  | _ => rfl

theorem filterMap_entryPlace?_collected (lister : Lister) (state : State) :
    state.collected.filterMap (Mark.entryPlace? lister) =
      (state.received ++ state.channel).map fun entry => (false, lister.stepsTo entry.path) := by
  show state.collected.filterMap (fun mark =>
    mark.entry?.map fun entry => (false, lister.stepsTo entry.path)) = _
  rw [← List.map_filterMap, filterMap_entry?_collected, List.map_map]
  refine List.map_congr_left fun entry _ => ?_
  show (false, lister.stepsTo (Hardlink.outline entry).path) = _
  rw [Hardlink.path_outline]

/-- No two entries that were sent have one place. -/
theorem nodup_stepsTo_sent (htree : lister.HasLabels)
    (h : Reaches lister config (.start config) state) :
    ((state.received ++ state.channel).map fun entry => lister.stepsTo entry.path).Nodup := by
  obtain ⟨depth, part, hperm, hsublist⟩ := exists_collected_subperm htree h
  have hnodup := Lister.nodup_places_of_hasLabels htree (givesPlaces_entryPlace? lister) depth []
    .root
  have houtline : ((lister.marks depth []).map Mark.outline).filterMap (Mark.entryPlace? lister) =
      (lister.marks depth []).filterMap (Mark.entryPlace? lister) := by
    rw [List.filterMap_map]
    congr 1
    funext mark
    exact Mark.entryPlace?_outline lister mark
  rw [← houtline] at hnodup
  -- Entries that were sent are collected marks, and those are a part of the marks of the tree.
  have hcollected := (hperm.filterMap (Mark.entryPlace? lister)).nodup_iff.1
    ((hsublist.filterMap (Mark.entryPlace? lister)).nodup hnodup)
  rw [filterMap_entryPlace?_collected] at hcollected
  refine List.Nodup.of_map (fun place => (false, place)) ?_
  rw [List.map_map]
  exact hcollected

/-- No two received entries tie. -/
theorem pairwise_ne_eq_of_reaches (htree : lister.HasLabels)
    (h : Reaches lister config (.start config) state) :
    state.received.Pairwise fun a b => Order.compareEntries a b ≠ .eq := by
  have hnodup := nodup_stepsTo_sent htree h
  rw [List.Nodup, List.pairwise_map, List.pairwise_append] at hnodup
  refine hnodup.1.imp_of_mem fun {a b} ha hb hne heq => hne ?_
  have hcomponents := Order.components_eq_of_compareEntries_eq
    (nul_notMem_of_mem_received htree h ha) (nul_notMem_of_mem_received htree h hb) heq
  rw [Lister.stepsTo, Lister.stepsTo, hcomponents]

/-- What was received can always be sorted. -/
theorem check_sort_received (htree : lister.HasLabels)
    (h : Reaches lister config (.start config) state) :
    Order.check (Order.sort state.received) = .ok () :=
  Order.check_eq_ok_iff.2 (Order.canonical_sort (pairwise_ne_eq_of_reaches htree h))

/-! ## Failures -/

/-- A noted failure is that of a directory whose names could not be read. -/
theorem exists_opened_of_mem_errors (htree : lister.HasLabels)
    (h : Reaches lister config (.start config) state) {error : WalkError}
    (herror : error ∈ state.errors) :
    ∃ directory, lister.opened directory = .error error := by
  have hmark : Mark.failed error ∈ state.collected := by
    simp only [State.collected, List.mem_append, List.mem_map]
    exact .inr ⟨error, herror, rfl⟩
  obtain ⟨found, hfrom, houtline⟩ := exists_fromTree_of_mem_collected htree h hmark
  cases found with
  | failed other =>
    cases houtline
    cases hfrom with
    | failed _ hopened => exact ⟨_, hopened⟩
  | _ => cases houtline

/-- A walk whose root can be listed has no fatal failure. -/
theorem find?_isFatal_eq_none (htree : lister.HasLabels)
    (h : Reaches lister config (.start config) state) {names : List (Except IoError Bytes)}
    (hnames : lister.view.readDirectory lister.root = .ok names) :
    state.errors.find? (·.isFatal) = none := by
  refine List.find?_eq_none.2 fun error herror hfatal => ?_
  obtain ⟨directory, hopened⟩ := exists_opened_of_mem_errors htree h herror
  have hempty : directory = [] := by
    refine Lister.eq_nil_of_opened_eq_error hopened ?_
    rintro source rfl
    cases hfatal
  rw [hempty, Lister.opened_eq, show lister.directory [] = lister.root from rfl, hnames] at hopened
  cases hopened

/-- A walk whose root can be listed has an outcome. -/
theorem exists_result_eq_ok (htree : lister.HasLabels)
    (h : Reaches lister config (.start config) state) (hroot : rootError? lister = none)
    {names : List (Except IoError Bytes)}
    (hnames : lister.view.readDirectory lister.root = .ok names) :
    ∃ outcome, result lister state = .ok outcome := by
  rw [result, hroot]
  dsimp only
  rw [conclude_eq_match, find?_isFatal_eq_none htree h hnames, check_sort_received htree h]
  exact ⟨_, rfl⟩

/-- No noted failure is one of order. -/
theorem ne_order_of_mem_errors (htree : lister.HasLabels)
    (h : Reaches lister config (.start config) state) {error : WalkError}
    (herror : error ∈ state.errors) (path : Path) (source : OrderError) :
    error ≠ .order path source := by
  obtain ⟨directory, hopened⟩ := exists_opened_of_mem_errors htree h herror
  obtain ⟨cause, rfl⟩ := Lister.exists_of_opened_eq_error hopened
  unfold Lister.openError
  split <;> exact WalkError.noConfusion

/-! ## Results -/

/-- No walk ends with a failure of the order. -/
theorem conclude_ne_order (htree : lister.HasLabels)
    (h : Reaches lister config (.start config) state) (path : Path) (source : OrderError) :
    conclude lister state ≠ .error (.order path source) := by
  rw [conclude_eq_match]
  split
  · next error hfind =>
    have hne := ne_order_of_mem_errors htree h (List.mem_of_find?_eq_some hfind) path source
    exact fun heq => hne (Except.error.inj heq)
  · rw [check_sort_received htree h]
    exact nofun

/-- The root is the only one whose failure says that it cannot be walked. -/
theorem rootError?_ne_order (lister : Lister) (path : Path) (source : OrderError) :
    rootError? lister ≠ some (.order path source) := by
  unfold rootError?
  split
  · simp
  · split <;> simp

/-- No walk of a tree fails for the order of its entries, whatever its options are and whoever makes
the next step. At any moment the received entries can be sorted, and a walk whose root is a
directory that can be listed has an outcome. -/
theorem order_error_unreachable (htree : lister.HasLabels) (config : WalkConfig) :
    (∀ state, Reaches lister config (.start config) state →
      (Order.sortEntries state.received).2 = .ok () ∧
        (∀ path source, result lister state ≠ .error (.order path source)) ∧
        ∀ names, rootError? lister = none → lister.view.readDirectory lister.root = .ok names →
          ∃ outcome, result lister state = .ok outcome) ∧
      ∀ fuel path source, (execute lister config fuel).result ≠ .error (.order path source) := by
  refine ⟨fun state h => ⟨check_sort_received htree h, fun path source => ?_,
    fun names hroot hnames => ?_⟩, fun fuel path source => ?_⟩
  · unfold result
    split
    · next error hroot =>
      exact fun heq => rootError?_ne_order lister path source (hroot.trans
        (congrArg some (Except.error.inj heq)))
    · exact conclude_ne_order htree h path source
  · exact exists_result_eq_ok htree h hroot hnames
  · have hreaches := reaches_runFrom lister config fuel (.refl (.start config))
    have hne := conclude_ne_order htree hreaches path source
    unfold execute
    split
    · next error hroot =>
      exact fun heq => rootError?_ne_order lister path source (hroot.trans
        (congrArg some (Except.error.inj heq)))
    · dsimp only
      split
      · next error hconclude =>
        exact fun heq => hne (hconclude.trans heq)
      · exact nofun

/-- The walk of the tree with a file that has two names ends with its three entries in order. -/
theorem order_error_unreachable_linkedTree :
    linkedTree.HasLabels ∧ ∃ state, Reaches linkedTree (.ofProcessors 1)
      (.start (.ofProcessors 1)) state ∧ state.isDone = true ∧ state.received.length = 3 ∧
      (Order.sortEntries state.received).2 = .ok () ∧
      ∃ outcome, result linkedTree state = .ok outcome := by
  have hdone : (runFrom linkedTree (.ofProcessors 1) 30
      (.start (.ofProcessors 1))).isDone = true := by
    cbv
  have hlength : (runFrom linkedTree (.ofProcessors 1) 30
      (.start (.ofProcessors 1))).received.length = 3 := by
    cbv
  have htree := isTree_linkedTree.hasLabels
  have hreaches := reaches_runFrom linkedTree (.ofProcessors 1) 30 (.refl (.start (.ofProcessors 1)))
  obtain ⟨hsorted, -, houtcome⟩ :=
    (order_error_unreachable htree (.ofProcessors 1)).1 _ hreaches
  exact ⟨htree, _, hreaches, hdone, hlength, hsorted, houtcome _ rfl rfl⟩

/-- A NUL in a name would let two paths tie: `a\0\x02b/c` has the key of `a/b/c`. -/
example : Order.sortKey [0x61, 0x00, 0x02, 0x62, 0x2F, 0x63] false =
    Order.sortKey [0x61, 0x2F, 0x62, 0x2F, 0x63] false := by
  decide

end TreeManifest.Walk
