import TreeManifest.Proofs.Walk.Accounted
import TreeManifest.Proofs.Walk.Conclude

/-!
# The result of a walk does not depend on the schedule

Whatever the number of workers, the capacity of the channel and the order in which the system gives
the names, and whichever worker makes the next step, a walk ends, and it ends with one result.

## Main definitions

- `Walk.Concludes`: every run from a state ends with a given result.
- `Walk.Returns`: every run of a walk does.
- `Walk.Invariant`: what holds in every state of a walk.

## Main statements

- `Walk.invariant_step`: steps keep the invariant.
- `Walk.settled_of_invariant`: a final state has collected the marks of the tree.
- `Walk.Returns.result_eq`: a run that has ended gives the result that all runs end with.
- `Walk.exists_returns`: all walks of a tree return one result.
-/

namespace TreeManifest.Walk

/-- Every run from a state ends with the given result, whoever makes the next step. -/
inductive Concludes (lister : Lister) (config : WalkConfig)
    (outcome : Except WalkError WalkOutcome) : State → Prop where
  | done {state : State} (hdone : state.isDone = true) (hresult : conclude lister state = outcome) :
      Concludes lister config outcome state
  | step {state : State} (hsome : ∃ after, Step lister config state after)
      (hall : ∀ after, Step lister config state after → Concludes lister config outcome after) :
      Concludes lister config outcome state

/-- Every run of a walk ends with the given result. A root that cannot be walked is refused before
any worker begins. -/
def Returns (lister : Lister) (config : WalkConfig) (outcome : Except WalkError WalkOutcome) :
    Prop :=
  match rootError? lister with
  | some error => outcome = .error error
  | none => Concludes lister config outcome (.start config)

/-- What holds in every state of a walk. -/
structure Invariant (lister : Lister) (account : Path → Multiset Mark)
    (contents : ObjectId → Content) (state : State) : Prop extends
    Accounted lister account state where
  observed : Observed contents state.tracker state.emitted

variable {lister : Lister} {config : WalkConfig} {state before after : State}
  {account : Path → Multiset Mark} {contents : ObjectId → Content}

theorem invariant_start (lister : Lister) (config : WalkConfig) (account : Path → Multiset Mark)
    (contents : ObjectId → Content) : Invariant lister account contents (.start config) where
  toAccounted := accounted_start lister config account
  observed := observed_start contents config

/-- Steps keep the invariant. -/
theorem invariant_step (haccounts : lister.Accounts account)
    (hcontents : lister.HasContents contents)
    (hinvariant : Invariant lister account contents before) (h : Step lister config before after) :
    Invariant lister account contents after where
  toAccounted := accounted_step haccounts hinvariant.toAccounted h
  observed := observed_step hcontents hinvariant.sound h hinvariant.observed

/-- A final state has collected the marks of the tree. -/
theorem settled_of_invariant {marks : List Mark} (hmarks : account [] = marks)
    (hinvariant : Invariant lister account contents state) (hdone : state.isDone = true) :
    Settled contents marks state where
  channel := (isDone_eq_true_iff.1 hdone).1
  collected := Multiset.coe_eq_coe.1 ((hinvariant.collected_eq hdone).trans hmarks)
  carries := by
    have hobserved := hinvariant.observed
    rw [State.emitted, (isDone_eq_true_iff.1 hdone).1, List.append_nil,
      total_eq_zero_of_isDone rfl hdone, add_zero] at hobserved
    exact carries_of_observed hobserved

/-! ## Runs -/

/-- Runs keep the invariant. -/
theorem invariant_reaches (haccounts : lister.Accounts account)
    (hcontents : lister.HasContents contents) {first last : State}
    (hinvariant : Invariant lister account contents first) (h : Reaches lister config first last) :
    Invariant lister account contents last := by
  induction h with
  | refl => exact hinvariant
  | tail _ step ih => exact invariant_step haccounts hcontents ih step

theorem reaches_trans {first middle last : State} (h : Reaches lister config first middle)
    (h' : Reaches lister config middle last) : Reaches lister config first last := by
  induction h' with
  | refl => exact h
  | tail _ step ih => exact ih.tail step

/-- A walk can be run to its end. -/
theorem exists_done (haccounts : lister.Accounts account)
    (haccounted : Accounted lister account state) :
    ∃ final, Reaches lister config state final ∧ final.isDone = true := by
  -- Steps lower the cost, so the induction is on the cost of the state.
  generalize hcost : state.cost lister account = cost
  induction cost using Nat.strong_induction_on generalizing state with
  | _ cost ih =>
    cases hdone : state.isDone with
    | true => exact ⟨state, .refl state, hdone⟩
    | false =>
      obtain ⟨after, hstep⟩ := @exists_step lister config state haccounted.orderly.attended hdone
      have hcheaper := cost_step haccounts haccounted.sound haccounted.orderly hstep
      rw [hcost] at hcheaper
      have hafter := accounted_step haccounts haccounted hstep
      obtain ⟨final, hreaches, hfinal⟩ := ih _ hcheaper hafter rfl
      exact ⟨final, reaches_trans (.tail (.refl state) hstep) hreaches, hfinal⟩

/-- Every run from a state ends with the result of all final states. -/
theorem concludes_of_invariant (haccounts : lister.Accounts account)
    (hcontents : lister.HasContents contents) {outcome : Except WalkError WalkOutcome}
    (houtcome : ∀ final, final.isDone = true → Invariant lister account contents final →
      conclude lister final = outcome)
    (hinvariant : Invariant lister account contents state) :
    Concludes lister config outcome state := by
  generalize hcost : state.cost lister account = cost
  induction cost using Nat.strong_induction_on generalizing state with
  | _ cost ih =>
    cases hdone : state.isDone with
    | true => exact .done hdone (houtcome state hdone hinvariant)
    | false =>
      refine .step (exists_step hinvariant.orderly.attended hdone) fun after hstep => ?_
      have hcheaper := cost_step haccounts hinvariant.sound hinvariant.orderly hstep
      rw [hcost] at hcheaper
      exact ih _ hcheaper (invariant_step haccounts hcontents hinvariant hstep) rfl

/-- A final state has no next one. -/
theorem not_step_of_isDone (hdone : state.isDone = true) : ¬ Step lister config state after := by
  rw [State.isDone, Bool.and_eq_true, List.isEmpty_iff, List.all_eq_true] at hdone
  intro h
  rcases step_cases h with ⟨entry, rest, hchannel, -⟩ |
      ⟨worker, phase, middle, next, hworker, hturn, -⟩
  · rw [hdone.1] at hchannel
    cases hchannel
  · have hleft := hdone.2 phase (List.mem_of_getElem? hworker)
    cases hturn <;> cases hleft

/-- What all walks from a state end with, all walks from the next state end with. -/
theorem Concludes.of_step {outcome : Except WalkError WalkOutcome}
    (hconcludes : Concludes lister config outcome before) (h : Step lister config before after) :
    Concludes lister config outcome after := by
  cases hconcludes with
  | done hdone _ => exact absurd h (not_step_of_isDone hdone)
  | step _ hall => exact hall after h

/-- A run that has ended gives the result that every run ends with. -/
theorem Returns.result_eq {outcome : Except WalkError WalkOutcome}
    (hreturns : Returns lister config outcome) (h : Reaches lister config (.start config) state)
    (hdone : state.isDone = true) : result lister state = outcome := by
  unfold Returns at hreturns
  unfold result
  cases hroot : rootError? lister with
  | some error =>
    rw [hroot] at hreturns
    exact hreturns.symm
  | none =>
    rw [hroot] at hreturns
    have hconcludes : Concludes lister config outcome state := by
      clear hdone
      generalize hfirst : State.start config = first at h
      induction h with
      | refl => exact hfirst ▸ hreturns
      | tail _ step ih => exact ih.of_step step
    cases hconcludes with
    | done _ hresult => exact hresult
    | step hsome _ =>
      obtain ⟨after, hstep⟩ := hsome
      exact absurd hstep (not_step_of_isDone hdone)

/-! ## Walks of a tree -/

/-- Places tell the marks of a tree apart. -/
theorem distinct_marks (htree : lister.IsTree) (depth : Nat) :
    Distinct lister.root ((lister.marks depth []).map Mark.outline) where
  nodup := by
    rw [List.filterMap_map]
    have hplaces : (fun mark : Mark => mark.place? lister.root) ∘ Mark.outline =
        fun mark => mark.place? lister.root := by
      funext mark
      exact Mark.place?_outline lister.root mark
    rw [hplaces]
    exact Lister.nodup_places htree depth [] .root
  nul_notMem entry hentry := by
    obtain ⟨mark, hmark, houtline⟩ := List.mem_map.1 hentry
    cases mark with
    | captured captured =>
      cases houtline
      rw [Hardlink.path_outline]
      exact Lister.nul_notMem_of_captured htree.hasLabels
        (Lister.fromTree_of_mem_marks depth [] .root _ hmark)
    | _ => cases houtline
  eq_of_isFatal error other herror hother := by
    have hfrom : ∀ failure, .failed failure ∈ (lister.marks depth []).map Mark.outline →
        lister.FromTree (.failed failure) := by
      intro failure hfailure
      obtain ⟨mark, hmark, houtline⟩ := List.mem_map.1 hfailure
      cases mark with
      | failed found =>
        cases houtline
        exact Lister.fromTree_of_mem_marks depth [] .root _ hmark
      | _ => cases houtline
    exact Lister.eq_of_isFatal (hfrom error herror) (hfrom other hother)

/-- In every order, one measure accounts for a tree. -/
theorem exists_accounts (htree : lister.IsTree) :
    ∃ depth, ∀ order, (lister.reordered order).Accounts (lister.account depth) := by
  obtain ⟨bound, hbound⟩ := htree.hasLabels.exists_bound
  refine ⟨bound + 1, fun order => ?_⟩
  rw [← Lister.account_reordered order]
  exact Lister.accounts_of_bound (Lister.isTree_reordered htree order).hasLabels
    fun directory hdirectory => hbound directory (Lister.hasDirectory_of_reordered hdirectory)

/-- All walks of a finite tree in which nothing changes return one result: any number of workers may
list it and any number of entries may be under way, in whatever order the names of its directories
are given and whoever makes the next step. -/
theorem exists_returns (htree : lister.IsTree) (hreads : lister.ReadsByObject) :
    ∃ outcome, ∀ (order : ReadingOrder) (config : WalkConfig) (workers capacity : Nat),
      Returns (lister.reordered order) ((config.setWorkers workers).setCapacity capacity)
        outcome := by
  obtain ⟨depth, haccounts⟩ := exists_accounts htree
  obtain ⟨contents, hcontents⟩ := Lister.exists_hasContents htree hreads
  have hroot : ∀ order, rootError? (lister.reordered order) = rootError? lister := fun _ => rfl
  cases herror : rootError? lister with
  | some error =>
    refine ⟨.error error, fun order config workers capacity => ?_⟩
    rw [Returns, hroot, herror]
  | none =>
    have hsettled : ∀ {order final}, final.isDone = true →
        Invariant (lister.reordered order) (lister.account depth) contents final →
        Settled contents ((lister.marks depth []).map Mark.outline) final :=
      fun hdone hinvariant => settled_of_invariant rfl hinvariant hdone
    -- The result is that of one run; every other run collects the same marks.
    let given : ReadingOrder := ⟨fun _ names => names, fun _ _ => .refl _⟩
    have hgiven := invariant_start (lister.reordered given) (.ofProcessors 1)
      (lister.account depth) contents
    obtain ⟨reference, hreaches, hreference⟩ := @exists_done _ (.ofProcessors 1) _ _
      (haccounts given) hgiven.toAccounted
    have hinvariant := invariant_reaches (haccounts given) (hcontents.reordered given) hgiven
      hreaches
    refine ⟨conclude lister reference, fun order config workers capacity => ?_⟩
    rw [Returns, hroot, herror]
    refine concludes_of_invariant (haccounts order) (hcontents.reordered order) ?_
      (invariant_start _ _ _ _)
    intro final hdone hfinal
    have hdistinct : Distinct (lister.reordered order).root _ := distinct_marks htree depth
    exact conclude_eq rfl hdistinct (hsettled hdone hfinal) (hsettled hreference hinvariant)

def isLinked (path : Path) : Bool :=
  path ∈ [[0x72, 0x2F, 0x61], [0x72, 0x2F, 0x64, 0x2F, 0x62]]

def linkedStat : Bool → Stat
  | true => ⟨0o100644, 3, 0, 0, 0, 2, 0, ⟨1, 7⟩⟩
  | false => ⟨0o040755, 0, 0, 0, 0, 2, 0, ⟨1, 8⟩⟩

/-- A tree with the file `r/a`, which is also `r/d/b`. -/
def linkedTree : Lister :=
  .native [0x72] {} {
    stat := fun path => .ok (linkedStat (isLinked path))
    lstat := fun path => .ok (linkedStat (isLinked path))
    readLink := fun _ => .error (.os .einval)
    readDirectory := fun path =>
      if path = [0x72] then .ok [.ok [0x61], .ok [0x64]]
      else if path = [0x72, 0x2F, 0x64] then .ok [.ok [0x62]]
      else .error (.os .enotdir)
    attributeNames := fun path => .ok (if isLinked path then [.text "user.note"] else [])
    attributeValue := fun path _ => .ok (if isLinked path then some [1] else none)
    openObject := fun path _ => .ok (if isLinked path then ⟨3⟩ else ⟨4⟩)
    flagWord := fun handle => .ok (if handle = ⟨3⟩ then Flags.Ioctl.noDump else 0) }

theorem hasDirectory_linkedTree {directory : Path} (h : linkedTree.HasDirectory directory) :
    directory = [] ∨ directory = [0x64] := by
  induction h with
  | root => exact .inl rfl
  | child hparent hnames hname hstat hkind ih =>
    rcases ih with rfl | rfl
    · cases hnames
      rcases List.mem_pair.1 hname with hname | hname <;> cases hname
      · cases hstat
        exact absurd hkind (by decide)
      · exact .inr rfl
    · cases hnames
      cases List.mem_singleton.1 hname
      cases hstat
      exact absurd hkind (by decide)

theorem stat_linkedTree {location : Path} {stat : Stat} (h : linkedTree.HasObject location stat) :
    stat = linkedStat (isLinked location) := by
  obtain ⟨parent, names, name, -, -, -, -, hstat⟩ := h
  exact (Except.ok.inj hstat).symm

theorem isLinked_eq {first second : Path} {stat other : Stat}
    (hfirst : linkedTree.HasObject first stat) (hsecond : linkedTree.HasObject second other)
    (hidentity : stat.identity = other.identity) : isLinked first = isLinked second := by
  rw [stat_linkedTree hfirst, stat_linkedTree hsecond] at hidentity
  have hinjective : ∀ a b, (linkedStat a).identity = (linkedStat b).identity → a = b := by decide
  exact hinjective _ _ hidentity

theorem isTree_linkedTree : linkedTree.IsTree where
  finite := (Set.toFinite {[], [0x64]}).subset fun _ => hasDirectory_linkedTree
  isName hdirectory hnames hname := by
    rcases hasDirectory_linkedTree hdirectory with rfl | rfl
    · cases hnames
      rcases List.mem_pair.1 hname with hname | hname <;> cases hname <;> constructor <;> decide
    · cases hnames
      cases List.mem_singleton.1 hname
      constructor <;> decide
  nodup hdirectory hnames := by
    rcases hasDirectory_linkedTree hdirectory with rfl | rfl <;> cases hnames <;> decide
  stat_eq hfirst hsecond hidentity := by
    rw [stat_linkedTree hfirst, stat_linkedTree hsecond, isLinked_eq hfirst hsecond hidentity]

theorem list_linkedTree (path : Path) : ((linkedTree.provider.list path).run ()).value.toOption =
    some (if isLinked path then ["user.note"] else []) := by
  show ((NativeAttributes.list _ linkedTree.view path).run ()).value.toOption = _
  have hnames : linkedTree.view.attributeNames path =
      .ok (if isLinked path then [.text "user.note"] else []) := rfl
  unfold NativeAttributes.list
  rw [hnames]
  cases isLinked path <;> rfl

theorem read_linkedTree (path : Path) (stat : Stat) :
    (Flags.read linkedTree.view path stat).toOption =
      some (if stat.kind.hasFlagWord ∧ isLinked path then some Flags.Ioctl.noDump else none) := by
  unfold Flags.read
  cases stat.kind.hasFlagWord with
  | false => rfl
  | true =>
    have hopen : linkedTree.view.openForFlags path (stat.kind = .directory) =
        .ok (if isLinked path then ⟨3⟩ else ⟨4⟩) := rfl
    rw [hopen]
    cases isLinked path <;> rfl

theorem readsByObject_linkedTree : linkedTree.ReadsByObject where
  names hfirst hsecond hidentity := by
    rw [list_linkedTree, list_linkedTree, isLinked_eq hfirst hsecond hidentity]
  value name hfirst hsecond hidentity := by
    have hlinked := isLinked_eq hfirst hsecond hidentity
    show some (if isLinked _ then _ else _) = some (if isLinked _ then _ else _)
    rw [hlinked]
  flags hfirst hsecond hidentity := by
    have hstat := isTree_linkedTree.stat_eq hfirst hsecond hidentity
    rw [read_linkedTree, read_linkedTree, isLinked_eq hfirst hsecond hidentity, hstat]

/-- All walks of the tree with a file that has two names return one result. -/
theorem exists_returns_linkedTree :
    linkedTree.IsTree ∧ linkedTree.ReadsByObject ∧
      ∃ outcome, ∀ (order : ReadingOrder) (config : WalkConfig) (workers capacity : Nat),
        Returns (linkedTree.reordered order) ((config.setWorkers workers).setCapacity capacity)
          outcome :=
  ⟨isTree_linkedTree, readsByObject_linkedTree,
    exists_returns isTree_linkedTree readsByObject_linkedTree⟩

end TreeManifest.Walk
