import TreeManifest.Proofs.Walk.Marks
import TreeManifest.Proofs.Walk.Turn

/-!
# Nothing is lost and nothing is found twice

At any moment of a walk the marks that were collected and those that are still due add up to the
marks of the tree. A turn moves marks from one place to another.

## Main definitions

- `Walk.Sound`: whatever the workers hold belongs to the tree.
- `Walk.State.collected`: the marks in the result so far.
- `Walk.Phase.due`, `Walk.State.outstanding`: the marks that a worker, or the state, still owes.
- `Walk.Balanced`: collected and outstanding marks add up to those of the tree.

## Main statements

- `Walk.sound_step`: steps keep to the tree.
- `Walk.balance_turn`: a turn moves marks.
-/

namespace TreeManifest.Walk

/-! ## Belonging to the tree -/

def Phase.Sound (lister : Lister) : Phase → Prop
  | .opening directory => lister.HasDirectory directory
  | .listing _ todo result | .sending _ _ todo result =>
    (∀ child ∈ todo, lister.IsChild child) ∧
      ∀ directory ∈ result.subdirectories, lister.HasDirectory directory
  | .counting result => ∀ directory ∈ result.subdirectories, lister.HasDirectory directory
  | .completing subdirectories => ∀ directory ∈ subdirectories, lister.HasDirectory directory
  | .failing error => ∃ directory, lister.HasDirectory directory ∧
      lister.opened directory = .error error
  | .ready | .asleep | .reporting _ | .exited => True

/-- Whatever waits or is held by a worker belongs to the tree. -/
structure Sound (lister : Lister) (state : State) : Prop where
  stack : ∀ directory ∈ state.pending.stack, lister.HasDirectory directory
  workers : ∀ phase ∈ state.workers, phase.Sound lister

variable {lister : Lister} {config : WalkConfig} {state before after : State}

theorem sound_start (lister : Lister) (config : WalkConfig) : Sound lister (.start config) where
  stack directory hdirectory := by
    rw [List.mem_singleton.1 hdirectory]
    exact .root
  workers phase hphase := by
    rw [List.eq_of_mem_replicate hphase]
    trivial

/-- Of the kept entries, directories are listed later. -/
theorem subdirectories_keep (listing : Listing) (entry : Entry) :
    (listing.keep entry).subdirectories =
      if entry.isDirectory then entry.path :: listing.subdirectories
      else listing.subdirectories := by
  unfold Listing.keep
  split <;> rfl

/-- A turn leads to a phase that keeps to the tree. -/
theorem sound_turn {phase next : Phase} {middle : State}
    (h : Turn lister config state phase middle next) (hsound : Sound lister state)
    (hphase : phase.Sound lister) :
    next.Sound lister ∧ ∀ directory ∈ middle.pending.stack, lister.HasDirectory directory := by
  cases h with
  | @take directory rest hopen hstack =>
    have hall := hsound.stack
    rw [hstack] at hall
    exact ⟨hall directory List.mem_cons_self, fun other hother =>
      hall other (List.mem_cons_of_mem _ hother)⟩
  | leave | close | sleep | report => exact ⟨trivial, hsound.stack⟩
  | @refuse directory error events hopened =>
    exact ⟨⟨directory, hphase, hopened⟩, hsound.stack⟩
  | @enter directory children skipped events hopened =>
    refine ⟨⟨fun child hchild => ⟨directory, children, skipped, hphase, hopened, hchild⟩, ?_⟩,
      hsound.stack⟩
    intro other hother
    exact absurd hother List.not_mem_nil
  | skip | exclude =>
    exact ⟨⟨fun other hother => hphase.1 other (List.mem_cons_of_mem _ hother), hphase.2⟩,
      hsound.stack⟩
  | @keep child entry classified tracker directory todo listing events hselected hclassify =>
    refine ⟨⟨fun other hother => hphase.1 other (List.mem_cons_of_mem _ hother), ?_⟩, hsound.stack⟩
    -- Its role leaves path and kind of an entry alone, so only directories are noted.
    have hclassified :
        classified = (lister.classify state.tracker entry child.stat.linkCount).1 := by
      rw [hclassify]
    rw [subdirectories_keep, hclassified, Lister.isDirectory_classify, Lister.path_classify]
    split
    · next hdirectory =>
      rw [List.forall_mem_cons]
      exact ⟨Lister.hasDirectory_of_selected_eq_kept (hphase.1 child List.mem_cons_self) hselected
        hdirectory, hphase.2⟩
    · exact hphase.2
  | send => exact ⟨hphase, hsound.stack⟩
  | finish => exact ⟨hphase.2, hsound.stack⟩
  | count => exact ⟨hphase, hsound.stack⟩
  | complete subdirectories =>
    refine ⟨trivial, fun other hother => ?_⟩
    rcases List.mem_append.1 hother with hother | hother
    · exact hphase other (List.mem_reverse.1 hother)
    · exact hsound.stack other hother
  | abort => exact ⟨trivial, fun _ hother => absurd hother List.not_mem_nil⟩
  | giveBack => exact ⟨trivial, hsound.stack⟩

/-- Whatever holds of all phases, of a woken sleeper and of the next phase, holds after a turn. -/
theorem forall_mem_workers_put {P : Phase → Prop} {worker : Nat} {phase next : Phase}
    {middle : State} (h : Turn lister config state phase middle next)
    (hall : ∀ phase ∈ state.workers, P phase) (hready : P .ready) (hnext : P next) :
    ∀ phase ∈ (middle.put worker next).workers, P phase := by
  have hmiddle : ∀ phase ∈ middle.workers, P phase := by
    rcases h.workers_eq with heq | heq
    · rw [heq]
      exact hall
    · rw [heq]
      intro phase hphase
      obtain ⟨old, hold, rfl⟩ := List.mem_map.1 hphase
      -- Only a sleeper is in another phase than before.
      cases old with
      | asleep => exact hready
      | _ => exact hall _ hold
  intro phase hphase
  rcases List.mem_or_eq_of_mem_set hphase with hphase | rfl
  · exact hmiddle phase hphase
  · exact hnext

/-- Steps keep to the tree. -/
theorem sound_step (h : Step lister config before after) (hsound : Sound lister before) :
    Sound lister after := by
  rcases step_cases h with ⟨entry, rest, -, rfl⟩ | ⟨worker, phase, middle, next, hphase, hturn, rfl⟩
  · exact ⟨hsound.stack, hsound.workers⟩
  · obtain ⟨hnext, hstack⟩ := sound_turn hturn hsound
      (hsound.workers phase (List.mem_of_getElem? hphase))
    exact ⟨hstack, forall_mem_workers_put hturn hsound.workers trivial hnext⟩

/-! ## Marks -/

def statsMarks (stats : ListStats) : List Mark :=
  List.replicate stats.emitted .emitted ++ List.replicate stats.excluded .excluded ++
    stats.skipped.map .skipped

/-- The marks in the result so far. -/
def State.collected (state : State) : List Mark :=
  (state.received ++ state.channel).map (fun entry => (Mark.captured entry).outline) ++
    List.replicate state.stats.directories .listed ++ statsMarks state.stats.listing ++
    state.errors.map .failed

/-- The marks that a list of directories still owes. -/
def dueBelow (account : Path → Multiset Mark) (directories : List Path) : Multiset Mark :=
  (directories.map account).sum

/-- The marks that a listing owes: its counters, and what its subdirectories give. -/
def dueListing (account : Path → Multiset Mark) (result : Listing) : Multiset Mark :=
  statsMarks result.stats + dueBelow account result.subdirectories

def dueChildren (lister : Lister) (account : Path → Multiset Mark) (children : List Child) :
    Multiset Mark :=
  (children.map (lister.childAccount account)).sum

def Phase.due (lister : Lister) (account : Path → Multiset Mark) : Phase → Multiset Mark
  | .opening directory => account directory
  | .listing _ todo result =>
    {.listed} + dueChildren lister account todo + dueListing account result
  | .sending entry _ todo result =>
    {(Mark.captured entry).outline} + {.emitted} +
      ({.listed} + dueChildren lister account todo + dueListing account result)
  | .counting result => {.listed} + dueListing account result
  | .completing subdirectories => dueBelow account subdirectories
  | .failing error | .reporting error => {.failed error}
  | .ready | .asleep | .exited => 0

/-- The marks that the stack and the workers owe. -/
def State.outstanding (lister : Lister) (account : Path → Multiset Mark) (state : State) :
    Multiset Mark :=
  dueBelow account state.pending.stack + state.total (Phase.due lister account)

/-- Collected and outstanding marks add up to those of the tree. -/
def Balanced (lister : Lister) (account : Path → Multiset Mark) (state : State) : Prop :=
  state.collected + state.outstanding lister account = account []

variable {account : Path → Multiset Mark}

theorem dueBelow_cons (directory : Path) (directories : List Path) :
    dueBelow account (directory :: directories) =
      account directory + dueBelow account directories := by
  rw [dueBelow, List.map_cons, List.sum_cons, dueBelow]

/-- The order in which directories wait makes no difference to what is due. -/
theorem dueBelow_reverse_append (first second : List Path) :
    dueBelow account (first.reverse ++ second) =
      dueBelow account first + dueBelow account second := by
  rw [dueBelow, List.map_append, List.sum_append, List.map_reverse, List.sum_reverse]
  rfl

theorem dueChildren_cons (child : Child) (children : List Child) :
    dueChildren lister account (child :: children) =
      lister.childAccount account child + dueChildren lister account children := by
  rw [dueChildren, List.map_cons, List.sum_cons, dueChildren]

/-- An entry is tracked under its own identity. -/
theorem identity_of_tracked?_eq_some {entry : Entry} {linkCount : UInt64} {identity : ObjectId}
    (h : lister.tracked? entry linkCount = some identity) : entry.identity = some identity := by
  unfold Lister.tracked? at h
  split at h
  · exact h
  · cases h

theorem outline_canonical {entry : Entry} {identity : ObjectId}
    (h : entry.identity = some identity) :
    Hardlink.outline { entry with role := .canonical } =
      { entry with
        role := .canonical, link := none, size := 0, attributes := none, flags := none } :=
  @Hardlink.outline_of_groupOf_eq_some _ identity h

/-- Demoting an entry changes nothing that its outline shows. -/
theorem outline_demote {entry : Entry} {identity : ObjectId} (path : Path)
    (h : entry.identity = some identity) :
    Hardlink.outline (Hardlink.demote path entry) =
      { entry with
        role := .canonical, link := none, size := 0, attributes := none, flags := none } :=
  @Hardlink.outline_of_groupOf_eq_some _ identity h

/-- The outline of an entry does not depend on what was observed before. -/
theorem outline_classify (tracker : Hardlink.Tracker) (entry : Entry) (linkCount : UInt64) :
    Hardlink.outline (lister.classify tracker entry linkCount).1 =
      Hardlink.outline (lister.classify {} entry linkCount).1 := by
  rw [Lister.classify_eq, Lister.classify_eq]
  cases htracked : lister.tracked? entry linkCount with
  | none => rfl
  | some identity =>
    -- Canonical entry and link differ only in what the outline of a group leaves out.
    have hidentity := identity_of_tracked?_eq_some htracked
    have hempty : Hardlink.Tracker.path? {} identity = none := rfl
    simp only [hempty]
    cases tracker.path? identity with
    | none => rfl
    | some path => rw [outline_demote path hidentity, outline_canonical hidentity]

/-- Marks of merged counters are those of both. -/
theorem coe_statsMarks_merge (stats other : ListStats) :
    (statsMarks (stats.merge other) : Multiset Mark) = statsMarks stats + statsMarks other := by
  simp only [statsMarks, ListStats.merge, List.replicate_add, List.map_append, ← Multiset.coe_add]
  abel

theorem dueListing_skip (result : Listing) (path : Path) :
    dueListing account (result.skip path) = dueListing account result + {.skipped path} := by
  simp only [dueListing, Listing.skip, statsMarks, List.map_append, List.map_cons, List.map_nil,
    ← Multiset.coe_add, Multiset.coe_singleton]
  abel

theorem dueListing_exclude (result : Listing) :
    dueListing account result.exclude = dueListing account result + {.excluded} := by
  simp only [dueListing, Listing.exclude, statsMarks, List.replicate_succ', ← Multiset.coe_add,
    Multiset.coe_singleton]
  abel

theorem dueListing_emit (result : Listing) :
    dueListing account result.emit = dueListing account result + {.emitted} := by
  simp only [dueListing, Listing.emit, statsMarks, List.replicate_succ', ← Multiset.coe_add,
    Multiset.coe_singleton]
  abel

/-- Keeping a directory adds its account to what is due. -/
theorem dueListing_keep (result : Listing) (entry : Entry) :
    dueListing account (result.keep entry) =
      dueListing account result + if entry.isDirectory then account entry.path else 0 := by
  rw [dueListing, subdirectories_keep]
  have hstats : (result.keep entry).stats = result.stats := by
    unfold Listing.keep
    split <;> rfl
  rw [hstats]
  split
  · rw [dueBelow_cons, dueListing]
    abel
  · rw [add_zero, dueListing]

/-- What a child owes when it is captured: its entry, a counter, and what lies below it. -/
theorem childAccount_of_kept (tracker : Hardlink.Tracker) {child : Child} {entry : Entry}
    (h : lister.selected child = .kept entry) (result : Listing) :
    lister.childAccount account child + dueListing account result =
      {(Mark.captured (lister.classify tracker entry child.stat.linkCount).1).outline} +
        {.emitted} +
        dueListing account
          (result.keep (lister.classify tracker entry child.stat.linkCount).1) := by
  rw [dueListing_keep, Lister.isDirectory_classify, Lister.path_classify, Lister.childAccount, h]
  simp only [Mark.outline, outline_classify tracker]
  abel

theorem dueListing_start (skipped : List Path) :
    dueListing account { stats := { skipped } } = (skipped.map Mark.skipped : List Mark) := by
  rw [dueListing, dueBelow, List.map_nil, List.sum_nil, add_zero]
  rfl

/-- Sending an entry collects it. -/
theorem collected_send (state : State) (entry : Entry) :
    (({ state with channel := state.channel ++ [entry] } : State).collected : Multiset Mark) =
      state.collected + {(Mark.captured entry).outline} := by
  simp only [State.collected, List.map_append, List.map_cons, List.map_nil, ← Multiset.coe_add,
    Multiset.coe_singleton]
  abel

/-- Counting a listing collects its marks. -/
theorem collected_count (state : State) (stats : ListStats) :
    (({ state with stats := {
        directories := state.stats.directories + 1
        listing := state.stats.listing.merge stats } } : State).collected : Multiset Mark) =
      state.collected + ({.listed} + statsMarks stats) := by
  simp only [State.collected, ← Multiset.coe_add, coe_statsMarks_merge, List.replicate_succ',
    Multiset.coe_singleton]
  abel

/-- Noting a failure collects it. -/
theorem collected_report (state : State) (error : WalkError) :
    (({ state with errors := state.errors ++ [error] } : State).collected : Multiset Mark) =
      state.collected + {.failed error} := by
  simp only [State.collected, List.map_append, List.map_cons, List.map_nil, ← Multiset.coe_add,
    Multiset.coe_singleton]
  abel

/-- A turn moves marks: what was collected, what waits and what the worker owes add up to the same
marks. Directories that still wait are dropped when all workers are stopped. -/
theorem balance_turn (haccounts : lister.Accounts account) {phase next : Phase} {middle : State}
    (h : Turn lister config state phase middle next) (hphase : phase.Sound lister)
    (habort : ∀ error, phase = .failing error → error.stopsWorkers = true →
      state.pending.stack = []) :
    (middle.collected : Multiset Mark) + dueBelow account middle.pending.stack +
        next.due lister account =
      state.collected + dueBelow account state.pending.stack + phase.due lister account := by
  cases h with
  | @take directory rest hopen hstack =>
    show (state.collected : Multiset Mark) + dueBelow account rest + account directory =
      state.collected + dueBelow account state.pending.stack + 0
    rw [hstack, dueBelow_cons]
    abel
  | leave | close | sleep => rfl
  | @refuse directory error events hopened =>
    show (state.collected : Multiset Mark) + dueBelow account state.pending.stack +
        {.failed error} =
      state.collected + dueBelow account state.pending.stack + account directory
    rw [haccounts directory hphase, hopened]
  | @enter directory children skipped events hopened =>
    show (state.collected : Multiset Mark) + dueBelow account state.pending.stack +
        ({.listed} + dueChildren lister account children +
          dueListing account { stats := { skipped } }) =
      state.collected + dueBelow account state.pending.stack + account directory
    rw [haccounts directory hphase, hopened, dueListing_start]
    exact congrArg (_ + ·) (add_right_comm _ _ _)
  | @skip child directory todo listing events hselected =>
    show (state.collected : Multiset Mark) + dueBelow account state.pending.stack +
        ({.listed} + dueChildren lister account todo +
          dueListing account (listing.skip child.entry.path)) =
      state.collected + dueBelow account state.pending.stack +
        ({.listed} + dueChildren lister account (child :: todo) + dueListing account listing)
    rw [dueListing_skip, dueChildren_cons, Lister.childAccount, hselected]
    dsimp only
    abel
  | @exclude child directory todo listing events hselected =>
    show (state.collected : Multiset Mark) + dueBelow account state.pending.stack +
        ({.listed} + dueChildren lister account todo + dueListing account listing.exclude) =
      state.collected + dueBelow account state.pending.stack +
        ({.listed} + dueChildren lister account (child :: todo) + dueListing account listing)
    rw [dueListing_exclude, dueChildren_cons, Lister.childAccount, hselected]
    dsimp only
    abel
  | @keep child entry classified tracker directory todo listing events hselected hclassify =>
    have hchild := @childAccount_of_kept lister account state.tracker _ _ hselected listing
    rw [hclassify] at hchild
    show (state.collected : Multiset Mark) + dueBelow account state.pending.stack +
        ({(Mark.captured classified).outline} + {.emitted} +
          ({.listed} + dueChildren lister account todo +
            dueListing account (listing.keep classified))) =
      state.collected + dueBelow account state.pending.stack +
        ({.listed} + dueChildren lister account (child :: todo) + dueListing account listing)
    rw [dueChildren_cons]
    calc (state.collected : Multiset Mark) + dueBelow account state.pending.stack +
        ({(Mark.captured classified).outline} + {.emitted} +
          ({.listed} + dueChildren lister account todo +
            dueListing account (listing.keep classified)))
      _ = state.collected + dueBelow account state.pending.stack + {.listed} +
          dueChildren lister account todo + ({(Mark.captured classified).outline} + {.emitted} +
            dueListing account (listing.keep classified)) := by abel
      _ = state.collected + dueBelow account state.pending.stack + {.listed} +
          dueChildren lister account todo +
            (lister.childAccount account child + dueListing account listing) := by rw [← hchild]
      _ = _ := by abel
  | send entry directory todo listing hroom =>
    rw [collected_send]
    show (state.collected : Multiset Mark) + {(Mark.captured entry).outline} +
        dueBelow account state.pending.stack +
        ({.listed} + dueChildren lister account todo + dueListing account listing.emit) =
      state.collected + dueBelow account state.pending.stack +
        ({(Mark.captured entry).outline} + {.emitted} +
          ({.listed} + dueChildren lister account todo + dueListing account listing))
    rw [dueListing_emit]
    abel
  | finish directory listing =>
    show (state.collected : Multiset Mark) + dueBelow account state.pending.stack +
        ({.listed} + dueListing account listing) =
      state.collected + dueBelow account state.pending.stack +
        ({.listed} + dueChildren lister account [] + dueListing account listing)
    rw [dueChildren, List.map_nil, List.sum_nil, add_zero]
  | count listing =>
    rw [collected_count]
    show (state.collected : Multiset Mark) + ({.listed} + statsMarks listing.stats) +
        dueBelow account state.pending.stack + dueBelow account listing.subdirectories =
      state.collected + dueBelow account state.pending.stack +
        ({.listed} + dueListing account listing)
    rw [dueListing]
    abel
  | complete subdirectories =>
    show (state.collected : Multiset Mark) +
        dueBelow account (subdirectories.reverse ++ state.pending.stack) + 0 =
      state.collected + dueBelow account state.pending.stack + dueBelow account subdirectories
    rw [dueBelow_reverse_append]
    abel
  | @abort error hstop =>
    show (state.collected : Multiset Mark) + dueBelow account [] + {.failed error} =
      state.collected + dueBelow account state.pending.stack + {.failed error}
    -- Nothing waits, so nothing is lost with the stack.
    rw [habort error rfl hstop]
  | giveBack => rfl
  | report error =>
    rw [collected_report]
    show (state.collected : Multiset Mark) + {.failed error} +
        dueBelow account state.pending.stack + 0 =
      state.collected + dueBelow account state.pending.stack + {.failed error}
    abel

/-- Balance is kept by a turn that drops no directories. -/
theorem balanced_turn (haccounts : lister.Accounts account) {worker : Nat} {phase next : Phase}
    {middle : State} (h : Turn lister config state phase middle next)
    (hworker : state.workers[worker]? = some phase) (hphase : phase.Sound lister)
    (habort : ∀ error, phase = .failing error → error.stopsWorkers = true →
      state.pending.stack = [])
    (hbalanced : Balanced lister account state) :
    Balanced lister account (middle.put worker next) := by
  have hturn := balance_turn haccounts h hphase habort
  have htotal := total_turn (Phase.due lister account) rfl h hworker
  unfold Balanced State.outstanding at hbalanced ⊢
  show (middle.collected : Multiset Mark) + (dueBelow account middle.pending.stack +
    (middle.put worker next).total (Phase.due lister account)) = account []
  -- Marks cannot be subtracted, so what the worker owed is added on both sides.
  refine add_right_cancel (b := phase.due lister account) ?_
  calc (middle.collected : Multiset Mark) + (dueBelow account middle.pending.stack +
        (middle.put worker next).total (Phase.due lister account)) + phase.due lister account
    _ = middle.collected + dueBelow account middle.pending.stack +
        ((middle.put worker next).total (Phase.due lister account) + phase.due lister account) := by
      abel
    _ = middle.collected + dueBelow account middle.pending.stack + next.due lister account +
        state.total (Phase.due lister account) := by
      rw [htotal]
      abel
    _ = state.collected + (dueBelow account state.pending.stack +
        state.total (Phase.due lister account)) + phase.due lister account := by
      rw [hturn]
      abel
    _ = account [] + phase.due lister account := by
      rw [hbalanced]

/-- The collector moves an entry from the channel to the entries it has received. -/
theorem collected_collect {entry : Entry} {rest : List Entry} (h : state.channel = entry :: rest) :
    ({ state with channel := rest, received := state.received ++ [entry] } : State).collected =
      state.collected := by
  simp only [State.collected, h, List.append_assoc, List.singleton_append]

/-- At the start everything is due and nothing collected. -/
theorem balanced_start (lister : Lister) (config : WalkConfig) (account : Path → Multiset Mark) :
    Balanced lister account (.start config) := by
  unfold Balanced State.outstanding
  rw [total_start rfl config, add_zero]
  show (0 : Multiset Mark) + dueBelow account [[]] = account []
  rw [dueBelow_cons, zero_add]
  exact add_zero _

end TreeManifest.Walk
