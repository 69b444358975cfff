import TreeManifest.Proofs.Walk.Progress

/-!
# Every walk ends

What is left to do is measured by a number that every step makes smaller. A directory costs as much
as the marks that it gives, so that taking it pays for whatever listing it brings.

## Main definitions

- `Walk.Phase.cost`, `Walk.State.cost`: what is left to do.

## Main statements

- `Walk.cost_turn`: turns get cheaper.
- `Walk.cost_step`: so do steps.
-/

namespace TreeManifest.Walk

/-- What a mark pays for when as many workers may have to be woken. -/
def markCost (workers : Nat) : Nat := workers + 10

def Phase.cost (lister : Lister) (account : Path → Multiset Mark) (workers : Nat) : Phase → Nat
  | .exited => 0
  | .asleep => 1
  | .ready => 2
  | .reporting _ => 3
  | .failing _ => workers + 4
  | .completing subdirectories =>
    workers + 3 + markCost workers * (dueBelow account subdirectories).card
  | .counting result =>
    workers + 4 + markCost workers * (dueBelow account result.subdirectories).card
  | .listing _ todo result =>
    markCost workers * (1 + (dueChildren lister account todo).card +
      (dueBelow account result.subdirectories).card)
  | .sending _ _ todo result =>
    markCost workers * (1 + (dueChildren lister account todo).card +
      (dueBelow account result.subdirectories).card) + 2
  | .opening directory => markCost workers * (account directory).card + 1

def State.cost (lister : Lister) (account : Path → Multiset Mark) (state : State) : Nat :=
  state.total (Phase.cost lister account state.workers.length) +
    markCost state.workers.length * (dueBelow account state.pending.stack).card +
    state.channel.length

variable {lister : Lister} {config : WalkConfig} {state before after : State}
  {account : Path → Multiset Mark} {worker : Nat} {phase next : Phase} {middle : State}

theorem length_workers_put (h : Turn lister config state phase middle next) :
    (middle.put worker next).workers.length = state.workers.length := by
  have hmiddle : middle.workers.length = state.workers.length := by
    rcases h.workers_eq with heq | heq
    · rw [heq]
    · rw [heq, List.length_map]
  exact List.length_set.trans hmiddle

/-- Waking the sleepers costs one step for each worker at most. -/
theorem sum_cost_awake (crew : Nat) (phases : List Phase) :
    ((phases.map Phase.awake).map (Phase.cost lister account crew)).sum ≤
      (phases.map (Phase.cost lister account crew)).sum + phases.length := by
  induction phases with
  | nil => exact Nat.le_refl _
  | cons phase phases ih =>
    have hphase : phase.awake.cost lister account crew ≤ phase.cost lister account crew + 1 := by
      cases phase <;> first | exact Nat.le_refl _ | exact Nat.le_succ _
    simp only [List.map_cons, List.sum_cons, List.length_cons]
    omega

theorem map_awake_of_notMem {phases : List Phase} (h : .asleep ∉ phases) :
    phases.map Phase.awake = phases := by
  refine List.map_congr_left (g := id) (fun phase hphase => ?_) |>.trans (List.map_id _)
  cases phase with
  | asleep => exact absurd hphase h
  | _ => rfl

/-- What a phase keeps for waking the sleepers. -/
def Phase.reserve (workers : Nat) : Phase → Nat
  | .completing _ | .failing _ => workers
  | _ => 0

/-- A turn changes the costs of the workers by what it does to its own worker, and by what that
worker has kept for the sleepers. -/
theorem total_cost_turn (horderly : Orderly state) (h : Turn lister config state phase middle next)
    (hworker : state.workers[worker]? = some phase) (crew : Nat)
    (hcrew : crew = state.workers.length) :
    (middle.put worker next).total (Phase.cost lister account crew) +
        phase.cost lister account crew ≤
      state.total (Phase.cost lister account crew) + next.cost lister account crew +
        phase.reserve crew := by
  have hset := sum_map_set (Phase.cost lister account crew) next (h.getElem?_workers hworker)
  change (middle.put worker next).total _ + _ = _ at hset
  -- Either nobody is woken, or the phase has kept what waking costs.
  have hmiddle : (middle.workers.map (Phase.cost lister account crew)).sum ≤
      state.total (Phase.cost lister account crew) + phase.reserve crew := by
    by_cases hasleep : .asleep ∈ state.workers
    · have hawake := @sum_cost_awake lister account crew state.workers
      obtain ⟨hopen, -, hbusy⟩ := horderly.asleep hasleep
      cases h with
      | take | sleep | refuse | enter | skip | exclude | keep | send | finish | count | report =>
        exact Nat.le_refl _
      | leave hclosed => exact absurd (hclosed.symm.trans hopen) (by decide)
      | close _ _ hidle => exact absurd hidle hbusy
      | complete | abort | giveBack =>
        rw [workers_wakeAll, ← hcrew] at *
        exact hawake
    · have hsame := map_awake_of_notMem hasleep
      have hworkers : middle.workers = state.workers := by
        rcases h.workers_eq with heq | heq
        · exact heq
        · exact heq.trans hsame
      rw [hworkers]
      exact Nat.le_add_right _ _
  omega

theorem card_childAccount_kept {child : Child} {entry classified : Entry}
    {tracker : Hardlink.Tracker} (hselected : lister.selected child = .kept entry)
    (hclassify : lister.classify state.tracker entry child.stat.linkCount = (classified, tracker))
    (result : Listing) :
    (lister.childAccount account child).card + (dueBelow account result.subdirectories).card =
      2 + (dueBelow account (result.keep classified).subdirectories).card := by
  have hclassified : classified = (lister.classify state.tracker entry child.stat.linkCount).1 := by
    rw [hclassify]
  rw [subdirectories_keep, hclassified, Lister.isDirectory_classify, Lister.path_classify,
    Lister.childAccount, hselected]
  dsimp only
  split
  · simp only [Multiset.card_add, Multiset.card_singleton, dueBelow_cons]
    omega
  · simp only [Multiset.card_add, Multiset.card_singleton, Multiset.card_zero]

/-- A turn pays for what it brings. -/
theorem pays_turn (haccounts : lister.Accounts account) (hsound : phase.Sound lister)
    (h : Turn lister config state phase middle next) (crew : Nat) :
    next.cost lister account crew + markCost crew * (dueBelow account middle.pending.stack).card +
        middle.channel.length + phase.reserve crew <
      phase.cost lister account crew + markCost crew * (dueBelow account state.pending.stack).card +
        state.channel.length := by
  have hmark : markCost crew = crew + 10 := rfl
  -- The factor of a mark is the same on both sides, so the goals are linear once sums are split.
  cases h with
  | @take directory rest hopen hstack =>
    rw [hstack, dueBelow_cons, Multiset.card_add, Nat.mul_add]
    simp only [Phase.cost, Phase.reserve]
    omega
  | leave | close =>
    show 0 + markCost crew * (dueBelow account state.pending.stack).card +
        state.channel.length + 0 <
      2 + markCost crew * (dueBelow account state.pending.stack).card + state.channel.length
    omega
  | sleep =>
    simp only [Phase.cost, Phase.reserve]
    omega
  | @refuse directory error events hopened =>
    have hcard : (account directory).card = 1 := by
      rw [haccounts directory hsound, hopened]
      rfl
    simp only [Phase.cost, Phase.reserve, hcard, State.note]
    omega
  | @enter directory children skipped events hopened =>
    have hcard : (account directory).card =
        1 + skipped.length + (dueChildren lister account children).card := by
      rw [haccounts directory hsound, hopened]
      simp only [Multiset.card_add, Multiset.card_singleton, Multiset.coe_card, List.length_map]
      rfl
    have hbelow :
        (dueBelow account ({ stats := { skipped } } : Listing).subdirectories).card = 0 := rfl
    simp only [Phase.cost, Phase.reserve, hcard, hbelow, State.note, Nat.mul_add]
    omega
  | @skip child directory todo listing events hselected =>
    have hcard : (lister.childAccount account child).card = 1 := by
      rw [Lister.childAccount, hselected]
      rfl
    simp only [Phase.cost, Phase.reserve, dueChildren_cons, Multiset.card_add, hcard, State.note,
      Nat.mul_add, Listing.skip]
    omega
  | @exclude child directory todo listing events hselected =>
    have hcard : (lister.childAccount account child).card = 1 := by
      rw [Lister.childAccount, hselected]
      rfl
    simp only [Phase.cost, Phase.reserve, dueChildren_cons, Multiset.card_add, hcard, State.note,
      Nat.mul_add, Listing.exclude]
    omega
  | @keep child entry classified tracker directory todo listing events hselected hclassify =>
    have hcard := @card_childAccount_kept lister state account _ _ _ _ hselected hclassify listing
    have hscaled := congrArg (markCost crew * ·) hcard
    simp only [Nat.mul_add] at hscaled
    simp only [Phase.cost, Phase.reserve, dueChildren_cons, Multiset.card_add, State.note,
      Nat.mul_add]
    omega
  | send entry directory todo listing hroom =>
    simp only [Phase.cost, Phase.reserve, Listing.emit, List.length_append, List.length_singleton]
    omega
  | finish directory listing =>
    have hcard : (dueChildren lister account []).card = 0 := rfl
    simp only [Phase.cost, Phase.reserve, hcard, Nat.mul_add]
    omega
  | count listing =>
    simp only [Phase.cost, Phase.reserve]
    omega
  | complete subdirectories =>
    show 2 +
        markCost crew * (dueBelow account (subdirectories.reverse ++ state.pending.stack)).card +
        state.channel.length + crew <
      crew + 3 + markCost crew * (dueBelow account subdirectories).card +
        markCost crew * (dueBelow account state.pending.stack).card + state.channel.length
    rw [dueBelow_reverse_append, Multiset.card_add, Nat.mul_add]
    omega
  | abort =>
    show 3 + 0 + state.channel.length + crew <
      crew + 4 + markCost crew * (dueBelow account state.pending.stack).card + state.channel.length
    omega
  | giveBack =>
    show 3 + markCost crew * (dueBelow account state.pending.stack).card + state.channel.length +
        crew <
      crew + 4 + markCost crew * (dueBelow account state.pending.stack).card + state.channel.length
    omega
  | report error =>
    simp only [Phase.cost, Phase.reserve]
    omega

/-- Turns get cheaper. -/
theorem cost_turn (haccounts : lister.Accounts account) (horderly : Orderly state)
    (hsound : phase.Sound lister) (h : Turn lister config state phase middle next)
    (hworker : state.workers[worker]? = some phase) :
    (middle.put worker next).cost lister account < state.cost lister account := by
  have hpays := pays_turn haccounts hsound h state.workers.length
  have htotal := @total_cost_turn lister config state account _ _ _ _ horderly h hworker _ rfl
  unfold State.cost
  rw [length_workers_put h]
  show _ + markCost _ * (dueBelow account middle.pending.stack).card + middle.channel.length < _
  omega

/-- Steps get cheaper. -/
theorem cost_step (haccounts : lister.Accounts account) (hsound : Sound lister before)
    (horderly : Orderly before) (h : Step lister config before after) :
    after.cost lister account < before.cost lister account := by
  rcases step_cases h with ⟨entry, rest, hchannel, rfl⟩ |
      ⟨worker, phase, middle, next, hworker, hturn, rfl⟩
  · unfold State.cost
    rw [hchannel, List.length_cons]
    exact Nat.lt_succ_self _
  · exact cost_turn haccounts horderly (hsound.workers phase (List.mem_of_getElem? hworker)) hturn
      hworker

end TreeManifest.Walk
