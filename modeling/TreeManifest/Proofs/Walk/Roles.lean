import TreeManifest.Proofs.Walk.Balance
import TreeManifest.Proofs.Walk.Reading

/-!
# One name of an object carries its content

Whichever name of an object is observed first, its entry carries what was captured for the object,
and the entries of the other names carry nothing.

## Main definitions

- `Walk.State.emitted`: the entries that were captured so far.
- `Walk.Observed`: the observed objects are those of which an entry carries the content.

## Main statements

- `Walk.emitted_step`: a step captures a child, or it leaves the captured entries alone.
- `Walk.observed_step`: a step observes an object and emits its entry together.
- `Walk.carries_of_observed`: at the end, the received entries carry the contents of their groups.
-/

namespace TreeManifest.Walk

def Phase.carried : Phase → Multiset Entry
  | .sending entry .. => {entry}
  | _ => 0

/-- The entries that were captured so far. -/
def State.emitted (state : State) : Multiset Entry :=
  (state.received ++ state.channel : List Entry) + state.total Phase.carried

/-- The observed objects are those of which an entry carries the content, and no entry of a group
carries anything else. -/
structure Observed (contents : ObjectId → Content) (tracker : Hardlink.Tracker)
    (emitted : Multiset Entry) : Prop where
  content_eq : ∀ entry ∈ emitted, ∀ identity, Hardlink.groupOf entry = some identity →
    entry.content = contents identity ∨ entry.content = .none
  exists_carrier : ∀ binding ∈ tracker.seen, ∃ carrier ∈ emitted,
    Hardlink.groupOf carrier = some binding.1 ∧ carrier.content = contents binding.1
  seen : ∀ entry ∈ emitted, ∀ identity, Hardlink.groupOf entry = some identity →
    ∃ path, (identity, path) ∈ tracker.seen

variable {lister : Lister} {config : WalkConfig} {state before after : State}
  {phase next : Phase} {middle : State} {contents : ObjectId → Content}
  {tracker : Hardlink.Tracker} {emitted : Multiset Entry}

theorem observed_empty (contents : ObjectId → Content) : Observed contents {} 0 where
  content_eq entry hentry := absurd hentry (Multiset.notMem_zero entry)
  exists_carrier _ hbinding := absurd hbinding List.not_mem_nil
  seen entry hentry := absurd hentry (Multiset.notMem_zero entry)

/-- An entry without a role observes nothing. -/
theorem Observed.add_none (h : Observed contents tracker emitted) {entry : Entry}
    (hrole : Hardlink.groupOf entry = none) : Observed contents tracker (emitted + {entry}) where
  content_eq other hother identity hgroup := by
    rcases Multiset.mem_add.1 hother with hother | hother
    · exact h.content_eq other hother identity hgroup
    · rw [Multiset.mem_singleton.1 hother, hrole] at hgroup
      cases hgroup
  exists_carrier binding hbinding := by
    obtain ⟨carrier, hcarrier, hfound⟩ := h.exists_carrier binding hbinding
    exact ⟨carrier, Multiset.mem_add.2 (.inl hcarrier), hfound⟩
  seen other hother identity hgroup := by
    rcases Multiset.mem_add.1 hother with hother | hother
    · exact h.seen other hother identity hgroup
    · rw [Multiset.mem_singleton.1 hother, hrole] at hgroup
      cases hgroup

/-- The first entry of a group carries its content. -/
theorem Observed.add_first (h : Observed contents tracker emitted) {entry : Entry}
    {identity : ObjectId} (path : Path) (hgroup : Hardlink.groupOf entry = some identity)
    (hcontent : entry.content = contents identity) :
    Observed contents ⟨(identity, path) :: tracker.seen⟩ (emitted + {entry}) where
  content_eq other hother identity' hgroup' := by
    rcases Multiset.mem_add.1 hother with hother | hother
    · exact h.content_eq other hother identity' hgroup'
    · rw [Multiset.mem_singleton.1 hother] at hgroup' ⊢
      rw [hgroup] at hgroup'
      cases hgroup'
      exact .inl hcontent
  exists_carrier binding hbinding := by
    rcases List.mem_cons.1 hbinding with rfl | hbinding
    · exact ⟨entry, Multiset.mem_add.2 (.inr (Multiset.mem_singleton_self entry)), hgroup, hcontent⟩
    · obtain ⟨carrier, hcarrier, hfound⟩ := h.exists_carrier binding hbinding
      exact ⟨carrier, Multiset.mem_add.2 (.inl hcarrier), hfound⟩
  seen other hother identity' hgroup' := by
    rcases Multiset.mem_add.1 hother with hother | hother
    · obtain ⟨path', hpath'⟩ := h.seen other hother identity' hgroup'
      exact ⟨path', List.mem_cons_of_mem _ hpath'⟩
    · rw [Multiset.mem_singleton.1 hother, hgroup] at hgroup'
      cases hgroup'
      exact ⟨path, List.mem_cons_self⟩

/-- A later entry of a group carries nothing. -/
theorem Observed.add_link (h : Observed contents tracker emitted) {entry : Entry}
    {identity : ObjectId} {path : Path} (hseen : (identity, path) ∈ tracker.seen)
    (hgroup : Hardlink.groupOf entry = some identity) (hcontent : entry.content = .none) :
    Observed contents tracker (emitted + {entry}) where
  content_eq other hother identity' hgroup' := by
    rcases Multiset.mem_add.1 hother with hother | hother
    · exact h.content_eq other hother identity' hgroup'
    · rw [Multiset.mem_singleton.1 hother]
      exact .inr hcontent
  exists_carrier binding hbinding := by
    obtain ⟨carrier, hcarrier, hfound⟩ := h.exists_carrier binding hbinding
    exact ⟨carrier, Multiset.mem_add.2 (.inl hcarrier), hfound⟩
  seen other hother identity' hgroup' := by
    rcases Multiset.mem_add.1 hother with hother | hother
    · exact h.seen other hother identity' hgroup'
    · rw [Multiset.mem_singleton.1 hother, hgroup] at hgroup'
      cases hgroup'
      exact ⟨path, hseen⟩

theorem mem_seen_of_path?_eq_some {identity : ObjectId} {path : Path}
    (h : tracker.path? identity = some path) : (identity, path) ∈ tracker.seen := by
  unfold Hardlink.Tracker.path? at h
  obtain ⟨⟨found, first⟩, hfind, rfl⟩ := Option.map_eq_some_iff.1 h
  have hfound := List.find?_some hfind
  have hsame : found = identity := beq_iff_eq.1 hfound
  subst hsame
  exact List.mem_of_find?_eq_some hfind

/-- Capturing a child observes its object and emits its entry. -/
theorem Observed.classify (h : Observed contents tracker emitted)
    (hcontents : lister.HasContents contents)
    {child : Child} {entry : Entry} (hchild : lister.IsChild child)
    (hselected : lister.selected child = .kept entry) :
    Observed contents (lister.classify tracker entry child.stat.linkCount).2
      (emitted + {(lister.classify tracker entry child.stat.linkCount).1}) := by
  have hcontent := hcontents child entry hchild hselected
  have hentry : entry.role = .none ∧ entry.identity = some child.stat.identity := by
    obtain ⟨link, -, rfl⟩ := Lister.exists_of_selected_eq_kept hchild hselected
    constructor
    · show child.entry.role = .none
      rw [hchild.entry_eq]
      rfl
    · show child.entry.identity = some child.stat.identity
      rw [hchild.entry_eq]
      rfl
  rw [Lister.classify_eq]
  cases htracked : lister.tracked? entry child.stat.linkCount with
  | none => exact h.add_none (if_pos hentry.1)
  | some identity =>
    have hidentity := identity_of_tracked?_eq_some htracked
    have hsame : child.stat.identity = identity :=
      Option.some.inj (hentry.2.symm.trans hidentity)
    dsimp only
    -- The first name seen keeps what was captured, and every later one loses it.
    cases hpath : tracker.path? identity with
    | none => exact h.add_first entry.path hidentity (hsame ▸ hcontent)
    | some path => exact h.add_link (mem_seen_of_path?_eq_some hpath) hidentity rfl

/-- A turn leaves the emitted entries alone, or it captures a child. -/
theorem carried_turn (hsound : phase.Sound lister)
    (h : Turn lister config state phase middle next) :
    (middle.tracker = state.tracker ∧
      ((middle.received ++ middle.channel : List Entry) : Multiset Entry) + next.carried =
        (state.received ++ state.channel : List Entry) + phase.carried) ∨
    ∃ child entry, lister.IsChild child ∧ lister.selected child = .kept entry ∧
      middle.tracker = (lister.classify state.tracker entry child.stat.linkCount).2 ∧
      ((middle.received ++ middle.channel : List Entry) : Multiset Entry) + next.carried =
        (state.received ++ state.channel : List Entry) + phase.carried +
          {(lister.classify state.tracker entry child.stat.linkCount).1} := by
  cases h with
  | @keep child entry classified tracker directory todo listing events hselected hclassify =>
    refine .inr ⟨child, entry, hsound.1 child List.mem_cons_self, hselected, ?_, ?_⟩
    · rw [hclassify]
    · rw [hclassify]
      show ((state.received ++ state.channel : List Entry) : Multiset Entry) + {classified} =
        (state.received ++ state.channel : List Entry) + 0 + {classified}
      rw [add_zero]
  | send entry directory todo listing hroom =>
    refine .inl ⟨rfl, ?_⟩
    show ((state.received ++ (state.channel ++ [entry]) : List Entry) : Multiset Entry) + 0 =
      (state.received ++ state.channel : List Entry) + {entry}
    rw [add_zero, ← List.append_assoc, ← Multiset.coe_add, Multiset.coe_singleton]
  | _ => exact .inl ⟨rfl, rfl⟩

/-- A step leaves the observed objects and the emitted entries alone, or it captures a child. -/
theorem emitted_step (hsound : Sound lister before) (h : Step lister config before after) :
    (after.tracker = before.tracker ∧ after.emitted = before.emitted) ∨
    ∃ child entry, lister.IsChild child ∧ lister.selected child = .kept entry ∧
      after.tracker = (lister.classify before.tracker entry child.stat.linkCount).2 ∧
      after.emitted =
        before.emitted + {(lister.classify before.tracker entry child.stat.linkCount).1} := by
  rcases step_cases h with ⟨entry, rest, hchannel, rfl⟩ |
      ⟨worker, phase, middle, next, hworker, hturn, rfl⟩
  · refine .inl ⟨rfl, ?_⟩
    show ((before.received ++ [entry] ++ rest : List Entry) : Multiset Entry) + _ =
      (before.received ++ before.channel : List Entry) + _
    rw [hchannel, List.append_assoc, List.singleton_append]
    rfl
  · have htotal := total_turn Phase.carried rfl hturn hworker
    have hemitted : (middle.put worker next).emitted + phase.carried =
        (middle.received ++ middle.channel : List Entry) + next.carried +
          before.total Phase.carried := by
      show (middle.received ++ middle.channel : List Entry) +
        (middle.put worker next).total Phase.carried + phase.carried = _
      rw [add_assoc, htotal]
      abel
    have hphase := hsound.workers phase (List.mem_of_getElem? hworker)
    rcases carried_turn hphase hturn with ⟨htracker, hcarried⟩ |
        ⟨child, entry, hchild, hselected, htracker, hcarried⟩
    · refine .inl ⟨htracker, add_right_cancel (b := phase.carried) ?_⟩
      rw [hemitted, hcarried, State.emitted]
      abel
    · refine .inr ⟨child, entry, hchild, hselected, htracker,
        add_right_cancel (b := phase.carried) ?_⟩
      rw [hemitted, hcarried, State.emitted]
      abel

/-- A step observes an object and emits its entry together. -/
theorem observed_step
    (hcontents : lister.HasContents contents)
    (hsound : Sound lister before) (h : Step lister config before after)
    (hobserved : Observed contents before.tracker before.emitted) :
    Observed contents after.tracker after.emitted := by
  rcases emitted_step hsound h with ⟨htracker, hemitted⟩ |
      ⟨child, entry, hchild, hselected, htracker, hemitted⟩
  · rw [htracker, hemitted]
    exact hobserved
  · rw [htracker, hemitted]
    exact hobserved.classify hcontents hchild hselected

theorem emitted_start (config : WalkConfig) : (State.start config).emitted = 0 := by
  rw [State.emitted, total_start rfl config]
  rfl

theorem observed_start (contents : ObjectId → Content) (config : WalkConfig) :
    Observed contents (State.start config).tracker (State.start config).emitted := by
  rw [emitted_start]
  exact observed_empty contents

/-- Once everything was received, the received entries carry the contents of their groups. -/
theorem carries_of_observed (hobserved : Observed contents tracker state.received) :
    Hardlink.Carries contents state.received where
  content_eq entry hentry := hobserved.content_eq entry hentry
  exists_carrier entry hentry identity hgroup := by
    obtain ⟨path, hseen⟩ := hobserved.seen entry hentry identity hgroup
    exact hobserved.exists_carrier (identity, path) hseen

end TreeManifest.Walk
