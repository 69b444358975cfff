import TreeManifest.Proofs.Walk.Outcome
import TreeManifest.Proofs.Walk.Sortable

/-!
# The entries of an outcome in closed form

An entry of an outcome is what was captured of its object, in the role that the entries before it
give it. Which name was observed first during the walk makes no difference.

## Main definitions

- `Hardlink.assign`: a captured entry in the role that the first name of its group gives it.

## Main statements

- `Walk.Yields.content_eq`: a canonical entry carries what was captured under its own path.
- `Walk.Yields.exists_assign`: every entry is a captured one in its role.
- `Walk.exists_outcome`: walks of a tree whose root can be listed end with one outcome.
-/

namespace TreeManifest

namespace Hardlink

/-- A captured entry of a group, given the path of the first name in the group if that stands before
it. -/
def assign (kept : Entry) : Option Path → Entry
  | none => { kept with role := .canonical, link := none }
  | some path => demote path kept

variable {contents : ObjectId → Content} {tracker : Tracker} {entries : List Entry} {entry : Entry}
  {identity : ObjectId}

/-- The canonical entries of groups carry the contents of the groups, up to maps without a
binding. -/
theorem eq_install_of_mem_settleWith (h : entry ∈ settleWith contents tracker entries)
    (hgroup : groupOf entry = some identity) (hrole : entry.role = .canonical) :
    ∃ other, entry = install (contents identity) other := by
  induction entries generalizing tracker with
  | nil => exact absurd h List.not_mem_nil
  | cons head rest ih =>
    rw [settleWith] at h
    cases hhead : groupOf head with
    | none =>
      rw [hhead] at h
      rcases List.mem_cons.1 h with rfl | h
      · rw [hhead] at hgroup
        cases hgroup
      · exact ih h
    | some own =>
      rw [hhead] at h
      dsimp only at h
      split at h
      · rcases List.mem_cons.1 h with rfl | h
        · have hown := identity_of_groupOf_eq_some hgroup
          change head.identity = some identity at hown
          rw [identity_of_groupOf_eq_some hhead] at hown
          exact ⟨head, by rw [Option.some.inj hown]⟩
        · exact ih h
      · rcases List.mem_cons.1 h with rfl | h
        · cases hrole
        · exact ih h

end Hardlink

namespace Walk

variable {lister : Lister} {config : WalkConfig} {outcome : WalkOutcome} {state : State}
  {entry kept : Entry} {child : Child}

/-! ## Contents -/

/-- Captured attributes are absent or have a binding. -/
theorem attributes_filter_of_captures (h : lister.Captures child kept) :
    (kept.attributes.filter fun map => !map.isEmpty) = kept.attributes := by
  obtain ⟨link, -, rfl⟩ := h.exists_link
  show ((if lister.options.readAttributes then
      lister.attributesAt child.entry.kind child.location else none).filter _) =
    if lister.options.readAttributes then
      lister.attributesAt child.entry.kind child.location else none
  split
  · unfold Lister.attributesAt
    split
    · rfl
    · split
      · rfl
      · rw [Option.filter_filter]
        simp only [Bool.and_self]
  · rfl

/-- A canonical entry carries what was captured of its object under its own path. -/
theorem Yields.content_eq (htree : lister.IsTree) (hreads : lister.ReadsByObject)
    (h : Yields lister config outcome) (hentry : entry ∈ outcome.entries)
    (hstands : StandsFor lister entry child kept) (hrole : entry.role = .canonical) :
    entry.content = kept.content := by
  obtain ⟨state, hreaches, hdone, hresult⟩ := h
  obtain ⟨contents, hcontents⟩ := Lister.exists_hasContents htree hreads
  obtain ⟨bound, hbound⟩ := htree.hasLabels.exists_bound
  have haccounts := Lister.accounts_of_bound htree.hasLabels hbound
  have hinvariant := invariant_reaches haccounts hcontents
    (invariant_start lister config _ contents) hreaches
  have hsettled : Settled contents ((lister.marks (bound + 1) []).map Mark.outline) state :=
    settled_of_invariant rfl hinvariant hdone
  obtain ⟨-, rfl⟩ := eq_of_result_eq_ok hresult
  have hgroup : Hardlink.groupOf entry = some child.stat.identity :=
    Hardlink.groupOf_eq_some_iff.2 ⟨by simp [hrole], hstands.identity_eq⟩
  replace hentry : entry ∈ Hardlink.settle (Order.sort state.received) := hentry
  rw [Hardlink.settle_eq_settleWith (carries_sort hsettled.carries)] at hentry
  obtain ⟨other, rfl⟩ := Hardlink.eq_install_of_mem_settleWith hentry hgroup hrole
  -- The content of the group is that of every captured name.
  have hkept : kept.content = contents child.stat.identity := by
    obtain ⟨-, -, -, -, -, -, hselected⟩ := id hstands.captures
    exact hcontents child kept hstands.captures.isChild hselected
  rw [← hkept]
  show Content.mk _ (kept.attributes.filter _) _ = _
  rw [attributes_filter_of_captures hstands.captures]
  rfl

/-! ## Roles -/

/-- An entry of a group has the fields of the captured entry, but for those that the group
decides. -/
theorem Yields.exists_outline (htree : lister.IsTree) (h : Yields lister config outcome)
    (hentry : entry ∈ outcome.entries) : ∃ child kept, StandsFor lister entry child kept ∧
      Hardlink.outline entry =
        Hardlink.outline (lister.classify {} kept child.stat.linkCount).1 := by
  obtain ⟨depth, haccounts, hmarks⟩ := h.marks_eq htree
  have hmem : .captured (Hardlink.outline entry) ∈ outcome.marks :=
    captured_mem_marks_iff.2 ⟨entry, hentry, rfl⟩
  rw [← Multiset.mem_coe, hmarks, Lister.captured_mem_account_iff htree haccounts] at hmem
  obtain ⟨child, kept, hcaptures, houtline⟩ := hmem
  exact ⟨child, kept, standsFor_of_outline_eq hcaptures houtline, houtline⟩

/-- Every entry of an outcome is a captured one in the role that the entries before it give it. -/
theorem Yields.exists_assign (htree : lister.IsTree) (hreads : lister.ReadsByObject)
    (h : Yields lister config outcome) {front back : List Entry}
    (hsplit : outcome.entries = front ++ entry :: back) :
    ∃ child kept, StandsFor lister entry child kept ∧
      entry = match lister.tracked? kept child.stat.linkCount with
        | none => kept
        | some identity => Hardlink.assign kept (Hardlink.firstPath? identity front) := by
  have hentry : entry ∈ outcome.entries := by simp [hsplit]
  obtain ⟨child, kept, hstands, houtline⟩ := h.exists_outline htree hentry
  refine ⟨child, kept, hstands, ?_⟩
  cases htracked : lister.tracked? kept child.stat.linkCount with
  | none => exact hstands.eq_of_groupOf_eq_none (hstands.groupOf_eq.trans htracked)
  | some identity =>
    have hgroup := hstands.groupOf_eq.trans htracked
    have hrole := h.consistent front entry back hsplit identity hgroup
    have hempty : Hardlink.Tracker.path? {} identity = none := rfl
    rw [Lister.classify_eq, htracked, Hardlink.outline_of_groupOf_eq_some hgroup] at houtline
    simp only [hempty] at houtline
    rw [outline_canonical (identity_of_tracked?_eq_some htracked)] at houtline
    cases hfirst : Hardlink.firstPath? identity front with
    | none =>
      rw [hfirst] at hrole
      obtain ⟨hcanonical, hlink⟩ := hrole
      have hcontent := Yields.content_eq htree hreads h hentry hstands hcanonical
      simp only [Entry.content, Content.mk.injEq] at hcontent
      obtain ⟨hsize, hattributes, hflags⟩ := hcontent
      simp only [Entry.mk.injEq] at houtline
      cases entry
      simp_all [Hardlink.assign]
    | some path =>
      rw [hfirst] at hrole
      obtain ⟨hlinkTo, hlink, hsize, hattributes, hflags⟩ := hrole
      simp only [Entry.mk.injEq] at houtline
      cases entry
      simp_all [Hardlink.assign, Hardlink.demote]

/-! ## Walks with an outcome -/

theorem reordered_self (lister : Lister) :
    lister.reordered ⟨fun _ names => names, fun _ _ => .refl _⟩ = lister := by
  have hread : (fun path => (lister.view.readDirectory path).map fun names => names) =
      lister.view.readDirectory := by
    funext path
    cases lister.view.readDirectory path <;> rfl
  unfold Lister.reordered Snapshot.reordered
  simp only [hread]

/-- All walks of a tree end with one outcome if the root is a directory that can be listed. -/
theorem exists_outcome (htree : lister.IsTree) (hreads : lister.ReadsByObject)
    (hroot : rootError? lister = none) {names : List (Except IoError Bytes)}
    (hnames : lister.view.readDirectory lister.root = .ok names) :
    ∃ outcome, (∀ (order : ReadingOrder) (config : WalkConfig) (workers capacity : Nat),
        Returns (lister.reordered order) ((config.setWorkers workers).setCapacity capacity)
          (.ok outcome)) ∧ ∃ config, Yields lister config outcome := by
  obtain ⟨result, hreturns⟩ := exists_returns htree hreads
  -- Some run of the walk shows that the common result is an outcome.
  let given : ReadingOrder := ⟨fun _ names => names, fun _ _ => .refl _⟩
  obtain ⟨depth, haccounts⟩ := exists_accounts htree
  obtain ⟨contents, hcontents⟩ := Lister.exists_hasContents htree hreads
  have hstart := invariant_start (lister.reordered given)
    (((WalkConfig.ofProcessors 1).setWorkers 1).setCapacity 1) (lister.account depth) contents
  obtain ⟨final, hreaches, hdone⟩ :=
    exists_done (haccounts given) hstart.toAccounted
  have hresult := (hreturns given _ 1 1).result_eq hreaches hdone
  have hlabels := (Lister.isTree_reordered htree given).hasLabels
  have hgiven : (lister.reordered given).view.readDirectory lister.root = .ok names := by
    rw [reordered_self]
    exact hnames
  have hok : ∃ outcome, result = .ok outcome := by
    rw [← hresult]
    exact exists_result_eq_ok hlabels hreaches hroot hgiven
  obtain ⟨outcome, rfl⟩ := hok
  have hyields : Yields (lister.reordered given) _ outcome := ⟨final, hreaches, hdone, hresult⟩
  rw [reordered_self] at hyields
  exact ⟨outcome, hreturns, _, hyields⟩

end Walk

end TreeManifest
