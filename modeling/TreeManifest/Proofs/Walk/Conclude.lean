import TreeManifest.Proofs.Walk.Roles
import TreeManifest.Walk

/-!
# The result of a walk is read off its marks

Entries, failures and skipped paths are sorted at the end of a walk, and counters are sums. So two
walks with the same marks, in which the same contents are carried, have one result.

## Main definitions

- `Walk.Settled`: a final state, and the marks that it has collected.

## Main statements

- `Walk.conclude_eq`: final states with the same marks have one result.
-/

namespace TreeManifest.Walk

/-- A final state that has collected the given marks, with the given contents of groups. -/
structure Settled (contents : ObjectId → Content) (marks : List Mark) (state : State) : Prop where
  channel : state.channel = []
  collected : state.collected.Perm marks
  carries : Hardlink.Carries contents state.received

/-- Marks in which places tell entries and failures apart. -/
structure Distinct (root : Path) (marks : List Mark) : Prop where
  nodup : (marks.filterMap (·.place? root)).Nodup
  nul_notMem : ∀ entry, .captured entry ∈ marks → Bytes.nul ∉ entry.path
  eq_of_isFatal : ∀ error other, .failed error ∈ marks → .failed other ∈ marks →
    error.isFatal = true → other.isFatal = true → error = other

/-! ## Parts of marks -/

inductive Counter where
  | listed
  | emitted
  | excluded
  deriving DecidableEq

def Stats.value (stats : Stats) : Counter → Nat
  | .listed => stats.directories
  | .emitted => stats.listing.emitted
  | .excluded => stats.listing.excluded

namespace Mark

def entry? : Mark → Option Entry
  | .captured entry => some entry
  | _ => none

def failure? : Mark → Option WalkError
  | .failed error => some error
  | _ => none

def skippedPath? : Mark → Option Path
  | .skipped path => some path
  | _ => none

def counter? : Mark → Option Counter
  | .listed => some .listed
  | .emitted => some .emitted
  | .excluded => some .excluded
  | _ => none

end Mark

variable {state : State}

theorem filterMap_entry?_collected (state : State) :
    state.collected.filterMap Mark.entry? =
      (state.received ++ state.channel).map Hardlink.outline := by
  simp [State.collected, statsMarks, List.filterMap_map, Function.comp_def, Mark.entry?,
    Mark.outline, List.filterMap_replicate]

theorem filterMap_failure?_collected (state : State) :
    state.collected.filterMap Mark.failure? = state.errors := by
  simp [State.collected, statsMarks, List.filterMap_map, Function.comp_def, Mark.failure?,
    Mark.outline, List.filterMap_replicate]

theorem filterMap_skippedPath?_collected (state : State) :
    state.collected.filterMap Mark.skippedPath? = state.stats.listing.skipped := by
  simp [State.collected, statsMarks, List.filterMap_map, Function.comp_def, Mark.skippedPath?,
    Mark.outline, List.filterMap_replicate]

/-- A counter says how many of the collected marks raise it. -/
theorem count_counter?_collected (state : State) (counter : Counter) :
    (state.collected.filterMap Mark.counter?).count counter = state.stats.value counter := by
  cases counter <;>
    simp [State.collected, statsMarks, List.filterMap_map, Function.comp_def, Mark.counter?,
      Mark.outline, Stats.value, List.filterMap_replicate, List.count_replicate]

/-! ## Ties -/

/-- Elements that a function without repetitions maps to one value are one element. -/
theorem eq_of_nodup_filterMap {α β : Type} {find : α → Option β} {list : List α}
    (h : (list.filterMap find).Nodup) {a b : α} (ha : a ∈ list) (hb : b ∈ list) {found : β}
    (hfirst : find a = some found) (hsecond : find b = some found) : a = b := by
  induction list with
  | nil => exact absurd ha List.not_mem_nil
  | cons head list ih =>
    cases hhead : find head with
    | none =>
      rw [List.filterMap_cons_none hhead] at h
      have hne : ∀ c, find c = some found → c ≠ head := by
        rintro c hc rfl
        rw [hhead] at hc
        cases hc
      exact ih h ((List.mem_cons.1 ha).resolve_left (hne a hfirst))
        ((List.mem_cons.1 hb).resolve_left (hne b hsecond))
    | some value =>
      rw [List.filterMap_cons_some hhead, List.nodup_cons] at h
      have hlater : ∀ c ∈ list, find c = some found → value ≠ found := by
        rintro c hc hfound rfl
        exact h.1 (List.mem_filterMap.2 ⟨c, hc, hfound⟩)
      rcases List.mem_cons.1 ha with rfl | ha
      · rcases List.mem_cons.1 hb with rfl | hb
        · rfl
        · exact absurd (Option.some.inj (hhead.symm.trans hfirst)) (hlater b hb hsecond)
      · rcases List.mem_cons.1 hb with heq | hb
        · rw [← heq, hsecond] at hhead
          exact absurd (Option.some.inj hhead).symm (hlater a ha hfirst)
        · exact ih h.2 ha hb

variable {root : Path} {marks : List Mark} {contents : ObjectId → Content}

/-- Entries with one key are one entry. -/
theorem Distinct.eq_of_compareEntries (h : Distinct root marks) {a b : Entry}
    (ha : .captured a ∈ marks) (hb : .captured b ∈ marks) (heq : Order.compareEntries a b = .eq) :
    a = b := by
  have hcomponents := Order.components_eq_of_compareEntries_eq (h.nul_notMem a ha)
    (h.nul_notMem b hb) heq
  have hplace : (Mark.captured b).place? root = (Mark.captured a).place? root := by
    rw [Mark.place?, Mark.place?, hcomponents]
  exact Mark.captured.inj (eq_of_nodup_filterMap h.nodup ha hb rfl hplace)

/-- Failures with the same steps are one failure. -/
theorem Distinct.eq_of_compareSteps (h : Distinct root marks) {a b : WalkError}
    (ha : .failed a ∈ marks) (hb : .failed b ∈ marks)
    (heq : Path.compareSteps a.path b.path = .eq) : a = b := by
  have hplace : (Mark.failed b).place? root = (Mark.failed a).place? root := by
    rw [Mark.place?, Mark.place?, Path.compareSteps_eq_eq_iff.1 heq]
  exact Mark.failed.inj (eq_of_nodup_filterMap h.nodup ha hb rfl hplace)

/-- A search for the only hit does not depend on the order. -/
theorem find?_eq_of_perm {α : Type} {test : α → Bool} {first second : List α}
    (hperm : first.Perm second)
    (h : ∀ a ∈ first, ∀ b ∈ first, test a = true → test b = true → a = b) :
    first.find? test = second.find? test := by
  cases hfirst : first.find? test with
  | none =>
    refine (List.find?_eq_none.2 fun a ha => ?_).symm
    exact List.find?_eq_none.1 hfirst a (hperm.mem_iff.2 ha)
  | some a =>
    cases hsecond : second.find? test with
    | none =>
      have ha := hperm.mem_iff.1 (List.mem_of_find?_eq_some hfirst)
      exact absurd (List.find?_some hfirst) (List.find?_eq_none.1 hsecond a ha)
    | some b =>
      exact congrArg some (h a (List.mem_of_find?_eq_some hfirst) b
        (hperm.mem_iff.2 (List.mem_of_find?_eq_some hsecond)) (List.find?_some hfirst)
        (List.find?_some hsecond))

/-! ## Results -/

/-- What was received are the entries of the marks, up to roles. -/
theorem Settled.map_outline_perm (h : Settled contents marks state) :
    (state.received.map Hardlink.outline).Perm (marks.filterMap Mark.entry?) := by
  have hperm := h.collected.filterMap Mark.entry?
  rw [filterMap_entry?_collected, h.channel, List.append_nil] at hperm
  exact hperm

/-- The failures that were noted are those of the marks. -/
theorem Settled.errors_perm (h : Settled contents marks state) :
    state.errors.Perm (marks.filterMap Mark.failure?) := by
  have hperm := h.collected.filterMap Mark.failure?
  rw [filterMap_failure?_collected] at hperm
  exact hperm

theorem captured_mem_of_mem_filterMap {entry : Entry} (h : entry ∈ marks.filterMap Mark.entry?) :
    .captured entry ∈ marks := by
  obtain ⟨mark, hmark, hentry⟩ := List.mem_filterMap.1 h
  cases mark <;> cases hentry
  exact hmark

theorem failed_mem_of_mem_filterMap {error : WalkError}
    (h : error ∈ marks.filterMap Mark.failure?) : .failed error ∈ marks := by
  obtain ⟨mark, hmark, herror⟩ := List.mem_filterMap.1 h
  cases mark <;> cases herror
  exact hmark

instance : Std.TransCmp fun a b : WalkError => Path.compareSteps a.path b.path where
  eq_swap {a b} := @Std.OrientedCmp.eq_swap _ Path.compareSteps _ a.path b.path
  isLE_trans {a b c} := @Std.TransCmp.isLE_trans _ Path.compareSteps _ a.path b.path c.path

variable {lister other : Lister} {first second : State}

/-- The sorted outlines of final states with the same marks are the same. -/
theorem sort_map_outline_eq (hdistinct : Distinct root marks)
    (hfirst : Settled contents marks first) (hsecond : Settled contents marks second) :
    (Order.sort first.received).map Hardlink.outline =
      (Order.sort second.received).map Hardlink.outline := by
  rw [← Order.sort_map Hardlink.keepsKey_outline, ← Order.sort_map Hardlink.keepsKey_outline]
  refine Order.mergeSort_eq_of_perm (hfirst.map_outline_perm.trans hsecond.map_outline_perm.symm) ?_
  intro a ha b hb heq
  exact hdistinct.eq_of_compareEntries
    (captured_mem_of_mem_filterMap (hfirst.map_outline_perm.mem_iff.1 ha))
    (captured_mem_of_mem_filterMap (hfirst.map_outline_perm.mem_iff.1 hb)) heq

/-- Sorting entries makes no difference to the contents that they carry. -/
theorem carries_sort {entries : List Entry} (h : Hardlink.Carries contents entries) :
    Hardlink.Carries contents (Order.sort entries) where
  content_eq entry hentry := h.content_eq entry (List.mem_mergeSort.1 hentry)
  exists_carrier entry hentry identity hgroup := by
    obtain ⟨carrier, hcarrier, hfound⟩ :=
      h.exists_carrier entry (List.mem_mergeSort.1 hentry) identity hgroup
    exact ⟨carrier, List.mem_mergeSort.2 hcarrier, hfound⟩

/-- Counters with the skipped paths in the order of their bytes. -/
def sortSkipped (stats : Stats) : Stats :=
  { stats with listing := { stats.listing with
      skipped := stats.listing.skipped.mergeSort fun a b => (compare a b).isLE } }

/-- The result of a final state, by its parts. -/
theorem conclude_eq_match (lister : Lister) (state : State) : conclude lister state =
    match state.errors.find? (·.isFatal) with
    | some error => .error error
    | none =>
      match Order.check (Order.sort state.received) with
      | .error error => .error (.order lister.root error)
      | .ok () => .ok {
          entries := Hardlink.settle (Order.sort state.received)
          errors := state.errors.mergeSort fun a b => (Path.compareSteps a.path b.path).isLE
          stats := sortSkipped state.stats } := rfl

/-- The counters of final states with the same marks are the same once the paths are sorted. -/
theorem sortSkipped_eq (hfirst : Settled contents marks first)
    (hsecond : Settled contents marks second) :
    sortSkipped first.stats = sortSkipped second.stats := by
  have hperm := hfirst.collected.trans hsecond.collected.symm
  have hcounters (counter : Counter) : first.stats.value counter = second.stats.value counter := by
    rw [← count_counter?_collected, ← count_counter?_collected]
    exact (hperm.filterMap Mark.counter?).count_eq counter
  have hlisted : first.stats.directories = second.stats.directories := hcounters .listed
  have hemitted : first.stats.listing.emitted = second.stats.listing.emitted := hcounters .emitted
  have hexcluded : first.stats.listing.excluded = second.stats.listing.excluded :=
    hcounters .excluded
  have hskipped := hperm.filterMap Mark.skippedPath?
  rw [filterMap_skippedPath?_collected, filterMap_skippedPath?_collected] at hskipped
  have hsorted : first.stats.listing.skipped.mergeSort (fun a b => (compare a b).isLE) =
      second.stats.listing.skipped.mergeSort fun a b => (compare a b).isLE :=
    Order.mergeSort_eq_of_perm hskipped fun a _ b _ heq => Std.LawfulEqOrd.eq_of_compare heq
  unfold sortSkipped
  dsimp only
  rw [hlisted, hemitted, hexcluded, hsorted]

/-- Final states with the same marks and the same contents have one result. -/
theorem conclude_eq (hroot : lister.root = other.root) (hdistinct : Distinct lister.root marks)
    (hfirst : Settled contents marks first) (hsecond : Settled contents marks second) :
    conclude lister first = conclude other second := by
  -- Part by part: the fatal failure, the other failures, the check, the roles and the counters.
  have herrors := hfirst.errors_perm.trans hsecond.errors_perm.symm
  have hmem : ∀ error ∈ first.errors, .failed error ∈ marks := fun error herror =>
    failed_mem_of_mem_filterMap (hfirst.errors_perm.mem_iff.1 herror)
  have hfatal : first.errors.find? (·.isFatal) = second.errors.find? (·.isFatal) :=
    find?_eq_of_perm herrors fun a ha b hb =>
      hdistinct.eq_of_isFatal a b (hmem a ha) (hmem b hb)
  have hfailures : first.errors.mergeSort (fun a b => (Path.compareSteps a.path b.path).isLE) =
      second.errors.mergeSort fun a b => (Path.compareSteps a.path b.path).isLE :=
    Order.mergeSort_eq_of_perm herrors fun a ha b hb =>
      hdistinct.eq_of_compareSteps (hmem a ha) (hmem b hb)
  have houtline := sort_map_outline_eq hdistinct hfirst hsecond
  have hcheck : Order.check (Order.sort first.received) =
      Order.check (Order.sort second.received) := by
    rw [← Order.check_map Hardlink.keepsKey_outline, houtline,
      Order.check_map Hardlink.keepsKey_outline]
  have hsettle : Hardlink.settle (Order.sort first.received) =
      Hardlink.settle (Order.sort second.received) :=
    Hardlink.settle_eq_of_outline (carries_sort hfirst.carries) (carries_sort hsecond.carries)
      houtline
  rw [conclude_eq_match, conclude_eq_match, hfatal, hcheck, hsettle, hfailures,
    sortSkipped_eq hfirst hsecond, hroot]

end TreeManifest.Walk
