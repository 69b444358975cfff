import Mathlib.Data.List.Perm.Basic
import TreeManifest.Proofs.Attributes.Course

/-!
# What a restore of attributes leaves behind

One restore through a provider whose calls act as those of a map is followed round by round, which
gives the map, the journal and the progress that it ends with. A second restore of the same entry
finds every wanted binding that it can see in place, and every unwanted name that it could remove
gone.

## Main definitions

- `Course.Ran`: both loops, from what stood before them to what stands after them.
- `Course.Synced`: a whole restore.

## Main statements

- `Course.synced_run`: what a restore can do.
- `Course.Ran.get?_eq`, `Course.Ran.journal_eq`: what one restore leaves behind.
- `Course.Synced.again`, `Course.Synced.again_ok`: what the next one does.
-/

namespace TreeManifest.Course

open AttributeProvider

variable {σ : Type} {provider : AttributeProvider σ} {target : Path} {held : σ → AttributeMap}
  {shows : String → Bool} {policy : CallPolicy} {valid : σ → Prop} {state : σ}
  {present : List String} {initial wanted : AttributeMap} {before after : Standing}

/-! ## The loops -/

/-- The first loop is a chain of rounds, one for each binding. -/
theorem chain_bindings (h : provider.Serves target held shows policy valid)
    (hpresent : ∀ name, name ∈ present ↔ lists shows initial name = true)
    {bindings : List (String × Bytes)} (hascending : bindings.Pairwise fun a b => a.1 < b.1)
    (hvalid : valid state)
    (hsame : ∀ binding ∈ bindings, (held state).get? binding.1 = initial.get? binding.1)
    (journal : Journal) (progress : SyncProgress) :
    valid ((bindings.foldlM (syncBinding provider.journaled target present) progress).run
        (state, journal)).state.1 ∧
      Chain (Bound policy shows initial) bindings ⟨held state, journal, progress⟩ (standing held
        ((bindings.foldlM (syncBinding provider.journaled target present) progress).run
          (state, journal))) := by
  induction bindings generalizing state journal progress with
  | nil => exact ⟨hvalid, .nil _⟩
  | cons binding bindings ih =>
    obtain ⟨hfirst, hrest⟩ := List.pairwise_cons.1 hascending
    rw [List.forall_mem_cons] at hsame
    obtain ⟨hmiddle, hbound⟩ := bound_syncBinding h hvalid hpresent hsame.1 journal progress
    -- The names differ, so this round has left the other bindings alone.
    have hothers : ∀ other ∈ bindings,
        (standing held ((syncBinding provider.journaled target present progress binding).run
          (state, journal))).held.get? other.1 = initial.get? other.1 := by
      intro other hother
      have hne : binding.1 ≠ other.1 := by
        intro heq
        exact String.lt_irrefl _ (heq ▸ hfirst other hother)
      rw [hbound.get?_eq, if_neg fun hand => hne hand.2]
      exact hsame.2 other hother
    obtain ⟨hlast, hchain⟩ := ih hrest hmiddle hothers
      ((syncBinding provider.journaled target present progress binding).run
        (state, journal)).state.2
      ((syncBinding provider.journaled target present progress binding).run
        (state, journal)).value
    rw [List.foldlM_cons]
    exact ⟨hlast, .cons hbound hchain⟩

/-- The second loop is a chain of rounds, one for each listed name. -/
theorem chain_removals (h : provider.Serves target held shows policy valid) (hvalid : valid state)
    {names : List String} (hnodup : names.Nodup)
    (hheld : ∀ name ∈ names, (held state).contains name = true) (journal : Journal)
    (progress : SyncProgress) (wanted : AttributeMap) :
    valid ((names.foldlM (removeUnwanted provider.journaled target wanted) progress).run
        (state, journal)).state.1 ∧
      Chain (Dropped policy wanted) names ⟨held state, journal, progress⟩ (standing held
        ((names.foldlM (removeUnwanted provider.journaled target wanted) progress).run
          (state, journal))) := by
  induction names generalizing state journal progress with
  | nil => exact ⟨hvalid, .nil _⟩
  | cons name names ih =>
    obtain ⟨hfirst, hrest⟩ := List.nodup_cons.1 hnodup
    rw [List.forall_mem_cons] at hheld
    obtain ⟨hmiddle, hdropped⟩ :=
      dropped_removeUnwanted h hvalid hheld.1 journal progress wanted
    have hothers : ∀ other ∈ names,
        (standing held ((removeUnwanted provider.journaled target wanted progress name).run
          (state, journal))).held.contains other = true := by
      intro other hother
      have hne : other ≠ name := fun heq => hfirst (heq ▸ hother)
      rw [AttributeMap.contains, hdropped.get?_eq, if_neg fun hand => hne hand.2]
      exact hheld.2 other hother
    obtain ⟨hlast, hchain⟩ := ih hmiddle hrest hothers
      ((removeUnwanted provider.journaled target wanted progress name).run (state, journal)).state.2
      ((removeUnwanted provider.journaled target wanted progress name).run (state, journal)).value
    rw [List.foldlM_cons]
    exact ⟨hlast, .cons hdropped hchain⟩

/-- Both loops of a restore, over names that were listed before the first. -/
inductive Ran (policy : CallPolicy) (shows : String → Bool) (wanted : AttributeMap)
    (before after : Standing) : Prop where
  | intro {present : List String} {middle : Standing} (hnodup : present.Nodup)
      (hpresent : ∀ name, name ∈ present ↔ lists shows before.held name = true)
      (hbindings : Chain (Bound policy shows before.held) wanted.toList before middle)
      (hremovals : Chain (Dropped policy wanted) present middle after) :
      Ran policy shows wanted before after

/-! ## One restore -/

/-- After the first loop a name has the value of its binding if that was written, and its old one
otherwise. -/
theorem get?_of_bindings {bindings : List (String × Bytes)}
    (h : Chain (Bound policy shows initial) bindings before after)
    (hascending : bindings.Pairwise fun a b => a.1 < b.1) (name : String) :
    after.held.get? name =
      match AttributeMap.lookup name bindings with
      | some value =>
        if writes policy shows initial (name, value) then some value else before.held.get? name
      | none => before.held.get? name := by
  induction h with
  | nil => rfl
  | @cons binding bindings before middle after head tail ih =>
    obtain ⟨key, value⟩ := binding
    obtain ⟨hfirst, hrest⟩ := List.pairwise_cons.1 hascending
    rw [ih hrest, head.get?_eq]
    by_cases hkey : key = name
    · subst hkey
      -- No later binding has the name.
      have hnone : AttributeMap.lookup key bindings = none := by
        rw [Option.eq_none_iff_forall_not_mem]
        intro other hother
        have hmem := (AttributeMap.lookup_eq_some_iff hrest).1 hother
        exact String.lt_irrefl key (hfirst _ hmem)
      simp [AttributeMap.lookup, hnone]
    · simp [AttributeMap.lookup, hkey]

/-- The first loop removes nothing. -/
theorem contains_of_bindings {bindings : List (String × Bytes)} {name : String}
    (h : Chain (Bound policy shows initial) bindings before after)
    (hname : before.held.contains name = true) : after.held.contains name = true := by
  induction h with
  | nil => exact hname
  | cons head tail ih =>
    refine ih ?_
    rw [AttributeMap.contains, head.get?_eq]
    split
    · rfl
    · exact hname

/-- After the second loop a name is gone if it was dropped, and has its old value otherwise. -/
theorem get?_of_removals {names : List String}
    (h : Chain (Dropped policy wanted) names before after) (name : String) :
    after.held.get? name =
      if name ∈ names ∧ drops policy wanted name = true then none else before.held.get? name := by
  induction h with
  | nil => simp
  | @cons first names before middle after head tail ih =>
    rw [ih, head.get?_eq]
    by_cases hname : name = first
    · subst hname
      by_cases hdrops : drops policy wanted name = true <;> simp [hdrops]
    · simp [hname]

namespace Ran

/-- The value of a name after a restore. -/
theorem get?_eq (h : Ran policy shows wanted before after) (name : String) :
    after.held.get? name =
      match wanted.get? name with
      | some value =>
        if writes policy shows before.held (name, value) then some value
        else before.held.get? name
      | none =>
        if lists shows before.held name && (policy.remove name).isWorking then none
        else before.held.get? name := by
  obtain ⟨hnodup, hpresent, hbindings, hremovals⟩ := h
  rw [get?_of_removals hremovals, get?_of_bindings hbindings wanted.ascending]
  change _ = match AttributeMap.lookup name wanted.toList with | some value => _ | none => _
  have hcontains : wanted.contains name = (AttributeMap.lookup name wanted.toList).isSome := rfl
  cases hwanted : AttributeMap.lookup name wanted.toList with
  | some value => simp [drops, hcontains, hwanted]
  | none => simp [drops, hcontains, hwanted, hpresent]

/-- The names that a restore removes, in the order of the listing and in their own. -/
theorem perm_removed (hnodup : present.Nodup)
    (hpresent : ∀ name, name ∈ present ↔ lists shows initial name = true) :
    (present.filter (drops policy wanted)).Perm
      (initial.keys.filter fun name => shows name && drops policy wanted name) := by
  rw [List.perm_ext_iff_of_nodup (hnodup.filter _) (initial.nodup_keys.filter _)]
  intro name
  simp [List.mem_filter, hpresent, lists, AttributeMap.contains_iff, and_assoc]

/-- The changes of a restore: the bindings written, and the names removed in some order. -/
theorem journal_eq (h : Ran policy shows wanted before after) :
    ∃ removed : List String,
      removed.Perm (before.held.keys.filter fun name => shows name && drops policy wanted name) ∧
      after.journal = before.journal ++
        (wanted.toList.filter (writes policy shows before.held)).map (.set ·.1) ++
          removed.map .remove := by
  obtain @⟨present, middle, hnodup, hpresent, hbindings, hremovals⟩ := h
  refine ⟨present.filter (drops policy wanted), perm_removed hnodup hpresent, ?_⟩
  · rw [hremovals.journal_eq .remove, hbindings.journal_eq (.set ·.1)]
    · intro binding before after hbound
      rcases hbound.written_or_kept with ⟨hwrites, rfl⟩ | ⟨hwrites, -, hjournal, -⟩
      · simp [hwrites]
      · simp [hwrites, hjournal]
    · intro name before after hdropped
      rcases hdropped.removed_or_kept with ⟨hdrops, rfl⟩ | ⟨hdrops, -, hjournal, -⟩
      · simp [hdrops]
      · simp [hdrops, hjournal]

/-- A restore counts the bindings that it writes. -/
theorem written_eq (h : Ran policy shows wanted before after) :
    after.progress.sync.written = before.progress.sync.written +
      (wanted.toList.filter (writes policy shows before.held)).length := by
  obtain ⟨hnodup, hpresent, hbindings, hremovals⟩ := h
  rw [hremovals.eq_of_round (fun standing => standing.progress.sync.written),
    hbindings.count_eq (fun standing => standing.progress.sync.written)]
  · intro binding before after hbound
    rcases hbound.written_or_kept with ⟨hwrites, rfl⟩ | ⟨hwrites, -, -, hwritten, -⟩
    · simp [hwrites, SyncProgress.wrote]
    · simp [hwrites, hwritten]
  · intro name before after hdropped
    rcases hdropped.removed_or_kept with ⟨-, rfl⟩ | ⟨-, -, -, hwritten, -⟩
    · rfl
    · exact hwritten

/-- A restore counts the names that it removes. -/
theorem removed_eq (h : Ran policy shows wanted before after) :
    after.progress.sync.removed = before.progress.sync.removed +
      (before.held.keys.filter fun name => shows name && drops policy wanted name).length := by
  obtain ⟨hnodup, hpresent, hbindings, hremovals⟩ := h
  rw [hremovals.count_eq (fun standing => standing.progress.sync.removed),
    hbindings.eq_of_round (fun standing => standing.progress.sync.removed),
    (perm_removed hnodup hpresent).length_eq]
  · intro binding before after hbound
    rcases hbound.written_or_kept with ⟨-, rfl⟩ | ⟨-, -, -, -, hremoved⟩
    · rfl
    · exact hremoved
  · intro name before after hdropped
    rcases hdropped.removed_or_kept with ⟨hdrops, rfl⟩ | ⟨hdrops, -, -, -, hremoved⟩
    · simp [hdrops, SyncProgress.removedOne]
    · simp [hdrops, hremoved]

/-- A restore that fails nowhere skips nothing. -/
theorem skipped_eq (h : Ran policy shows wanted before after)
    (hget : ∀ name, (policy.get name).isWorking = true)
    (hset : ∀ name value, (policy.set name value).isWorking = true)
    (hremove : ∀ name, (policy.remove name).isWorking = true) :
    after.progress.sync.skipped = before.progress.sync.skipped := by
  obtain ⟨hnodup, hpresent, hbindings, hremovals⟩ := h
  have hnever : ∀ {verdict : Verdict} {error}, verdict.isWorking = true →
      ¬ verdict.Faults error := by
    intro verdict error hworks hfault
    simp [Verdict.isWorking_of_faults hfault] at hworks
  rw [hremovals.eq_of_round (fun standing => standing.progress.sync.skipped),
    hbindings.eq_of_round (fun standing => standing.progress.sync.skipped)]
  · intro binding before after hbound
    cases hbound with
    | same => rfl
    | unread _ hfault => exact absurd hfault (hnever (hget _))
    | wrote _ hwrote =>
      cases hwrote with
      | done => rfl
      | failed hfault => exact absurd hfault (hnever (hset _ _))
  · intro name before after hdropped
    cases hdropped with
    | kept | done => rfl
    | failed _ hfault => exact absurd hfault (hnever (hremove _))

/-- A restore succeeds when the failures that it can meet are passed over. -/
theorem firstError_eq_none_iff (h : Ran policy shows wanted before after)
    (hsteady : policy.Steady) :
    after.progress.firstError = none ↔
      (before.progress.firstError = none ∧
        ∀ binding ∈ wanted.toList, BindingLenient policy shows before.held binding) ∧
      ∀ name, lists shows before.held name = true → wanted.contains name = false →
        (policy.remove name).Lenient := by
  obtain ⟨hnodup, hpresent, hbindings, hremovals⟩ := h
  rw [hremovals.iff_of_round (fun standing => standing.progress.firstError = none)
      (fun name => wanted.contains name = false → (policy.remove name).Lenient),
    hbindings.iff_of_round (fun standing => standing.progress.firstError = none)
      (BindingLenient policy shows before.held)]
  · simp only [hpresent]
  · intro binding _ before after hbound
    exact hbound.firstError_eq_none_iff (hsteady.get _) (hsteady.set _ _)
  · intro name _ before after hdropped
    exact hdropped.firstError_eq_none_iff (hsteady.remove _)

/-! ## The next restore -/

variable {next last : Standing}

/-- A binding is not written if the call fails, or if its name is listed and unreadable or already
has the value. -/
theorem writes_eq_false_iff {binding : String × Bytes} :
    writes policy shows initial binding = false ↔
      (policy.set binding.1 binding.2).isWorking = false ∨
        lists shows initial binding.1 = true ∧
          ((policy.get binding.1).isWorking = false ∨ initial.get? binding.1 = some binding.2) := by
  unfold writes asks
  cases lists shows initial binding.1 with
  | false => simp
  | true =>
    simp only [if_true, true_and, Bool.and_eq_false_iff, bne_eq_false_iff_eq]
    exact or_comm

/-- A wanted binding that was written is in place, and so is one that can be seen. -/
theorem again_writes (h : Ran policy shows wanted before after) {name : String} {value : Bytes}
    (hwanted : wanted.get? name = some value) :
    writes policy shows after.held (name, value) =
      (!shows name && (policy.set name value).isWorking) := by
  have hafter := h.get?_eq name
  rw [hwanted] at hafter
  cases hset : (policy.set name value).isWorking with
  | false => simp [writes, hset]
  | true =>
    cases hshows : shows name with
    | false => simp [writes, asks, lists, hset, hshows]
    | true =>
      rw [Bool.not_true, Bool.false_and, writes_eq_false_iff]
      right
      cases hwrites : writes policy shows before.held (name, value) with
      | true =>
        simp only [hwrites, if_true] at hafter
        simp [lists, hshows, AttributeMap.contains, hafter]
      | false =>
        simp only [hwrites, Bool.false_eq_true, if_false] at hafter
        rw [writes_eq_false_iff] at hwrites
        simpa [lists, hset, AttributeMap.contains, hafter] using hwrites

/-- An unwanted name that is still listed cannot be removed. -/
theorem again_drops (h : Ran policy shows wanted before after) {name : String}
    (hlists : lists shows after.held name = true) : drops policy wanted name = false := by
  have hafter := h.get?_eq name
  cases hwanted : wanted.get? name with
  | some value => simp [drops, AttributeMap.contains, hwanted]
  | none =>
    rw [hwanted] at hafter
    cases hremove : (policy.remove name).isWorking with
    | false => simp [drops, hremove]
    | true =>
      simp only [hremove, Bool.and_true] at hafter
      split at hafter
      · simp [lists, AttributeMap.contains, hafter] at hlists
      · next hbefore => simp_all [lists, AttributeMap.contains]

/-- The next restore leaves the attributes as they are. -/
theorem again_held (h : Ran policy shows wanted before after)
    (hagain : Ran policy shows wanted next last) (hnext : next.held = after.held) :
    last.held = after.held := by
  refine AttributeMap.ext_get? fun name => ?_
  rw [hagain.get?_eq name, hnext]
  cases hwanted : wanted.get? name with
  | some value =>
    dsimp only
    rw [h.again_writes hwanted]
    split
    · next hrewritten =>
      -- A name that is not seen is written in every restore.
      have hafter := h.get?_eq name
      simp only [Bool.and_eq_true, Bool.not_eq_true'] at hrewritten
      simpa [hwanted, writes, asks, lists, hrewritten] using hafter.symm
    · rfl
  | none =>
    dsimp only
    split
    · next hlisted =>
      simp only [Bool.and_eq_true] at hlisted
      have hdrops := h.again_drops hlisted.1
      simp [drops, AttributeMap.contains, hwanted, hlisted.2] at hdrops
    · rfl

/-- A second run writes only what is set but not shown. -/
theorem filter_again_writes (h : Ran policy shows wanted before after) :
    wanted.toList.filter (writes policy shows after.held) =
      wanted.toList.filter fun binding =>
        !shows binding.1 && (policy.set binding.1 binding.2).isWorking := by
  refine List.filter_congr fun binding hbinding => ?_
  exact h.again_writes (AttributeMap.get?_eq_some_iff.2 hbinding)

/-- A second run drops nothing. -/
theorem filter_again_drops (h : Ran policy shows wanted before after) :
    (after.held.keys.filter fun name => shows name && drops policy wanted name) = [] := by
  refine List.filter_eq_nil_iff.2 fun name hname => ?_
  cases hshows : shows name with
  | false => simp
  | true =>
    have hlists : lists shows after.held name = true := by
      simp [lists, AttributeMap.contains_iff.2 hname, hshows]
    simp [h.again_drops hlists]

/-- The next restore succeeds if the first one has. -/
theorem again_firstError (h : Ran policy shows wanted before after) (hsteady : policy.Steady)
    (hread : ∀ name value, (policy.set name value).isWorking = true → (policy.get name).Lenient)
    (hafter : after.progress.firstError = none) (hagain : Ran policy shows wanted next last)
    (hnext : next.held = after.held) (hstart : next.progress.firstError = none) :
    last.progress.firstError = none := by
  rw [h.firstError_eq_none_iff hsteady] at hafter
  obtain ⟨⟨-, hbindings⟩, hremovals⟩ := hafter
  rw [hagain.firstError_eq_none_iff hsteady, hnext]
  refine ⟨⟨hstart, ?_⟩, ?_⟩
  · rintro ⟨name, value⟩ hbinding
    obtain ⟨hget, hset⟩ := hbindings _ hbinding
    have hwanted := AttributeMap.get?_eq_some_iff.2 hbinding
    have hheld := h.get?_eq name
    rw [hwanted] at hheld
    cases hwrites : writes policy shows before.held (name, value) with
    | true =>
      have hworks := (Bool.and_eq_true_iff.1 hwrites).2
      exact ⟨fun _ => hread name value hworks, fun _ => Verdict.lenient_of_isWorking hworks⟩
    | false =>
      -- The binding was left alone, so the next restore meets it as the first one did.
      simp only [hwrites, Bool.false_eq_true, if_false] at hheld
      rw [BindingLenient, lists_congr hheld, asks_congr hheld]
      exact ⟨hget, hset⟩
  · intro name hlists hunwanted
    refine hremovals name ?_ hunwanted
    have hheld := h.get?_eq name
    have hnone : wanted.get? name = none := by simpa [AttributeMap.contains] using hunwanted
    rw [hnone] at hheld
    dsimp only at hheld
    split at hheld
    · simp [lists, AttributeMap.contains, hheld] at hlists
    · rw [← lists_congr hheld]
      exact hlists

end Ran

/-! ## Whole restores -/

def syncListed (provider : AttributeProvider σ) (target : Path) (wanted : AttributeMap)
    (present : List String) : Task σ SyncProgress := do
  let progress ← wanted.toList.foldlM (syncBinding provider target present) {}
  present.foldlM (removeUnwanted provider target wanted) progress

def answer (progress : SyncProgress) : Except MetadataError AttributeSync :=
  match progress.firstError with
  | some error => .error error
  | none => .ok progress.sync

def unlistedAnswer (wanted : AttributeMap) (error : MetadataError) :
    Except MetadataError AttributeSync :=
  if error.errorClass.isRefusal then .ok { skipped := wanted.size } else .error error

/-- A synchronization reports its counters exactly if no hard failure was kept. -/
theorem answer_eq_ok_iff {progress : SyncProgress} {sync : AttributeSync} :
    answer progress = .ok sync ↔ progress.firstError = none ∧ progress.sync = sync := by
  unfold answer
  cases progress.firstError <;> simp

/-- Objects without attributes are left alone. -/
theorem syncAttributes_of_not_carries {entry : Entry}
    (h : entry.kind.carriesAttributes = false) (provider : AttributeProvider σ) (target : Path) :
    syncAttributes provider entry target = pure (.ok {}) := by
  simp [syncAttributes, h]

/-- A restore asks for the names of the object and then goes through both loops. -/
theorem syncAttributes_of_carries {entry : Entry} (h : entry.kind.carriesAttributes = true)
    (provider : AttributeProvider σ) (target : Path) :
    syncAttributes provider entry target = do
      match ← provider.list target with
      | .error error =>
        if error.errorClass.isRefusal then
          Task.report .attributes .debug ("skipping attributes: " ++ error.message)
        return unlistedAnswer (entry.attributes.getD .empty) error
      | .ok present =>
        return answer (← syncListed provider target (entry.attributes.getD .empty) present) := by
  simp only [syncAttributes, h, Bool.not_true, Bool.false_eq_true, if_false, syncListed]
  refine congrArg (provider.list target >>= ·) (funext fun names => ?_)
  cases names with
  | error error => cases hrefusal : error.errorClass.isRefusal <;> simp [unlistedAnswer, hrefusal]
  | ok present =>
    simp only [bind_assoc]
    refine congrArg _ (funext fun _ => congrArg _ (funext fun progress => ?_))
    cases hfirst : progress.firstError <;> simp [answer, hfirst]

/-- The loops of a restore, one after the other. -/
theorem chains_syncListed (h : provider.Serves target held shows policy valid)
    (hvalid : valid state) (hnodup : present.Nodup)
    (hpresent : ∀ name, name ∈ present ↔ lists shows (held state) name = true)
    (wanted : AttributeMap) (journal : Journal) :
    valid ((syncListed provider.journaled target wanted present).run (state, journal)).state.1 ∧
      ∃ middle, Chain (Bound policy shows (held state)) wanted.toList ⟨held state, journal, {}⟩
        middle ∧ Chain (Dropped policy wanted) present middle (standing held
          ((syncListed provider.journaled target wanted present).run (state, journal))) := by
  obtain ⟨hmiddle, hbindings⟩ :=
    chain_bindings h hpresent wanted.ascending hvalid (fun _ _ => rfl) journal {}
  -- Writing takes no name away, so the listed names are still there to be removed.
  have hstill : ∀ name ∈ present, _ := fun name hname =>
    contains_of_bindings hbindings (Bool.and_eq_true_iff.1 ((hpresent name).1 hname)).1
  obtain ⟨hlast, hremovals⟩ := chain_removals h hmiddle hnodup hstill _ _ wanted
  exact ⟨hlast, _, hbindings, hremovals⟩

/-- The two loops with the listed names are one run. -/
theorem ran_syncListed (h : provider.Serves target held shows policy valid) (hvalid : valid state)
    (hnodup : present.Nodup)
    (hpresent : ∀ name, name ∈ present ↔ lists shows (held state) name = true)
    (wanted : AttributeMap) (journal : Journal) :
    valid ((syncListed provider.journaled target wanted present).run (state, journal)).state.1 ∧
      Ran policy shows wanted ⟨held state, journal, {}⟩ (standing held
        ((syncListed provider.journaled target wanted present).run (state, journal))) := by
  obtain ⟨hlast, middle, hbindings, hremovals⟩ :=
    chains_syncListed h hvalid hnodup hpresent wanted journal
  exact ⟨hlast, hnodup, hpresent, hbindings, hremovals⟩

/-- What becomes of a map, of a journal and of the call in a whole restore. -/
inductive Synced (policy : CallPolicy) (shows : String → Bool) (entry : Entry)
    (held : AttributeMap) (journal : Journal) :
    AttributeMap → Journal → Except MetadataError AttributeSync → Prop where
  | idle (hcarries : entry.kind.carriesAttributes = false) :
      Synced policy shows entry held journal held journal (.ok {})
  | unlisted {error : MetadataError} (hcarries : entry.kind.carriesAttributes = true)
      (hfault : policy.list.Faults error) :
      Synced policy shows entry held journal held journal
        (unlistedAnswer (entry.attributes.getD .empty) error)
  | ran {after : Standing} (hcarries : entry.kind.carriesAttributes = true)
      (hlist : policy.list.isWorking = true)
      (hran : Ran policy shows (entry.attributes.getD .empty) ⟨held, journal, {}⟩ after) :
      Synced policy shows entry held journal after.held after.journal (answer after.progress)

/-- A synchronization, against any provider that serves the policy, is what the policy says. -/
theorem synced_syncAttributes (h : provider.Serves target held shows policy valid)
    (hvalid : valid state) (entry : Entry) (journal : Journal) :
    valid ((syncAttributes provider.journaled entry target).run (state, journal)).state.1 ∧
      Synced policy shows entry (held state) journal
        (held ((syncAttributes provider.journaled entry target).run (state, journal)).state.1)
        ((syncAttributes provider.journaled entry target).run (state, journal)).state.2
        ((syncAttributes provider.journaled entry target).run (state, journal)).value := by
  cases hcarries : entry.kind.carriesAttributes with
  | false =>
    rw [syncAttributes_of_not_carries hcarries]
    exact ⟨hvalid, .idle hcarries⟩
  | true =>
    obtain ⟨hlisted, hheld, hanswer⟩ := h.list hvalid
    rw [syncAttributes_of_carries hcarries]
    simp only [Task.run_bind, run_list_journaled]
    cases hvalue : ((provider.list target).run state).value with
    | error error =>
      rw [hvalue] at hanswer
      by_cases hrefusal : error.errorClass.isRefusal = true
      · simp only [if_pos hrefusal, Task.run_bind, Task.run_report, Task.run_pure, hheld]
        exact ⟨hlisted, .unlisted hcarries hanswer⟩
      · simp only [if_neg hrefusal, Task.run_pure, hheld]
        exact ⟨hlisted, .unlisted hcarries hanswer⟩
    | ok present =>
      rw [hvalue] at hanswer
      obtain ⟨hworks, hnodup, hpresent⟩ := hanswer
      obtain ⟨hlast, hran⟩ := ran_syncListed h hlisted hnodup
        (by simpa [lists, hheld] using hpresent) (entry.attributes.getD .empty) journal
      rw [hheld] at hran
      exact ⟨hlast, .ran hcarries hworks hran⟩

/-- What a restore does, with the journal that it would leave. -/
theorem synced_run (h : provider.Serves target held shows policy valid) (hvalid : valid state)
    (entry : Entry) :
    ∃ journal : Journal,
      valid ((syncAttributes provider entry target).run state).state ∧
      ((syncAttributes provider.journaled entry target).run (state, [])).state =
        (((syncAttributes provider entry target).run state).state, journal) ∧
      Synced policy shows entry (held state) []
        (held ((syncAttributes provider entry target).run state).state) journal
        ((syncAttributes provider entry target).run state).value := by
  obtain ⟨journal, hrun⟩ :=
    mirrors_syncAttributes (shadows_journaled provider) entry target state ([] : Journal)
  have hsynced := synced_syncAttributes h hvalid entry []
  rw [hrun] at hsynced
  exact ⟨journal, hsynced.1, by rw [hrun], hsynced.2⟩

/-- The bindings that every restore writes anew, since their names are not listed. -/
def rewritten (policy : CallPolicy) (shows : String → Bool) (entry : Entry) :
    List (String × Bytes) :=
  if entry.kind.carriesAttributes && policy.list.isWorking then
    (entry.attributes.getD .empty).toList.filter fun binding =>
      !shows binding.1 && (policy.set binding.1 binding.2).isWorking
  else []

namespace Synced

variable {entry : Entry} {start middle last : AttributeMap} {journal noted changes : Journal}
  {first second : Except MetadataError AttributeSync}

/-- A synchronization whose listing works is one run of the two loops. -/
theorem exists_ran (h : Synced policy shows entry start journal middle noted first)
    (hcarries : entry.kind.carriesAttributes = true) (hlist : policy.list.isWorking = true) :
    ∃ after, Ran policy shows (entry.attributes.getD .empty) ⟨start, journal, {}⟩ after ∧
      after.held = middle ∧ after.journal = noted ∧ answer after.progress = first := by
  cases h with
  | idle hidle =>
    rw [hidle] at hcarries
    cases hcarries
  | unlisted _ hfault =>
    rw [Verdict.isWorking_of_faults hfault] at hlist
    cases hlist
  | ran _ _ hran => exact ⟨_, hran, rfl, rfl, rfl⟩

/-- An object without attributes gets all that are wanted if they can be made. -/
theorem eq_wanted (h : Synced policy shows entry .empty journal middle noted first)
    (hidle : entry.kind.carriesAttributes = false → entry.attributes = none)
    (hlist : policy.list.isWorking = true)
    (hset : ∀ name value, (entry.attributes.getD .empty).get? name = some value →
      (policy.set name value).isWorking = true) :
    middle = entry.attributes.getD .empty := by
  cases h with
  | idle hcarries =>
    rw [hidle hcarries]
    rfl
  | unlisted _ hfault =>
    rw [Verdict.isWorking_of_faults hfault] at hlist
    cases hlist
  | ran _ _ hran =>
    refine AttributeMap.ext_get? fun name => ?_
    rw [hran.get?_eq]
    cases hwanted : (entry.attributes.getD .empty).get? name with
    | none => simp
    | some value =>
      simp [writes, asks, lists, hset name value hwanted, AttributeMap.contains]

/-- A restore succeeds if all failures that it can meet are passed over. -/
theorem exists_ok (h : Synced policy shows entry start journal middle noted first)
    (hsteady : policy.Steady) (hlist : policy.list.Lenient)
    (hbindings : ∀ binding ∈ (entry.attributes.getD .empty).toList,
      (policy.get binding.1).Lenient ∧ (policy.set binding.1 binding.2).Lenient)
    (hremovals : ∀ name, start.contains name = true → (policy.remove name).Lenient) :
    ∃ sync, first = .ok sync := by
  cases h with
  | idle => exact ⟨_, rfl⟩
  | unlisted _ hfault =>
    rw [unlistedAnswer, if_pos (hlist _ hfault)]
    exact ⟨_, rfl⟩
  | @ran after _ _ hran =>
    refine ⟨after.progress.sync, answer_eq_ok_iff.2 ⟨?_, rfl⟩⟩
    rw [hran.firstError_eq_none_iff hsteady]
    refine ⟨⟨rfl, fun binding hbinding => ?_⟩, fun name hlists _ => ?_⟩
    · exact ⟨fun _ => (hbindings binding hbinding).1, fun _ => (hbindings binding hbinding).2⟩
    · exact hremovals name (Bool.and_eq_true_iff.1 hlists).1

/-- The next restore writes only what it cannot see, and changes nothing by that. -/
theorem again (h : Synced policy shows entry start journal middle noted first)
    (hagain : Synced policy shows entry middle [] last changes second) :
    last = middle ∧ changes = (rewritten policy shows entry).map (.set ·.1) := by
  cases hagain with
  | idle hcarries => exact ⟨rfl, by simp [rewritten, hcarries]⟩
  | unlisted _ hfault => exact ⟨rfl, by simp [rewritten, Verdict.isWorking_of_faults hfault]⟩
  | ran hcarries hlist hran =>
    obtain ⟨after, hfirst, rfl, -, -⟩ := h.exists_ran hcarries hlist
    obtain ⟨removed, hperm, hjournal⟩ := hran.journal_eq
    refine ⟨hfirst.again_held hran rfl, ?_⟩
    rw [hfirst.filter_again_drops, List.perm_nil] at hperm
    rw [hjournal, hperm, hfirst.filter_again_writes]
    simp [rewritten, hcarries, hlist]

/-- The next restore succeeds if the first one has. It counts what it writes. -/
theorem again_ok (h : Synced policy shows entry start journal middle noted first)
    (hsteady : policy.Steady)
    (hread : ∀ name value, (policy.set name value).isWorking = true → (policy.get name).Lenient)
    (hagain : Synced policy shows entry middle [] last changes second) {sync : AttributeSync}
    (hok : first = .ok sync) :
    ∃ next : AttributeSync, second = .ok next ∧
      next.written = (rewritten policy shows entry).length ∧ next.removed = 0 := by
  cases hagain with
  | idle hcarries => exact ⟨{}, rfl, by simp [rewritten, hcarries], rfl⟩
  | @unlisted error hcarries hfault =>
    have hrefusal : error.errorClass.isRefusal = true := by
      cases h with
      | idle hidle =>
        rw [hidle] at hcarries
        cases hcarries
      | @unlisted other _ hother =>
        rw [hsteady.list error other hfault hother]
        by_contra hnot
        simp [unlistedAnswer, hnot] at hok
      | ran _ hlist _ =>
        rw [Verdict.isWorking_of_faults hfault] at hlist
        cases hlist
    refine ⟨_, by simp only [unlistedAnswer, if_pos hrefusal]; rfl, ?_, rfl⟩
    simp [rewritten, Verdict.isWorking_of_faults hfault]
  | @ran after hcarries hlist hran =>
    obtain ⟨middle, hfirst, rfl, -, rfl⟩ := h.exists_ran hcarries hlist
    have hnone := hfirst.again_firstError hsteady hread (answer_eq_ok_iff.1 hok).1 hran rfl rfl
    refine ⟨after.progress.sync, answer_eq_ok_iff.2 ⟨hnone, rfl⟩, ?_, ?_⟩
    · rw [hran.written_eq, hfirst.filter_again_writes]
      simp [rewritten, hcarries, hlist]
    · rw [hran.removed_eq, hfirst.filter_again_drops]
      rfl

end Synced

end TreeManifest.Course
