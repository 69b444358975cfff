import TreeManifest.Proofs.Attributes.Sync

/-!
# The calls that a restore of attributes makes

A restore lists the names of an object first. For every wanted binding it then reads what is listed
and writes what is missing or different, and at last it tries to remove every listed name that is
not wanted. Which of these calls are made depends on the listed names and on the answers of the
reading calls, and not on whether any change has worked.

## Main definitions

- `Course.bindingCalls`, `Course.removalCalls`: the calls in one round of either loop.
- `Course.attempts`: the calls of both loops in order.

## Main statements

- `Course.calls_syncAttributes`: the calls of a restore that could list the names.
-/

namespace TreeManifest.Course

open AttributeProvider

variable {σ : Type} {provider : AttributeProvider σ} {target : Path} {held : σ → AttributeMap}
  {shows : String → Bool} {policy : CallPolicy} {valid : σ → Prop} {state : σ}
  {present : List String} {initial wanted : AttributeMap} {binding : String × Bytes}
  {progress : SyncProgress} {calls : List AttributeProvider.Call}

/-- The calls in a round of the first loop: a listed name is read, and what differs is written. -/
def bindingCalls (policy : CallPolicy) (shows : String → Bool) (initial : AttributeMap)
    (binding : String × Bytes) : List AttributeProvider.Call :=
  (if lists shows initial binding.1 then [.get binding.1] else []) ++
    if asks policy shows initial binding then [.set binding.1] else []

def removalCalls (wanted : AttributeMap) (name : String) : List AttributeProvider.Call :=
  if wanted.contains name then [] else [.remove name]

/-- The calls of both loops: those for the wanted bindings in ascending order, then those for the
listed names. -/
def attempts (policy : CallPolicy) (shows : String → Bool) (initial wanted : AttributeMap)
    (present : List String) : List AttributeProvider.Call :=
  wanted.toList.flatMap (bindingCalls policy shows initial) ++
    present.flatMap (removalCalls wanted)

/-! ## Calls -/

@[simp] theorem run_list_recorded (provider : AttributeProvider σ) (target : Path) (state : σ)
    (calls : List AttributeProvider.Call) :
    (provider.recorded.list target).run (state, calls) =
      ⟨((provider.list target).run state).value,
        (((provider.list target).run state).state, calls ++ [.list]),
        ((provider.list target).run state).events⟩ := rfl

@[simp] theorem run_get_recorded (provider : AttributeProvider σ) (target : Path) (name : String)
    (state : σ) (calls : List AttributeProvider.Call) :
    (provider.recorded.get target name).run (state, calls) =
      ⟨((provider.get target name).run state).value,
        (((provider.get target name).run state).state, calls ++ [.get name]),
        ((provider.get target name).run state).events⟩ := rfl

@[simp] theorem run_set_recorded (provider : AttributeProvider σ) (target : Path) (name : String)
    (value : Bytes) (state : σ) (calls : List AttributeProvider.Call) :
    (provider.recorded.set target name value).run (state, calls) =
      ⟨((provider.set target name value).run state).value,
        (((provider.set target name value).run state).state, calls ++ [.set name]),
        ((provider.set target name value).run state).events⟩ := rfl

@[simp] theorem run_remove_recorded (provider : AttributeProvider σ) (target : Path)
    (name : String) (state : σ) (calls : List AttributeProvider.Call) :
    (provider.recorded.remove target name).run (state, calls) =
      ⟨((provider.remove target name).run state).value,
        (((provider.remove target name).run state).state, calls ++ [.remove name]),
        ((provider.remove target name).run state).events⟩ := rfl

/-! ## Rounds -/

theorem calls_fail (progress : SyncProgress) (error : MetadataError) (state : σ)
    (calls : List AttributeProvider.Call) :
    ((progress.fail error).run (state, calls)).state.2 = calls :=
  congrArg Prod.snd (run_fail progress error (state, calls)).2

/-- Writing an attribute is one call. -/
theorem calls_writeAttribute (provider : AttributeProvider σ) (target : Path)
    (progress : SyncProgress) (binding : String × Bytes) (state : σ)
    (calls : List AttributeProvider.Call) :
    ((writeAttribute provider.recorded target progress binding).run (state, calls)).state.2 =
      calls ++ [.set binding.1] := by
  rw [writeAttribute, Task.run_bind, run_set_recorded]
  cases ((provider.set target binding.1 binding.2).run state).value with
  | ok _ => rfl
  | error error => exact calls_fail progress error _ _

/-- The calls of the round for a binding: its value is read if the name is listed, and set if it
differs. -/
theorem calls_syncBinding (h : provider.Serves target held shows policy valid)
    (hvalid : valid state) (hpresent : ∀ name, name ∈ present ↔ lists shows initial name = true)
    (hsame : (held state).get? binding.1 = initial.get? binding.1) :
    ((syncBinding provider.recorded target present progress binding).run
        (state, calls)).state.2 = calls ++ bindingCalls policy shows initial binding := by
  unfold syncBinding bindingCalls
  by_cases hlisted : binding.1 ∈ present
  · have hlists := (hpresent _).1 hlisted
    obtain ⟨-, -, hanswer⟩ := h.get hvalid (Bool.and_eq_true_iff.1 hlists).2
    rw [if_pos hlisted, if_pos hlists, Task.run_bind, run_get_recorded, ← List.append_assoc]
    cases hvalue : ((provider.get target binding.1).run state).value with
    | error error =>
      rw [hvalue] at hanswer
      have hquiet : asks policy shows initial binding = false := by
        simp [asks, hlists, Verdict.isWorking_of_faults hanswer]
      rw [hquiet, if_neg Bool.false_ne_true, List.append_nil]
      exact calls_fail progress error _ _
    | ok current =>
      rw [hvalue] at hanswer
      obtain ⟨hworks, rfl⟩ := hanswer
      have hasks : asks policy shows initial binding =
          ((held state).get? binding.1 != some binding.2) := by
        rw [asks, hlists, if_pos rfl, hworks, Bool.true_and, ← hsame]
      rw [hasks]
      by_cases hequal : (held state).get? binding.1 = some binding.2
      · simp [hequal]
      · rw [if_pos (bne_iff_ne.2 hequal)]
        simp only [hequal, if_false]
        exact calls_writeAttribute provider target progress binding _ _
  · have hlists : lists shows initial binding.1 = false := by
      rw [← Bool.not_eq_true, ← hpresent]
      exact hlisted
    have hasks : asks policy shows initial binding = true := by
      simp [asks, hlists]
    rw [if_neg hlisted, hlists, hasks]
    exact calls_writeAttribute provider target progress binding state calls

/-- The round for a listed name calls once if the name is unwanted. -/
theorem calls_removeUnwanted (provider : AttributeProvider σ) (target : Path)
    (wanted : AttributeMap) (progress : SyncProgress) (name : String) (state : σ)
    (calls : List AttributeProvider.Call) :
    ((removeUnwanted provider.recorded target wanted progress name).run (state, calls)).state.2 =
      calls ++ removalCalls wanted name := by
  unfold removeUnwanted removalCalls
  cases wanted.contains name with
  | true => exact (List.append_nil calls).symm
  | false =>
    rw [if_neg Bool.false_ne_true, if_neg Bool.false_ne_true, Task.run_bind, run_remove_recorded]
    cases ((provider.remove target name).run state).value with
    | ok _ => rfl
    | error error => exact calls_fail progress error _ _

/-! ## Loops -/

/-- A round of the first loop leaves all names but its own alone. -/
theorem kept_syncBinding (h : provider.Serves target held shows policy valid)
    (hvalid : valid state) (hpresent : ∀ name, name ∈ present ↔ lists shows initial name = true)
    (hsame : (held state).get? binding.1 = initial.get? binding.1) (progress : SyncProgress) :
    valid ((syncBinding provider target present progress binding).run state).state ∧
      ∀ key, binding.1 ≠ key →
        (held ((syncBinding provider target present progress binding).run state).state).get? key =
          (held state).get? key := by
  obtain ⟨hafter, hbound⟩ := bound_syncBinding h hvalid hpresent hsame [] progress
  obtain ⟨journal, hrun⟩ := mirrors_syncBinding (shadows_journaled provider) target present progress
    binding state ([] : Journal)
  rw [hrun] at hafter hbound
  refine ⟨hafter, fun key hkey => ?_⟩
  have hget := hbound.get?_eq key
  rwa [if_neg fun hand => hkey hand.2] at hget

/-- The calls of the first loop, in the order of the bindings. -/
theorem calls_bindings (h : provider.Serves target held shows policy valid)
    (hpresent : ∀ name, name ∈ present ↔ lists shows initial name = true)
    {bindings : List (String × Bytes)} (hascending : bindings.Pairwise fun a b => a.1 < b.1)
    (hvalid : valid state)
    (hsame : ∀ binding ∈ bindings, (held state).get? binding.1 = initial.get? binding.1) :
    ((bindings.foldlM (syncBinding provider.recorded target present) progress).run
        (state, calls)).state.2 =
      calls ++ bindings.flatMap (bindingCalls policy shows initial) := by
  induction bindings generalizing state calls progress with
  | nil => exact (List.append_nil calls).symm
  | cons binding bindings ih =>
    obtain ⟨hfirst, hrest⟩ := List.pairwise_cons.1 hascending
    rw [List.forall_mem_cons] at hsame
    have hcalls := @calls_syncBinding _ _ _ _ _ _ _ _ _ _ _ progress calls h hvalid hpresent hsame.1
    obtain ⟨hmiddle, hkept⟩ := kept_syncBinding h hvalid hpresent hsame.1 progress
    obtain ⟨after, hrun⟩ := mirrors_syncBinding (shadows_recorded provider) target present progress
      binding state calls
    rw [hrun] at hcalls
    dsimp only at hcalls
    have hothers : ∀ other ∈ bindings,
        (held ((syncBinding provider target present progress binding).run state).state).get?
          other.1 = initial.get? other.1 := by
      intro other hother
      have hne : binding.1 ≠ other.1 := by
        intro heq
        exact String.lt_irrefl _ (heq ▸ hfirst other hother)
      exact (hkept other.1 hne).trans (hsame.2 other hother)
    rw [List.foldlM_cons, Task.run_bind, hrun, List.flatMap_cons, ← List.append_assoc, ← hcalls]
    exact ih hrest hmiddle hothers

/-- The calls of the second loop, in the order of the listing. -/
theorem calls_removals (provider : AttributeProvider σ) (target : Path) (wanted : AttributeMap)
    (names : List String) (progress : SyncProgress) (state : σ)
    (calls : List AttributeProvider.Call) :
    ((names.foldlM (removeUnwanted provider.recorded target wanted) progress).run
        (state, calls)).state.2 = calls ++ names.flatMap (removalCalls wanted) := by
  induction names generalizing state calls progress with
  | nil => exact (List.append_nil calls).symm
  | cons name names ih =>
    have hcalls := calls_removeUnwanted provider target wanted progress name state calls
    obtain ⟨after, hrun⟩ := mirrors_removeUnwanted (shadows_recorded provider) target wanted
      progress name state calls
    rw [hrun] at hcalls
    dsimp only at hcalls
    rw [List.foldlM_cons, Task.run_bind, hrun, List.flatMap_cons, ← List.append_assoc, ← hcalls]
    exact ih _ _ _

/-- The calls of both loops. -/
theorem calls_syncListed (h : provider.Serves target held shows policy valid)
    (hvalid : valid state)
    (hpresent : ∀ name, name ∈ present ↔ lists shows (held state) name = true)
    (wanted : AttributeMap) (calls : List AttributeProvider.Call) :
    ((syncListed provider.recorded target wanted present).run (state, calls)).state.2 =
      calls ++ attempts policy shows (held state) wanted present := by
  have hbindings := @calls_bindings _ _ _ _ _ _ _ _ _ _ {} calls h hpresent _ wanted.ascending
    hvalid fun _ _ => rfl
  rw [syncListed, Task.run_bind, attempts, ← List.append_assoc, ← hbindings]
  exact calls_removals provider target wanted present _ _ _

/-! ## Whole restores -/

/-- The calls of a restore that could list the names: it lists them, and then makes the calls of
both loops. -/
theorem calls_syncAttributes (h : provider.Serves target held shows policy valid)
    (hvalid : valid state) {entry : Entry} (hcarries : entry.kind.carriesAttributes = true)
    (hlist : ((provider.list target).run state).value = .ok present) :
    ((syncAttributes provider.recorded entry target).run (state, [])).state.2 =
      .list :: attempts policy shows (held state) (entry.attributes.getD .empty) present := by
  obtain ⟨hlisted, hheld, hanswer⟩ := h.list hvalid
  rw [hlist] at hanswer
  obtain ⟨-, -, hpresent⟩ := hanswer
  have hpresent' : ∀ name, name ∈ present ↔ lists shows (held state) name = true := by
    simpa [lists] using hpresent
  rw [← hheld] at hpresent' ⊢
  rw [syncAttributes_of_carries hcarries, Task.run_bind, run_list_recorded, hlist]
  exact calls_syncListed h hlisted hpresent' (entry.attributes.getD .empty) [.list]

end TreeManifest.Course
