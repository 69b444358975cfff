import TreeManifest.Task

/-!
# Triples for tasks

A triple says what holds of the value and the state that a task ends with, given what holds of the
state in which it begins. The triple of a sequence is put together from those of its parts.

## Main definitions

- `Task.Ensures`: a task leads from a condition on states to one on values and states.
- `Task.Maintains`: a task keeps a condition on states.

## Main statements

- `Task.Ensures.bind`: triples of sequences.
- `Task.maintains_foldlM`: a condition that every round keeps is kept by all rounds.
- `Task.ensures_mapM`: what the rounds for the items of a list lead to, one after the other.
-/

namespace TreeManifest.Task

variable {σ α β : Type}

/-- From a state that satisfies the first condition, a task ends with a value and a state that
satisfy the second. -/
def Ensures (before : σ → Prop) (task : Task σ α) (after : α → σ → Prop) : Prop :=
  ∀ state, before state → after (task.run state).value (task.run state).state

/-- A task that begins in a state with the given property ends in one. -/
abbrev Maintains (invariant : σ → Prop) (task : Task σ α) : Prop :=
  Ensures invariant task fun _ => invariant

variable {before : σ → Prop} {after : α → σ → Prop} {last : β → σ → Prop}

theorem ensures_pure {value : α} (h : ∀ state, before state → after value state) :
    Ensures before (pure value) after := h

/-- A single change ensures what its result fulfills. -/
theorem ensures_perform {change : σ → α × σ}
    (h : ∀ state, before state → after (change state).1 (change state).2) :
    Ensures before (perform change) after := h

theorem maintains_pure (invariant : σ → Prop) (value : α) :
    Maintains invariant (pure value) := fun _ h => h

theorem maintains_report (invariant : σ → Prop) (category : Log.Category) (level : Log.Level)
    (message : String) : Maintains invariant (report category level message) := fun _ h => h

theorem maintains_inspect (invariant : σ → Prop) (look : σ → α) :
    Maintains invariant (inspect look) := fun _ h => h

/-- What the first task ensures is what the second one may assume. -/
theorem Ensures.bind {task : Task σ α} {next : α → Task σ β} (h : Ensures before task after)
    (hnext : ∀ value, Ensures (after value) (next value) last) :
    Ensures before (task >>= next) last := by
  intro state hstate
  exact hnext _ _ (h state hstate)

/-- Assumptions may be strengthened and conclusions weakened. -/
theorem Ensures.imp {task : Task σ α} {stronger : σ → Prop} {weaker : α → σ → Prop}
    (h : Ensures before task after) (hbefore : ∀ state, stronger state → before state)
    (hafter : ∀ value state, after value state → weaker value state) :
    Ensures stronger task weaker :=
  fun state hstate => hafter _ _ (h state (hbefore state hstate))

/-- An assumed existence is an assumption for each witness. -/
theorem ensures_exists {ι : Type} {family : ι → σ → Prop} {task : Task σ α} :
    Ensures (fun state => ∃ i, family i state) task after ↔ ∀ i, Ensures (family i) task after :=
  ⟨fun h i state hstate => h state ⟨i, hstate⟩, fun h state ⟨i, hstate⟩ => h i state hstate⟩

theorem ensures_and {known : Prop} {task : Task σ α} :
    Ensures (fun state => known ∧ before state) task after ↔ (known → Ensures before task after) :=
  ⟨fun h hknown state hstate => h state ⟨hknown, hstate⟩, fun h state hstate =>
    h hstate.1 state hstate.2⟩

/-- A loop keeps what each round keeps. -/
theorem maintains_foldlM {invariant : σ → Prop} {round : β → α → Task σ β} {list : List α}
    (h : ∀ item ∈ list, ∀ value, Maintains invariant (round value item)) (value : β) :
    Maintains invariant (list.foldlM round value) := by
  induction list generalizing value with
  | nil => exact maintains_pure invariant value
  | cons item list ih =>
    rw [List.foldlM_cons]
    exact (h item List.mem_cons_self value).bind fun next =>
      ih (fun other hother => h other (List.mem_cons_of_mem _ hother)) next

/-- A condition on the items so far that every good round extends by its item holds of all items, if
all rounds were good. -/
theorem ensures_mapM {invariant : List α → σ → Prop} {round : α → Task σ β} {good : β → Prop}
    {items : List α} (h : ∀ front item back, items = front ++ item :: back → ∀ state,
      invariant front state → good ((round item).run state).value →
        invariant (front ++ [item]) ((round item).run state).state) :
    Ensures (invariant []) (items.mapM round)
      fun values state => (∀ value ∈ values, good value) → invariant items state := by
  -- The induction is on the rounds that are left.
  suffices hrest : ∀ front back, items = front ++ back → ∀ state, invariant front state →
      (∀ value ∈ ((back.mapM round).run state).value, good value) →
        invariant items ((back.mapM round).run state).state from
    hrest [] items rfl
  intro front back
  induction back generalizing front with
  | nil =>
    intro hsplit state hstate _
    rw [hsplit, List.append_nil]
    exact hstate
  | cons item back ih =>
    intro hsplit state hstate hgood
    rw [List.mapM_cons, run_bind, run_bind, run_pure] at hgood ⊢
    rw [List.forall_mem_cons] at hgood
    refine ih (front ++ [item]) (by rw [hsplit, List.append_assoc, List.singleton_append]) _
      (h front item back hsplit state hstate hgood.1) hgood.2

end TreeManifest.Task
