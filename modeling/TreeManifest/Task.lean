import TreeManifest.Log.Event

/-!
# Tasks

A task reads and changes a state, reports what it met on the way, and ends with a value. Its reports
are part of its result, so what a task reports does not depend on what was reported before it.

## Main definitions

- `Run`: what a task leaves behind.
- `Task`: a function from a state to its run.
- `Task.report`, `Task.perform`: the two effects.

## Design notes

The laws of monads hold, and `Task.run_bind` splits the run of a sequence into the runs of its
parts, so a statement about a task follows the text of the task.
-/

namespace TreeManifest

/-- What a task leaves behind: its value, the state after it, and its reports in order. -/
structure Run (σ α : Type) where
  value : α
  state : σ
  events : List Log.Event

/-- A computation that changes a state of type `σ`, reports, and gives a value. -/
def Task (σ α : Type) : Type := σ → Run σ α

namespace Task

variable {σ α β : Type}

def run (task : Task σ α) (state : σ) : Run σ α := task state

instance : Monad (Task σ) where
  pure value := fun state => ⟨value, state, []⟩
  bind task next := fun state =>
    let first := task.run state
    let second := (next first.value).run first.state
    ⟨second.value, second.state, first.events ++ second.events⟩

def report (category : Log.Category) (level : Log.Level) (message : String) : Task σ Unit :=
  fun state => ⟨(), state, [⟨category, level, message⟩]⟩

def perform (change : σ → α × σ) : Task σ α :=
  fun state => ⟨(change state).1, (change state).2, []⟩

def inspect (look : σ → α) : Task σ α :=
  perform fun state => (look state, state)

@[simp] theorem run_pure (value : α) (state : σ) :
    (pure value : Task σ α).run state = ⟨value, state, []⟩ := rfl

@[simp] theorem run_bind (task : Task σ α) (next : α → Task σ β) (state : σ) :
    (task >>= next).run state =
      ⟨((next (task.run state).value).run (task.run state).state).value,
        ((next (task.run state).value).run (task.run state).state).state,
        (task.run state).events ++
          ((next (task.run state).value).run (task.run state).state).events⟩ := rfl

@[simp] theorem run_report (category : Log.Category) (level : Log.Level) (message : String)
    (state : σ) :
    (report category level message : Task σ Unit).run state =
      ⟨(), state, [⟨category, level, message⟩]⟩ := rfl

@[simp] theorem run_perform (change : σ → α × σ) (state : σ) :
    (perform change).run state = ⟨(change state).1, (change state).2, []⟩ := rfl

@[simp] theorem run_inspect (look : σ → α) (state : σ) :
    (inspect look).run state = ⟨look state, state, []⟩ := rfl

@[ext] theorem ext_run {first second : Task σ α}
    (h : ∀ state, first.run state = second.run state) : first = second :=
  funext h

instance : LawfulMonad (Task σ) :=
  LawfulMonad.mk' (Task σ)
    (fun task => ext_run fun state => by
      show (task >>= pure).run state = _
      simp)
    (fun value next => ext_run fun state => by simp)
    (fun task next last => ext_run fun state => by simp)

end Task

end TreeManifest
