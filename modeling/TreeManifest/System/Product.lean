import TreeManifest.Attributes.Provider
import TreeManifest.System

/-!
# Systems beside another state

A task on one state can be run on a pair of states, of which it leaves the other part alone. In this
way a system and a store of attributes that is no part of it serve one restore.

## Main definitions

- `Task.onFirst`, `Task.onSecond`: tasks on one part of a pair.
- `System.beside`: a system on the first part of a pair.
- `AttributeProvider.onFirst`, `AttributeProvider.onSecond`: providers on one part of a pair.
-/

namespace TreeManifest

/-- Runs a task on the first part of a pair. -/
def Task.onFirst (task : Task σ α) : Task (σ × τ) α := fun (state, other) =>
  let run := task.run state
  ⟨run.value, (run.state, other), run.events⟩

def Task.onSecond (task : Task τ α) : Task (σ × τ) α := fun (other, state) =>
  let run := task.run state
  ⟨run.value, (other, run.state), run.events⟩

def callFirst (call : Call σ α) : Call (σ × τ) α := fun (state, other) =>
  ((call state).1, (call state).2, other)

/-- A system on the first part of a pair. -/
def System.beside (system : System σ) : System (σ × τ) where
  view state := system.view state.1
  setAttribute path name value := callFirst (system.setAttribute path name value)
  removeAttribute path name := callFirst (system.removeAttribute path name)
  setFlagWord handle word := callFirst (system.setFlagWord handle word)
  makeDirectory path permissions := callFirst (system.makeDirectory path permissions)
  openForWriting path := callFirst (system.openForWriting path)
  write handle bytes := callFirst (system.write handle bytes)
  makeSymlink target path := callFirst (system.makeSymlink target path)
  makeLink existing path := callFirst (system.makeLink existing path)
  makeNode path kind permissions device :=
    callFirst (system.makeNode path kind permissions device)
  changeOwner path uid gid := callFirst (system.changeOwner path uid gid)
  changePermissions path permissions := callFirst (system.changePermissions path permissions)
  changeTime path time := callFirst (system.changeTime path time)

namespace AttributeProvider

def onFirst (provider : AttributeProvider σ) : AttributeProvider (σ × τ) where
  list target := (provider.list target).onFirst
  get target name := (provider.get target name).onFirst
  set target name value := (provider.set target name value).onFirst
  remove target name := (provider.remove target name).onFirst

def onSecond (provider : AttributeProvider τ) : AttributeProvider (σ × τ) where
  list target := (provider.list target).onSecond
  get target name := (provider.get target name).onSecond
  set target name value := (provider.set target name value).onSecond
  remove target name := (provider.remove target name).onSecond

end AttributeProvider

end TreeManifest
