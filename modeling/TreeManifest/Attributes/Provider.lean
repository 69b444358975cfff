import TreeManifest.AttributeMap
import TreeManifest.AttributeName
import TreeManifest.MetadataError
import TreeManifest.Task

/-!
# Attribute providers

A provider gives access to the extended attributes of objects, which it names by path. It never
follows a symlink at the end of a path. Capture and restore are written against any provider.

## Main definitions

- `AttributeProvider`: the four operations on attributes.
- `AttributeProvider.inert`: the provider of a system without attributes.
- `AttributeProvider.recorded`: a provider that keeps a list of the calls made to it.
-/

namespace TreeManifest

/-- The error of a call with a name that no attribute may have. -/
def AttributeNameError.toIoError (error : AttributeNameError) : IoError :=
  .custom .invalidInput error.message

/-- Access to extended attributes over a state of type `σ`. -/
structure AttributeProvider (σ : Type) where
  list : Path → Task σ (Except MetadataError (List String))
  get : Path → String → Task σ (Except MetadataError (Option Bytes))
  set : Path → String → Bytes → Task σ (Except MetadataError Unit)
  remove : Path → String → Task σ (Except MetadataError Unit)

namespace AttributeProvider

def checkName (attempt : Attempt) (target : Path) (name : String) : Except MetadataError Unit :=
  (AttributeName.check name).mapError fun error => ⟨attempt, target, error.toIoError⟩

/-- The provider of a system without attributes: there is nothing to list, and changes succeed
without effect. -/
def inert : AttributeProvider σ where
  list _ := return .ok []
  get _ _ := return .ok none
  set target name _ := return checkName .writeAttribute target name
  remove target name := return checkName .removeAttribute target name

inductive Call where
  | list
  | get (name : String)
  | set (name : String)
  | remove (name : String)
  deriving DecidableEq

/-- Runs a task on the first part of a state and notes a call in the second. -/
def noting (call : Call) (task : Task σ α) : Task (σ × List Call) α := fun (state, calls) =>
  let run := task.run state
  ⟨run.value, (run.state, calls ++ [call]), run.events⟩

/-- A provider that keeps a list of the calls made to it. -/
def recorded (provider : AttributeProvider σ) : AttributeProvider (σ × List Call) where
  list target := noting .list (provider.list target)
  get target name := noting (.get name) (provider.get target name)
  set target name value := noting (.set name) (provider.set target name value)
  remove target name := noting (.remove name) (provider.remove target name)

end AttributeProvider

end TreeManifest
