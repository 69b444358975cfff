import TreeManifest.Attributes.Provider
import TreeManifest.Flags
import TreeManifest.System
import TreeManifest.Text.QuotedBytes

/-!
# Attributes of the system

The attributes of the objects of a system live in namespaces, given by what a name starts with. An
ordinary process sees the namespace of users only; a privileged process sees everything but the
namespace of the system itself.

## Main definitions

- `NativeAttributes.isPermitted`: the names that are captured and restored.
- `NativeAttributes.reader`: access to the attributes in a snapshot.
- `NativeAttributes.provider`: access to the attributes of a system.
-/

namespace TreeManifest.NativeAttributes

def startsWith (start name : String) : Bool := start.toList.isPrefixOf name.toList

/-- Whether attributes of a name are captured and restored. -/
def isPermitted (privilege : Privilege) (name : String) : Bool :=
  match privilege with
  | .privileged => !startsWith "system." name
  | .unprivileged => startsWith "user." name

/-- The permitted texts among listed names. A name that is no text is reported and passed over. -/
def permittedNames (privilege : Privilege) (target : Path) :
    List AttributeLabel → Task σ (List String)
  | [] => return []
  | .text name :: rest => do
    let names ← permittedNames privilege target rest
    return if isPermitted privilege name then name :: names else names
  | .raw bytes :: rest => do
    Task.report .attributes .debug
      ("ignoring non UTF-8 attribute " ++ Quoted.quoteBytes bytes ++ " on " ++ Utf8.lossy target)
    permittedNames privilege target rest

def list (privilege : Privilege) (view : Snapshot) (target : Path) :
    Task σ (Except MetadataError (List String)) := do
  match view.attributeNames target with
  | .error error => return .error ⟨.listExtendedAttributes, target, error⟩
  | .ok labels => return .ok (← permittedNames privilege target labels)

def get (view : Snapshot) (target : Path) (name : String) : Except MetadataError (Option Bytes) :=
  (view.attributeValue target name).mapError fun error => ⟨.readExtendedAttribute, target, error⟩

/-- Access to the attributes in a snapshot. What is read does not change, and nothing can be
written. -/
def reader (privilege : Privilege) (view : Snapshot) : AttributeProvider σ where
  list := list privilege view
  get target name := return get view target name
  set target _ _ := return .error ⟨.writeExtendedAttribute, target, .os .erofs⟩
  remove target _ := return .error ⟨.removeExtendedAttribute, target, .os .erofs⟩

def change (attempt : Attempt) (target : Path) (name : String) (call : Call σ Unit) :
    Task σ (Except MetadataError Unit) := do
  match AttributeProvider.checkName attempt target name with
  | .error error => return .error error
  | .ok () =>
    match ← Task.perform call with
    | .error error => return .error ⟨attempt, target, error⟩
    | .ok () => return .ok ()

def provider (privilege : Privilege) (system : System σ) : AttributeProvider σ where
  list target := do list privilege (← Task.inspect system.view) target
  get target name := do return get (← Task.inspect system.view) target name
  set target name value :=
    change .writeExtendedAttribute target name (system.setAttribute target name value)
  remove target name :=
    change .removeExtendedAttribute target name (system.removeAttribute target name)

end TreeManifest.NativeAttributes
