import TreeManifest.Attributes.Provider

/-!
# Attributes kept in memory

A store maps paths to objects, and an object maps names to values. An object may show another
listing than the names that it binds, and may refuse some calls; it is otherwise a plain map.

## Main definitions

- `MemoryStore`: the objects of a store.
- `MemoryStore.provider`: access to them.
-/

namespace TreeManifest

/-- The kinds of call that can fail. -/
inductive AttributeCall where
  | list
  | get
  | set
  | remove
  deriving DecidableEq

/-- A failure of the calls of one kind, for one name or for all. -/
structure AttributeFailure where
  call : AttributeCall
  name : Option String
  error : IoError

def AttributeFailure.concerns (failure : AttributeFailure) (call : AttributeCall)
    (name : Option String) : Bool :=
  failure.call = call && (failure.name.isNone || failure.name == name)

/-- An object with attributes. -/
structure MemoryObject where
  values : AttributeMap := .empty
  /-- The names that are listed in place of the bound ones. -/
  listing : Option (List String) := none
  failures : List AttributeFailure := []

structure MemoryStore where
  objects : List (Path × MemoryObject) := []

namespace MemoryStore

/-- The object of a path. A path that was never touched has an empty one. -/
def object (store : MemoryStore) (target : Path) : MemoryObject :=
  ((store.objects.find? (·.1 == target)).map Prod.snd).getD {}

def put (store : MemoryStore) (target : Path) (object : MemoryObject) : MemoryStore :=
  if store.objects.any (·.1 == target) then
    ⟨store.objects.map fun other => if other.1 == target then (target, object) else other⟩
  else ⟨store.objects ++ [(target, object)]⟩

def failure? (object : MemoryObject) (call : AttributeCall) (name : Option String) :
    Option IoError :=
  (object.failures.find? (·.concerns call name)).map (·.error)

def call (attempt : Attempt) (kind : AttributeCall) (target : Path) (name : Option String)
    (act : MemoryObject → α × MemoryObject) : Task MemoryStore (Except MetadataError α) :=
  .perform fun store =>
    let object := store.object target
    match failure? object kind name with
    | some error => (.error ⟨attempt, target, error⟩, store.put target object)
    | none =>
      let (value, object) := act object
      (.ok value, store.put target object)

/-- Access to the objects of a store. Names are not checked, and removing what is absent
succeeds. -/
def provider : AttributeProvider MemoryStore where
  list target := call .listAttributes .list target none fun object =>
    (object.listing.getD object.values.keys, object)
  get target name := call .readAttribute .get target (some name) fun object =>
    (object.values.get? name, object)
  set target name value := call .writeAttribute .set target (some name) fun object =>
    ((), { object with values := object.values.insert name value })
  remove target name := call .removeAttribute .remove target (some name) fun object =>
    ((), { object with values := object.values.erase name })

end MemoryStore

end TreeManifest
