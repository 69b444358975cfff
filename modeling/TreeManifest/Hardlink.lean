import TreeManifest.Entry.Attributes

/-!
# Hard links

The names of one object form a group. While a tree is walked, the first name seen becomes canonical
and later ones become links to it. Names may be seen in any order, so the roles are settled again
once all entries are in order: the first entry of a group is canonical and carries what was captured
for the group.

## Main definitions

- `Hardlink.Tracker`: the objects seen during a walk.
- `Hardlink.Tracker.classify`: the role of a freshly captured entry.
- `Hardlink.settle`: the settled roles of an ordered list.
-/

namespace TreeManifest.Hardlink

/-- What an observation found. -/
inductive Lookup where
  /-- The object was not seen before. -/
  | first
  /-- The object was seen before under the given path. -/
  | linkTo (path : Path)
  deriving DecidableEq

/-- The objects seen during a walk, each with the path under which it was seen first. -/
structure Tracker where
  seen : List (ObjectId × Path) := []

namespace Tracker

/-- The path under which an object was seen first. -/
def path? (tracker : Tracker) (identity : ObjectId) : Option Path :=
  (tracker.seen.find? (·.1 == identity)).map Prod.snd

/-- Observes an object under a path. -/
def observe (tracker : Tracker) (identity : ObjectId) (path : Path) : Lookup × Tracker :=
  match tracker.path? identity with
  | some first => (.linkTo first, tracker)
  | none => (.first, ⟨(identity, path) :: tracker.seen⟩)

def size (tracker : Tracker) : Nat := tracker.seen.length

def isEmpty (tracker : Tracker) : Bool := tracker.seen.isEmpty

/-- Gives an entry its role, and tells whether it is a link. Directories, objects with one name and
entries without an identity keep their role. A link has no size, and its link field holds the
canonical path. -/
def classify (tracker : Tracker) (entry : Entry) (linkCount : UInt64) : Bool × Entry × Tracker :=
  if entry.isDirectory ∨ linkCount ≤ 1 then (false, entry, tracker)
  else
    match entry.identity with
    | none => (false, entry, tracker)
    | some identity =>
      match tracker.observe identity entry.path with
      | (.first, tracker) => (false, { entry with role := .canonical }, tracker)
      | (.linkTo path, tracker) =>
        (true, { entry with role := .linkTo, link := some path, size := 0 }, tracker)

end Tracker

/-- The object whose group an entry belongs to. -/
def groupOf (entry : Entry) : Option ObjectId :=
  if entry.role = .none then none else entry.identity

def members (identity : ObjectId) (entries : List Entry) : List Entry :=
  entries.filter fun entry => groupOf entry = some identity

def largestSize (entries : List Entry) : UInt64 :=
  entries.foldl (fun size entry => max size entry.size) 0

/-- An entry as the canonical one of a group: it gets the largest size, the first attributes and the
first flag word found in the group. -/
def elect (group : List Entry) (entry : Entry) : Entry :=
  { entry.putAttributes (group.findSome? (·.attributes)) with
    role := .canonical
    link := none
    size := largestSize group
    flags := group.findSome? (·.flags) }

/-- An entry as a further name of the object with the given canonical path. -/
def demote (path : Path) (entry : Entry) : Entry :=
  { entry with
    role := .linkTo
    link := some path
    size := 0
    attributes := none
    flags := none }

/-- Settles the roles in a list whose groups may have begun before it. -/
def settleFrom (all : List Entry) (tracker : Tracker) : List Entry → List Entry
  | [] => []
  | entry :: rest =>
    match groupOf entry with
    | none => entry :: settleFrom all tracker rest
    | some identity =>
      match tracker.observe identity entry.path with
      | (.first, tracker) => elect (members identity all) entry :: settleFrom all tracker rest
      | (.linkTo path, tracker) => demote path entry :: settleFrom all tracker rest

/-- The list with settled roles. Entries without a role or an identity stay as they are. -/
def settle (entries : List Entry) : List Entry := settleFrom entries {} entries

end TreeManifest.Hardlink
