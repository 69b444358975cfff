import TreeManifest.Order.Cursor

/-!
# Comparing two listings

Two canonical lists of entries are merged in one pass. Every path that occurs in either list gives
one item, in canonical order, so a directory is reported before anything beneath it.

## Main definitions

- `DiffItem`: what happened to one path.
- `Entry.sameMetadata`: whether two entries of one path agree.
- `Diff.merge`: the items of two lists.
-/

namespace TreeManifest

/-- What happened to one path between an old and a new listing. -/
inductive DiffItem where
  /-- The path is in the old listing only. -/
  | removed (old : Entry)
  /-- The path is in the new listing only. -/
  | added (new : Entry)
  /-- The path is in both listings and its metadata differs. -/
  | changed (old new : Entry)
  /-- The path is in both listings with the same metadata. -/
  | unchanged (new : Entry)
  deriving DecidableEq

/-- The entry whose path an item describes: the new one where there is a new one. -/
def DiffItem.entry : DiffItem → Entry
  | .removed entry | .added entry | .unchanged entry => entry
  | .changed _ new => new

/-- Whether two entries agree in everything but path and identity. -/
def Entry.sameMetadata (old new : Entry) : Bool :=
  old.size == new.size && old.modTime == new.modTime && old.mode == new.mode &&
    old.uid == new.uid && old.gid == new.gid && old.link == new.link && old.role == new.role &&
    old.startChunk == new.startChunk && old.startOffset == new.startOffset &&
    old.flags == new.flags && old.attributes == new.attributes

namespace Diff

/-- The item of two entries with one key. -/
def compareOne (old new : Entry) : DiffItem :=
  if old.sameMetadata new then .unchanged new else .changed old new

/-- The items of two canonical lists, in canonical order. -/
def merge : List Entry → List Entry → List DiffItem
  | [], new => new.map .added
  | old, [] => old.map .removed
  | a :: old, b :: new =>
    match Order.compareEntries a b with
    | .lt => .removed a :: merge old (b :: new)
    | .gt => .added b :: merge (a :: old) new
    | .eq => compareOne a b :: merge old new
termination_by old new => old.length + new.length

end Diff

end TreeManifest
