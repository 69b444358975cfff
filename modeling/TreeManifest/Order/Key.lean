import TreeManifest.Entry

/-!
# Sort keys

The canonical order lists, within one directory, first the files, then the subdirectories
themselves, then what the subdirectories hold. It is the order of sort keys: every component of a
path contributes its rank, its name and a terminating zero, and keys compare as unsigned bytes.

## Main definitions

- `Order.Rank`: the place of a component among its siblings.
- `Order.sortKey`: the key of a path.
- `Order.compareComponents`: the same order read off the lists of components.

## Design notes

Empty components do not count, so `a//b` and `a/b` have one key. The empty path has the empty key
and comes before everything else. The terminator makes a name that is a prefix of another one come
first.
-/

namespace TreeManifest.Order

/-- The place of a component among its siblings: last component of something that is no directory,
last component of a directory, directory above the last component. -/
inductive Rank where
  | file
  | directory
  | ancestor
  deriving DecidableEq

/-- The byte that a rank contributes to a key. -/
def Rank.byte : Rank → UInt8
  | .file => 0
  | .directory => 1
  | .ancestor => 2

/-- The rank of a component, given whether others follow it and whether the whole path leads to a
directory. -/
def Rank.of (hasMore isDirectory : Bool) : Rank :=
  if hasMore then .ancestor else if isDirectory then .directory else .file

/-- The byte after a name. -/
def terminator : UInt8 := 0

/-- The key of a list of components. -/
def componentsKey (isDirectory : Bool) : List Bytes → Bytes
  | [] => []
  | name :: rest =>
    (Rank.of (!rest.isEmpty) isDirectory).byte ::
      (name ++ terminator :: componentsKey isDirectory rest)

/-- The sort key of a path. -/
def sortKey (path : Path) (isDirectory : Bool) : Bytes :=
  componentsKey isDirectory (Path.components path)

def entryKey (entry : Entry) : Bytes := sortKey entry.path entry.isDirectory

/-- The hierarchical order of two lists of components: the empty list is first, heads go by rank and
then by name, and equal heads leave the decision to what follows them. -/
def compareComponents (aIsDirectory bIsDirectory : Bool) : List Bytes → List Bytes → Ordering
  | [], [] => .eq
  | [], _ :: _ => .lt
  | _ :: _, [] => .gt
  | a :: as, b :: bs =>
    let aRank := Rank.of (!as.isEmpty) aIsDirectory
    let bRank := Rank.of (!bs.isEmpty) bIsDirectory
    ((compare aRank.byte bRank.byte).then (compare a b)).then
      (compareComponents aIsDirectory bIsDirectory as bs)

end TreeManifest.Order
