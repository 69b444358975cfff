import TreeManifest.Order.Cursor

/-!
# Canonical lists of entries

A list of entries is canonical when every entry comes strictly before the next one. Sorting is
stable and is followed by the check, so two entries with one key are reported and never put into an
arbitrary order.

## Main definitions

- `OrderError`: where a list fails to be canonical.
- `Order.check`: the test for canonical lists.
- `Order.sort`, `Order.sortEntries`: the sorted list, and the sorted list with its check.
-/

namespace TreeManifest

/-- Where a list of entries fails to be canonical. Positions count from zero. -/
inductive OrderError where
  /-- Two neighbours have one key. -/
  | duplicateKey (first second : Nat) (path : String)
  /-- An entry comes before its predecessor. -/
  | outOfOrder (index : Nat) (path : String)
  deriving DecidableEq

def OrderError.message : OrderError → String
  | .duplicateKey first second path =>
    s!"entries {first} and {second} share the sort key of {Quoted.quote path}"
  | .outOfOrder index path =>
    s!"entry {index} ({Quoted.quote path}) is out of canonical order"

namespace Order

/-- Checks the neighbours of a list whose first entry has the given position. -/
def checkFrom (index : Nat) : List Entry → Except OrderError Unit
  | a :: b :: rest =>
    match compareEntries a b with
    | .lt => checkFrom (index + 1) (b :: rest)
    | .eq => .error (.duplicateKey index (index + 1) b.displayPath)
    | .gt => .error (.outOfOrder (index + 1) b.displayPath)
  | _ => .ok ()

/-- Accepts the canonical lists and names the first pair of neighbours that breaks the order. -/
def check (entries : List Entry) : Except OrderError Unit :=
  checkFrom 0 entries

/-- The entries in canonical order. Entries with one key keep their relative order. -/
def sort (entries : List Entry) : List Entry :=
  entries.mergeSort fun a b => (compareEntries a b).isLE

/-- The entries in canonical order, and whether they form a canonical list. -/
def sortEntries (entries : List Entry) : List Entry × Except OrderError Unit :=
  (sort entries, check (sort entries))

end Order

end TreeManifest
