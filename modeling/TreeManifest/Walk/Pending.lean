/-!
# Directories that wait to be listed

The workers of a walk share a stack. A worker takes a directory, lists it, and hands its
subdirectories back. The stack closes once it is empty while no directory is being listed; then no
worker can bring anything new.

## Main definitions

- `Pending`: the stack, and the number of items that were taken and not yet handed back.
- `Pending.pop`, `Pending.complete`, `Pending.abort`: the operations.
- `Pending.visit`: the items in the order in which a single worker takes them.
-/

namespace TreeManifest

/-- The items that wait, the next one first. -/
structure Pending (α : Type) where
  stack : List α
  /-- The number of items that were taken and not yet handed back. -/
  inFlight : Nat
  /-- Whether nothing is given out any more. -/
  closed : Bool

namespace Pending

inductive Pop (α : Type) where
  | taken (item : α)
  | finished
  /-- Nothing waits, but other workers may still bring something. -/
  | blocked

def start (item : α) : Pending α := ⟨[item], 0, false⟩

/-- Takes the next item. An empty stack closes if no item is in flight. -/
def pop (pending : Pending α) : Pop α × Pending α :=
  if pending.closed then (.finished, pending)
  else
    match pending.stack with
    | item :: rest =>
      (.taken item, { pending with stack := rest, inFlight := pending.inFlight + 1 })
    | [] =>
      if pending.inFlight = 0 then (.finished, { pending with closed := true })
      else (.blocked, pending)

/-- Hands an item back and adds what it brought. The last of the new items is taken next. -/
def complete (pending : Pending α) (items : List α) : Pending α :=
  { pending with stack := items.reverse ++ pending.stack, inFlight := pending.inFlight - 1 }

/-- Closes the stack and drops what waits. -/
def abort (pending : Pending α) : Pending α :=
  { pending with stack := [], closed := true }

/-- The items that a single worker takes in at most `fuel` rounds, and the stack after them. An item
brings its children. -/
def visit (children : α → List α) : Nat → Pending α → List α × Pending α
  | 0, pending => ([], pending)
  | fuel + 1, pending =>
    match pending.pop with
    | (.taken item, pending) =>
      let (items, pending) := visit children fuel (pending.complete (children item))
      (item :: items, pending)
    | (_, pending) => ([], pending)

end Pending

end TreeManifest
