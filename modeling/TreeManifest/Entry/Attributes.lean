import TreeManifest.Entry

/-!
# Changing the attributes of an entry

All changes go through a few operations that keep the rule for attribute maps: names are checked
before anything is stored, and a map that has lost its last binding is dropped.

## Main definitions

- `Entry.setAttribute`, `Entry.removeAttribute`, `Entry.setAttributes`, `Entry.clearAttributes`:
  changes by name or of the whole map.
- `Entry.putAttributes`: stores a map that is already known to be good.
- `Entry.normalizeReserved`: moves a flag word out of the reserved names and drops them.
-/

namespace TreeManifest.Entry

/-- Stores a map, or none when the map has no binding. -/
def putAttributes (entry : Entry) (map : Option AttributeMap) : Entry :=
  { entry with attributes := map.filter fun map => !map.isEmpty }

def clearAttributes (entry : Entry) : Entry :=
  { entry with attributes := none }

/-- Binds one attribute. An invisible name is refused and the entry stays as it is. -/
def setAttribute (entry : Entry) (name : String) (value : Bytes) :
    Except AttributeNameError Entry := do
  AttributeName.check name
  return { entry with attributes := some ((entry.attributes.getD .empty).insert name value) }

/-- Removes one attribute and returns its value, if it had one. -/
def removeAttribute (entry : Entry) (name : String) : Option Bytes × Entry :=
  match entry.attributes with
  | none => (none, entry)
  | some map => (map.get? name, entry.putAttributes (some (map.erase name)))

/-- Replaces the whole map. The names are checked in order; the first invisible one is refused and
the entry stays as it is. -/
def setAttributes (entry : Entry) (bindings : List (String × Bytes)) :
    Except AttributeNameError Entry := do
  bindings.forM fun binding => AttributeName.check binding.1
  return entry.putAttributes (some (.ofList bindings))

/-- The flag word in a value of exactly four bytes, least significant byte first. -/
def flagWord? : Bytes → Option UInt32
  | [a, b, c, d] =>
    some (a.toUInt32 ||| (b.toUInt32 <<< 8) ||| (c.toUInt32 <<< 16) ||| (d.toUInt32 <<< 24))
  | _ => none

/-- The flag word of the first legacy name, in ascending order, whose value holds one. -/
def legacyFlagWord? (map : AttributeMap) : Option UInt32 :=
  map.toList.findSome? fun (name, value) =>
    if name ∈ AttributeName.legacyFlagNames then flagWord? value else none

/-- Moves a flag word that is stored under a legacy name to its own field, unless that field is
already set, and drops all reserved names. Returns the number of names dropped. -/
def normalizeReserved (entry : Entry) : Nat × Entry :=
  match entry.attributes with
  | none => (0, entry)
  | some map =>
    let kept := map.filter fun name => !AttributeName.isReserved name
    (map.size - kept.size,
      { entry.putAttributes (some kept) with
        flags := entry.flags <|> legacyFlagWord? map })

end TreeManifest.Entry
