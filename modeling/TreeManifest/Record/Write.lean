import TreeManifest.Json.StringBody
import TreeManifest.Record.Read

/-!
# Writing records

A record is written on one line as an object without blanks. Fields appear in their order, and a
field that may be left out does so when it has no value, except for the role. Byte strings are
arrays of numbers, so arbitrary bytes survive.

## Main definitions

- `Record.writeBytes`, `Record.writeAttributes`: the written form of values.
- `Record.Field.write?`: the written form of the value of a field, if it is written at all.
- `Record.render`, `Entry.render`: the text of a record and of an entry.
-/

namespace TreeManifest.Record

/-- Puts a comma between written forms. -/
def separate (items : List (List Char)) : List Char :=
  List.intercalate [','] items

def writeBytes (bytes : Bytes) : List Char :=
  '[' :: separate (bytes.map fun byte => Decimal.digits byte.toNat) ++ [']']

def writeBinding (binding : String × Bytes) : List Char :=
  Json.quote binding.1 ++ ':' :: writeBytes binding.2

/-- The written form of a map of attributes, in ascending order of the names. -/
def writeAttributes (map : AttributeMap) : List Char :=
  '\x7b' :: separate (map.toList.map writeBinding) ++ ['\x7d']

def writeNatural (value : Nat) : List Char := Decimal.digits value

def writeSigned (value : Int64) : List Char := Decimal.ofInt value.toInt

/-- The written form of the value of a field, if it is written at all. -/
def Field.write? : (field : Field) → field.Value → Option (List Char)
  | .path, value => some (writeBytes value)
  | .size, value => some (writeNatural (value : UInt64).toNat)
  | .mode, value => some (writeNatural (value : UInt32).toNat)
  | .attributes, value => Option.map writeAttributes value
  | .flags, value => Option.map (fun flags : UInt32 => writeNatural flags.toNat) value
  | .link, value => Option.map writeBytes value
  | .role, value => some (Json.quote (roleName value))
  | .modTime, value => some (writeSigned value)
  | .uid, value => some (writeSigned value)
  | .gid, value => some (writeSigned value)
  | .startChunk, value => some (writeSigned value)
  | .startOffset, value => some (writeSigned value)

/-- The member of a field, if it is written at all. -/
def member? (record : Record) (field : Field) : Option (List Char) :=
  (field.write? (record field)).map fun value => Json.quote field.name ++ ':' :: value

def characters (record : Record) : List Char :=
  '\x7b' :: separate (Field.all.filterMap record.member?) ++ ['\x7d']

def render (record : Record) : String := String.ofList record.characters

end TreeManifest.Record

def TreeManifest.Entry.render (entry : Entry) : String := (Record.ofEntry entry).render
