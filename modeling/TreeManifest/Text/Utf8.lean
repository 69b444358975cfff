import TreeManifest.Bytes

/-!
# Reading byte strings as UTF-8

A byte string is cut from left to right into well-formed scalar values and faults. A fault is a
maximal part of an ill-formed sequence: the longest run of bytes that begins some well-formed
sequence but does not complete it, and at least one byte. Every fault is shown as one replacement
character.

## Main definitions

- `Utf8.decode`: the scalar values and faults of a byte string.
- `Utf8.ofBytes?`: the text of a well-formed byte string.
- `Utf8.lossy`: the text of any byte string, with faults replaced.
-/

namespace TreeManifest.Utf8

/-- What a leading byte promises: the bounds of the byte after it, the number of continuation bytes
after that one, and the bits that the leading byte contributes. -/
structure Lead where
  low : UInt8
  high : UInt8
  more : Nat
  bits : Nat

/-- Classifies a leading byte that is not ASCII. The bounds on the second byte exclude overlong
forms, surrogates and values above U+10FFFF. -/
def lead? (byte : UInt8) : Option Lead :=
  if 0xC2 ≤ byte ∧ byte ≤ 0xDF then some ⟨0x80, 0xBF, 0, byte.toNat - 0xC0⟩
  else if byte = 0xE0 then some ⟨0xA0, 0xBF, 1, 0⟩
  else if byte = 0xED then some ⟨0x80, 0x9F, 1, 0xD⟩
  else if 0xE1 ≤ byte ∧ byte ≤ 0xEF then some ⟨0x80, 0xBF, 1, byte.toNat - 0xE0⟩
  else if byte = 0xF0 then some ⟨0x90, 0xBF, 2, 0⟩
  else if 0xF1 ≤ byte ∧ byte ≤ 0xF3 then some ⟨0x80, 0xBF, 2, byte.toNat - 0xF0⟩
  else if byte = 0xF4 then some ⟨0x80, 0x8F, 2, 4⟩
  else none

/-- Reads `count` continuation bytes onto the bits read so far. A byte that does not continue the
sequence is left in place. -/
def follow : Nat → Nat → Bytes → Option Char × Bytes
  | 0, bits, rest => (some (Char.ofNat bits), rest)
  | _ + 1, _, [] => (none, [])
  | count + 1, bits, byte :: rest =>
    if 0x80 ≤ byte ∧ byte ≤ 0xBF then follow count (bits * 64 + (byte.toNat - 0x80)) rest
    else (none, byte :: rest)

/-- Reads the first scalar value or fault of the byte string `byte :: rest`. -/
def next (byte : UInt8) (rest : Bytes) : Option Char × Bytes :=
  if byte < 0x80 then (some (Char.ofNat byte.toNat), rest)
  else
    match lead? byte, rest with
    | none, rest => (none, rest)
    | some _, [] => (none, [])
    | some lead, second :: rest =>
      if lead.low ≤ second ∧ second ≤ lead.high then
        follow lead.more (lead.bits * 64 + (second.toNat - 0x80)) rest
      else (none, second :: rest)

theorem follow_length_le (count bits : Nat) (bytes : Bytes) :
    (follow count bits bytes).2.length ≤ bytes.length := by
  induction count generalizing bits bytes with
  | zero => simp [follow]
  | succ count ih =>
    cases bytes with
    | nil => simp [follow]
    | cons byte rest =>
      unfold follow
      split
      · exact Nat.le_succ_of_le (ih _ _)
      · simp

theorem next_length_le (byte : UInt8) (rest : Bytes) : (next byte rest).2.length ≤ rest.length := by
  unfold next
  split
  · simp
  · split
    · simp
    · simp
    · split
      · exact Nat.le_succ_of_le (follow_length_le _ _ _)
      · simp

/-- The scalar values of a byte string in order, with `none` for every fault. -/
def decode : Bytes → List (Option Char)
  | [] => []
  | byte :: rest => (next byte rest).1 :: decode (next byte rest).2
termination_by bytes => bytes.length
decreasing_by
  simp only [List.length_cons]
  exact Nat.lt_succ_of_le (next_length_le byte rest)

/-- The text of a byte string, if it is well-formed UTF-8 throughout. -/
def ofBytes? (bytes : Bytes) : Option String :=
  ((decode bytes).mapM id).map String.ofList

/-- The text of a byte string in which every fault is shown as U+FFFD. -/
def lossy (bytes : Bytes) : String :=
  String.ofList ((decode bytes).map fun scalar => scalar.getD '\uFFFD')

end TreeManifest.Utf8
