import Mathlib.Tactic.IntervalCases
import TreeManifest.Ownership

/-!
# Words of an entry

An entry stores kind and permissions in one mode word, the numbers of a device in two payload words,
and owner and group as signed numbers. All of them can be read back.

## Main statements

- `FileKind.ofMode_or`, `FileKind.permissions_or`: kind and permissions of a mode word.
- `Device.ofPayload_toPayload`, `Device.ofRaw_toRaw`, `Device.toRaw_ofRaw`: the numbers of a device.
- `Ownership.idOf?_toInt64`: the number of an owner or group.
-/

namespace TreeManifest

namespace FileKind

variable {permissions : UInt32}

theorem or_and_distrib (a b mask : UInt32) : (a ||| b) &&& mask = a &&& mask ||| b &&& mask := by
  apply UInt32.toBitVec_inj.1
  apply BitVec.eq_of_getLsbD_eq
  intro bit hbit
  simp only [UInt32.toBitVec_and, UInt32.toBitVec_or, BitVec.getLsbD_and, BitVec.getLsbD_or,
    Bool.and_or_distrib_right]

/-- Permissions have no bits in common with the kind. -/
theorem and_typeMask_of_and_permissionMask (h : permissions &&& permissionMask = permissions) :
    permissions &&& typeMask = 0 := by
  rw [← h, UInt32.and_assoc]
  exact UInt32.and_zero

theorem typeBits_and_typeMask (kind : FileKind) : kind.typeBits &&& typeMask = kind.typeBits := by
  cases kind <;> rfl

theorem typeBits_and_permissionMask (kind : FileKind) : kind.typeBits &&& permissionMask = 0 := by
  cases kind <;> rfl

/-- A mode of a kind and permissions is of that kind. -/
theorem ofMode_or (kind : FileKind) (h : permissions &&& permissionMask = permissions) :
    ofMode (kind.typeBits ||| permissions) = kind := by
  rw [ofMode, or_and_distrib, and_typeMask_of_and_permissionMask h, UInt32.or_zero,
    typeBits_and_typeMask]
  cases kind <;> rfl

/-- A mode of a kind and permissions has these permissions. -/
theorem permissions_or (kind : FileKind) (h : permissions &&& permissionMask = permissions) :
    (kind.typeBits ||| permissions) &&& permissionMask = permissions := by
  rw [or_and_distrib, typeBits_and_permissionMask, UInt32.zero_or, h]

/-- Permissions stay what they are when some of them are taken away. -/
theorem and_permissionMask_of_and (h : permissions &&& permissionMask = permissions)
    (kept : UInt32) : (permissions &&& kept) &&& permissionMask = permissions &&& kept := by
  rw [UInt32.and_assoc, UInt32.and_comm kept, ← UInt32.and_assoc, h]

end FileKind

/-- The permissions of an entry fit below the kind in a mode word. -/
theorem Entry.permissions_and_permissionMask (entry : Entry) :
    entry.permissions &&& FileKind.permissionMask = entry.permissions := by
  rw [permissions, UInt32.and_assoc, UInt32.and_self]

namespace Device

/-- A device is read back from its payload. -/
theorem ofPayload_toPayload (device : Device) :
    ofPayload device.toPayload.1 device.toPayload.2 = device := by
  simp [ofPayload, toPayload]

/-- Packing loses nothing: every bit of both numbers has a place in the packed word. -/
theorem ofRaw_toRaw (device : Device) : ofRaw device.toRaw = device := by
  obtain ⟨major, minor⟩ := device
  simp only [ofRaw, toRaw, Device.mk.injEq]
  constructor
  · apply UInt32.toBitVec_inj.1
    apply BitVec.eq_of_getLsbD_eq
    intro bit hbit
    interval_cases bit <;> simp [majorHigh, majorLow, minorHigh, minorLow]
  · apply UInt32.toBitVec_inj.1
    apply BitVec.eq_of_getLsbD_eq
    intro bit hbit
    interval_cases bit <;> simp [majorHigh, majorLow, minorHigh, minorLow]

/-- Unpacking loses nothing either: every bit of a packed word belongs to one of the numbers. -/
theorem toRaw_ofRaw (raw : UInt64) : (ofRaw raw).toRaw = raw := by
  apply UInt64.toBitVec_inj.1
  apply BitVec.eq_of_getLsbD_eq
  intro bit hbit
  -- The narrowing to half a word has to stay a change of width, since its bits are asked for.
  interval_cases bit <;>
    simp [-UInt64.toUInt64_toUInt32, ofRaw, toRaw, majorHigh, majorLow, minorHigh, minorLow]

end Device

namespace Ownership

theorem toInt_toInt64 (id : UInt32) : id.toUInt64.toInt64.toInt = id.toNat := by
  have hlt := id.toNat_lt
  show BitVec.toInt id.toUInt64.toBitVec = _
  rw [BitVec.toInt_eq_toNat_of_lt]
  · rfl
  · show 2 * id.toNat < 2 ^ 64
    omega

/-- The low half of a number is never negative. -/
theorem toInt_lowHalf (number : Int64) :
    number.toUInt64.toUInt32.toUInt64.toInt64.toInt = number.toInt % 2 ^ 32 := by
  rw [toInt_toInt64, UInt64.toNat_toUInt32]
  show ((number.toBitVec.toNat % 2 ^ 32 : Nat) : Int) = number.toBitVec.toInt % 2 ^ 32
  rw [BitVec.toInt_eq_toNat_cond]
  split <;> omega

/-- Every id of the system is in range. -/
theorem idOf?_toInt64 (id : UInt32) : idOf? id.toUInt64.toInt64 = some id := by
  have hlt := id.toNat_lt
  rw [idOf?, if_pos]
  · simp
  · rw [Int64.le_iff_toInt_le, Int64.le_iff_toInt_le, toInt_toInt64]
    constructor
    · simp
    · show (id.toNat : Int) ≤ 0xFFFFFFFF
      omega

/-- The number of an owner or group stands for that owner or group. -/
theorem toInt64_of_idOf? {id : Int64} {number : UInt32} (h : idOf? id = some number) :
    number.toUInt64.toInt64 = id := by
  unfold idOf? at h
  split at h
  · next hrange =>
    obtain rfl := Option.some.inj h
    rw [Int64.le_iff_toInt_le, Int64.le_iff_toInt_le] at hrange
    have hlow : 0 ≤ id.toInt := hrange.1
    have hhigh : id.toInt ≤ 0xFFFFFFFF := hrange.2
    rw [← Int64.toInt_inj, toInt_lowHalf]
    exact Int.emod_eq_of_lt hlow (by omega)
  · cases h

/-- No id of the system is the unknown one. -/
theorem toInt64_ne_unknownId (id : UInt32) : id.toUInt64.toInt64 ≠ Entry.unknownId := by
  intro h
  have hint := congrArg Int64.toInt h
  rw [toInt_toInt64, show Entry.unknownId.toInt = -1 from rfl] at hint
  omega

/-- Ids of the system are told apart in entries. -/
theorem eq_of_toInt64_eq {id other : UInt32} (h : id.toUInt64.toInt64 = other.toUInt64.toInt64) :
    id = other := by
  have hid := idOf?_toInt64 id
  rw [h, idOf?_toInt64] at hid
  exact (Option.some.inj hid).symm

/-- An owner or group that is unknown, or that the system can store. The largest number of the
system stands for no change. -/
def IsStorable (id : Int64) : Prop := id = Entry.unknownId ∨ (0 ≤ id ∧ id ≤ 0xFFFFFFFE)

instance (id : Int64) : Decidable (IsStorable id) :=
  inferInstanceAs (Decidable (id = Entry.unknownId ∨ (0 ≤ id ∧ id ≤ 0xFFFFFFFE)))

/-- An owner or group that is known has a number, which asks for a change. -/
theorem IsStorable.exists_idOf? {id : Int64} (h : IsStorable id) (hknown : id ≠ Entry.unknownId) :
    ∃ number, idOf? id = some number ∧ number.toUInt64.toInt64 = id ∧ number ≠ 0xFFFFFFFF := by
  obtain ⟨hlow, hhigh⟩ := h.resolve_left hknown
  rw [Int64.le_iff_toInt_le] at hlow hhigh
  have hnonneg : 0 ≤ id.toInt := hlow
  have hle : id.toInt ≤ 0xFFFFFFFE := hhigh
  have hnat : (UInt32.ofNat id.toInt.toNat).toNat = id.toInt.toNat :=
    UInt32.toNat_ofNat_of_lt' (show id.toInt.toNat < 2 ^ 32 by omega)
  have hid : (UInt32.ofNat id.toInt.toNat).toUInt64.toInt64 = id := by
    rw [← Int64.toInt_inj, toInt_toInt64, hnat, Int.toNat_of_nonneg hnonneg]
  refine ⟨UInt32.ofNat id.toInt.toNat, ?_, hid, fun hlast => ?_⟩
  · conv_lhs => rw [← hid]
    exact idOf?_toInt64 _
  · rw [hlast] at hnat
    have hmax : (0xFFFFFFFF : UInt32).toNat = 0xFFFFFFFF := rfl
    omega

end Ownership

end TreeManifest
