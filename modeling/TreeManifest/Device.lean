/-!
# Device numbers

A device node is identified by a major and a minor number. An entry stores them in its two payload
words; the system packs them into one 64-bit word in which each number is split into a low and a
high part.

## Main definitions

- `Device`: a major and a minor number.
- `Device.ofPayload`, `Device.toPayload`: passage to the payload words of an entry.
- `Device.ofRaw`, `Device.toRaw`: passage to the packed word.
-/

namespace TreeManifest

structure Device where
  major : UInt32
  minor : UInt32
  deriving DecidableEq, Inhabited

namespace Device

/-- The payload words of a device: its two numbers. -/
def toPayload (device : Device) : Int64 × Int64 :=
  (device.major.toUInt64.toInt64, device.minor.toUInt64.toInt64)

/-- The device in two payload words. Only the low half of each word counts. -/
def ofPayload (chunk offset : Int64) : Device :=
  ⟨chunk.toUInt64.toUInt32, offset.toUInt64.toUInt32⟩

/-- The bits of a major number above its lowest twelve. -/
def majorHigh : UInt64 := 0xFFFFF000

def majorLow : UInt64 := 0xFFF

/-- The bits of a minor number above its lowest byte. -/
def minorHigh : UInt64 := 0xFFFFFF00

def minorLow : UInt64 := 0xFF

/-- The device in a packed word: bits 8 to 19 and 44 to 63 hold the major number, bits 0 to 7 and
20 to 43 the minor number. -/
def ofRaw (raw : UInt64) : Device where
  major := ((raw >>> 32 &&& majorHigh) ||| (raw >>> 8 &&& majorLow)).toUInt32
  minor := ((raw >>> 12 &&& minorHigh) ||| (raw &&& minorLow)).toUInt32

def toRaw (device : Device) : UInt64 :=
  let major := device.major.toUInt64
  let minor := device.minor.toUInt64
  ((major &&& majorHigh) <<< 32) ||| ((major &&& majorLow) <<< 8) |||
    ((minor &&& minorHigh) <<< 12) ||| (minor &&& minorLow)

end Device

end TreeManifest
