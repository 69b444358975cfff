/-!
# Flag words

Some filesystems keep a word of flags with every object. Bits that make an object immutable or
append-only block the very changes that finish its restore, so a stored word is applied in phases,
each of which may change some bits only.

## Main definitions

- `Flags.Ioctl`, `Flags.ChangeCall`: the bits of the two families of systems.
- `Privilege`: whether a process may change everything.
- `FlagFamily`: how a system gives access to the word.
- `FlagMask`: the bits that a caller allows to change.
- `FlagPhase`, `FlagPhase.effectiveBits`: the phases and the bits that they change.
- `Flags.merge`: a word after a phase.
-/

namespace TreeManifest

namespace Flags

/-! ### Bits of systems that change the word through an open object -/

namespace Ioctl

def secureDeletion : UInt32 := 0x00000001

/-- Content can be brought back after deletion. -/
def undelete : UInt32 := 0x00000002

def compress : UInt32 := 0x00000004

/-- Changes are written at once. -/
def synchronous : UInt32 := 0x00000008

def immutable : UInt32 := 0x00000010

def appendOnly : UInt32 := 0x00000020

/-- Backups leave the object out. -/
def noDump : UInt32 := 0x00000040

/-- Reading leaves no access time. -/
def noAccessTime : UInt32 := 0x00000080

def noCompress : UInt32 := 0x00000400

/-- Content goes through the journal. -/
def journalData : UInt32 := 0x00004000

/-- The end of the content is not packed. -/
def noTail : UInt32 := 0x00008000

/-- Changes to a directory are written at once. -/
def directorySynchronous : UInt32 := 0x00010000

/-- The directory is the top of a hierarchy. -/
def topDirectory : UInt32 := 0x00020000

/-- Content is changed in place. -/
def noCopyOnWrite : UInt32 := 0x00800000

/-- Children inherit the project. -/
def projectInherit : UInt32 := 0x20000000

/-- Names ignore case. -/
def caseFold : UInt32 := 0x40000000

/-- The bits that are safe on a file before it has content. -/
def fileEarly : UInt32 :=
  secureDeletion ||| undelete ||| compress ||| noDump ||| noAccessTime ||| noCompress |||
    journalData ||| noTail ||| noCopyOnWrite

/-- The bits that a directory must get while it is empty. -/
def directoryEarly : UInt32 := topDirectory ||| projectInherit ||| caseFold

/-- The bits that only a finished object gets. -/
def late : UInt32 := synchronous ||| immutable ||| appendOnly ||| directorySynchronous

def modifiable : UInt32 := fileEarly ||| directoryEarly ||| late

/-- The bits that block changes. -/
def immutableClass : UInt32 := immutable ||| appendOnly

end Ioctl

/-! ### Bits of systems that change the word through a call of its own -/

namespace ChangeCall

/-- The owner has made the object unchangeable. -/
def userImmutable : UInt32 := 0x00000002

def userAppend : UInt32 := 0x00000004

/-- The bits that an owner may change. -/
def userSettable : UInt32 := 0x0000FFFF

/-- The bits that only a privileged process may change. -/
def systemSettable : UInt32 := 0xFFFF0000

def systemImmutable : UInt32 := 0x00020000

def systemAppend : UInt32 := 0x00040000

/-- The object cannot be removed or renamed. -/
def systemNoUnlink : UInt32 := 0x00100000

/-- The bits that block changes. -/
def immutableClass : UInt32 :=
  userImmutable ||| userAppend ||| systemImmutable ||| systemAppend ||| systemNoUnlink

end ChangeCall

/-- The current word with the allowed bits taken from the stored word. -/
def merge (current stored allowed : UInt32) : UInt32 :=
  (current &&& ~~~allowed) ||| (stored &&& allowed)

end Flags

/-- Whether a process may change metadata that is reserved to the superuser. -/
inductive Privilege where
  | unprivileged
  | privileged
  deriving DecidableEq, Inhabited

/-- How a system gives access to the flag word. -/
inductive FlagFamily where
  /-- Through an open object. -/
  | ioctl
  /-- Through calls that name the object. -/
  | changeCall
  /-- Not at all. -/
  | unsupported
  deriving DecidableEq

namespace FlagFamily

/-- The family of the systems that this library restores to. -/
def native : FlagFamily := .ioctl

/-- The bits that block changes. -/
def immutableClass : FlagFamily → UInt32
  | .ioctl => Flags.Ioctl.immutableClass
  | .changeCall => Flags.ChangeCall.immutableClass
  | .unsupported => 0

end FlagFamily

/-- The bits that a caller allows to change. -/
structure FlagMask where
  bits : UInt32
  deriving DecidableEq

namespace FlagMask

def all : FlagMask := ⟨0xFFFFFFFF⟩

def none : FlagMask := ⟨0⟩

def isNone (mask : FlagMask) : Bool := mask.bits == 0

end FlagMask

/-- The phases of a restore. -/
inductive FlagPhase where
  /-- The object is a new, empty directory. -/
  | earlyDirectory
  /-- The object is a new file without content. -/
  | earlyFile
  /-- The object is finished. -/
  | late
  deriving DecidableEq

namespace FlagPhase

/-- The bits that a phase may change. -/
def permittedBits (phase : FlagPhase) (family : FlagFamily) (privilege : Privilege) : UInt32 :=
  match family, phase with
  | .ioctl, .earlyDirectory => Flags.Ioctl.directoryEarly
  | .ioctl, .earlyFile => Flags.Ioctl.fileEarly
  | .ioctl, .late => Flags.Ioctl.modifiable
  | .changeCall, .late =>
    match privilege with
    | .privileged => Flags.ChangeCall.userSettable ||| Flags.ChangeCall.systemSettable
    | .unprivileged => Flags.ChangeCall.userSettable
  | .changeCall, _ | .unsupported, _ => 0

/-- The bits that a phase changes where the caller allows it. -/
def effectiveBits (phase : FlagPhase) (family : FlagFamily) (privilege : Privilege)
    (mask : FlagMask) : UInt32 :=
  phase.permittedBits family privilege &&& mask.bits

end FlagPhase

end TreeManifest
