/-!
# Kinds of filesystem object

A mode word holds the kind of an object in its type bits and the permissions below them. Seven
values of the type bits have a meaning; all others are kept and reported as unknown.

## Main definitions

- `FileKind`: the kinds of object.
- `FileKind.ofMode`, `FileKind.typeBits`: passage between kinds and type bits.
- `FileKind.isDevice`, `FileKind.isSpecial`, `FileKind.carriesAttributes`,
  `FileKind.hasFlagWord`: families of kinds.
-/

namespace TreeManifest

inductive FileKind where
  | regular
  | directory
  | symlink
  | fifo
  | charDevice
  | blockDevice
  | socket
  | unknown
  deriving DecidableEq, Inhabited

namespace FileKind

/-- The bits of a mode word that hold the kind. -/
def typeMask : UInt32 := 0o170000

/-- The bits of a mode word that hold the permissions, with setuid, setgid and sticky. -/
def permissionMask : UInt32 := 0o7777

/-- The type bits of a kind. An unknown kind has none. -/
def typeBits : FileKind → UInt32
  | .regular => 0o100000
  | .directory => 0o040000
  | .symlink => 0o120000
  | .fifo => 0o010000
  | .charDevice => 0o020000
  | .blockDevice => 0o060000
  | .socket => 0o140000
  | .unknown => 0

/-- The kinds that have type bits of their own. -/
def known : List FileKind :=
  [.regular, .directory, .symlink, .fifo, .charDevice, .blockDevice, .socket]

/-- The kind in the type bits of a mode word. -/
def ofMode (mode : UInt32) : FileKind :=
  (known.find? fun kind => kind.typeBits == mode &&& typeMask).getD .unknown

def isDevice : FileKind → Bool
  | .charDevice | .blockDevice => true
  | _ => false

/-- Devices, fifos and sockets: the objects that are made by one call and hold no content. -/
def isSpecial : FileKind → Bool
  | .charDevice | .blockDevice | .fifo | .socket => true
  | _ => false

/-- The kinds whose extended attributes are captured and restored. -/
def carriesAttributes : FileKind → Bool
  | .regular | .directory | .symlink => true
  | _ => false

/-- The kinds of object that have a flag word. -/
def hasFlagWord : FileKind → Bool
  | .regular | .directory => true
  | _ => false

end FileKind

end TreeManifest
