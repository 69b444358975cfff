/-!
# Kinds of system error

Errors of the system fall into kinds that do not depend on the numbers a system gives them. Every
kind has a short description, which stands in for the text of an error that has no text of its own.

## Main definitions

- `ErrorKind`: the kinds of error.
- `ErrorKind.all`: all kinds.
- `ErrorKind.description`: the description of a kind.
-/

namespace TreeManifest

inductive ErrorKind where
  | addrInUse
  | addrNotAvailable
  | alreadyExists
  | argumentListTooLong
  | brokenPipe
  | connectionAborted
  | connectionRefused
  | connectionReset
  | crossesDevices
  | deadlock
  | directoryNotEmpty
  | executableFileBusy
  | fileTooLarge
  | filesystemLoop
  | hostUnreachable
  | inProgress
  | interrupted
  | invalidData
  | invalidFilename
  | invalidInput
  | isADirectory
  | networkDown
  | networkUnreachable
  | notADirectory
  | notConnected
  | notFound
  | notSeekable
  | other
  | outOfMemory
  | permissionDenied
  | quotaExceeded
  | readOnlyFilesystem
  | resourceBusy
  | staleNetworkFileHandle
  | storageFull
  | timedOut
  | tooManyLinks
  | uncategorized
  | unexpectedEof
  | unsupported
  | wouldBlock
  | writeZero
  deriving DecidableEq, Inhabited

/-- All kinds in the order of their names. -/
def ErrorKind.all : List ErrorKind :=
  [.addrInUse, .addrNotAvailable, .alreadyExists, .argumentListTooLong, .brokenPipe,
   .connectionAborted, .connectionRefused, .connectionReset, .crossesDevices, .deadlock,
   .directoryNotEmpty, .executableFileBusy, .fileTooLarge, .filesystemLoop, .hostUnreachable,
   .inProgress, .interrupted, .invalidData, .invalidFilename, .invalidInput, .isADirectory,
   .networkDown, .networkUnreachable, .notADirectory, .notConnected, .notFound, .notSeekable,
   .other, .outOfMemory, .permissionDenied, .quotaExceeded, .readOnlyFilesystem, .resourceBusy,
   .staleNetworkFileHandle, .storageFull, .timedOut, .tooManyLinks, .uncategorized,
   .unexpectedEof, .unsupported, .wouldBlock, .writeZero]

def ErrorKind.description : ErrorKind → String
  | .addrInUse => "address in use"
  | .addrNotAvailable => "address not available"
  | .alreadyExists => "entity already exists"
  | .argumentListTooLong => "argument list too long"
  | .brokenPipe => "broken pipe"
  | .connectionAborted => "connection aborted"
  | .connectionRefused => "connection refused"
  | .connectionReset => "connection reset"
  | .crossesDevices => "cross-device link or rename"
  | .deadlock => "deadlock"
  | .directoryNotEmpty => "directory not empty"
  | .executableFileBusy => "executable file busy"
  | .fileTooLarge => "file too large"
  | .filesystemLoop => "filesystem loop or indirection limit (e.g. symlink loop)"
  | .hostUnreachable => "host unreachable"
  | .inProgress => "in progress"
  | .interrupted => "operation interrupted"
  | .invalidData => "invalid data"
  | .invalidFilename => "invalid filename"
  | .invalidInput => "invalid input parameter"
  | .isADirectory => "is a directory"
  | .networkDown => "network down"
  | .networkUnreachable => "network unreachable"
  | .notADirectory => "not a directory"
  | .notConnected => "not connected"
  | .notFound => "entity not found"
  | .notSeekable => "seek on unseekable file"
  | .other => "other error"
  | .outOfMemory => "out of memory"
  | .permissionDenied => "permission denied"
  | .quotaExceeded => "quota exceeded"
  | .readOnlyFilesystem => "read-only filesystem or storage medium"
  | .resourceBusy => "resource busy"
  | .staleNetworkFileHandle => "stale network file handle"
  | .storageFull => "no storage space"
  | .timedOut => "timed out"
  | .tooManyLinks => "too many links"
  | .uncategorized => "uncategorized error"
  | .unexpectedEof => "unexpected end of file"
  | .unsupported => "unsupported"
  | .wouldBlock => "operation would block"
  | .writeZero => "write zero"

end TreeManifest
