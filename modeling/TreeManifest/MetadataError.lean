import TreeManifest.Path
import TreeManifest.System.IoError
import TreeManifest.Text.Utf8

/-!
# Failures of metadata operations

A failed operation on an object reports what was attempted, on which path, and the error of the
system. The attempts are a closed list, so the wording of each stands in one place.

## Main definitions

- `Attempt`: what was attempted.
- `MetadataError`: a failed attempt on a path.
- `MetadataError.message`: its wording.
-/

namespace TreeManifest

/-- What an operation on an object attempted. -/
inductive Attempt where
  | listAttributes
  | readAttribute
  | writeAttribute
  | removeAttribute
  | listExtendedAttributes
  | readExtendedAttribute
  | writeExtendedAttribute
  | removeExtendedAttribute
  | openForFlagCapture
  | readFlags
  | openForFlagRestore
  | restoreFlags
  | createDirectory
  | createFile
  | writeContent
  | createSymlink
  | createHardLink
  | createSpecial
  | inspectRestored
  | restorePermissions
  | restoreTimestamps
  /-- An attempt that is not one of the library's own. -/
  | named (wording : String)
  deriving DecidableEq

def Attempt.wording : Attempt → String
  | .listAttributes => "list attributes"
  | .readAttribute => "read attribute"
  | .writeAttribute => "write attribute"
  | .removeAttribute => "remove attribute"
  | .listExtendedAttributes => "list extended attributes"
  | .readExtendedAttribute => "read extended attribute"
  | .writeExtendedAttribute => "write extended attribute"
  | .removeExtendedAttribute => "remove extended attribute"
  | .openForFlagCapture => "open for flag capture"
  | .readFlags => "read flags"
  | .openForFlagRestore => "open for flag restore"
  | .restoreFlags => "restore flags"
  | .createDirectory => "create directory"
  | .createFile => "create file"
  | .writeContent => "write file content"
  | .createSymlink => "create symlink"
  | .createHardLink => "create hard link"
  | .createSpecial => "create special file"
  | .inspectRestored => "inspect restored entry"
  | .restorePermissions => "restore permissions"
  | .restoreTimestamps => "restore timestamps"
  | .named wording => wording

structure MetadataError where
  attempt : Attempt
  path : Path
  source : IoError
  deriving DecidableEq

namespace MetadataError

/-- The class of a failure is the class of the system's error. -/
def errorClass (error : MetadataError) : ErrorClass := error.source.errorClass

def message (error : MetadataError) : String :=
  "failed to " ++ error.attempt.wording ++ " '" ++ Utf8.lossy error.path ++ "': " ++
    error.source.message

end MetadataError

end TreeManifest
