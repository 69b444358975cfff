import TreeManifest.System.Errno

/-!
# System errors

An error of a system call is a number, or a kind that the library itself assigned, with or without
a text. Callers decide by the class of an error: whether it concerns one object only, and whether it
means refusal, lack of support or disappearance.

## Main definitions

- `IoError`: an error of a system call.
- `IoError.message`, `IoError.kind`: its text and its kind.
- `ErrorClass`, `IoError.errorClass`: what callers decide by.
- `IoError.meansNoFlagWord`: whether an error says that the object has no flag word.
- `retryInterrupted`: the result of a call that is repeated while it is interrupted.
-/

namespace TreeManifest

inductive IoError where
  /-- The system answered with a number. -/
  | os (errno : Errno)
  /-- An error of a kind, described by the kind alone. -/
  | ofKind (kind : ErrorKind)
  /-- An error of a kind with a text of its own. -/
  | custom (kind : ErrorKind) (text : String)
  deriving DecidableEq, Inhabited

/-- What callers decide by. -/
inductive ErrorClass where
  /-- The operation was refused. -/
  | permissionDenied
  | unsupported
  /-- The operation was interrupted and can be repeated. -/
  | transientInterrupt
  | vanishedTarget
  /-- The request itself makes no sense. -/
  | structural
  | other
  deriving DecidableEq, Inhabited

/-- Whether an error of the class concerns one object and leaves the others alone. -/
def ErrorClass.isItemScoped (errorClass : ErrorClass) : Bool := errorClass != .structural

/-- Whether an error of the class means that the object declined, so that it is skipped and not
reported as a failure. -/
def ErrorClass.isRefusal : ErrorClass → Bool
  | .permissionDenied | .unsupported => true
  | _ => false

namespace IoError

def errno? : IoError → Option Errno
  | .os errno => some errno
  | _ => none

def kind : IoError → ErrorKind
  | .os errno => errno.kind
  | .ofKind kind | .custom kind _ => kind

def message : IoError → String
  | .os errno => errno.text ++ " (os error " ++ toString errno.code ++ ")"
  | .ofKind kind => kind.description
  | .custom _ text => text

/-- The class of an error number, where the number alone decides. -/
def classOfErrno (errno : Errno) : Option ErrorClass :=
  if errno ∈ [Errno.eperm, .eacces, .erofs] then some .permissionDenied
  else if errno ∈ [Errno.enotty, .eopnotsupp, .enosys, .enodata] then some .unsupported
  else if errno = .eintr then some .transientInterrupt
  else if errno ∈ [Errno.enoent, .enotdir] then some .vanishedTarget
  else none

def classOfKind : ErrorKind → ErrorClass
  | .permissionDenied | .readOnlyFilesystem => .permissionDenied
  | .unsupported => .unsupported
  | .interrupted => .transientInterrupt
  | .notFound => .vanishedTarget
  | .invalidInput | .invalidData => .structural
  | _ => .other

def errorClass (error : IoError) : ErrorClass :=
  (error.errno?.bind classOfErrno).getD (classOfKind error.kind)

/-- Whether an error of a call on the flag word says that the object has none. -/
def meansNoFlagWord (error : IoError) : Bool :=
  (match error.errno? with
    | some errno => decide (errno ∈ [Errno.enotty, .eopnotsupp, .enosys, .einval])
    | none => false) ||
    error.kind == .unsupported

end IoError

/-- The number of attempts and the result of a call that is repeated as long as it is interrupted.
`outcomes` are the results of the attempts in order; an attempt beyond them gives `last`. -/
def retryInterrupted (last : α) : List (Except IoError α) → Nat × Except IoError α
  | [] => (1, .ok last)
  | .error error :: rest =>
    if error.kind == .interrupted then
      let (attempts, result) := retryInterrupted last rest
      (attempts + 1, result)
    else (1, .error error)
  | .ok value :: _ => (1, .ok value)

end TreeManifest
