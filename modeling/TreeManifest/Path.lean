import TreeManifest.Bytes

/-!
# Paths

A path is a byte string cut by slashes. Two views of it are used. `Path.components` drops the empty
pieces that doubled, leading and trailing slashes leave behind; the canonical order of entries is
defined on it. `Path.steps` is the reading that the system gives to a path, in which a leading slash
and the names `.` and `..` have a meaning; failed directories are reported in its order.

## Main definitions

- `Path.join`: a path below another one.
- `Path.pieces`, `Path.components`: the pieces between slashes, and the non-empty ones among them.
- `Path.fileName`: what follows the last slash.
- `Path.steps`: the components with their meaning.
-/

namespace TreeManifest

/-- A path, relative or absolute. -/
abbrev Path := Bytes

namespace Path

def isAbsolute (path : Path) : Bool :=
  path.head? == some Bytes.slash

/-- The path of `inner` below `base`. An absolute `inner` replaces `base`, and no slash is added
after an empty base or one that already ends in a slash. -/
def join (base inner : Path) : Path :=
  if isAbsolute inner then inner
  else if base.getLast?.all (· == Bytes.slash) then base ++ inner
  else base ++ Bytes.slash :: inner

/-- The pieces of a path between its slashes, empty ones included. There is always at least one. -/
def pieces : Path → List Bytes
  | [] => [[]]
  | byte :: rest =>
    if byte = Bytes.slash then [] :: pieces rest
    else
      match pieces rest with
      | [] => [[byte]]
      | piece :: more => (byte :: piece) :: more

/-- The non-empty pieces of a path. -/
def components (path : Path) : List Bytes :=
  (pieces path).filter fun piece => !piece.isEmpty

/-- What follows the last slash of a path, or the whole path when it has none. -/
def fileName (path : Path) : Bytes :=
  (pieces path).getLastD []

/-- The path of `name` inside the directory with the relative path `parent`, where the empty path
is the top of the tree. -/
def child (parent : Path) (name : Bytes) : Path :=
  if parent.isEmpty then name else parent ++ Bytes.slash :: name

/-- One step of a path as the system takes it. -/
inductive Step where
  | root
  | current
  | parent
  | name (bytes : Bytes)
  deriving DecidableEq

def Step.rank : Step → Nat
  | .root => 0
  | .current => 1
  | .parent => 2
  | .name _ => 3

/-- The order of steps: by kind, then names by their bytes. -/
def Step.compare : Step → Step → Ordering
  | .name a, .name b => Ord.compare a b
  | a, b => Ord.compare a.rank b.rank

def dot : Bytes := [0x2E]

def dotDot : Bytes := [0x2E, 0x2E]

/-- The steps of a path. A piece `.` counts only where it begins a relative path. -/
def steps (path : Path) : List Step :=
  let opening :=
    if isAbsolute path then [Step.root]
    else if (pieces path).head? == some dot then [Step.current]
    else []
  opening ++ ((components path).filter (· != dot)).map fun piece =>
    if piece = dotDot then Step.parent else Step.name piece

def compareSteps (a b : Path) : Ordering :=
  List.compareLex Step.compare (steps a) (steps b)

end Path

end TreeManifest
