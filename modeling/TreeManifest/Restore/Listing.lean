import TreeManifest.Restore

/-!
# Restoring a whole listing

A listing in canonical order names every directory before what is in it, so its objects can be made
in that order. They are finished in the opposite order, since filling a directory changes its time.

## Main definitions

- `Restore.create`: makes the object of an entry, whatever its kind.
- `Restore.createAll`, `Restore.finishAll`: the two passes over a listing.
-/

namespace TreeManifest.Restore

/-- The outcome of making an object that has no early phase. -/
def withoutPhase (result : Except MetadataError Unit) : Except MetadataError (Option FlagOutcome) :=
  result.map fun () => none

/-- Makes the object of an entry and fills a file with the given content. Returns the outcome of the
early phase, if objects of this kind have one. -/
def create (system : System σ) (root : Path) (restorer : FlagRestorer) (options : RestoreOptions)
    (content : Bytes) (entry : Entry) : Task σ (Except MetadataError (Option FlagOutcome)) := do
  if entry.role = .linkTo then return withoutPhase (← createHardLink system root entry)
  else
    match entry.kind with
    | .directory =>
      return (← createDirectory system root entry restorer options).map some
    | .regular =>
      return (← createFile system root entry restorer options fun handle =>
        system.write handle content).map some
    | .symlink => return withoutPhase (← createSymlink system root entry)
    | _ => return withoutPhase (← createSpecial system (entry.fullPath root) entry)

/-- Makes the objects of a listing in its order. -/
def createAll (system : System σ) (root : Path) (restorer : FlagRestorer)
    (options : RestoreOptions) (content : Entry → Bytes) (entries : List Entry) :
    Task σ (List (Entry × Except MetadataError (Option FlagOutcome))) :=
  entries.mapM fun entry => do
    return (entry, ← create system root restorer options (content entry) entry)

/-- Finishes the objects of a listing in the opposite order. -/
def finishAll (system : System σ) (root : Path) (provider : AttributeProvider σ)
    (restorer : FlagRestorer) (options : RestoreOptions) (entries : List Entry) :
    Task σ (List (Entry × Except MetadataError FinishReport)) :=
  entries.reverse.mapM fun entry => do
    return (entry, ← finish system root entry provider restorer options)

end TreeManifest.Restore
