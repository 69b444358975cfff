import TreeManifest.System
import TreeManifest.Task
import TreeManifest.Text.Utf8

/-!
# Restoring ownership

## Main definitions

- `Ownership.idOf?`: the number that the system uses for a stored owner or group.
- `Ownership.restore`: gives an object the owner and group of an entry.
-/

namespace TreeManifest.Ownership

/-- The number that the system uses for a stored owner or group, if it is in range. -/
def idOf? (id : Int64) : Option UInt32 :=
  if 0 ≤ id ∧ id ≤ 0xFFFFFFFF then some id.toUInt64.toUInt32 else none

/-- Gives an object the owner and group of an entry, given what was found when it was inspected.
Nothing happens when either is unknown or both agree already. Returns whether no change failed. -/
def restore (system : System σ) (path : Path) (entry : Entry) (stat : Stat) : Task σ Bool := do
  if entry.uid = Entry.unknownId ∨ entry.gid = Entry.unknownId then return true
  else if stat.owner = (entry.uid, entry.gid) then return true
  else
    match idOf? entry.uid, idOf? entry.gid with
    | some uid, some gid =>
      match ← Task.perform (system.changeOwner path uid gid) with
      | .ok () => return true
      | .error error => do
        Task.report .ownership .warn
          (s!"failed to change owner of {Utf8.lossy path} to {uid}:{gid}: " ++ error.message)
        return false
    | _, _ => do
      Task.report .ownership .warn
        s!"cannot restore owner {entry.uid}:{entry.gid} on {Utf8.lossy path}: id out of range"
      return false

end TreeManifest.Ownership
