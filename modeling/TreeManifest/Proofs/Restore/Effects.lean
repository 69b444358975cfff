import TreeManifest.Proofs.Attributes.Left
import TreeManifest.Proofs.Restore.Applied
import TreeManifest.Proofs.Volume.Walked
import TreeManifest.Restore.Listing

/-!
# What finishing makes of a file

Every step of finishing looks at the object that a path leads to and writes that object or nothing.
So what finishing makes of a file is a function of the file and of the metadata of the entry,
whatever the path, and the file is still found by all of its paths.

## Main definitions

- `Caller.Rewrites`: a task at a path rewrites a known object as another one.
- `Restore.Finisher`: who finishes objects, and how.
- `Restore.AreNames`: entries that lead to one regular file.
- `Restore.Finisher.finished`: what finishing makes of a file.

## Main statements

- `Restore.Finisher.rewrites_finish`: finishing makes a file into that object.
- `Restore.Finisher.writes_finishAll`: what finishing several names of a file makes of it.
-/

namespace TreeManifest

variable {caller : Caller} {before middle after volume : Volume} {number : Nat} {path root : Path}
  {object changed : VolumeObject} {entry : Entry}

def VolumeObject.IsFile (object : VolumeObject) : Prop :=
  ∃ content, object.body = .file content

theorem VolumeObject.IsFile.of_body_eq (h : object.IsFile) (hbody : changed.body = object.body) :
    changed.IsFile :=
  h.imp fun _ => hbody.trans

theorem VolumeObject.IsFile.kind_eq (h : object.IsFile) : object.kind = .regular := by
  obtain ⟨content, hcontent⟩ := h
  rw [kind, hcontent]

namespace Volume.Writes

/-- Changes of one object after another are one change of that object. -/
theorem trans (h : before.Writes number object middle) (h' : middle.Writes number changed after) :
    before.Writes number changed after := by
  refine ⟨fun other => ?_, h'.next_eq.trans h.next_eq, h'.times_eq.trans h.times_eq⟩
  rw [h'.object?_eq, h.object?_eq]
  split <;> rfl

/-- A file that was written is still found by its paths. -/
theorem find_file (h : before.Writes number changed after) (hfile : object.IsFile)
    (hbody : changed.body = object.body) {followLast : Bool}
    (hfind : caller.find before followLast path = .ok (number, object)) :
    caller.find after followLast path = .ok (number, changed) := by
  obtain ⟨hresolve, hobject⟩ := Caller.find_eq_ok_iff.1 hfind
  have hchanged : after.object? number = some changed := by rw [h.object?_eq, if_pos rfl]
  -- The file that was there before takes the place of the new one without effect on paths.
  have hback : after.Retouched number before := by
    refine ⟨fun other hother => ?_, ?_⟩
    · rw [h.object?_eq, if_neg (Ne.symm hother)]
    · rw [hobject, hchanged, Option.map_some, Option.map_some, hbody]
  obtain ⟨content, hcontent⟩ := hfile.of_body_eq hbody
  exact Caller.find_eq_ok_iff.2
    ⟨Caller.resolve_retouched hback hchanged (by simp [hcontent]) hresolve, hchanged⟩

end Volume.Writes

namespace Caller

variable {α β : Type}

/-- Wherever a path leads to the first object, a task rewrites it as the second one and changes
nothing else. -/
def Rewrites (caller : Caller) (path : Path) (object changed : VolumeObject) (task : Task Volume α) :
    Prop :=
  ∀ volume number, caller.find volume false path = .ok (number, object) →
    volume.Writes number changed (task.run volume).state

/-- A task that never changes the state leaves an object as it is. -/
theorem rewrites_of_state_eq {task : Task Volume α} (h : ∀ state, (task.run state).state = state) :
    caller.Rewrites path object object task := by
  intro volume number hfind
  rw [h]
  exact .refl (find_eq_ok_iff.1 hfind).2

/-- Tasks that rewrite a file one after another rewrite it together, for what they keep of it keeps
the path leading there. -/
theorem Rewrites.bind {between : VolumeObject} {first : Task Volume α} {next : α → Task Volume β}
    (h : caller.Rewrites path object between first) (hfile : object.IsFile)
    (hbody : between.body = object.body)
    (hnext : ∀ value, caller.Rewrites path between changed (next value)) :
    caller.Rewrites path object changed (first >>= next) := by
  intro volume number hfind
  have hfirst := h volume number hfind
  exact hfirst.trans (hnext _ _ _ (hfirst.find_file hfile hbody hfind))

/-- A call that writes the object of its path, or is refused and leaves it as it is. -/
theorem rewrites_perform {change : Change Unit} (refusal : IoError) (hnul : Bytes.nul ∉ path)
    (h : ∀ volume number, caller.find volume false path = .ok (number, object) →
      change volume = .ok ((), volume.put number changed) ∨
        changed = object ∧ ∃ errno, change volume = .error errno) :
    caller.Rewrites path object changed (Task.perform (pathCall refusal path change)) := by
  intro volume number hfind
  have hobject := (find_eq_ok_iff.1 hfind).2
  rcases h volume number hfind with hdone | ⟨rfl, errno, hrefused⟩
  · rw [Task.run_perform, pathCall_of_eq refusal hnul hdone]
    exact (Volume.Writes.refl hobject).put changed
  · rw [Task.run_perform, pathCall, if_neg hnul, call, hrefused]
    exact .refl hobject

/-! ## Changes of a known object -/

def mayGive (caller : Caller) (uid gid : UInt32) (object : VolumeObject) : Bool :=
  !object.isFrozen &&
    (caller.isSuperuser || uid == keepId || (caller.uid == object.uid && uid == object.uid)) &&
    (caller.isSuperuser || gid == keepId ||
      (caller.uid == object.uid && (gid == caller.gid || gid == object.gid)))

/-- An object after an attempt to give it to an owner and a group. -/
def given (caller : Caller) (uid gid : UInt32) (object : VolumeObject) : VolumeObject :=
  if caller.mayGive uid gid object then
    { object with
      uid := if uid = keepId then object.uid else uid
      gid := if gid = keepId then object.gid else gid
      permissions := afterOwnerChange object }
  else object

@[simp] theorem body_given (caller : Caller) (uid gid : UInt32) (object : VolumeObject) :
    (caller.given uid gid object).body = object.body := by
  unfold given
  split <;> rfl

/-- Whether a caller may change permissions and time of an object. -/
def mayDirect (caller : Caller) (object : VolumeObject) : Bool :=
  !object.isFrozen && caller.owns object

def mayFlag (caller : Caller) (object : VolumeObject) (current updated : UInt32) : Bool :=
  caller.owns object &&
    (caller.isSuperuser || (current ^^^ updated) &&& Flags.Ioctl.immutableClass == 0)

/-- A change that is refused for frozen objects and for those of others. -/
theorem direct_cases {answer : Except Errno (Unit × Volume)}
    (h : answer = if object.isFrozen ∨ !caller.owns object then .error .eperm
      else .ok ((), volume.put number changed)) :
    answer = .ok ((), volume.put number (if caller.mayDirect object then changed else object)) ∨
      (if caller.mayDirect object then changed else object) = object ∧
        ∃ errno, answer = .error errno := by
  cases hmay : caller.mayDirect object with
  | true =>
    simp only [mayDirect, Bool.and_eq_true, Bool.not_eq_true'] at hmay
    exact .inl (by simp [h, hmay.1, hmay.2])
  | false =>
    refine .inr ⟨rfl, .eperm, ?_⟩
    rw [mayDirect, Bool.and_eq_false_iff] at hmay
    rcases hmay with hmay | hmay
    · rw [Bool.not_eq_false'] at hmay
      simp [h, hmay]
    · simp [h, hmay]

variable (hfind : caller.find volume false path = .ok (number, object))

include hfind

/-- A call for the owner gives an object what the caller may give it, and is refused only if that is
nothing. -/
theorem changeOwner_cases (uid gid : UInt32) :
    caller.changeOwner path uid gid volume =
        .ok ((), volume.put number (caller.given uid gid object)) ∨
      caller.given uid gid object = object ∧
        ∃ errno, caller.changeOwner path uid gid volume = .error errno := by
  simp only [changeOwner, hfind, bind, Except.bind, pure, Except.pure, given]
  cases hmay : caller.mayGive uid gid object with
  | true =>
    simp only [mayGive, Bool.and_eq_true, Bool.not_eq_true'] at hmay
    exact .inl (by simp [hmay.1.1, hmay.1.2, hmay.2])
  | false =>
    refine .inr ⟨rfl, .eperm, ?_⟩
    cases hfrozen : object.isFrozen with
    | true => simp
    | false =>
      rw [mayGive, hfrozen, Bool.not_false, Bool.true_and, Bool.and_eq_false_iff] at hmay
      rcases hmay with hmay | hmay <;> simp [hmay]

/-- A call for the time does what the caller may do, and is refused only if that is nothing. -/
theorem changeTime_cases (time : Int64) :
    caller.changeTime path time volume = .ok ((), volume.put number
        (if caller.mayDirect object then { object with modTime := time } else object)) ∨
      (if caller.mayDirect object then { object with modTime := time } else object) = object ∧
        ∃ errno, caller.changeTime path time volume = .error errno := by
  refine direct_cases ?_
  simp only [changeTime, hfind, bind, Except.bind, pure, Except.pure]

/-- A call for the permissions of a file does what the caller may do, and is refused only if that is
nothing. -/
theorem changePermissions_cases (hfile : object.IsFile) (permissions : UInt32) :
    caller.changePermissions path permissions volume = .ok ((), volume.put number
        (if caller.mayDirect object then
          { object with permissions := caller.admitted object permissions } else object)) ∨
      (if caller.mayDirect object then
          { object with permissions := caller.admitted object permissions } else object) = object ∧
        ∃ errno, caller.changePermissions path permissions volume = .error errno := by
  obtain ⟨content, hcontent⟩ := hfile
  obtain ⟨hresolve, hobject⟩ := find_eq_ok_iff.1 hfind
  have hfollowed : caller.find volume true path = .ok (number, object) := by
    refine find_eq_ok_iff.2 ⟨resolve_true hresolve ?_, hobject⟩
    rw [hobject, Option.bind_some]
    exact Restore.target?_eq_none (by simp [hcontent])
  refine direct_cases ?_
  simp only [changePermissions, hfollowed, bind, Except.bind, pure, Except.pure, admitted]

/-- A file is opened for its flag word if it can be read. -/
theorem openForFlags_eq (hnul : Bytes.nul ∉ path) (hfile : object.IsFile) :
    (caller.snapshot volume).openForFlags path false =
      if caller.may .read object then .ok ⟨number⟩ else .error (.os .eacces) := by
  obtain ⟨content, hcontent⟩ := hfile
  simp only [Snapshot.openForFlags, snapshot, withoutNul, if_neg hnul, openObject, hfind, bind,
    Except.bind, hcontent]
  cases caller.may .read object <;> cases caller.owns object <;> rfl

omit hfind in
/-- A flag word is replaced if the caller may do so, and otherwise refused. -/
theorem setFlagWord_eq {current : UInt32} (hobject : volume.object? number = some object)
    (hcurrent : object.flagWord = some current) (word : UInt32) :
    caller.setFlagWord ⟨number⟩ word volume = if caller.mayFlag object current word then
      .ok ((), volume.put number { object with flagWord := some word }) else .error .eperm := by
  simp only [setFlagWord, hobject, hcurrent, mayFlag]
  by_cases howns : caller.owns object = true
  · by_cases hsuper : caller.isSuperuser = true
    · simp [howns, hsuper]
    · by_cases hblocking : (current ^^^ word) &&& Flags.Ioctl.immutableClass = 0 <;>
        simp [howns, hsuper, hblocking]
  · simp [howns]

end Caller

namespace Restore

/-- Who finishes objects, and how. -/
structure Finisher where
  caller : Caller
  privilege : Privilege
  restorer : FlagRestorer
  options : RestoreOptions

/-- Entries that lead to one regular file. -/
structure AreNames (caller : Caller) (root : Path) (volume : Volume) (entries : List Entry)
    (number : Nat) (object : VolumeObject) : Prop where
  isFile : object.IsFile
  kind_eq : ∀ entry ∈ entries, entry.kind = .regular
  nul_notMem : ∀ entry ∈ entries, Bytes.nul ∉ entry.fullPath root
  find_eq : ∀ entry ∈ entries,
    caller.find volume false (entry.fullPath root) = .ok (number, object)

namespace Finisher

/-- The owner and group of an entry, where they are restored. -/
def owner? (finisher : Finisher) (entry : Entry) : Option (UInt32 × UInt32) :=
  if finisher.options.owner = false ∨ entry.uid = Entry.unknownId ∨ entry.gid = Entry.unknownId then
    none
  else
    match Ownership.idOf? entry.uid, Ownership.idOf? entry.gid with
    | some uid, some gid => some (uid, gid)
    | _, _ => none

def owned (finisher : Finisher) (entry : Entry) (object : VolumeObject) : VolumeObject :=
  match finisher.owner? entry with
  | none => object
  | some (uid, gid) =>
    if (object.uid.toUInt64.toInt64, object.gid.toUInt64.toInt64) = (entry.uid, entry.gid) then object
    else finisher.caller.given uid gid object

def attributed (finisher : Finisher) (entry : Entry) (object : VolumeObject) : VolumeObject :=
  { object with
    attributes := NativeAttributes.left finisher.privilege
      (finisher.caller.attributeRights object) (entry.attributes.getD .empty) object.attributes }

def permitted (finisher : Finisher) (entry : Entry) (object : VolumeObject) : VolumeObject :=
  if finisher.caller.mayDirect object then
    { object with permissions := finisher.caller.admitted object entry.permissions }
  else object

def timed (finisher : Finisher) (entry : Entry) (object : VolumeObject) : VolumeObject :=
  if finisher.caller.mayDirect object then { object with modTime := entry.modTime } else object

def flagged (finisher : Finisher) (entry : Entry) (object : VolumeObject) : VolumeObject :=
  match entry.flags, object.flagWord with
  | some stored, some current =>
    let updated := Flags.merge current stored
      (finisher.restorer.effectiveBits .late finisher.options.flagMask)
    if finisher.restorer.family = .ioctl ∧ finisher.caller.may .read object = true ∧
      finisher.caller.mayFlag object current updated = true then
      { object with flagWord := some updated }
    else object
  | _, _ => object

/-- A file when it is finished. -/
def finished (finisher : Finisher) (entry : Entry) (object : VolumeObject) : VolumeObject :=
  finisher.flagged entry
    (finisher.timed entry
      (finisher.permitted entry (finisher.attributed entry (finisher.owned entry object))))

variable (finisher : Finisher)

@[simp] theorem body_owned (entry : Entry) (object : VolumeObject) :
    (finisher.owned entry object).body = object.body := by
  unfold owned Caller.given
  repeat' split
  all_goals rfl

@[simp] theorem body_permitted (entry : Entry) (object : VolumeObject) :
    (finisher.permitted entry object).body = object.body := by
  unfold permitted
  split <;> rfl

@[simp] theorem body_timed (entry : Entry) (object : VolumeObject) :
    (finisher.timed entry object).body = object.body := by
  unfold timed
  split <;> rfl

@[simp] theorem body_flagged (entry : Entry) (object : VolumeObject) :
    (finisher.flagged entry object).body = object.body := by
  unfold flagged
  dsimp only
  repeat' split
  all_goals rfl

@[simp] theorem body_finished (entry : Entry) (object : VolumeObject) :
    (finisher.finished entry object).body = object.body := by
  simp [finished, attributed]

/-- A file keeps its word where nothing of a stored word may be applied. -/
theorem flagged_eq_self {entry : Entry} {object : VolumeObject}
    (h : finisher.restorer.family = .ioctl → finisher.caller.may .read object = true →
      finisher.restorer.effectiveBits .late finisher.options.flagMask = 0) :
    finisher.flagged entry object = object := by
  unfold flagged
  split
  · next stored current hstored hcurrent =>
    dsimp only
    split
    · next happlies =>
      rw [h happlies.1 happlies.2.1]
      simp [Flags.merge, ← hcurrent]
    · rfl
  · rfl

/-! ## Steps -/

/-- Replacing the flag word of an open file makes the file into what it is after the late phase. -/
theorem writes_restoreOpened {volume : Volume} {number : Nat} {stored : UInt32}
    (hstored : entry.flags = some stored) (hfamily : finisher.restorer.family = .ioctl)
    (hread : finisher.caller.may .read object = true)
    (hobject : volume.object? number = some object) :
    volume.Writes number (finisher.flagged entry object)
      ((FlagRestorer.restoreOpened finisher.caller.system ⟨number⟩ path stored
        (finisher.restorer.effectiveBits .late finisher.options.flagMask)).run volume).state := by
  have hsame := Volume.Writes.refl hobject
  have hview : (finisher.caller.system.view volume).flagWord ⟨number⟩ =
      (Caller.flagWord volume ⟨number⟩).mapError .os := rfl
  unfold flagged FlagRestorer.restoreOpened
  simp only [hstored, hfamily, hread, true_and, Task.run_bind, Task.run_inspect, hview,
    Caller.flagWord, hobject, Option.bind_some]
  cases hcurrent : object.flagWord with
  | none => exact hsame
  | some current =>
    simp only [Except.mapError]
    generalize Flags.merge current stored _ = updated
    by_cases hkept : updated = current
    · -- The word is as it was, so it does not matter whether it may be replaced.
      have hobjectEq : { object with flagWord := some updated } = object := by
        rw [hkept, ← hcurrent]
      rw [if_pos hkept, hobjectEq, ite_self]
      exact hsame
    · have hset : finisher.caller.setFlagWord ⟨number⟩ updated volume = _ :=
        Caller.setFlagWord_eq hobject hcurrent updated
      simp only [if_neg hkept, Task.run_bind, Task.run_perform, Caller.system, Caller.call, hset]
      by_cases hmay : finisher.caller.mayFlag object current updated = true
      · simp only [hmay, if_true]
        exact hsame.put _
      · simp only [hmay, if_false, Bool.false_eq_true]
        exact hsame

section Steps

variable (hnul : Bytes.nul ∉ path) (hfile : object.IsFile)

include hnul hfile

/-- The step for the owner makes of a file what the finisher owns of it. -/
theorem rewrites_owner (number : Nat) : finisher.caller.Rewrites path object
    (finisher.owned entry object) (finishOwner finisher.caller.system path entry
      (volume.statOf number object) finisher.options) := by
  unfold finishOwner owned owner? Ownership.restore
  by_cases hskip : finisher.options.owner = false ∨ entry.uid = Entry.unknownId ∨
      entry.gid = Entry.unknownId
  · rw [if_pos hskip]
    refine Caller.rewrites_of_state_eq fun state => ?_
    rcases hskip with howner | hunknown
    · rw [if_neg (by simp [howner])]
      rfl
    · rw [if_pos hunknown]
      split <;> rfl
  · rw [if_neg hskip]
    simp only [not_or, Bool.not_eq_false] at hskip
    obtain ⟨howner, huid, hgid⟩ := hskip
    rw [if_pos howner, if_neg (not_or.2 ⟨huid, hgid⟩)]
    cases Ownership.idOf? entry.uid with
    | none => exact Caller.rewrites_of_state_eq fun state => by split <;> rfl
    | some uid =>
      cases Ownership.idOf? entry.gid with
      | none => exact Caller.rewrites_of_state_eq fun state => by split <;> rfl
      | some gid =>
        by_cases hsame : (object.uid.toUInt64.toInt64, object.gid.toUInt64.toInt64) =
          (entry.uid, entry.gid)
        · simp only [if_pos hsame]
          rw [if_pos (show (volume.statOf number object).owner = _ from hsame)]
          exact Caller.rewrites_of_state_eq fun state => rfl
        · simp only [if_neg hsame]
          rw [if_neg (show ¬ (volume.statOf number object).owner = _ from hsame)]
          refine Caller.Rewrites.bind (Caller.rewrites_perform Caller.nulInPath hnul
            fun volume number hfind => Caller.changeOwner_cases hfind uid gid) hfile ?_
            fun answer => ?_
          · exact Caller.body_given _ _ _ _
          · cases answer with
            | ok => exact Caller.rewrites_of_state_eq fun state => rfl
            | error error => exact Caller.rewrites_of_state_eq fun state => rfl

/-- The step for the attributes leaves a file with the attributes that the rights of the caller
leave. -/
theorem rewrites_attributes (hkind : entry.kind = .regular) : finisher.caller.Rewrites path object
    (finisher.attributed entry object)
    (syncAttributes (NativeAttributes.provider finisher.privilege finisher.caller.system) entry
      path) := by
  intro volume number hfind
  have hobject := (Caller.find_eq_ok_iff.1 hfind).2
  have hmaintains : Task.Maintains
      (fun state => ∃ attributes, volume.Writes number { object with attributes } state)
      (syncAttributes (NativeAttributes.provider finisher.privilege finisher.caller.system) entry
        path) :=
    maintains_writes (fun h => h.find_file hfile rfl hfind) finisher.privilege
  obtain ⟨attributes, hwrites⟩ := hmaintains volume
    ⟨object.attributes, Volume.Writes.refl hobject⟩
  -- What is written is the map that the calls leave.
  have hpermitted : Caller.HoldsPermitted object := by
    intro hword
    rw [hfile.kind_eq] at hword
    cases hword
  obtain ⟨_, -, -, hsynced⟩ := Course.synced_run (NativeAttributes.serves
    (finisher.caller.givesMap hnul number object) finisher.privilege)
    ⟨object.attributes, hfind, hpermitted⟩ entry
  rw [Caller.attributesOf_of_find hfind,
    Caller.attributesOf_of_find (hwrites.find_file hfile rfl hfind)] at hsynced
  have hleft := NativeAttributes.left_of_synced (by rw [hkind]; rfl) rfl hsynced
  rw [attributed, ← hleft]
  exact hwrites

/-- The step for the permissions gives a file those that are admitted. -/
theorem rewrites_permissions (hkind : entry.kind = .regular) : finisher.caller.Rewrites path object
    (finisher.permitted entry object) (restorePermissions finisher.caller.system path entry) := by
  unfold restorePermissions
  rw [if_neg (show ¬ entry.kind = .symlink by simp [hkind])]
  refine Caller.Rewrites.bind (Caller.rewrites_perform Caller.nulInName hnul
    fun volume number hfind => Caller.changePermissions_cases hfind hfile entry.permissions) hfile
    (finisher.body_permitted entry object) fun answer => ?_
  cases answer with
  | ok => exact Caller.rewrites_of_state_eq fun state => rfl
  | error error => exact Caller.rewrites_of_state_eq fun state => rfl

/-- The step for the time gives a file the time of the entry if the caller may direct it. -/
theorem rewrites_time : finisher.caller.Rewrites path object (finisher.timed entry object)
    (restoreTime finisher.caller.system path entry) := by
  unfold restoreTime
  refine Caller.Rewrites.bind (Caller.rewrites_perform Caller.nulInName hnul
    fun volume number hfind => Caller.changeTime_cases hfind entry.modTime) hfile
    (finisher.body_timed entry object) fun answer => ?_
  cases answer with
  | ok => exact Caller.rewrites_of_state_eq fun state => rfl
  | error error => exact Caller.rewrites_of_state_eq fun state => rfl

/-- The step for the flags gives a file the merged word if the caller may set it. -/
theorem rewrites_flags (hkind : entry.kind = .regular) : finisher.caller.Rewrites path object
    (finisher.flagged entry object) (finisher.restorer.restore finisher.caller.system .late entry
      (.named path) finisher.options.flagMask) := by
  intro volume number hfind
  have hobject := (Caller.find_eq_ok_iff.1 hfind).2
  have hsame := Volume.Writes.refl hobject
  unfold FlagRestorer.restore
  cases hstored : entry.flags with
  | none =>
    rw [flagged, hstored]
    exact hsame
  | some stored =>
    dsimp only
    split
    · next hskip =>
      rw [finisher.flagged_eq_self]
      · exact hsame
      · intro hfamily hread
        rcases hskip with hskip | hskip | hskip | hskip
        · simp only [FlagMask.isNone, beq_iff_eq] at hskip
          simp [FlagRestorer.effectiveBits, FlagPhase.effectiveBits, hskip]
        · exact hskip
        · exact absurd hfamily hskip
        · simp [hkind, FileKind.hasFlagWord] at hskip
    · next happlies =>
      simp only [not_or, ne_eq, Decidable.not_not] at happlies
      have hopen := Caller.openForFlags_eq hfind hnul hfile
      have hdirectory : (decide (FlagPhase.late = .earlyDirectory) ||
        decide (entry.kind = .directory)) = false := by simp [hkind]
      simp only [Task.run_bind, Task.run_inspect, Caller.system, hdirectory, hopen]
      by_cases hread : finisher.caller.may .read object = true
      · rw [if_pos hread]
        exact finisher.writes_restoreOpened hstored happlies.2.2.1 hread hobject
      · rw [if_neg hread, finisher.flagged_eq_self fun _ h => absurd h hread]
        exact hsame

/-! ## Finishing -/

/-- All steps together make of a file what its finisher makes of it. -/
theorem rewrites_finishFound (hkind : entry.kind = .regular) (number : Nat) :
    finisher.caller.Rewrites path object (finisher.finished entry object)
      (finishFound finisher.caller.system path entry
        (NativeAttributes.provider finisher.privilege finisher.caller.system) finisher.restorer
        finisher.options (volume.statOf number object)) := by
  have hfiles : ∀ {changed : VolumeObject}, changed.body = object.body → changed.IsFile :=
    hfile.of_body_eq
  refine (finisher.rewrites_owner hnul hfile number).bind hfile (by simp) fun _ => ?_
  refine (finisher.rewrites_attributes hnul (hfiles (by simp)) hkind).bind (hfiles (by simp))
    (by simp [attributed]) fun _ => ?_
  refine (finisher.rewrites_permissions hnul (hfiles (by simp [attributed])) hkind).bind
    (hfiles (by simp [attributed])) (by simp) fun _ => ?_
  refine (finisher.rewrites_time hnul (hfiles (by simp [attributed]))).bind
    (hfiles (by simp [attributed])) (by simp) fun _ => ?_
  exact (finisher.rewrites_flags hnul (hfiles (by simp [attributed])) hkind).bind
    (hfiles (by simp [attributed])) (by simp) fun _ => Caller.rewrites_of_state_eq fun _ => rfl

end Steps

/-- Finishing an entry makes a file into what it is when it is finished. -/
theorem rewrites_finish (hnul : Bytes.nul ∉ entry.fullPath root) (hfile : object.IsFile)
    (hkind : entry.kind = .regular) :
    finisher.caller.Rewrites (entry.fullPath root) object (finisher.finished entry object)
      (finish finisher.caller.system root entry
        (NativeAttributes.provider finisher.privilege finisher.caller.system) finisher.restorer
        finisher.options) := by
  intro volume number hfind
  have hlstat : (finisher.caller.system.view volume).lstat (entry.fullPath root) =
    .ok (volume.statOf number object) := Caller.lstat_of_find hnul hfind
  rw [finish_eq, Task.run_bind, Task.run_inspect]
  simp only [hlstat]
  exact finisher.rewrites_finishFound hnul hfile hkind number volume number hfind

/-- Finishing several names of a file makes of it what they make of it one after the other. -/
theorem writes_finishAll {order : List Entry} (hobject : volume.object? number = some object)
    (hnames : AreNames finisher.caller root volume order number object) :
    volume.Writes number (order.foldr finisher.finished object)
      ((finishAll finisher.caller.system root
        (NativeAttributes.provider finisher.privilege finisher.caller.system) finisher.restorer
        finisher.options order).run volume).state := by
  have hbody : ∀ done : List Entry,
      (done.foldl (fun object entry => finisher.finished entry object) object).body =
        object.body := by
    intro done
    induction done using List.reverseRecOn with
    | nil => rfl
    | append_singleton done entry ih => rw [List.foldl_concat, body_finished, ih]
  suffices hall : Task.Ensures (volume.Writes number object)
      (finishAll finisher.caller.system root
        (NativeAttributes.provider finisher.privilege finisher.caller.system) finisher.restorer
        finisher.options order)
      fun values state => (∀ value ∈ values, True) → volume.Writes number
        (order.reverse.foldl (fun object entry => finisher.finished entry object) object) state by
    have hlast := hall volume (.refl hobject) fun _ _ => trivial
    rwa [List.foldl_reverse] at hlast
  refine @Task.ensures_mapM _ _ _ (fun done state => volume.Writes number
    (done.foldl (fun object entry => finisher.finished entry object) object) state) _
    (fun _ => True) _ fun done entry back hsplit state hstate _ => ?_
  have hentry : entry ∈ order := by
    rw [← List.mem_reverse, hsplit]
    simp
  have hfound := hstate.find_file hnames.isFile (hbody done) (hnames.find_eq entry hentry)
  rw [Task.run_bind, Task.run_pure, List.foldl_concat]
  exact hstate.trans (finisher.rewrites_finish (hnames.nul_notMem entry hentry)
    (hnames.isFile.of_body_eq (hbody done)) (hnames.kind_eq entry hentry) _ _ hfound)

end Finisher

end Restore

end TreeManifest
