import TreeManifest.Proofs.Attributes.Namespaces
import TreeManifest.Proofs.Restore.Finish
import TreeManifest.Proofs.Volume.Captured

/-!
# What finishing an object achieves

The superuser can change all metadata of an object without a flag word. Finishing sets the owner
before the permissions, of which a change of owner takes some away, and the time last. So an object
carries the metadata of its entry when it is finished, and nothing else is changed.

## Main definitions

- `Volume.Writes`: one object is written, and nothing else.
- `Restore.IsApplicable`: an entry whose metadata any object of its kind can have.
- `Restore.Carries`: an object has the metadata of an entry.

## Main statements

- `Restore.exists_carries_of_finish`: what finishing an object achieves, if it works.
-/

namespace TreeManifest

/-- An object is written, and nothing else changes. -/
structure Volume.Writes (before : Volume) (number : Nat) (object : VolumeObject) (after : Volume) :
    Prop where
  object?_eq : ∀ other, after.object? other =
    if number = other then some object else before.object? other
  next_eq : after.next = before.next
  times_eq : after.times = before.times

variable {caller : Caller} {before middle after volume : Volume} {number : Nat} {path : Path}
  {old object changed : VolumeObject}

theorem VolumeObject.isFrozen_eq_false (h : object.flagWord = none) : object.isFrozen = false := by
  rw [isFrozen, hasFlag, h]
  rfl

namespace Volume.Writes

theorem refl (h : volume.object? number = some object) : volume.Writes number object volume := by
  refine ⟨fun other => ?_, rfl, rfl⟩
  split
  · next hother => rw [← hother, h]
  · rfl

/-- Replacing an object that was just replaced is one replacement. -/
theorem put (h : before.Writes number object middle) (changed : VolumeObject) :
    before.Writes number changed (middle.put number changed) := by
  refine ⟨fun other => ?_, h.next_eq, h.times_eq⟩
  rw [object?_put, h.object?_eq]
  split <;> rfl

/-- Replacing metadata leaves all objects what they are. -/
theorem sameBodies (h : before.Writes number object after) (hold : before.object? number = some old)
    (hbody : object.body = old.body) : before.SameBodies after := by
  intro other
  rw [h.object?_eq]
  split
  · next hother => rw [← hother, hold, Option.map_some, Option.map_some, hbody]
  · rfl

/-- The superuser still finds an object that was written. -/
theorem find (h : before.Writes number object after) (hsuper : caller.isSuperuser = true)
    {followLast : Bool} (hfind : caller.find before followLast path = .ok (number, old))
    (hbody : object.body = old.body) :
    caller.find after followLast path = .ok (number, object) := by
  obtain ⟨hresolve, hold⟩ := Caller.find_eq_ok_iff.1 hfind
  refine Caller.find_eq_ok_iff.2
    ⟨Caller.resolve_sameBodies hsuper (h.sameBodies hold hbody) hresolve, ?_⟩
  rw [h.object?_eq, if_pos rfl]

/-- A volume stays plain when a plain object takes the place of another. -/
theorem isPlain (h : before.Writes number object after) (hplain : before.IsPlain)
    (hold : before.object? number = some old) (hobject : object.IsPlain) : after.IsPlain := by
  refine ⟨fun other hother => ?_, fun {other found} hfound => ?_⟩
  · rw [h.next_eq] at hother
    rw [h.object?_eq, if_neg ((hplain.isFresh.lt hold).trans_le hother).ne]
    exact hplain.isFresh other hother
  · rw [h.object?_eq] at hfound
    split at hfound
    · exact Option.some.inj hfound ▸ hobject
    · exact hplain.object hfound

end Volume.Writes

/-! ## Calls of the superuser -/

namespace Caller

/-- A change that works makes the call on its path work. -/
theorem pathCall_of_eq {α : Type} {change : Change α} {value : α} (refusal : IoError)
    (hnul : Bytes.nul ∉ path) (h : change volume = .ok (value, after)) :
    pathCall refusal path change volume = (.ok value, after) := by
  rw [pathCall, if_neg hnul, call, h]

section Superuser

variable (hsuper : caller.isSuperuser = true) (hflags : object.flagWord = none)

include hsuper hflags

/-- The superuser gives any object without flags away. -/
theorem changeOwner_eq (hfind : caller.find volume false path = .ok (number, object))
    (uid gid : UInt32) : caller.changeOwner path uid gid volume =
      .ok ((), volume.put number { object with
        uid := if uid = keepId then object.uid else uid
        gid := if gid = keepId then object.gid else gid
        permissions := afterOwnerChange object }) := by
  simp [changeOwner, hfind, VolumeObject.isFrozen_eq_false hflags, hsuper, bind, Except.bind, pure,
    Except.pure]

/-- The superuser gives any object without flags all permissions that are asked for. -/
theorem changePermissions_eq (hfind : caller.find volume true path = .ok (number, object))
    (permissions : UInt32) : caller.changePermissions path permissions volume =
      .ok ((), volume.put number
        { object with permissions := permissions &&& FileKind.permissionMask }) := by
  simp [changePermissions, hfind, VolumeObject.isFrozen_eq_false hflags, owns, hsuper, bind,
    Except.bind, pure, Except.pure]

/-- The superuser sets the time of any object without flags. -/
theorem changeTime_eq (hfind : caller.find volume false path = .ok (number, object))
    (time : Int64) : caller.changeTime path time volume =
      .ok ((), volume.put number { object with modTime := time }) := by
  simp [changeTime, hfind, VolumeObject.isFrozen_eq_false hflags, owns, hsuper, bind, Except.bind,
    pure, Except.pure]

/-- The superuser changes every attribute with a proper name. -/
theorem checkChange_eq {name : String} (h : caller.IsChangeable object name) :
    caller.checkChange object name = .ok () := by
  have hmay : caller.may .write object = true := by simp [may, hsuper]
  have hguards : caller.guardsAttributes object = false := by simp [guardsAttributes, owns, hsuper]
  simp only [checkChange, checkAttributeChange, bind, Except.bind, h.nul_notMem, if_false,
    h.checkLength_eq, VolumeObject.isFrozen_eq_false hflags, Bool.false_eq_true, h.checkForm_eq]
  cases hspace : AttributeSpace.ofName name with
  | user => simp [h.hasFlagWord_of_user hspace, hguards, hmay]
  | trusted | security => simp [hsuper]
  | unknown => simp [hmay]

end Superuser

end Caller

namespace Restore

/-- An entry whose metadata any object of its kind can have. -/
structure IsApplicable (caller : Caller) (entry : Entry) : Prop where
  exists_owner : ∃ uid gid, uid ≠ Caller.keepId ∧ gid ≠ Caller.keepId ∧
    entry.uid = uid.toUInt64.toInt64 ∧ entry.gid = gid.toUInt64.toInt64
  flags_eq : entry.flags = none
  permissions_of_symlink : entry.kind = .symlink → entry.permissions = Caller.symlinkPermissions
  attributes_of_not_carries : entry.kind.carriesAttributes = false → entry.attributes = none
  isChangeable : ∀ name, (entry.attributes.getD .empty).contains name = true →
    AttributeName.IsVisible name ∧
      ∀ object : VolumeObject, object.kind = entry.kind → caller.IsChangeable object name

/-- An object has the metadata of an entry. -/
structure Carries (entry : Entry) (object : VolumeObject) : Prop where
  uid_eq : object.uid.toUInt64.toInt64 = entry.uid
  gid_eq : object.gid.toUInt64.toInt64 = entry.gid
  attributes_eq : object.attributes = entry.attributes.getD .empty
  permissions_eq : object.permissions = entry.permissions
  modTime_eq : object.modTime = entry.modTime

/-! ## Writing attributes -/

section Attributes

variable {entry : Entry} (hfound : ∀ {attributes state},
  volume.Writes number { object with attributes } state →
    caller.find state false path = .ok (number, { object with attributes }))

include hfound

/-- A change of the attributes of an object writes it, or nothing at all. -/
theorem exists_writes_of_pathCall {change : Change Unit} (hchange : ∀ {state after},
      change state = .ok ((), after) → ∃ number object attributes,
        caller.find state false path = .ok (number, object) ∧
          after = state.put number { object with attributes })
    {state : Volume}
    (hstate : ∃ attributes, volume.Writes number { object with attributes } state) :
    ∃ attributes, volume.Writes number { object with attributes }
      (Caller.pathCall (.os .einval) path change state).2 := by
  obtain ⟨attributes, hwrites⟩ := hstate
  rcases Caller.pathCall_cases (.os .einval) path change state with
    ⟨-, _, after, hdone, hcall⟩ | ⟨error, hcall⟩
  · rw [hcall]
    obtain ⟨found, held, attributes, hheld, rfl⟩ := hchange hdone
    obtain ⟨rfl, rfl⟩ := Prod.mk.inj (Except.ok.inj (hheld.symm.trans (hfound hwrites)))
    exact ⟨attributes, hwrites.put _⟩
  · rw [hcall]
    exact ⟨attributes, hwrites⟩

/-- A restore of attributes writes at most its object. -/
theorem maintains_writes (privilege : Privilege) : Task.Maintains
    (fun state => ∃ attributes, volume.Writes number { object with attributes } state)
    (syncAttributes (NativeAttributes.provider privilege caller.system) entry path) := by
  refine maintains_syncAttributes (fun state hstate => ?_) (fun name state hstate => hstate)
    (fun name value => NativeAttributes.maintains_change (fun state hstate => ?_) _ _ _)
    (fun name => NativeAttributes.maintains_change (fun state hstate => ?_) _ _ _) entry
  · rw [(NativeAttributes.run_list privilege caller.system path state).2]
    exact hstate
  · refine exists_writes_of_pathCall hfound (fun hdone => ?_) hstate
    obtain ⟨found, held, hheld, hafter⟩ := Caller.put_of_setAttribute hdone
    exact ⟨found, held, _, hheld, hafter⟩
  · refine exists_writes_of_pathCall hfound (fun hdone => ?_) hstate
    obtain ⟨found, held, hheld, hafter⟩ := Caller.put_of_removeAttribute hdone
    exact ⟨found, held, _, hheld, hafter⟩

end Attributes

/-! ## Steps of the superuser -/

section Steps

variable {entry : Entry} (hsuper : caller.isSuperuser = true) (hnul : Bytes.nul ∉ path)
  (hfind : caller.find volume false path = .ok (number, old)) (hbody : object.body = old.body)
  (hflags : object.flagWord = none)

include hsuper hnul hfind

/-- The step for the owner gives the object the ids of the entry, at the cost of some
permissions. -/
theorem ensures_finishOwner (hold : old.flagWord = none) (happlicable : IsApplicable caller entry)
    {options : RestoreOptions} (howner : options.owner = true) :
    Task.Ensures (· = volume)
      (finishOwner caller.system path entry (volume.statOf number old) options)
      fun _ state => ∃ uid gid permissions, uid.toUInt64.toInt64 = entry.uid ∧
        gid.toUInt64.toInt64 = entry.gid ∧
        (permissions = old.permissions ∨ permissions = Caller.afterOwnerChange old) ∧
        volume.Writes number { old with uid, gid, permissions } state := by
  rintro _ rfl
  obtain ⟨uid, gid, huid, hgid, huidEq, hgidEq⟩ := happlicable.exists_owner
  have hobject := (Caller.find_eq_ok_iff.1 hfind).2
  rw [finishOwner, if_pos howner]
  unfold Ownership.restore
  rw [if_neg (by
    rw [huidEq, hgidEq]
    exact not_or.2 ⟨Ownership.toInt64_ne_unknownId uid, Ownership.toInt64_ne_unknownId gid⟩)]
  split
  · next hsame =>
    obtain ⟨hsameUid, hsameGid⟩ := Prod.mk.inj hsame
    exact ⟨old.uid, old.gid, old.permissions, hsameUid, hsameGid, .inl rfl, .refl hobject⟩
  · have hchange := Caller.changeOwner_eq hsuper hold hfind uid gid
    rw [if_neg huid, if_neg hgid] at hchange
    simp only [huidEq, hgidEq, Ownership.idOf?_toInt64, Task.run_bind, Task.run_perform]
    rw [show caller.system.changeOwner path uid gid _ = _ from
      Caller.pathCall_of_eq Caller.nulInPath hnul hchange]
    exact ⟨uid, gid, _, rfl, rfl, .inr rfl, (Volume.Writes.refl hobject).put _⟩

include hbody hflags

/-- The step for the time gives the object the time of the entry and nothing else. -/
theorem ensures_restoreTime : Task.Ensures (volume.Writes number object)
    (restoreTime caller.system path entry)
    fun _ state => volume.Writes number { object with modTime := entry.modTime } state := by
  intro state hstate
  have hchange := Caller.changeTime_eq hsuper hflags (hstate.find hsuper hfind hbody) entry.modTime
  simp only [restoreTime, Task.run_bind, Task.run_perform]
  rw [show caller.system.changeTime path entry.modTime state = _ from
    Caller.pathCall_of_eq Caller.nulInName hnul hchange]
  exact hstate.put _

/-- The step for the permissions gives the object those of the entry, and a symlink has them
already. -/
theorem ensures_restorePermissions (hkind : object.kind = entry.kind)
    (hsymlink : entry.kind = .symlink → object.permissions = entry.permissions) :
    Task.Ensures (volume.Writes number object) (restorePermissions caller.system path entry)
      fun _ state =>
        volume.Writes number { object with permissions := entry.permissions } state := by
  intro state hstate
  unfold restorePermissions
  split
  · next hlink =>
    rw [← hsymlink hlink]
    exact hstate
  · next hlink =>
    have htarget : (volume.object? number).bind (·.target?) = none := by
      rw [(Caller.find_eq_ok_iff.1 hfind).2, Option.bind_some]
      refine Caller.target?_of_kind_ne ?_
      rwa [VolumeObject.kind, ← hbody, ← VolumeObject.kind, hkind]
    have htrue := Caller.find_eq_ok_iff.2
      ⟨Caller.resolve_true (Caller.find_eq_ok_iff.1 hfind).1 htarget,
        (Caller.find_eq_ok_iff.1 hfind).2⟩
    have hchange := Caller.changePermissions_eq hsuper hflags (hstate.find hsuper htrue hbody)
      entry.permissions
    rw [entry.permissions_and_permissionMask] at hchange
    simp only [Task.run_bind, Task.run_perform]
    rw [show caller.system.changePermissions path entry.permissions state = _ from
      Caller.pathCall_of_eq Caller.nulInName hnul hchange]
    exact hstate.put _

/-- An object without attributes gets those of an entry. -/
theorem ensures_syncAttributes (happlicable : IsApplicable caller entry)
    (hkind : object.kind = entry.kind) (hempty : object.attributes = .empty) :
    Task.Ensures (volume.Writes number object)
      (syncAttributes (NativeAttributes.provider .privileged caller.system) entry path)
      fun _ state =>
        volume.Writes number { object with attributes := entry.attributes.getD .empty } state := by
  intro state hstate
  have hfound := hstate.find hsuper hfind hbody
  obtain ⟨attributes, hwrites⟩ : ∃ attributes, volume.Writes number { object with attributes }
      ((syncAttributes (NativeAttributes.provider .privileged caller.system) entry path).run
        state).state :=
    maintains_writes (fun h => h.find hsuper hfind hbody) .privileged state
      ⟨object.attributes, hstate⟩
  -- What is written is the map that the calls leave.
  obtain ⟨_, -, -, hsynced⟩ := Course.synced_run (NativeAttributes.serves
    (caller.givesMap hnul number object) .privileged)
    ⟨object.attributes, hfound, fun _ _ _ => by rw [hempty, AttributeMap.get?_empty]⟩ entry
  rw [Caller.attributesOf_of_find hfound,
    Caller.attributesOf_of_find (hwrites.find hsuper hfind hbody), hempty] at hsynced
  have hattributes : attributes = entry.attributes.getD .empty := by
    refine hsynced.eq_wanted happlicable.attributes_of_not_carries rfl fun name value hwanted => ?_
    obtain ⟨hvisible, hchangeable⟩ := happlicable.isChangeable name
      (by rw [AttributeMap.contains, hwanted]; rfl)
    refine (NativeAttributes.isWorking_changeVerdict hvisible).trans ?_
    show (Caller.refusal (caller.checkChange object name)).isNone = true
    rw [Caller.checkChange_eq hsuper hflags (hchangeable object hkind)]
    rfl
  rw [← hattributes]
  exact hwrites

end Steps

/-! ## Finishing -/

/-- A symlink loses no permission with its owner. -/
theorem permissions_of_symlink_owner (hplain : old.IsPlain) (hkind : old.kind = .symlink) :
    Caller.afterOwnerChange old = old.permissions := by
  have hdirectory : old.isDirectory = false := by simp [VolumeObject.isDirectory, hkind]
  rw [Caller.afterOwnerChange, hdirectory, hplain.permissions_of_symlink hkind]
  rfl

/-- An object without attributes carries the metadata of its entry when it is finished. -/
theorem exists_carries_of_finish {entry : Entry} {root : Path} (hsuper : caller.isSuperuser = true)
    (hplain : volume.IsPlain) (happlicable : IsApplicable caller entry) {options : RestoreOptions}
    (howner : options.owner = true) (restorer : FlagRestorer)
    (hfound : ∀ {number object},
      caller.find volume false (entry.fullPath root) = .ok (number, object) →
        object.kind = entry.kind ∧ object.attributes = .empty)
    (hvalue : ((finish caller.system root entry (NativeAttributes.provider .privileged
      caller.system) restorer options).run volume).value.isOk = true) :
    ∃ number old object, Bytes.nul ∉ entry.fullPath root ∧
      caller.find volume false (entry.fullPath root) = .ok (number, old) ∧
      volume.Writes number object ((finish caller.system root entry (NativeAttributes.provider
        .privileged caller.system) restorer options).run volume).state ∧
      object.body = old.body ∧ object.linkCount = old.linkCount ∧ object.IsPlain ∧
      Carries entry object := by
  rw [finish_eq, Task.run_bind, Task.run_inspect] at hvalue ⊢
  dsimp only at hvalue ⊢
  cases hlstat : (caller.system.view volume).lstat (entry.fullPath root) with
  | error error =>
    rw [hlstat] at hvalue
    cases hvalue
  | ok stat =>
    obtain ⟨number, old, hfind, rfl⟩ := Caller.find_of_lstat hlstat
    have hnul : Bytes.nul ∉ entry.fullPath root := Caller.nul_notMem_of_lstat hlstat
    obtain ⟨hkind, hempty⟩ := hfound hfind
    have hobject := hplain.object (Caller.find_eq_ok_iff.1 hfind).2
    have hflags := hobject.flagWord_eq
    have hsteps : Task.Ensures (· = volume) (finishFound caller.system (entry.fullPath root) entry
        (NativeAttributes.provider .privileged caller.system) restorer options
        (volume.statOf number old)) fun _ state => ∃ object, volume.Writes number object state ∧
          object.body = old.body ∧ object.linkCount = old.linkCount ∧ object.IsPlain ∧
          Carries entry object := by
      refine (ensures_finishOwner hsuper hnul hfind hflags happlicable howner).bind
        fun ownerRestored => ?_
      simp only [Task.ensures_exists, Task.ensures_and]
      intro uid gid permissions huid hgid hpermissions
      have hsymlink : entry.kind = .symlink → permissions = entry.permissions := by
        intro hlink
        have hold := hkind.trans hlink
        rw [happlicable.permissions_of_symlink hlink, ← hobject.permissions_of_symlink hold]
        exact hpermissions.elim id fun h => h.trans (permissions_of_symlink_owner hobject hold)
      refine Task.Ensures.bind
        (ensures_syncAttributes hsuper hnul hfind rfl hflags happlicable hkind hempty)
        fun attributes => ?_
      refine Task.Ensures.bind (ensures_restorePermissions hsuper hnul hfind rfl hflags hkind
        hsymlink) fun permissions => ?_
      refine Task.Ensures.bind (ensures_restoreTime hsuper hnul hfind rfl hflags) fun time => ?_
      rw [FlagRestorer.restore_of_flags_eq_none happlicable.flags_eq]
      refine fun state hwritten => ⟨_, hwritten, rfl, rfl, ⟨hflags, ?_, hobject.isSpecial, ?_⟩,
        huid, hgid, rfl, rfl, rfl⟩
      · exact entry.permissions_and_permissionMask
      · intro hlink
        exact happlicable.permissions_of_symlink (hkind.symm.trans hlink)
    obtain ⟨object, hwritten, hresult⟩ := hsteps volume rfl
    exact ⟨number, old, object, hnul, hfind, hwritten, hresult⟩

end Restore

end TreeManifest
