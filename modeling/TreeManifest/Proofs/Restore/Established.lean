import TreeManifest.Proofs.Restore.Failures
import TreeManifest.Proofs.Volume.Walked

/-!
# What a finished object has

The steps of finishing disturb one another. A change of ownership takes setuid and setgid away, so
the permissions come after it, and nothing that comes after the time may move it. In the order in
which they are made, a finish by the superuser that reports nothing amiss has established the whole
entry, whatever the object was like before. Setting a time outside the range of the volume succeeds
as well, and establishes the nearest time in that range.

## Main definitions

- `Restore.Established`: an object has what an entry says.

## Main statements

- `Restore.finish_establishes`: a finish that succeeds has established the entry.
-/

namespace TreeManifest

namespace Caller

variable {caller : Caller} {volume : Volume} {path : Path} {number : Nat} {object : VolumeObject}

theorem admitted_of_isSuperuser (hsuper : caller.isSuperuser = true) (object : VolumeObject)
    (permissions : UInt32) :
    caller.admitted object permissions = permissions &&& FileKind.permissionMask := by
  simp [admitted, hsuper]

/-- The names of an object that a caller finds can be listed. -/
theorem exists_list (privilege : Privilege) (hnul : Bytes.nul ∉ path)
    (hfind : caller.find volume false path = .ok (number, object)) : ∃ names,
    (((NativeAttributes.provider privilege caller.system).list path).run volume).value =
      .ok names := by
  have hlabels : (caller.system.view volume).attributeNames path =
      .ok ((object.attributes.keys.filter fun name => caller.sees (.ofName name)).map .text) := by
    show (caller.snapshot volume).attributeNames path = _
    simp only [snapshot, withoutNul, if_neg hnul, attributeNames, hfind, bind, Except.bind]
    rfl
  rw [(NativeAttributes.run_list privilege caller.system path volume).1, hlabels]
  exact ⟨_, rfl⟩

/-- The superuser finds an object again after any change of metadata. -/
theorem exists_find_of_sameBodies {after : Volume} (hsuper : caller.isSuperuser = true)
    (h : after.SameBodies volume) (hfind : caller.find volume false path = .ok (number, object)) :
    ∃ other, caller.find after false path = .ok (number, other) := by
  obtain ⟨hresolve, hobject⟩ := find_eq_ok_iff.1 hfind
  have hagree : after.Agree (·.body) volume := h
  obtain ⟨other, hother, -⟩ := hagree.exists_object hobject
  exact ⟨other, find_eq_ok_iff.2 ⟨resolve_sameBodies hsuper h.symm hresolve, hother⟩⟩

/-- No attribute changes which times a volume can hold. -/
theorem maintains_times (caller : Caller) (privilege : Privilege) (times : TimeRange)
    (entry : Entry) (path : Path) : Task.Maintains (fun volume => volume.times = times)
      (syncAttributes (NativeAttributes.provider privilege caller.system) entry path) := by
  have hcall : ∀ {volume : Volume} {change : Change Unit}, volume.times = times →
      (∀ {after}, change volume = .ok ((), after) → after.times = volume.times) →
        (pathCall (.os .einval) path change volume).2.times = times := by
    intro volume change htimes hchange
    exact ((obeys_pathCall (.os .einval) path change).times_eq hchange).trans htimes
  refine maintains_syncAttributes (fun volume htimes => ?_) (fun _ _ htimes => htimes)
    (fun name value => NativeAttributes.maintains_change (fun volume htimes => ?_) _ _ _)
    (fun name => NativeAttributes.maintains_change (fun volume htimes => ?_) _ _ _) entry
  · rw [(NativeAttributes.run_list privilege caller.system path volume).2]
    exact htimes
  · refine hcall htimes fun hset => ?_
    obtain ⟨number, object, -, rfl⟩ := put_of_setAttribute hset
    rfl
  · refine hcall htimes fun hremove => ?_
    obtain ⟨number, object, -, rfl⟩ := put_of_removeAttribute hremove
    rfl

end Caller

namespace Restore

/-- An object has what an entry says of its metadata. Attributes are those that all privileges
permit, and a symlink has permissions of its own. The time is that of the entry if it is one of
those that the volume can hold, and the nearest of them otherwise. -/
structure Established (times : TimeRange) (entry : Entry) (stat : Stat)
    (attributes : AttributeMap) : Prop where
  owner : entry.uid ≠ Entry.unknownId → entry.gid ≠ Entry.unknownId →
    stat.owner = (entry.uid, entry.gid)
  permissions : entry.kind ≠ .symlink → stat.mode &&& FileKind.permissionMask = entry.permissions
  modTime : times.Holds entry.modTime → stat.modTime = entry.modTime
  modTime_clamp : stat.modTime = times.clamp entry.modTime
  attributes : entry.kind.carriesAttributes = true →
    attributes.filter (NativeAttributes.isPermitted .privileged) = entry.attributes.getD .empty

variable {caller : Caller} {root path : Path} {entry : Entry} {volume after : Volume}
  {provider : AttributeProvider Volume} {restorer : FlagRestorer} {options : RestoreOptions}
  {number : Nat} {object last : VolumeObject} {steps : Finishing Volume}

/-- Where the first step succeeds, owner and group are those of the entry if both are known. -/
theorem owner_of_effects
    (h : steps.Attempts caller.system path entry provider restorer options
      (volume.statOf number object) volume)
    (heffects : steps.Effects caller.system caller id path entry provider options volume number
      object last)
    (howner : options.owner = true) (hrestored : steps.owner.value = true)
    (huid : Ownership.IsStorable entry.uid) (hgid : Ownership.IsStorable entry.gid)
    (huidKnown : entry.uid ≠ Entry.unknownId) (hgidKnown : entry.gid ≠ Entry.unknownId) :
    (after.statOf number last).owner = (entry.uid, entry.gid) := by
  by_cases hdiffers : Differs entry (volume.statOf number object)
  · obtain ⟨uid, huidOf, huidEq, huidKeep⟩ := huid.exists_idOf? huidKnown
    obtain ⟨gid, hgidOf, hgidEq, hgidKeep⟩ := hgid.exists_idOf? hgidKnown
    have hworks : (caller.system.changeOwner path uid gid volume).1 = .ok () := by
      have hanswer := (h.owner howner hdiffers uid gid huidOf hgidOf).1
      rw [hrestored] at hanswer
      generalize (caller.system.changeOwner path uid gid volume).1 = answer at hanswer
      cases answer with
      | ok => rfl
      | error => cases hanswer
    obtain ⟨hlastUid, hlastGid⟩ := heffects.owner uid gid howner hdiffers huidOf hgidOf hworks
    rw [if_neg (show ¬ uid = Caller.keepId from huidKeep)] at hlastUid
    rw [if_neg (show ¬ gid = Caller.keepId from hgidKeep)] at hlastGid
    rw [← huidEq, ← hgidEq, ← hlastUid, ← hlastGid]
    rfl
  · -- What does not differ has the owner and the group already.
    obtain ⟨hlastUid, hlastGid⟩ := heffects.owner_kept (.inr hdiffers)
    have hsame : (volume.statOf number object).owner = (entry.uid, entry.gid) :=
      not_not.1 fun hother => hdiffers ⟨huidKnown, hgidKnown, hother⟩
    rw [← hsame]
    show (last.uid.toUInt64.toInt64, last.gid.toUInt64.toInt64) = _
    rw [hlastUid, hlastGid]
    rfl

/-- Permissions that the superuser sets are kept to the last bit. -/
theorem permissions_of_effects
    (heffects : steps.Effects caller.system caller id path entry provider options volume number
      object last)
    (hsuper : caller.isSuperuser = true) (hlast : steps.flags.state.object? number = some last)
    (hvalue : steps.permissions.value = .ok ()) (hlink : object.kind ≠ .symlink)
    (hkind : entry.kind ≠ .symlink) :
    (after.statOf number last).mode &&& FileKind.permissionMask = entry.permissions := by
  obtain ⟨reached, changed, -, hreached, hchanged, hadmitted⟩ :=
    heffects.permissions hkind hvalue
  obtain rfl := hreached hlink
  obtain rfl : changed = last := Option.some.inj (hchanged.symm.trans hlast)
  rw [Caller.admitted_of_isSuperuser hsuper, entry.permissions_and_permissionMask] at hadmitted
  show (changed.kind.typeBits ||| changed.permissions) &&& FileKind.permissionMask = _
  rw [hadmitted]
  exact FileKind.permissions_or _ entry.permissions_and_permissionMask

/-- Attributes that the superuser restores without skipping one are those of the entry. -/
theorem attributes_of_effects
    (h : steps.Attempts caller.system path entry
      (NativeAttributes.provider .privileged caller.system) restorer options
      (volume.statOf number object) volume)
    (heffects : steps.Effects caller.system caller id path entry
      (NativeAttributes.provider .privileged caller.system) options volume number object last)
    (hsuper : caller.isSuperuser = true) (hnul : Bytes.nul ∉ path)
    (hfind : caller.find volume false path = .ok (number, object))
    (hlast : steps.flags.state.object? number = some last)
    (hpermitted : ∀ name ∈ (entry.attributes.getD .empty).keys,
      NativeAttributes.isPermitted .privileged name = true)
    (hcarries : entry.kind.carriesAttributes = true) {sync : AttributeSync}
    (hvalue : steps.attributes.value = .ok sync) (hskipped : sync.skipped = 0) :
    last.attributes.filter (NativeAttributes.isPermitted .privileged) =
      entry.attributes.getD .empty := by
  have hbodies : steps.owner.state.SameBodies volume :=
    h.agree_owner caller.obeys_system fun _ _ _ _ => rfl
  obtain ⟨other, hother⟩ := Caller.exists_find_of_sameBodies hsuper hbodies hfind
  obtain ⟨names, hnames⟩ := Caller.exists_list .privileged hnul hother
  have hget := heffects.attributes (caller.truthful_native .privileged path number other)
    (caller.obeys_system.leavesAlone_attributesOf number) ⟨other.attributes, hother⟩ hcarries
    hnames hvalue hskipped
  refine AttributeMap.ext_get? fun name => ?_
  rw [AttributeMap.get?_filter]
  split
  · next hname =>
    rw [← hget name (by rw [hname, Caller.sees_of_isSuperuser hsuper]; rfl)]
    show _ = (Caller.attributesOf number steps.flags.state).get? name
    rw [Caller.attributesOf, hlast]
    rfl
  · next hname =>
    cases hwanted : (entry.attributes.getD .empty).get? name with
    | none => rfl
    | some value =>
      refine absurd (hpermitted name (AttributeMap.contains_iff.1 ?_)) hname
      rw [AttributeMap.contains, hwanted]
      rfl

/-- No step changes which times the volume can hold. -/
theorem times_of_attempts {privilege : Privilege} {stat : Stat}
    (h : steps.Attempts caller.system path entry
      (NativeAttributes.provider privilege caller.system) restorer options stat volume) :
    steps.flags.state.times = volume.times := by
  have howner : steps.owner.state.times = volume.times := by
    rcases h.owner_cases with hsame | ⟨uid, gid, hcall⟩
    · rw [hsame]
    · rw [hcall]
      exact caller.obeys_system.times_changeOwner path uid gid
  have hattributes : steps.attributes.state.times = volume.times := by
    rw [h.attributes]
    exact caller.maintains_times privilege volume.times entry path _ howner
  exact (h.held_flags caller.obeys_system.leavesAlone_times).trans hattributes

/-- When the superuser finishes an object of the kind of the entry, restores the owner, reports no
failure and skips no attribute, the object has the owner, the permissions with setuid, setgid and
sticky, the time as far as the volume can hold it and the attributes of the entry, whatever it had
before. -/
theorem finish_establishes {report : FinishReport} (hsuper : caller.isSuperuser = true)
    (huid : Ownership.IsStorable entry.uid) (hgid : Ownership.IsStorable entry.gid)
    (hfind : caller.find volume false (entry.fullPath root) = .ok (number, object))
    (hkind : object.kind = entry.kind)
    (hpermitted : ∀ name ∈ (entry.attributes.getD .empty).keys,
      NativeAttributes.isPermitted .privileged name = true)
    (howner : options.owner = true)
    (hvalue : ((finish caller.system root entry
      (NativeAttributes.provider .privileged caller.system) restorer options).run volume).value =
        .ok report)
    (hrestored : report.ownerRestored = true) (hskipped : report.attributes.skipped = 0) :
    let after := ((finish caller.system root entry
      (NativeAttributes.provider .privileged caller.system) restorer options).run volume).state
    ∃ stat last, (caller.system.view after).lstat (entry.fullPath root) = .ok stat ∧
      caller.find after false (entry.fullPath root) = .ok (number, last) ∧
      Established volume.times entry stat last.attributes := by
  intro after
  obtain ⟨stat, hlstat⟩ := exists_lstat_of_finish hvalue
  have hnul := Caller.nul_notMem_of_lstat hlstat
  obtain rfl : stat = volume.statOf number object :=
    Except.ok.inj (hlstat.symm.trans (Caller.lstat_of_find hnul hfind))
  -- The effects of steps on a file are stated for states that show a volume, here by `id`.
  have hattempts := attempts_finishing caller.system (entry.fullPath root) entry
    (NativeAttributes.provider .privileged caller.system) restorer options
    ((id volume).statOf number object) volume
  have hprovider := caller.keepsToAttributes_native .privileged
  obtain ⟨last, hlast, heffects⟩ :=
    hattempts.exists_effects caller.obeys_system hprovider hfind
  have hstate : after = _ := (run_finish _ restorer options hlstat).1
  obtain ⟨howned, hattributes, hpermissions, htime, -⟩ := (value_finish_eq_ok_iff hlstat).1 hvalue
  rw [hrestored] at howned
  rw [hstate]
  obtain ⟨found, hfound⟩ := Caller.exists_find_of_sameBodies hsuper
    (hattempts.sameBodies_flags caller.obeys_system hprovider) hfind
  obtain rfl : found = last :=
    Option.some.inj ((Caller.find_eq_ok_iff.1 hfound).2.symm.trans hlast)
  have hclamp := congrArg₂ TimeRange.clamp (times_of_attempts hattempts) (heffects.time htime)
  refine ⟨_, found, Caller.lstat_of_find hnul hfound, hfound, ?_, ?_,
    fun hheld => hclamp.trans (TimeRange.clamp_of_holds hheld), hclamp, ?_⟩
  · exact owner_of_effects hattempts heffects howner howned.symm huid hgid
  · exact fun hlink => permissions_of_effects heffects hsuper hlast hpermissions
      (hkind ▸ hlink) hlink
  · exact fun hcarries => attributes_of_effects hattempts heffects hsuper hnul hfind hlast
      hpermitted hcarries hattributes hskipped

/-- An entry with setuid and setgid that has an owner, a group and a value of its own. -/
def setuidEntry : Entry :=
  { Entry.new [0x66] 0o106755 with
    uid := 5
    gid := 6
    modTime := 7
    attributes := some (.ofList [("user.b", [2])]) }

/-- The owner changes, and setuid and setgid are there nevertheless. -/
theorem finish_establishes_setuidEntry :
    let done := (finish NativeAttributes.superuser.system [0x2F] setuidEntry
      (NativeAttributes.provider .privileged NativeAttributes.superuser.system)
      ⟨.privileged, .native⟩ {}).run NativeAttributes.oneFile
    (∃ report, done.value = .ok report) ∧
      ∃ stat last, (NativeAttributes.superuser.system.view done.state).lstat [0x2F, 0x66] =
          .ok stat ∧
        NativeAttributes.superuser.find done.state false [0x2F, 0x66] = .ok (1, last) ∧
        stat.owner = (5, 6) ∧ stat.mode &&& FileKind.permissionMask = 0o6755 ∧ stat.modTime = 7 ∧
        last.attributes.filter (NativeAttributes.isPermitted .privileged) =
          .ofList [("user.b", [2])] := by
  have hfile : NativeAttributes.superuser.find NativeAttributes.oneFile false
    (setuidEntry.fullPath [0x2F]) = .ok (1, NativeAttributes.markedFile) := by cbv
  have hvalue : ((finish NativeAttributes.superuser.system [0x2F] setuidEntry
      (NativeAttributes.provider .privileged NativeAttributes.superuser.system)
      ⟨.privileged, .native⟩ {}).run NativeAttributes.oneFile).value =
        .ok { ownerRestored := true, attributes := { written := 1 }, flags := .nothingToDo } := by
    cbv
  obtain ⟨stat, last, hstat, hlast, hestablished⟩ := finish_establishes (by decide) (by decide)
    (by decide) hfile (by decide) (by decide) (by decide) hvalue (by decide) (by decide)
  exact ⟨⟨_, hvalue⟩, stat, last, hstat, hlast, hestablished.owner (by decide) (by decide),
    hestablished.permissions (by decide), hestablished.modTime (by decide),
    hestablished.attributes (by decide)⟩

end Restore

end TreeManifest
