import TreeManifest.Proofs.Flags.Phases
import TreeManifest.Proofs.Volume.Routes
import TreeManifest.Restore
import TreeManifest.System.Product

/-!
# What finishing an object changes

Finishing reaches an object by its path in five steps. All but the change of permissions leave a
symlink at the end of the path alone, so they only touch the object that the path names. The change
of permissions follows such a symlink, unless the entry itself says that it is one.

## Main definitions

- `Caller.Touches`: at most the metadata of the object that a path names changed.
- `AttributeProvider.NoFollow`: a provider that touches nothing else.
- `Restore.OwnershipEnds`: how the change of ownership ends.

## Main statements

- `Restore.ownershipEnds_restore`: the change of ownership ends in one of these ways.
- `Restore.finish_frame`: what is left alone when an object is finished.
-/

namespace TreeManifest

variable {τ : Type} {caller : Caller} {path : Path}

/-- At most the metadata of the object that a path names changed. A symlink at the end of the path
is not followed. -/
def Caller.Touches (caller : Caller) (path : Path) (before after : Volume) : Prop :=
  after = before ∨ ∃ number, caller.resolve before false path = .ok number ∧
    before.Retouched number after

/-- A provider whose calls touch at most the object that they name. -/
structure AttributeProvider.NoFollow (provider : AttributeProvider (Volume × τ))
    (caller : Caller) : Prop where
  list : ∀ path state, caller.Touches path state.1 ((provider.list path).run state).state.1
  get : ∀ path name state,
    caller.Touches path state.1 ((provider.get path name).run state).state.1
  set : ∀ path name value state,
    caller.Touches path state.1 ((provider.set path name value).run state).state.1
  remove : ∀ path name state,
    caller.Touches path state.1 ((provider.remove path name).run state).state.1

namespace Caller

variable {before after : Volume}

/-! ## Calls -/

/-- Replacing what is known about the object of a path, but not what it is, touches that object
only. -/
theorem touches_of_find {number : Nat} {object changed : VolumeObject}
    (h : caller.find before false path = .ok (number, object)) (hbody : changed.body = object.body) :
    caller.Touches path before (before.put number changed) :=
  .inr ⟨number, (find_eq_ok_iff.1 h).1, Volume.retouched_put (find_eq_ok_iff.1 h).2 hbody⟩

/-- A call on a path touches what its change does, for a refused one changes nothing. -/
theorem touches_pathCall {change : Change Unit} (refusal : IoError)
    (h : ∀ after, change before = .ok ((), after) → caller.Touches path before after) :
    caller.Touches path before (pathCall refusal path change before).2 := by
  rcases pathCall_cases refusal path change before with
    ⟨-, _, after, hchange, hcall⟩ | ⟨error, hcall⟩
  · rw [hcall]
    exact h after hchange
  · rw [hcall]
    exact .inl rfl

/-- A change of owner touches the object that the path names, not the target of a symlink. -/
theorem touches_changeOwner (uid gid : UInt32) :
    caller.Touches path before (caller.system.changeOwner path uid gid before).2 := by
  refine touches_pathCall nulInPath fun after hchange => ?_
  obtain ⟨number, object, hfind, rfl⟩ := put_of_changeOwner hchange
  exact touches_of_find hfind rfl

/-- A change of time touches the object that the path names, not the target of a symlink. -/
theorem touches_changeTime (time : Int64) :
    caller.Touches path before (caller.system.changeTime path time before).2 := by
  refine touches_pathCall nulInName fun after hchange => ?_
  obtain ⟨number, object, hfind, rfl⟩ := put_of_changeTime hchange
  exact touches_of_find hfind rfl

/-- Setting an attribute touches the object that the path names, not the target of a symlink. -/
theorem touches_setAttribute (name : String) (value : Bytes) :
    caller.Touches path before (caller.system.setAttribute path name value before).2 := by
  refine touches_pathCall (.os .einval) fun after hchange => ?_
  obtain ⟨number, object, hfind, rfl⟩ := put_of_setAttribute hchange
  exact touches_of_find hfind rfl

/-- Removing an attribute touches the object that the path names, not the target of a symlink. -/
theorem touches_removeAttribute (name : String) :
    caller.Touches path before (caller.system.removeAttribute path name before).2 := by
  refine touches_pathCall (.os .einval) fun after hchange => ?_
  obtain ⟨number, object, hfind, rfl⟩ := put_of_removeAttribute hchange
  exact touches_of_find hfind rfl

/-- Replacing a flag word touches nothing but the open object. -/
theorem retouched_setFlagWord (handle : Handle) (word : UInt32) :
    before.Retouched handle.number (caller.system.setFlagWord handle word before).2 := by
  rcases call_cases (caller.setFlagWord handle word) before with
    ⟨_, after, hset, hcall⟩ | ⟨error, hcall⟩
  · rw [show caller.system.setFlagWord handle word before = _ from hcall]
    obtain ⟨object, hobject, rfl⟩ := put_of_setFlagWord hset
    exact Volume.retouched_put hobject rfl
  · rw [show caller.system.setFlagWord handle word before = _ from hcall]
    exact .refl before handle.number

/-- A change of a flag word touches the object for which the handle was opened. -/
theorem touches_setFlagWord {directory : Bool} {handle : Handle} (word : UInt32)
    (h : (caller.snapshot before).openForFlags path directory = .ok handle) :
    caller.Touches path before (caller.system.setFlagWord handle word before).2 :=
  .inr ⟨handle.number, resolve_of_openForFlags h, retouched_setFlagWord handle word⟩

/-- What touches the object of a path touches the one that the path led to before. -/
theorem Touches.retouched {first : Volume} {number : Nat} (h : caller.Touches path before after)
    (hbodies : before.SameBodies first) (hresolve : caller.resolve first false path = .ok number) :
    before.Retouched number after := by
  rcases h with rfl | ⟨found, hfound, hretouched⟩
  · exact .refl _ number
  · rwa [resolve_agree hbodies hfound hresolve] at hretouched

/-- What is no directory can be touched without effect on where a path leads. -/
theorem lookup_retouched {number : Nat} {object : VolumeObject} (h : before.Retouched number after)
    (hobject : before.object? number = some object)
    (hbody : ∀ names parent, object.body ≠ .directory names parent) (directory : Nat)
    (name : Bytes) : caller.lookup after directory name = caller.lookup before directory name := by
  by_cases hdirectory : directory = number
  · -- It has no names, whatever else is known about it.
    obtain ⟨touched, htouched, hsame⟩ : ∃ touched, after.object? number = some touched ∧
        touched.body = object.body := by
      have hsame := h.body_eq
      rw [hobject] at hsame
      exact Option.map_eq_some_iff.1 hsame
    rw [hdirectory, lookup, lookup]
    simp only [hobject, htouched, hsame]
  · rw [lookup, lookup, h.others directory hdirectory]

/-- A path leads where it led before something that is no directory was touched. -/
theorem resolve_retouched {number : Nat} {object : VolumeObject} {followLast : Bool}
    (h : before.Retouched number after) (hobject : before.object? number = some object)
    (hbody : ∀ names parent, object.body ≠ .directory names parent) {found : Nat}
    (hfound : caller.resolve after followLast path = .ok found) :
    caller.resolve before followLast path = .ok found := by
  rw [resolve_eq_ok_iff] at hfound ⊢
  refine ⟨hfound.1, follow_mono (fun directory name other hlookup => ?_) hfound.2⟩
  rw [lookup_retouched h hobject hbody] at hlookup
  exact ⟨hlookup, (h.sameBodies.target?_eq other).symm⟩

end Caller

/-! ## Providers -/

namespace AttributeProvider

/-- Calls of a caller on the first part of a pair follow no symlink. -/
theorem noFollow_native (caller : Caller) (privilege : Privilege) :
    (NativeAttributes.provider privilege caller.system.beside :
      AttributeProvider (Volume × τ)).NoFollow caller := by
  have hchange : ∀ {attempt path name} {call : TreeManifest.Call (Volume × τ) Unit} {state},
      caller.Touches path state.1 (call state).2.1 →
        caller.Touches path state.1
          ((NativeAttributes.change attempt path name call).run state).state.1 := by
    intro attempt path name call state hcall
    rcases NativeAttributes.change_cases attempt path name call state with
      ⟨error, -, hstate⟩ | ⟨-, hstate⟩
    · exact .inl (congrArg Prod.fst hstate)
    · rw [hstate]
      exact hcall
  exact ⟨fun path state =>
      .inl (congrArg Prod.fst (NativeAttributes.run_list privilege _ path state).2),
    fun path name state => .inl rfl,
    fun path name value state => hchange (caller.touches_setAttribute name value),
    fun path name state => hchange (caller.touches_removeAttribute name)⟩

/-- A provider that does nothing follows no symlink. -/
theorem noFollow_inert (caller : Caller) :
    (inert : AttributeProvider (Volume × τ)).NoFollow caller :=
  ⟨fun _ _ => .inl rfl, fun _ _ _ => .inl rfl, fun _ _ _ _ => .inl rfl, fun _ _ _ => .inl rfl⟩

end AttributeProvider

section Attributes

variable {σ : Type} {invariant : σ → Prop} {provider : AttributeProvider σ} {target : Path}

/-- A change of one attribute, with its log, keeps what its call keeps. -/
theorem NativeAttributes.maintains_change {call : Call σ Unit}
    (hcall : ∀ state, invariant state → invariant (call state).2) (attempt : Attempt)
    (target : Path) (name : String) :
    Task.Maintains invariant (change attempt target name call) := by
  intro state hstate
  rcases change_cases attempt target name call state with ⟨error, -, hafter⟩ | ⟨-, hafter⟩
  · rw [hafter]
    exact hstate
  · rw [hafter]
    exact hcall state hstate

theorem SyncProgress.maintains_fail (progress : SyncProgress) (error : MetadataError) :
    Task.Maintains invariant (progress.fail error) := by
  intro state hstate
  unfold fail
  split
  · exact hstate
  · exact hstate

/-- Writing one attribute keeps what the call of the provider keeps. -/
theorem maintains_writeAttribute
    (hset : ∀ name value, Task.Maintains invariant (provider.set target name value))
    (progress : SyncProgress) (binding : String × Bytes) :
    Task.Maintains invariant (writeAttribute provider target progress binding) := by
  refine Task.Ensures.bind (hset _ _) fun result => ?_
  cases result with
  | ok => exact Task.maintains_pure _ _
  | error error => exact SyncProgress.maintains_fail progress error

/-- What the calls of a provider maintain, a restore of attributes maintains. -/
theorem maintains_syncAttributes (hlist : Task.Maintains invariant (provider.list target))
    (hget : ∀ name, Task.Maintains invariant (provider.get target name))
    (hset : ∀ name value, Task.Maintains invariant (provider.set target name value))
    (hremove : ∀ name, Task.Maintains invariant (provider.remove target name)) (entry : Entry) :
    Task.Maintains invariant (syncAttributes provider entry target) := by
  have hbinding : ∀ present progress binding,
      Task.Maintains invariant (syncBinding provider target present progress binding) := by
    intro present progress binding
    unfold syncBinding
    split
    · refine Task.Ensures.bind (hget _) fun result => ?_
      cases result with
      | error error => exact SyncProgress.maintains_fail progress error
      | ok current =>
        dsimp only
        split
        · exact Task.maintains_pure _ _
        · exact maintains_writeAttribute hset progress binding
    · exact maintains_writeAttribute hset progress binding
  have hunwanted : ∀ wanted progress name,
      Task.Maintains invariant (removeUnwanted provider target wanted progress name) := by
    intro wanted progress name
    unfold removeUnwanted
    split
    · exact Task.maintains_pure _ _
    · refine Task.Ensures.bind (hremove _) fun result => ?_
      cases result with
      | ok => exact Task.maintains_pure _ _
      | error error => exact SyncProgress.maintains_fail progress error
  unfold syncAttributes
  split
  · exact Task.maintains_pure _ _
  · refine Task.Ensures.bind hlist fun result => ?_
    cases result with
    | error error =>
      dsimp only
      split
      · exact Task.Ensures.bind (Task.maintains_report invariant _ _ _) fun _ =>
          Task.maintains_pure _ _
      · exact Task.maintains_pure _ _
    | ok present =>
      refine Task.Ensures.bind (Task.maintains_foldlM
        (fun binding _ progress => hbinding present progress binding) _) fun written => ?_
      refine Task.Ensures.bind (Task.maintains_foldlM
        (fun name _ progress => hunwanted _ progress name) _) fun removed => ?_
      cases removed.firstError with
      | some error => exact Task.maintains_pure _ _
      | none => exact Task.maintains_pure _ _

end Attributes

/-! ## Steps -/

namespace Restore

variable {volume first : Volume} {number : Nat} {entry : Entry}

/-- Owner and group of an entry are known, and an object has others. -/
def Differs (entry : Entry) (stat : Stat) : Prop :=
  entry.uid ≠ Entry.unknownId ∧ entry.gid ≠ Entry.unknownId ∧
    stat.owner ≠ (entry.uid, entry.gid)

/-- How the change of ownership ends. Only a call can change anything, and every failure is reported
once. -/
inductive OwnershipEnds {σ : Type} (system : System σ) (path : Path) (entry : Entry) (stat : Stat)
    (state : σ) : Run σ Bool → Prop where
  /-- There is nothing to change. -/
  | idle (hsame : ¬ Differs entry stat) : OwnershipEnds system path entry stat state ⟨true, state, []⟩
  /-- The system has no number for an owner or group of the entry. -/
  | outOfRange (hdiffers : Differs entry stat)
      (hrange : Ownership.idOf? entry.uid = none ∨ Ownership.idOf? entry.gid = none)
      (message : String) :
      OwnershipEnds system path entry stat state ⟨false, state, [⟨.ownership, .warn, message⟩]⟩
  | changed (hdiffers : Differs entry stat) {uid gid : UInt32}
      (huid : Ownership.idOf? entry.uid = some uid) (hgid : Ownership.idOf? entry.gid = some gid)
      (hworks : (system.changeOwner path uid gid state).1 = .ok ()) :
      OwnershipEnds system path entry stat state
        ⟨true, (system.changeOwner path uid gid state).2, []⟩
  | refused (hdiffers : Differs entry stat) {uid gid : UInt32} {error : IoError}
      (huid : Ownership.idOf? entry.uid = some uid) (hgid : Ownership.idOf? entry.gid = some gid)
      (hfails : (system.changeOwner path uid gid state).1 = .error error) (message : String) :
      OwnershipEnds system path entry stat state
        ⟨false, (system.changeOwner path uid gid state).2, [⟨.ownership, .warn, message⟩]⟩

/-- A restore of ownership ends in one of four ways. -/
theorem ownershipEnds_restore {σ : Type} (system : System σ) (path : Path) (entry : Entry)
    (stat : Stat) (state : σ) : OwnershipEnds system path entry stat state
      ((Ownership.restore system path entry stat).run state) := by
  unfold Ownership.restore
  split
  · next hunknown =>
    exact .idle fun hdiffers => hunknown.elim hdiffers.1 hdiffers.2.1
  · next hknown =>
    split
    · next hsame => exact .idle fun hdiffers => hdiffers.2.2 hsame
    · next hother =>
      have hdiffers : Differs entry stat :=
        ⟨fun huid => hknown (.inl huid), fun hgid => hknown (.inr hgid), hother⟩
      cases huid : Ownership.idOf? entry.uid with
      | none => exact .outOfRange hdiffers (.inl huid) _
      | some uid =>
        cases hgid : Ownership.idOf? entry.gid with
        | none => exact .outOfRange hdiffers (.inr hgid) _
        | some gid =>
          dsimp only
          rw [Task.run_bind, Task.run_perform]
          cases hcall : (system.changeOwner path uid gid state).1 with
          | ok => exact .changed hdiffers huid hgid hcall
          | error error => exact .refused hdiffers huid hgid hcall _

section Steps

variable (hbodies : volume.SameBodies first)
  (hresolve : caller.resolve first false path = .ok number)

include hbodies hresolve

/-- After an object was touched, a task that touches the object of its path has touched no other. -/
theorem maintains_touching {α : Type} {task : Task (Volume × τ) α}
    (h : ∀ state, caller.Touches path state.1 (task.run state).state.1) :
    Task.Maintains (fun state => volume.Retouched number state.1) task :=
  fun state hstate => hstate.trans
    ((h state).retouched (hstate.sameBodies.trans hbodies) hresolve)

/-- The step for the owner touches no object but the one that the path names. -/
theorem maintains_ownership (stat : Stat) : Task.Maintains
    (fun state : Volume × τ => volume.Retouched number state.1)
    (Ownership.restore caller.system.beside path entry stat) := by
  refine maintains_touching hbodies hresolve fun state => ?_
  have hends := ownershipEnds_restore caller.system.beside path entry stat state
  generalize (Ownership.restore caller.system.beside path entry stat).run state = run at hends ⊢
  cases hends with
  | idle | outOfRange => exact .inl rfl
  | changed | refused => exact caller.touches_changeOwner _ _

/-- The step for the attributes touches no object but the one that the path names. -/
theorem maintains_attributes {provider : AttributeProvider (Volume × τ)}
    (hprovider : provider.NoFollow caller) : Task.Maintains
      (fun state => volume.Retouched number state.1) (syncAttributes provider entry path) :=
  maintains_syncAttributes (maintains_touching hbodies hresolve (hprovider.list path))
    (fun name => maintains_touching hbodies hresolve (hprovider.get path name))
    (fun name value => maintains_touching hbodies hresolve (hprovider.set path name value))
    (fun name => maintains_touching hbodies hresolve (hprovider.remove path name)) entry

/-- The step for the time touches no object but the one that the path names. -/
theorem maintains_restoreTime : Task.Maintains
    (fun state : Volume × τ => volume.Retouched number state.1)
    (restoreTime caller.system.beside path entry) := by
  refine maintains_touching hbodies hresolve fun state => ?_
  simp only [restoreTime, Task.run_bind, Task.run_perform]
  split
  · exact caller.touches_changeTime _
  · exact caller.touches_changeTime _

/-- The step for the flags touches no object but the one that the path names. -/
theorem maintains_flags (restorer : FlagRestorer) (phase : FlagPhase) (mask : FlagMask) :
    Task.Maintains (fun state : Volume × τ => volume.Retouched number state.1)
      (restorer.restore caller.system.beside phase entry (.named path) mask) := by
  refine FlagRestorer.maintains_restore fun stored handle current state _ hstate hreaches _ => ?_
  obtain ⟨directory, hopened⟩ := hreaches
  exact hstate.trans ((caller.touches_setFlagWord _ hopened).retouched
    (hstate.sameBodies.trans hbodies) hresolve)

end Steps

theorem target?_eq_none {object : VolumeObject} (h : ∀ target, object.body ≠ .symlink target) :
    object.target? = none := by
  unfold VolumeObject.target?
  split
  · next target hbody => exact absurd hbody (h target)
  · rfl

/-- What the change of permissions does behind a symlink at the end of a path: the object to which
the symlink leads gets the permissions of the entry. -/
structure Follows (caller : Caller) (path : Path) (entry : Entry) (before : Volume) (other : Nat)
    (after : Volume) : Prop where
  kind_ne : entry.kind ≠ .symlink
  exists_link : ∃ number link target, caller.find before false path = .ok (number, link) ∧
    link.body = .symlink target
  exists_object : ∃ object, caller.find before true path = .ok (other, object) ∧
    after.object? other =
      some { object with permissions := caller.admitted object entry.permissions }

/-- The volume while the object of a path is finished. -/
structure Finishes (caller : Caller) (path : Path) (entry : Entry) (number : Nat)
    (before after : Volume) : Prop where
  sameBodies : after.SameBodies before
  others : ∀ other, other ≠ number → after.object? other = before.object? other ∨
    Follows caller path entry before other after

/-- Touching the named object is a way to finish it. -/
theorem Finishes.of_retouched (h : volume.Retouched number first) :
    Finishes caller path entry number volume first :=
  ⟨h.sameBodies, fun other hother => .inl (h.others other hother)⟩

/-- Touching the named object once more is still a way to finish it. -/
theorem Finishes.retouched {last : Volume} (h : Finishes caller path entry number volume first)
    (h' : first.Retouched number last) : Finishes caller path entry number volume last := by
  refine ⟨h'.sameBodies.trans h.sameBodies, fun other hother => ?_⟩
  rcases h.others other hother with hsame | hfollows
  · exact .inl ((h'.others other hother).trans hsame)
  · refine .inr ⟨hfollows.kind_ne, hfollows.exists_link, ?_⟩
    rw [h'.others other hother]
    exact hfollows.exists_object

/-- The change of permissions reaches the object of a path, or the one behind a symlink there. -/
theorem finishes_restorePermissions {link : VolumeObject}
    (hfind : caller.find volume false path = .ok (number, link)) :
    Task.Ensures (fun state : Volume × τ => volume.Retouched number state.1)
      (restorePermissions caller.system.beside path entry)
      fun _ state => Finishes caller path entry number volume state.1 := by
  intro state hstate
  obtain ⟨hresolve, hlink⟩ := Caller.find_eq_ok_iff.1 hfind
  unfold restorePermissions
  split
  · exact .of_retouched hstate
  · next hkind =>
    have hchanged : Finishes caller path entry number volume
        (caller.system.changePermissions path entry.permissions state.1).2 := by
      rcases Caller.pathCall_cases Caller.nulInName path
        (caller.changePermissions path entry.permissions) state.1 with
        ⟨-, _, after, hchange, hcall⟩ | ⟨error, hcall⟩
      · rw [show caller.system.changePermissions path entry.permissions state.1 = _ from hcall]
        obtain ⟨found, object, hfound, rfl⟩ := Caller.put_of_changePermissions hchange
        obtain ⟨hfound, hobject⟩ := Caller.find_eq_ok_iff.1 hfound
        have hput : state.1.Retouched found (state.1.put found
            { object with permissions := caller.admitted object entry.permissions }) :=
          Volume.retouched_put hobject rfl
        by_cases hsame : found = number
        · rw [hsame] at hput ⊢
          exact .of_retouched (hstate.trans hput)
        · obtain ⟨target, hbody⟩ : ∃ target, link.body = .symlink target := by
            -- Any other object would have been found itself.
            by_contra hno
            have htarget : (volume.object? number).bind (·.target?) = none := by
              rw [hlink]
              exact target?_eq_none fun target hbody => hno ⟨target, hbody⟩
            exact hsame (Caller.resolve_agree hstate.sameBodies hfound
              (Caller.resolve_true hresolve htarget))
          refine ⟨hput.sameBodies.trans hstate.sameBodies, fun other hother => ?_⟩
          by_cases hreached : other = found
          · rw [hreached]
            refine .inr ⟨hkind, ⟨number, link, target, hfind, hbody⟩, object, ?_, ?_⟩
            · rw [Caller.find_eq_ok_iff, ← hstate.others found hsame]
              exact ⟨Caller.resolve_retouched hstate hlink (by simp [hbody]) hfound, hobject⟩
            · rw [Volume.object?_put, if_pos rfl]
          · rw [hput.others other hreached, hstate.others other hother]
            exact .inl rfl
      · rw [show caller.system.changePermissions path entry.permissions state.1 = _ from hcall]
        exact .of_retouched hstate
    simp only [Task.run_bind, Task.run_perform]
    split
    · exact hchanged
    · exact hchanged

def finishOwner {σ : Type} (system : System σ) (path : Path) (entry : Entry) (stat : Stat)
    (options : RestoreOptions) : Task σ Bool :=
  if options.owner then Ownership.restore system path entry stat else pure true

/-- The outcome of the steps: the first hard failure, or a report. -/
def finishOutcome (ownerRestored : Bool) (attributes : Except MetadataError AttributeSync)
    (permissions time : Except MetadataError Unit) (flags : Except MetadataError FlagOutcome) :
    Except MetadataError FinishReport :=
  match attributes, flags, failure? permissions <|> failure? time with
  | .error error, _, _ => .error error
  | .ok _, _, some error => .error error
  | .ok _, .error error, none => .error error
  | .ok attributes, .ok flags, none => .ok { ownerRestored, attributes, flags }

/-- The steps in their order, given what was found when the object was inspected. -/
def finishFound {σ : Type} (system : System σ) (path : Path) (entry : Entry)
    (provider : AttributeProvider σ) (restorer : FlagRestorer) (options : RestoreOptions)
    (stat : Stat) : Task σ (Except MetadataError FinishReport) := do
  let ownerRestored ← finishOwner system path entry stat options
  let attributes ← syncAttributes provider entry path
  let permissions ← restorePermissions system path entry
  let time ← restoreTime system path entry
  let flags ← restorer.restore system .late entry (.named path) options.flagMask
  return finishOutcome ownerRestored attributes permissions time flags

/-- An object is inspected before its steps are made. -/
theorem finish_eq {σ : Type} (system : System σ) (root : Path) (entry : Entry)
    (provider : AttributeProvider σ) (restorer : FlagRestorer) (options : RestoreOptions) :
    finish system root entry provider restorer options = (do
      match ← Task.inspect fun state => (system.view state).lstat (entry.fullPath root) with
      | .error error => return .error ⟨.inspectRestored, entry.fullPath root, error⟩
      | .ok stat =>
        finishFound system (entry.fullPath root) entry provider restorer options stat) := by
  refine bind_congr fun inspected => ?_
  cases inspected with
  | error error => rfl
  | ok stat =>
    unfold finishFound finishOwner finishOutcome
    cases options.owner with
    | true | false =>
      refine bind_congr fun ownerRestored => bind_congr fun attributes =>
        bind_congr fun permissions => bind_congr fun time => bind_congr fun flags => ?_
      cases attributes <;> cases flags <;> cases failure? permissions <|> failure? time <;> rfl

/-- Every step keeps to the object of the path, but for the change of permissions. -/
theorem ensures_finish {provider : AttributeProvider (Volume × τ)}
    (hprovider : provider.NoFollow caller) {root : Path} {link : VolumeObject}
    (restorer : FlagRestorer) (options : RestoreOptions)
    (hfind : caller.find volume false (entry.fullPath root) = .ok (number, link)) :
    Task.Ensures (fun state : Volume × τ => volume.Retouched number state.1)
      (finish caller.system.beside root entry provider restorer options)
      fun _ state => Finishes caller (entry.fullPath root) entry number volume state.1 := by
  have hresolve := (Caller.find_eq_ok_iff.1 hfind).1
  have hself : volume.SameBodies volume := fun _ => rfl
  have hlater : ∀ {α : Type} {task : Task (Volume × τ) α},
      (∀ first : Volume, first.SameBodies volume → Task.Maintains
        (fun state : Volume × τ => first.Retouched number state.1) task) →
      Task.Maintains (fun state : Volume × τ =>
        Finishes caller (entry.fullPath root) entry number volume state.1) task :=
    fun htask state hstate => hstate.retouched
      (htask state.1 hstate.sameBodies state (.refl _ _))
  rw [finish_eq]
  refine Task.Ensures.bind (Task.maintains_inspect _ _) fun inspected => ?_
  cases inspected with
  | error error => exact Task.ensures_pure fun state hstate => .of_retouched hstate
  | ok stat =>
    have howner : Task.Maintains (fun state : Volume × τ => volume.Retouched number state.1)
        (finishOwner caller.system.beside (entry.fullPath root) entry stat options) := by
      unfold finishOwner
      split
      · exact maintains_ownership hself hresolve stat
      · exact Task.maintains_pure _ _
    refine howner.bind fun ownerRestored => ?_
    refine Task.Ensures.bind (maintains_attributes hself hresolve hprovider) fun attributes => ?_
    refine Task.Ensures.bind (finishes_restorePermissions hfind) fun permissions => ?_
    refine Task.Ensures.bind (hlater fun first hfirst =>
      maintains_restoreTime hfirst hresolve) fun time => ?_
    refine Task.Ensures.bind (hlater fun first hfirst =>
      maintains_flags hfirst hresolve restorer .late options.flagMask) fun flags => ?_
    exact Task.maintains_pure _ _

/-- Nothing happens where nothing is found. -/
theorem finish_cases {provider : AttributeProvider (Volume × τ)} (hprovider : provider.NoFollow caller)
    (root : Path) (entry : Entry) (restorer : FlagRestorer) (options : RestoreOptions)
    (state : Volume × τ) :
    let after := ((finish caller.system.beside root entry provider restorer options).run
      state).state.1
    after = state.1 ∨ ∃ number,
      caller.resolve state.1 false (entry.fullPath root) = .ok number ∧
      Finishes caller (entry.fullPath root) entry number state.1 after := by
  intro after
  rcases hstat : (caller.snapshot state.1).lstat (entry.fullPath root) with error | stat
  · left
    show ((finish caller.system.beside root entry provider restorer options).run state).state.1 = _
    simp only [finish, Task.run_bind, Task.run_inspect]
    rw [show (caller.system.beside.view state).lstat (entry.fullPath root) = _ from hstat]
    rfl
  · obtain ⟨number, link, hfind, -⟩ := Caller.find_of_lstat hstat
    exact .inr ⟨number, (Caller.find_eq_ok_iff.1 hfind).1,
      ensures_finish hprovider restorer options hfind state (.refl _ _)⟩

/-- Finishing an entry leaves all objects alone but two: the one that its path names without
following a symlink at the end, and, where that is a symlink and the entry says otherwise, the one
to which it leads, which gets the permissions of the entry and keeps everything else. -/
theorem finish_frame {provider : AttributeProvider (Volume × τ)}
    (hprovider : provider.NoFollow caller) (root : Path) (entry : Entry) (restorer : FlagRestorer)
    (options : RestoreOptions) (volume : Volume) (rest : τ) (number : Nat) :
    let path := entry.fullPath root
    let after := ((finish caller.system.beside root entry provider restorer options).run
      (volume, rest)).state.1
    after.object? number = volume.object? number ∨
      caller.resolve volume false path = .ok number ∨
      Follows caller path entry volume number after := by
  intro path after
  rcases finish_cases hprovider root entry restorer options (volume, rest) with
    hsame | ⟨named, hnamed, hfinishes⟩
  · exact .inl (congrArg (·.object? number) hsame)
  · by_cases hnumber : number = named
    · exact .inr (.inl (hnumber ▸ hnamed))
    · rcases hfinishes.others number hnumber with hsame | hfollows
      · exact .inl hsame
      · exact .inr (.inr hfollows)

def linkedFile : Volume where
  objects := [
    (0, { linkedObject with
      body := .directory [([0x6C], 1), ([0x74], 2)] 0
      permissions := 0o755
      linkCount := 2 }),
    (1, { linkedObject with body := .symlink [0x74], permissions := 0o777 }),
    (2, linkedObject)]
  next := 3
  now := 0
where
  /-- The file. -/
  linkedObject : VolumeObject := ⟨.file [], 0o600, 0, 0, 0, 1, .empty, none⟩

/-- A symlink that is finished by an entry of its kind leaves the file alone. -/
theorem finish_frame_linkedFile :
    let provider : AttributeProvider (Volume × Unit) :=
      NativeAttributes.provider .privileged (Caller.system {}).beside
    (((finish (Caller.system {}).beside [0x2F] (.new [0x6C] 0o120755) provider
      ⟨.privileged, .native⟩ {}).run (linkedFile, ())).state.1.object? 2) =
        linkedFile.object? 2 := by
  rcases finish_frame (AttributeProvider.noFollow_native {} .privileged) [0x2F]
    (.new [0x6C] 0o120755) ⟨.privileged, .native⟩ {} linkedFile () 2 with hsame | hnamed | hfollows
  · exact hsame
  · have hlink : Caller.resolve {} linkedFile false [0x2F, 0x6C] = .ok 1 := by cbv
    cases hlink.symm.trans hnamed
  · exact absurd rfl hfollows.kind_ne

/-- An entry that says that the symlink is a file changes the permissions of the file behind it. -/
theorem not_finish_noFollow :
    ¬ ∀ (caller : Caller) (provider : AttributeProvider (Volume × Unit)) (root : Path)
      (entry : Entry) (restorer : FlagRestorer) (options : RestoreOptions) (volume : Volume)
      (number : Nat), provider.NoFollow caller →
        ((finish caller.system.beside root entry provider restorer options).run
          (volume, ())).state.1.object? number ≠ volume.object? number →
        caller.resolve volume false (entry.fullPath root) = .ok number := by
  intro h
  have hnamed := h {} .inert [0x2F] (.new [0x6C] 0o100755) ⟨.privileged, .native⟩ {} linkedFile 2
    (AttributeProvider.noFollow_inert _) fun hsame => by
      have hpermissions := congrArg (Option.map (·.permissions)) hsame
      have hchanged : (((finish (Caller.system {}).beside [0x2F] (.new [0x6C] 0o100755)
          AttributeProvider.inert ⟨.privileged, .native⟩ {}).run
            (linkedFile, ())).state.1.object? 2).map (·.permissions) = some 0o755 := by cbv
      rw [hchanged] at hpermissions
      exact absurd hpermissions (by decide)
  have hlink : Caller.resolve {} linkedFile false [0x2F, 0x6C] = .ok 1 := by cbv
  cases hlink.symm.trans hnamed

end Restore

end TreeManifest
