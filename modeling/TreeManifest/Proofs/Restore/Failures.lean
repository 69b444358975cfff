import TreeManifest.Proofs.Attributes.Complete
import TreeManifest.Proofs.Restore.Steps
import TreeManifest.Proofs.Volume.Captured

/-!
# Failures while an object is finished

A system may let any call fail for any reason, as long as a call that fails changes nothing and one
that works does what it says. Each step of finishing changes a part of the object of its own, so what
a step has done is not undone by the next ones. In the end the object has everything that the steps
whose own calls worked have given it, and the answer is the first hard failure.

## Main definitions

- `System.Obeys`: a system whose calls are those of a caller on a volume, unless they fail.
- `AttributeProvider.KeepsToAttributes`: a provider that changes nothing but attributes.
- `Volume.Agree`: the objects of two volumes agree in a part.
- `Restore.Finishing.Effects`: what the steps that worked have made of an object in the end.

## Main statements

- `System.Obeys.agree_changeOwner` and its like: what a call leaves alone.
- `Restore.finish_stops_nothing`: calls, effects and answer, whatever fails.
-/

namespace TreeManifest

variable {σ : Type}

/-! ## Systems that may fail -/

/-- A call that makes a change of the volume, or fails and leaves it as it is. -/
structure Call.Obeys {α : Type} (call : Call σ α) (disk : σ → Volume) (change : Change α) :
    Prop where
  works : ∀ {state value}, (call state).1 = .ok value →
    change (disk state) = .ok (value, disk (call state).2)
  fails : ∀ {state error}, (call state).1 = .error error → disk (call state).2 = disk state

/-- A system whose answers and calls are those of a caller on a volume, unless they fail. `disk`
gives the volume of a state. Which calls fail is left open. -/
structure System.Obeys (system : System σ) (caller : Caller) (disk : σ → Volume) : Prop where
  lstat : ∀ {state path stat}, (system.view state).lstat path = .ok stat →
    (caller.snapshot (disk state)).lstat path = .ok stat
  openObject : ∀ {state path mode handle}, (system.view state).openObject path mode = .ok handle →
    (caller.snapshot (disk state)).openObject path mode = .ok handle
  changeOwner : ∀ path uid gid,
    (system.changeOwner path uid gid).Obeys disk (caller.changeOwner path uid gid)
  changePermissions : ∀ path permissions,
    (system.changePermissions path permissions).Obeys disk
      (caller.changePermissions path permissions)
  changeTime : ∀ path time,
    (system.changeTime path time).Obeys disk (caller.changeTime path time)
  setFlagWord : ∀ handle word,
    (system.setFlagWord handle word).Obeys disk (caller.setFlagWord handle word)

/-- A provider whose calls change nothing on a volume but attributes. -/
structure AttributeProvider.KeepsToAttributes (provider : AttributeProvider σ)
    (disk : σ → Volume) : Prop where
  list : ∀ path state, (disk ((provider.list path).run state).state).SameBare (disk state)
  get : ∀ path name state, (disk ((provider.get path name).run state).state).SameBare (disk state)
  set : ∀ path name value state,
    (disk ((provider.set path name value).run state).state).SameBare (disk state)
  remove : ∀ path name state,
    (disk ((provider.remove path name).run state).state).SameBare (disk state)

/-- The last calls of finishing leave something alone that is kept in a state. -/
structure System.LeavesAlone {α : Type} (system : System σ) (held : σ → α) : Prop where
  changePermissions : ∀ path permissions state,
    held (system.changePermissions path permissions state).2 = held state
  changeTime : ∀ path time state, held (system.changeTime path time state).2 = held state
  setFlagWord : ∀ handle word state, held (system.setFlagWord handle word state).2 = held state

/-! ## Parts of objects -/

namespace Volume

variable {α : Type} {part : VolumeObject → α} {first second third : Volume} {number : Nat}
  {object other : VolumeObject}

/-- The objects of two volumes agree in a part. -/
def Agree (part : VolumeObject → α) (first second : Volume) : Prop :=
  ∀ number, (first.object? number).map part = (second.object? number).map part

theorem Agree.refl (part : VolumeObject → α) (volume : Volume) : volume.Agree part volume :=
  fun _ => rfl

theorem Agree.trans (h : first.Agree part second) (h' : second.Agree part third) :
    first.Agree part third :=
  fun number => (h number).trans (h' number)

/-- Objects that agree in a part have the same part. -/
theorem Agree.eq (h : first.Agree part second) (hfirst : first.object? number = some object)
    (hsecond : second.object? number = some other) : part object = part other := by
  have hsame := h number
  rw [hfirst, hsecond] at hsame
  exact Option.some.inj hsame

/-- What exists after a change has existed before with the same part. -/
theorem Agree.exists_object (h : first.Agree part second)
    (hsecond : second.object? number = some object) :
    ∃ other, first.object? number = some other ∧ part other = part object := by
  have hsame := h number
  rw [hsecond] at hsame
  exact Option.map_eq_some_iff.1 hsame

/-- Replacing an object by one with the same part changes no part. -/
theorem agree_put (hold : first.object? number = some object) (h : part other = part object) :
    (first.put number other).Agree part first := by
  intro found
  rw [object?_put]
  split
  · next hfound => rw [← hfound, hold, Option.map_some, Option.map_some, h]
  · rfl

/-- Volumes that differ in attributes at most agree in everything else. -/
theorem agree_of_sameBare (h : first.SameBare second)
    (hpart : ∀ object attributes, part { object with attributes } = part object) :
    first.Agree part second := by
  have hbare : part = part ∘ (·.bare) := funext fun object => (hpart object .empty).symm
  intro number
  rw [hbare, ← Option.map_map, h number, Option.map_map]

end Volume

/-! ## What a call leaves alone -/

/-- What a change leaves alone, a call that makes it leaves alone. -/
theorem Call.Obeys.agree {α β : Type} {call : Call σ α} {disk : σ → Volume} {change : Change α}
    {state : σ} (h : call.Obeys disk change) {part : VolumeObject → β}
    (hchange : ∀ {value after}, change (disk state) = .ok (value, after) →
      after.Agree part (disk state)) : (disk (call state).2).Agree part (disk state) := by
  cases hanswer : (call state).1 with
  | ok value => exact hchange (h.works hanswer)
  | error error =>
    rw [h.fails hanswer]
    exact .refl part _

/-- A call moves the range of times only if the change it stands for does. -/
theorem Call.Obeys.times_eq {α : Type} {call : Call σ α} {disk : σ → Volume} {change : Change α}
    {state : σ} (h : call.Obeys disk change)
    (hchange : ∀ {value after}, change (disk state) = .ok (value, after) →
      after.times = (disk state).times) : (disk (call state).2).times = (disk state).times := by
  cases hanswer : (call state).1 with
  | ok value => exact hchange (h.works hanswer)
  | error error => rw [h.fails hanswer]

namespace System.Obeys

variable {α : Type} {system : System σ} {caller : Caller} {disk : σ → Volume} {state : σ}
  {part : VolumeObject → α} (h : system.Obeys caller disk)

include h

/-- A call for the owner, whether it fails or not, leaves all but owner and permissions alone. -/
theorem agree_changeOwner (hpart : ∀ (object : VolumeObject) uid gid permissions,
      part { object with uid, gid, permissions } = part object) (path : Path) (uid gid : UInt32) :
    (disk (system.changeOwner path uid gid state).2).Agree part (disk state) := by
  refine (h.changeOwner path uid gid).agree fun hchange => ?_
  obtain ⟨number, object, hfind, rfl⟩ := Caller.put_of_changeOwner hchange
  exact Volume.agree_put (Caller.find_eq_ok_iff.1 hfind).2 (hpart ..)

/-- A call for the permissions, whether it fails or not, leaves everything else alone. -/
theorem agree_changePermissions (hpart : ∀ (object : VolumeObject) permissions,
      part { object with permissions } = part object) (path : Path) (permissions : UInt32) :
    (disk (system.changePermissions path permissions state).2).Agree part (disk state) := by
  refine (h.changePermissions path permissions).agree fun hchange => ?_
  obtain ⟨number, object, hfind, rfl⟩ := Caller.put_of_changePermissions hchange
  exact Volume.agree_put (Caller.find_eq_ok_iff.1 hfind).2 (hpart ..)

/-- A call for the time, whether it fails or not, leaves everything else alone. -/
theorem agree_changeTime (hpart : ∀ (object : VolumeObject) modTime,
      part { object with modTime } = part object) (path : Path) (time : Int64) :
    (disk (system.changeTime path time state).2).Agree part (disk state) := by
  refine (h.changeTime path time).agree fun hchange => ?_
  obtain ⟨number, object, hfind, rfl⟩ := Caller.put_of_changeTime hchange
  exact Volume.agree_put (Caller.find_eq_ok_iff.1 hfind).2 (hpart ..)

/-- A call for a flag word, whether it fails or not, leaves everything else alone. -/
theorem agree_setFlagWord (hpart : ∀ (object : VolumeObject) flagWord,
      part { object with flagWord } = part object) (handle : Handle) (word : UInt32) :
    (disk (system.setFlagWord handle word state).2).Agree part (disk state) := by
  refine (h.setFlagWord handle word).agree fun hchange => ?_
  obtain ⟨object, hobject, rfl⟩ := Caller.put_of_setFlagWord hchange
  exact Volume.agree_put hobject (hpart ..)

/-- Attributes on the volume are left alone. -/
theorem leavesAlone_attributesOf (number : Nat) :
    system.LeavesAlone fun state => Caller.attributesOf number (disk state) where
  changePermissions path permissions state := by
    unfold Caller.attributesOf
    rw [h.agree_changePermissions (fun _ _ => rfl) path permissions number]
  changeTime path time state := by
    unfold Caller.attributesOf
    rw [h.agree_changeTime (fun _ _ => rfl) path time number]
  setFlagWord handle word state := by
    unfold Caller.attributesOf
    rw [h.agree_setFlagWord (fun _ _ => rfl) handle word number]

/-- No call changes which times the volume can hold. -/
theorem leavesAlone_times : system.LeavesAlone fun state => (disk state).times where
  changePermissions path permissions state := by
    refine (h.changePermissions path permissions).times_eq fun hchange => ?_
    obtain ⟨number, object, -, rfl⟩ := Caller.put_of_changePermissions hchange
    rfl
  changeTime path time state := by
    refine (h.changeTime path time).times_eq fun hchange => ?_
    obtain ⟨number, object, -, rfl⟩ := Caller.put_of_changeTime hchange
    rfl
  setFlagWord handle word state := by
    refine (h.setFlagWord handle word).times_eq fun hchange => ?_
    obtain ⟨object, -, rfl⟩ := Caller.put_of_setFlagWord hchange
    rfl

/-- A change of owner does not move the range of times. -/
theorem times_changeOwner (path : Path) (uid gid : UInt32) :
    (disk (system.changeOwner path uid gid state).2).times = (disk state).times := by
  refine (h.changeOwner path uid gid).times_eq fun hchange => ?_
  obtain ⟨number, object, -, rfl⟩ := Caller.put_of_changeOwner hchange
  rfl

theorem resolve_of_openForFlags {path : Path} {directory : Bool} {handle : Handle}
    (hopened : (system.view state).openForFlags path directory = .ok handle) :
    caller.resolve (disk state) false path = .ok handle.number := by
  obtain ⟨mode, hmode⟩ := Snapshot.exists_mode_of_openForFlags hopened
  exact Caller.resolve_of_openObject (Caller.ok_of_withoutNul (h.openObject hmode))

end System.Obeys

namespace Caller

theorem obeys_call {α : Type} (change : Change α) : (call change).Obeys id change := by
  refine ⟨fun {volume value} hvalue => ?_, fun {volume error} herror => ?_⟩
  · rcases call_cases change volume with ⟨made, after, hchange, hcall⟩ | ⟨error, hcall⟩
    · rw [hcall] at hvalue ⊢
      rw [← Except.ok.inj hvalue]
      exact hchange
    · rw [hcall] at hvalue
      cases hvalue
  · rcases call_cases change volume with ⟨made, after, -, hcall⟩ | ⟨_, hcall⟩
    · rw [hcall] at herror
      cases herror
    · rw [hcall]

/-- A call that makes its change or is refused does what the change does or nothing. -/
theorem obeys_pathCall {α : Type} (refusal : IoError) (path : Path) (change : Change α) :
    (pathCall refusal path change).Obeys id change := by
  by_cases hnul : Bytes.nul ∈ path
  · have hrefused : pathCall refusal path change = fun volume => (.error refusal, volume) :=
      funext fun _ => if_pos hnul
    rw [hrefused]
    exact ⟨nofun, fun _ => rfl⟩
  · have hcall : pathCall refusal path change = call change := funext fun _ => if_neg hnul
    rw [hcall]
    exact obeys_call change

/-- The system of a caller obeys the caller. -/
theorem obeys_system (caller : Caller) : caller.system.Obeys caller id :=
  ⟨fun h => h, fun h => h, fun _ _ _ => obeys_pathCall .., fun _ _ => obeys_pathCall ..,
    fun _ _ => obeys_pathCall .., fun _ _ => obeys_call _⟩

/-- A call that changes attributes only leaves the rest of every object alone. -/
theorem sameBare_pathCall (caller : Caller) {path : Path} {volume : Volume} {change : Change Unit}
    (h : ∀ {after}, change volume = .ok ((), after) → ∃ number object attributes,
      caller.find volume false path = .ok (number, object) ∧
        after = volume.put number { object with attributes }) :
    (pathCall (.os .einval) path change volume).2.SameBare volume := by
  rcases pathCall_cases (.os .einval) path change volume with
    ⟨-, _, after, hchange, hcall⟩ | ⟨error, hcall⟩
  · rw [hcall]
    obtain ⟨number, object, attributes, hfind, rfl⟩ := h hchange
    exact sameBare_put (find_eq_ok_iff.1 hfind).2 attributes
  · rw [hcall]
    exact fun _ => rfl

/-- The provider of a caller keeps to attributes. -/
theorem keepsToAttributes_native (caller : Caller) (privilege : Privilege) :
    (NativeAttributes.provider privilege caller.system).KeepsToAttributes id := by
  have hchange : ∀ {attempt path name} {call : Call Volume Unit} {volume},
      (call volume).2.SameBare volume →
        ((NativeAttributes.change attempt path name call).run volume).state.SameBare volume := by
    intro attempt path name call volume hcall
    rcases NativeAttributes.change_cases attempt path name call volume with
      ⟨error, -, hstate⟩ | ⟨-, hstate⟩
    · rw [hstate]
      exact fun _ => rfl
    · rw [hstate]
      exact hcall
  refine ⟨fun path volume => ?_, fun _ _ _ _ => rfl, fun path name value volume => ?_,
    fun path name volume => ?_⟩
  · rw [(NativeAttributes.run_list privilege caller.system path volume).2]
    exact fun _ => rfl
  · refine hchange (caller.sameBare_pathCall fun hset => ?_)
    obtain ⟨number, object, hfind, hafter⟩ := put_of_setAttribute hset
    exact ⟨number, object, _, hfind, hafter⟩
  · refine hchange (caller.sameBare_pathCall fun hremove => ?_)
    obtain ⟨number, object, hfind, hafter⟩ := put_of_removeAttribute hremove
    exact ⟨number, object, _, hfind, hafter⟩

end Caller

namespace Restore

/-! ## What a step leaves alone -/

section Frames

variable {α : Type} {system : System σ} {caller : Caller} {disk : σ → Volume} {path : Path}
  {entry : Entry} {provider : AttributeProvider σ} {restorer : FlagRestorer}
  {options : RestoreOptions} {stat : Stat} {state : σ} {steps : Finishing σ}
  {part : VolumeObject → α} {held : σ → α}

/-- Synchronizing attributes leaves every other part of all objects alone. -/
theorem agree_syncAttributes (hprovider : provider.KeepsToAttributes disk)
    (hpart : ∀ object attributes, part { object with attributes } = part object)
    (entry : Entry) (target : Path) (state : σ) :
    (disk ((syncAttributes provider entry target).run state).state).Agree part (disk state) := by
  refine Volume.agree_of_sameBare ?_ hpart
  have htrans : ∀ {α : Type} {task : Task σ α},
      (∀ state, (disk (task.run state).state).SameBare (disk state)) →
        Task.Maintains (fun now => (disk now).SameBare (disk state)) task :=
    fun htask now hnow number => (htask now number).trans (hnow number)
  exact maintains_syncAttributes (htrans (hprovider.list target))
    (fun name => htrans (hprovider.get target name))
    (fun name value => htrans (hprovider.set target name value))
    (fun name => htrans (hprovider.remove target name)) entry state fun _ => rfl

namespace Finishing.Attempts

variable (h : steps.Attempts system path entry provider restorer options stat state)

include h

/-- What the last calls leave alone is what the step of attributes left. -/
theorem held_flags (hsystem : system.LeavesAlone held) :
    held steps.flags.state = held steps.attributes.state := by
  have htime : held steps.time.state = held steps.permissions.state := by
    rw [h.time.2, hsystem.changeTime]
  have hpermissions : held steps.permissions.state = held steps.attributes.state := by
    rcases h.permissions_cases with hsame | hcall
    · rw [hsame]
    · rw [hcall, hsystem.changePermissions]
  rw [← hpermissions, ← htime]
  rcases h.flags_cases with hsame | ⟨handle, word, hcall⟩
  · rw [hsame]
  · rw [hcall, hsystem.setFlagWord]

/-- The step for the attributes leaves every other part alone. -/
theorem agree_attributes (hprovider : provider.KeepsToAttributes disk)
    (hpart : ∀ object attributes, part { object with attributes } = part object) :
    (disk steps.attributes.state).Agree part (disk steps.owner.state) := by
  rw [h.attributes]
  exact agree_syncAttributes hprovider hpart entry path steps.owner.state

variable (hsystem : system.Obeys caller disk)

include hsystem

/-- The step for the owner leaves all but owner and permissions alone. -/
theorem agree_owner (hpart : ∀ (object : VolumeObject) uid gid permissions,
      part { object with uid, gid, permissions } = part object) :
    (disk steps.owner.state).Agree part (disk state) := by
  rcases h.owner_cases with hsame | ⟨uid, gid, hcall⟩
  · rw [hsame]
    exact .refl part _
  · rw [hcall]
    exact hsystem.agree_changeOwner hpart path uid gid

/-- The step for the permissions leaves everything else alone. -/
theorem agree_permissions (hpart : ∀ (object : VolumeObject) permissions,
      part { object with permissions } = part object) :
    (disk steps.permissions.state).Agree part (disk steps.attributes.state) := by
  rcases h.permissions_cases with hsame | hcall
  · rw [hsame]
    exact .refl part _
  · rw [hcall]
    exact hsystem.agree_changePermissions hpart path entry.permissions

/-- The step for the time leaves everything else alone. -/
theorem agree_time (hpart : ∀ (object : VolumeObject) modTime,
      part { object with modTime } = part object) :
    (disk steps.time.state).Agree part (disk steps.permissions.state) := by
  rw [h.time.2]
  exact hsystem.agree_changeTime hpart path entry.modTime

/-- The step for the flags leaves everything else alone. -/
theorem agree_flags (hpart : ∀ (object : VolumeObject) flagWord,
      part { object with flagWord } = part object) :
    (disk steps.flags.state).Agree part (disk steps.time.state) := by
  rcases h.flags_cases with hsame | ⟨handle, word, hcall⟩
  · rw [hsame]
    exact .refl part _
  · rw [hcall]
    exact hsystem.agree_setFlagWord hpart handle word

end Finishing.Attempts

end Frames

/-! ## What the steps achieve -/

/-- What the steps whose calls worked have made of an object when all of them are over. The object
is the one that the path names without following a symlink at the end. -/
structure Finishing.Effects (steps : Finishing σ) (system : System σ) (caller : Caller)
    (disk : σ → Volume) (path : Path) (entry : Entry) (provider : AttributeProvider σ)
    (options : RestoreOptions) (state : σ) (number : Nat) (object last : VolumeObject) : Prop where
  body_eq : last.body = object.body
  owner : ∀ uid gid, options.owner = true → Differs entry ((disk state).statOf number object) →
    Ownership.idOf? entry.uid = some uid → Ownership.idOf? entry.gid = some gid →
      (system.changeOwner path uid gid state).1 = .ok () →
        last.uid = (if uid = Caller.keepId then object.uid else uid) ∧
          last.gid = if gid = Caller.keepId then object.gid else gid
  owner_kept : options.owner = false ∨ ¬ Differs entry ((disk state).statOf number object) →
    last.uid = object.uid ∧ last.gid = object.gid
  /-- Attributes on the volume are those that the step of attributes left. -/
  attributes_eq : last.attributes = Caller.attributesOf number (disk steps.attributes.state)
  /-- Wherever the provider keeps them, the listed attributes are the wanted ones if that step could
  list the names, and neither failed nor skipped one of them. -/
  attributes : ∀ {held : σ → AttributeMap} {shows valid present sync},
    provider.Truthful path held shows valid → system.LeavesAlone held → valid steps.owner.state →
      entry.kind.carriesAttributes = true →
      ((provider.list path).run steps.owner.state).value = .ok present →
      steps.attributes.value = .ok sync → sync.skipped = 0 → ∀ name, shows name = true →
        (held steps.flags.state).get? name = (entry.attributes.getD .empty).get? name
  /-- A symlink at the end of the path is followed. -/
  permissions : entry.kind ≠ .symlink → steps.permissions.value = .ok () →
    ∃ reached changed, caller.resolve (disk steps.attributes.state) true path = .ok reached ∧
      (object.kind ≠ .symlink → reached = number) ∧
      (disk steps.flags.state).object? reached = some changed ∧
      changed.permissions = caller.admitted changed entry.permissions
  time : steps.time.value = .ok () → last.modTime = entry.modTime
  flags : ∀ word, steps.flags.value = .ok (.applied word) → last.flagWord = some word

section Effects

variable {system : System σ} {caller : Caller} {disk : σ → Volume} {path : Path} {entry : Entry}
  {provider : AttributeProvider σ} {restorer : FlagRestorer} {options : RestoreOptions} {state : σ}
  {steps : Finishing σ} {number : Nat} {object last : VolumeObject}

namespace Finishing.Attempts

variable
  (h : steps.Attempts system path entry provider restorer options
    ((disk state).statOf number object) state)
  (hsystem : system.Obeys caller disk) (hprovider : provider.KeepsToAttributes disk)

include h hsystem hprovider

/-! The objects consist of the same before every step, so the path leads to one object. -/

theorem sameBodies_attributes : (disk steps.attributes.state).SameBodies (disk state) :=
  (h.agree_attributes hprovider fun _ _ => rfl).trans (h.agree_owner hsystem fun _ _ _ _ => rfl)

theorem sameBodies_permissions : (disk steps.permissions.state).SameBodies (disk state) :=
  (h.agree_permissions hsystem fun _ _ => rfl).trans (h.sameBodies_attributes hsystem hprovider)

theorem sameBodies_time : (disk steps.time.state).SameBodies (disk state) :=
  (h.agree_time hsystem fun _ _ => rfl).trans (h.sameBodies_permissions hsystem hprovider)

theorem sameBodies_flags : (disk steps.flags.state).SameBodies (disk state) :=
  (h.agree_flags hsystem fun _ _ => rfl).trans (h.sameBodies_time hsystem hprovider)

/-- Owner and group are those that the first step left. -/
theorem agree_ids : (disk steps.flags.state).Agree (fun object => (object.uid, object.gid))
    (disk steps.owner.state) :=
  (h.agree_flags hsystem fun _ _ => rfl).trans <|
    (h.agree_time hsystem fun _ _ => rfl).trans <|
      (h.agree_permissions hsystem fun _ _ => rfl).trans <|
        h.agree_attributes hprovider fun _ _ => rfl

variable (hfind : caller.find (disk state) false path = .ok (number, object))

include hfind

/-- If the call for the owner works, the object ends with the ids of the entry, however the later
steps end. -/
theorem ids_of_changeOwner (hlast : (disk steps.flags.state).object? number = some last)
    (howner : options.owner = true) (hdiffers : Differs entry ((disk state).statOf number object))
    {uid gid : UInt32} (huid : Ownership.idOf? entry.uid = some uid)
    (hgid : Ownership.idOf? entry.gid = some gid)
    (hworks : (system.changeOwner path uid gid state).1 = .ok ()) :
    last.uid = (if uid = Caller.keepId then object.uid else uid) ∧
      last.gid = if gid = Caller.keepId then object.gid else gid := by
  obtain ⟨_, _, hfound, hafter⟩ :=
    Caller.put_of_changeOwner ((hsystem.changeOwner path uid gid).works hworks)
  obtain ⟨rfl, rfl⟩ := Prod.mk.inj (Except.ok.inj (hfound.symm.trans hfind))
  rw [← (h.owner howner hdiffers uid gid huid hgid).2] at hafter
  have hsame := (h.agree_ids hsystem hprovider).eq hlast
    (by rw [hafter, Volume.object?_put, if_pos rfl])
  exact Prod.mk.inj hsame

/-- If the step for the permissions works, the object that the path reaches ends with those of the
entry, however the later steps end. -/
theorem exists_reached (hkind : entry.kind ≠ .symlink) (hvalue : steps.permissions.value = .ok ()) :
    ∃ reached changed, caller.resolve (disk steps.attributes.state) true path = .ok reached ∧
      (object.kind ≠ .symlink → reached = number) ∧
      (disk steps.flags.state).object? reached = some changed ∧
      changed.permissions = caller.admitted changed entry.permissions := by
  obtain ⟨hresolve, hobject⟩ := Caller.find_eq_ok_iff.1 hfind
  obtain ⟨hanswer, hstate⟩ := h.permissions hkind
  rw [hvalue] at hanswer
  obtain ⟨reached, held, hreached, hafter⟩ := Caller.put_of_changePermissions
    ((hsystem.changePermissions path entry.permissions).works
      (Caller.mapError_eq_ok hanswer.symm))
  rw [← hstate] at hafter
  obtain ⟨hreached, -⟩ := Caller.find_eq_ok_iff.1 hreached
  -- The group decides what is admitted, and neither is changed any more.
  have hagree : (disk steps.flags.state).Agree (fun object => (object.permissions, object.gid))
      (disk steps.permissions.state) :=
    (h.agree_flags hsystem fun _ _ => rfl).trans (h.agree_time hsystem fun _ _ => rfl)
  have hput : (disk steps.permissions.state).object? reached =
      some { held with permissions := caller.admitted held entry.permissions } := by
    rw [hafter, Volume.object?_put, if_pos rfl]
  obtain ⟨changed, hchanged, hsame⟩ := hagree.exists_object hput
  obtain ⟨hpermissions, hgid⟩ := Prod.mk.inj hsame
  refine ⟨reached, changed, hreached, fun hlink => ?_, hchanged, ?_⟩
  · refine Caller.resolve_agree (h.sameBodies_attributes hsystem hprovider) hreached
      (Caller.resolve_true hresolve ?_)
    rw [hobject, Option.bind_some]
    exact Caller.target?_of_kind_ne hlink
  · rw [hpermissions, Caller.admitted, Caller.admitted, hgid]

/-- If the step for the time works, the object ends with the time of the entry, however the flags
end. -/
theorem modTime_of_time (hlast : (disk steps.flags.state).object? number = some last)
    (hvalue : steps.time.value = .ok ()) : last.modTime = entry.modTime := by
  obtain ⟨hanswer, hstate⟩ := h.time
  rw [hvalue] at hanswer
  obtain ⟨reached, held, hreached, hafter⟩ := Caller.put_of_changeTime
    ((hsystem.changeTime path entry.modTime).works (Caller.mapError_eq_ok hanswer.symm))
  obtain rfl := Caller.resolve_agree (h.sameBodies_permissions hsystem hprovider)
    (Caller.find_eq_ok_iff.1 hreached).1 (Caller.find_eq_ok_iff.1 hfind).1
  rw [← hstate] at hafter
  have hagree : (disk steps.flags.state).Agree (·.modTime) (disk steps.time.state) :=
    h.agree_flags hsystem fun _ _ => rfl
  exact hagree.eq hlast (by rw [hafter, Volume.object?_put, if_pos rfl])

/-- A word that the last step reports as applied is the word of the object. -/
theorem flagWord_of_flags (hlast : (disk steps.flags.state).object? number = some last)
    {word : UInt32} (hvalue : steps.flags.value = .ok (.applied word)) :
    last.flagWord = some word := by
  obtain ⟨handle, _, hopened, hset, hstate⟩ := h.flags.exists_of_applied hvalue
  have hreached := hsystem.resolve_of_openForFlags hopened
  obtain ⟨held, -, hafter⟩ := Caller.put_of_setFlagWord ((hsystem.setFlagWord handle word).works hset)
  rw [Caller.resolve_agree (h.sameBodies_time hsystem hprovider) hreached
    (Caller.find_eq_ok_iff.1 hfind).1, ← hstate] at hafter
  rw [hafter, Volume.object?_put, if_pos rfl] at hlast
  rw [← Option.some.inj hlast]

/-- Each step whose call worked has its effect on the object in the end. -/
theorem exists_effects : ∃ last, (disk steps.flags.state).object? number = some last ∧
    steps.Effects system caller disk path entry provider options state number object last := by
  have hobject := (Caller.find_eq_ok_iff.1 hfind).2
  have hbody : (disk steps.flags.state).Agree (·.body) (disk state) :=
    h.sameBodies_flags hsystem hprovider
  obtain ⟨last, hlast, hlastBody⟩ := hbody.exists_object hobject
  refine ⟨last, hlast, hlastBody, ?_, ?_, ?_, ?_, ?_, ?_, ?_⟩
  · intro uid gid howner hdiffers huid hgid hworks
    exact h.ids_of_changeOwner hsystem hprovider hfind hlast howner hdiffers huid hgid hworks
  · intro hidle
    have hids := h.agree_ids hsystem hprovider
    rw [(h.owner_idle hidle).2] at hids
    exact Prod.mk.inj (hids.eq hlast hobject)
  · have hkept := h.held_flags (hsystem.leavesAlone_attributesOf number)
    rw [← hkept, Caller.attributesOf, hlast]
    rfl
  · intro held shows valid present sync htruthful hleaves hvalid hcarries hpresent hvalue hskipped
      name hshows
    rw [h.held_flags hleaves]
    rw [h.attributes] at hvalue ⊢
    exact syncAttributes_complete htruthful hvalid hcarries hpresent hvalue hskipped hshows
  · exact h.exists_reached hsystem hprovider hfind
  · exact h.modTime_of_time hsystem hprovider hfind hlast
  · exact fun word => h.flagWord_of_flags hsystem hprovider hfind hlast

end Finishing.Attempts

end Effects

/-- Whatever fails, finishing an object that exists makes every step that applies to the entry, and
the answer is the first hard failure or else a report. A change of ownership is none of the hard
failures, and the report tells whether it failed. Where the calls of the system are those of a
caller unless they fail, each step whose own call worked has its effect on the object in the end. -/
theorem finish_stops_nothing {system : System σ} {root : Path} {entry : Entry} {stat : Stat}
    {state : σ} (provider : AttributeProvider σ) (restorer : FlagRestorer)
    (options : RestoreOptions)
    (hlstat : (system.view state).lstat (entry.fullPath root) = .ok stat) :
    let path := entry.fullPath root
    let steps := finishing system path entry provider restorer options stat state
    let done := (finish system root entry provider restorer options).run state
    steps.Attempts system path entry provider restorer options stat state ∧
      done.state = steps.flags.state ∧
      (∀ error, done.value = .error error ↔ steps.failures.head? = some error) ∧
      (∀ report, done.value = .ok report ↔ report.ownerRestored = steps.owner.value ∧
        steps.attributes.value = .ok report.attributes ∧ steps.permissions.value = .ok () ∧
        steps.time.value = .ok () ∧ steps.flags.value = .ok report.flags) ∧
      ∀ caller disk, system.Obeys caller disk → provider.KeepsToAttributes disk →
        ∃ number object last, caller.find (disk state) false path = .ok (number, object) ∧
          (disk done.state).object? number = some last ∧
          steps.Effects system caller disk path entry provider options state number object last := by
  intro path steps done
  have hattempts := attempts_finishing system path entry provider restorer options stat state
  have hstate : done.state = steps.flags.state := (run_finish provider restorer options hlstat).1
  refine ⟨hattempts, hstate, fun error => value_finish_eq_error_iff hlstat,
    fun report => value_finish_eq_ok_iff hlstat, fun caller disk hsystem hprovider => ?_⟩
  obtain ⟨number, object, hfind, rfl⟩ := Caller.find_of_lstat (hsystem.lstat hlstat)
  obtain ⟨last, hlast, heffects⟩ := hattempts.exists_effects hsystem hprovider hfind
  exact ⟨number, object, last, hfind, hstate ▸ hlast, heffects⟩

def owner : Caller := { isSuperuser := false }

/-- An entry that gives a file away and has an attribute that cannot be made. -/
def greedyEntry : Entry :=
  { Entry.new [0x66] 0o104755 with
    uid := 5
    gid := 5
    modTime := 7
    attributes := some (.ofList [("user.", [1]), ("user.c", [2])])
    flags := some Flags.Ioctl.noDump }

/-- The steps of the owner on a file that has neither. -/
def greedySteps : Finishing Volume :=
  finishing owner.system [0x2F, 0x66] greedyEntry
    (NativeAttributes.provider .unprivileged owner.system) ⟨.unprivileged, .native⟩ {}
    (NativeAttributes.oneFile.statOf 1 NativeAttributes.markedFile) NativeAttributes.oneFile

/-- One step fails and all others work. -/
theorem values_greedySteps :
    (greedySteps.owner.value, greedySteps.failures, greedySteps.permissions.value,
        greedySteps.time.value, greedySteps.flags.value) =
      (false, [⟨.writeExtendedAttribute, [0x2F, 0x66], .os .einval⟩], .ok (), .ok (),
        .ok (.applied Flags.Ioctl.noDump)) := by cbv

/-- The owner cannot be changed and one attribute cannot be made. Permissions, time and flag word
are set nevertheless. -/
theorem finish_stops_nothing_greedyEntry :
    let done := (finish owner.system [0x2F] greedyEntry
      (NativeAttributes.provider .unprivileged owner.system) ⟨.unprivileged, .native⟩ {}).run
        NativeAttributes.oneFile
    done.value = .error ⟨.writeExtendedAttribute, [0x2F, 0x66], .os .einval⟩ ∧
      ∃ last, done.state.object? 1 = some last ∧ last.permissions = 0o4755 ∧ last.modTime = 7 ∧
        last.flagWord = some Flags.Ioctl.noDump := by
  have hpath : greedyEntry.fullPath [0x2F] = [0x2F, 0x66] := by decide
  have hlstat : (owner.system.view NativeAttributes.oneFile).lstat (greedyEntry.fullPath [0x2F]) =
    .ok (NativeAttributes.oneFile.statOf 1 NativeAttributes.markedFile) := by cbv
  have hfile : owner.find NativeAttributes.oneFile false (greedyEntry.fullPath [0x2F]) =
    .ok (1, NativeAttributes.markedFile) := by cbv
  have hvalues := values_greedySteps
  simp only [Prod.mk.injEq] at hvalues
  obtain ⟨-, hfailures, hpermissions, htime, hflags⟩ := hvalues
  obtain ⟨-, hstate, herror, -, heffects⟩ := finish_stops_nothing
    (NativeAttributes.provider .unprivileged owner.system) ⟨.unprivileged, .native⟩ {} hlstat
  obtain ⟨number, object, last, hfind, hlast, heffects⟩ := heffects owner id owner.obeys_system
    (owner.keepsToAttributes_native .unprivileged)
  obtain ⟨rfl, rfl⟩ := Prod.mk.inj (Except.ok.inj (hfind.symm.trans hfile))
  rw [hpath] at hstate herror heffects
  obtain ⟨reached, changed, -, hreached, hchanged, hadmitted⟩ :=
    heffects.permissions (by decide) hpermissions
  rw [hreached (by decide)] at hchanged
  have hsame : changed = last := Option.some.inj
    (hchanged.symm.trans ((congrArg (·.object? 1) hstate).symm.trans hlast))
  refine ⟨(herror _).2 (congrArg List.head? hfailures), last, hlast, ?_, heffects.time htime,
    heffects.flags _ hflags⟩
  rw [← hsame, hadmitted]
  unfold Caller.admitted
  split <;> rfl

end Restore

end TreeManifest
