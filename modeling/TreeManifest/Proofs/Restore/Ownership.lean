import TreeManifest.Proofs.Attributes.Namespaces
import TreeManifest.Proofs.Entry.Words
import TreeManifest.Proofs.Restore.Effects
import TreeManifest.Proofs.Restore.Failures

/-!
# What the change of ownership says

The change of ownership answers whether it succeeded. An answer of success means that the object has
the owner and the group of the entry, and one of failure that it has kept its own, with one warning.

The largest number that fits a call is an exception. It passes for an owner or group that the system
can store, but the call takes it for a wish to leave the present one, and succeeds.

## Main definitions

- `System.GivesOwners`: systems whose changes of owner and group mean what they say.
- `Ownership.settled`: the owner or group that such a change leaves.
- `Ownership.Truthful`: runs whose answer says what became of the owner and the group.

## Main statements

- `Caller.givesOwners_system`: the system of a caller on a volume is one of them.
- `Ownership.restore_truthful`: what the change of ownership answers is true.
-/

namespace TreeManifest

/-- Systems that change owner and group of the object itself. The largest number leaves the present
owner or group, and a change that fails leaves both. -/
structure System.GivesOwners {σ : Type} (system : System σ) : Prop where
  works : ∀ {path uid gid state stat}, (system.view state).lstat path = .ok stat →
    (system.changeOwner path uid gid state).1 = .ok () →
    ∃ after, (system.view (system.changeOwner path uid gid state).2).lstat path = .ok after ∧
      after.uid = (if uid = Caller.keepId then stat.uid else uid) ∧
      after.gid = if gid = Caller.keepId then stat.gid else gid
  fails : ∀ {path uid gid state stat error}, (system.view state).lstat path = .ok stat →
    (system.changeOwner path uid gid state).1 = .error error →
    ∃ after, (system.view (system.changeOwner path uid gid state).2).lstat path = .ok after ∧
      after.uid = stat.uid ∧ after.gid = stat.gid

/-! ## Callers -/

namespace Caller

variable {caller : Caller} {volume : Volume} {path : Path} {number : Nat}
  {object changed : VolumeObject}

/-- Who may search a directory may do so after an attempt to give it away. -/
theorem may_search_given (hdirectory : object.isDirectory = true) (uid gid : UInt32) :
    caller.may .search (caller.given uid gid object) = caller.may .search object := by
  unfold given
  split
  · next hgive =>
    have hkept : afterOwnerChange object = object.permissions := if_pos hdirectory
    cases hsuper : caller.isSuperuser with
    | true => simp [may, hsuper, hkept, VolumeObject.isDirectory, VolumeObject.kind]
    | false =>
      simp only [mayGive, hsuper, Bool.false_or, Bool.and_eq_true, Bool.or_eq_true,
        beq_iff_eq] at hgive
      obtain ⟨⟨-, huid⟩, hgid⟩ := hgive
      -- The owner stays, and the group changes only for the owner, whose rights it does not decide.
      have huidKept : (if uid = keepId then object.uid else uid) = object.uid := by
        split
        · rfl
        · next hgiven => exact (huid.resolve_left hgiven).2
      simp only [may, hsuper, hkept, huidKept]
      rcases hgid with hgid | ⟨howner, -⟩
      · simp [hgid]
      · simp [howner]
  · rfl

/-- A path leads where it led before, when one object changes that all who could search it still
can. -/
theorem resolve_put {followLast : Bool} {found : Nat} (hold : volume.object? number = some object)
    (hbody : changed.body = object.body)
    (hmay : changed.isDirectory = true → caller.may .search object = true →
      caller.may .search changed = true)
    (hfound : caller.resolve volume followLast path = .ok found) :
    caller.resolve (volume.put number changed) followLast path = .ok found := by
  obtain ⟨hcheck, hfollow⟩ := resolve_eq_ok_iff.1 hfound
  have hbodies := (Volume.retouched_put hold hbody).sameBodies
  refine resolve_eq_ok_iff.2 ⟨hcheck, follow_mono (fun directory name next hlookup => ?_) hfollow⟩
  refine ⟨lookup_sameBodies hbodies.symm (fun above there habove hthere hdirectory hsearch => ?_)
    hlookup, hbodies.target?_eq next⟩
  rw [Volume.object?_put] at hthere
  split at hthere
  · next hsame =>
    obtain rfl := Option.some.inj hthere
    rw [← hsame, hold] at habove
    obtain rfl := Option.some.inj habove
    exact hmay hdirectory hsearch
  · rw [habove] at hthere
    obtain rfl := Option.some.inj hthere
    exact hsearch

/-- An object that was given away is found where it was. -/
theorem find_put_given (hfind : caller.find volume false path = .ok (number, object))
    (uid gid : UInt32) : caller.find (volume.put number (caller.given uid gid object)) false path =
      .ok (number, caller.given uid gid object) := by
  obtain ⟨hresolve, hobject⟩ := find_eq_ok_iff.1 hfind
  have hbody := caller.body_given uid gid object
  refine find_eq_ok_iff.2 ⟨resolve_put hobject hbody (fun hdirectory hsearch => ?_) hresolve, ?_⟩
  · have hkind : object.isDirectory = true := by
      rw [← hdirectory]
      simp only [VolumeObject.isDirectory, VolumeObject.kind, hbody]
    rwa [may_search_given hkind]
  · rw [Volume.object?_put, if_pos rfl]

/-- What a change of owner and group makes of the object that it finds. -/
theorem given_of_changeOwner {after : Volume} {uid gid : UInt32}
    (hfind : caller.find volume false path = .ok (number, object))
    (hchange : caller.changeOwner path uid gid volume = .ok ((), after)) :
    after = volume.put number (caller.given uid gid object) ∧
      (caller.given uid gid object).uid = (if uid = keepId then object.uid else uid) ∧
      (caller.given uid gid object).gid = if gid = keepId then object.gid else gid := by
  obtain ⟨_, _, hfound, hput⟩ := put_of_changeOwner hchange
  obtain ⟨rfl, rfl⟩ := Prod.mk.inj (Except.ok.inj (hfind.symm.trans hfound))
  rcases changeOwner_cases hfind uid gid with hgiven | ⟨-, errno, herror⟩
  · have hafter := (Prod.mk.inj (Except.ok.inj (hchange.symm.trans hgiven))).2
    have hsame := congrArg (·.object? number) (hput.symm.trans hafter)
    simp only [Volume.object?_put] at hsame
    rw [← Option.some.inj hsame]
    exact ⟨hput, rfl, rfl⟩
  · rw [herror] at hchange
    cases hchange

/-- The calls of a caller mean what they say. -/
theorem givesOwners_system (caller : Caller) : caller.system.GivesOwners where
  works {path uid gid volume stat} hstat hworks := by
    have hnul := nul_notMem_of_lstat hstat
    obtain ⟨number, object, hfind, rfl⟩ := find_of_lstat hstat
    have hchange := (caller.obeys_system.changeOwner path uid gid).works hworks
    obtain ⟨hafter, huid, hgid⟩ := given_of_changeOwner hfind hchange
    refine ⟨volume.statOf number (caller.given uid gid object), ?_, huid, hgid⟩
    rw [show (caller.system.changeOwner path uid gid volume).2 = _ from hafter]
    exact lstat_of_find hnul (find_put_given hfind uid gid)
  fails {path uid gid volume stat error} hstat hfails := by
    have hkept := (caller.obeys_system.changeOwner path uid gid).fails hfails
    rw [show (caller.system.changeOwner path uid gid volume).2 = volume from hkept]
    exact ⟨stat, hstat, rfl, rfl⟩

end Caller

/-! ## Answers -/

namespace Ownership

open NativeAttributes

/-- The owner or group that an object has after it was given one. -/
def settled (wanted present : Int64) : Int64 := if wanted = 0xFFFFFFFF then present else wanted

/-- A call gives an object the owner or group of an entry, unless it is the largest number. -/
theorem toInt64_settled {wanted : Int64} {number : UInt32} (h : idOf? wanted = some number)
    (present : UInt32) :
    (if number = Caller.keepId then present else number).toUInt64.toInt64 =
      settled wanted present.toUInt64.toInt64 := by
  have hwanted := toInt64_of_idOf? h
  unfold settled
  by_cases hkeep : number = Caller.keepId
  · rw [if_pos hkeep, if_pos (by rw [← hwanted, hkeep]; rfl)]
  · rw [if_neg hkeep, hwanted, if_neg]
    intro hlast
    exact hkeep (eq_of_toInt64_eq (hwanted.trans hlast))

/-- An object that has the owner or group already keeps it. -/
@[simp] theorem settled_self (wanted : Int64) : settled wanted wanted = wanted := by
  simp [settled]

/-- A run that answered whether an object got the owner and group of an entry, and told the
truth. -/
structure Truthful (system : System σ) (path : Path) (entry : Entry) (stat : Stat)
    (run : Run σ Bool) : Prop where
  given : run.value = true → run.events = [] ∧
    ∃ after, (system.view run.state).lstat path = .ok after ∧
      after.owner = (settled entry.uid stat.owner.1, settled entry.gid stat.owner.2)
  kept : run.value = false → (∃ message, run.events = [⟨.ownership, .warn, message⟩]) ∧
    ∃ after, (system.view run.state).lstat path = .ok after ∧ after.owner = stat.owner

variable {system : System σ} {path : Path} {entry : Entry} {stat : Stat} {state : σ}
  {events : List Log.Event}

theorem Truthful.of_true (h : events = [] ∧
      ∃ after, (system.view state).lstat path = .ok after ∧
        after.owner = (settled entry.uid stat.owner.1, settled entry.gid stat.owner.2)) :
    Truthful system path entry stat ⟨true, state, events⟩ where
  given _ := h
  kept hfalse := by cases hfalse

theorem Truthful.of_false (h : (∃ message, events = [⟨.ownership, .warn, message⟩]) ∧
      ∃ after, (system.view state).lstat path = .ok after ∧ after.owner = stat.owner) :
    Truthful system path entry stat ⟨false, state, events⟩ where
  given htrue := by cases htrue
  kept _ := h

/-- The change of ownership tells the truth, and it fails for an object with another owner or group
exactly if the system has no number for those of the entry or refuses them. -/
theorem restore_truthful (hsystem : system.GivesOwners) (huid : entry.uid ≠ Entry.unknownId)
    (hgid : entry.gid ≠ Entry.unknownId) (hstat : (system.view state).lstat path = .ok stat) :
    Truthful system path entry stat ((restore system path entry stat).run state) ∧
      (((restore system path entry stat).run state).value = false ↔
        stat.owner ≠ (entry.uid, entry.gid) ∧ ∀ uid gid, idOf? entry.uid = some uid →
          idOf? entry.gid = some gid →
          ∃ error, (system.changeOwner path uid gid state).1 = .error error) := by
  have hends := Restore.ownershipEnds_restore system path entry stat state
  generalize (restore system path entry stat).run state = run at hends ⊢
  cases hends with
  | idle hsame =>
    have howner : stat.owner = (entry.uid, entry.gid) :=
      by_contra fun hother => hsame ⟨huid, hgid, hother⟩
    refine ⟨.of_true ⟨rfl, stat, hstat, ?_⟩, fun hfalse => ?_, fun hother => ?_⟩
    · rw [howner, settled_self, settled_self]
    · cases hfalse
    · exact absurd howner hother.1
  | outOfRange hdiffers hrange message =>
    refine ⟨.of_false ⟨⟨message, rfl⟩, stat, hstat, rfl⟩,
      fun _ => ⟨hdiffers.2.2, fun uid gid hu hg => ?_⟩, fun _ => rfl⟩
    simp [hu, hg] at hrange
  | changed hdiffers hu hg hworks =>
    obtain ⟨after, hafter, hafterUid, hafterGid⟩ := hsystem.works hstat hworks
    refine ⟨.of_true ⟨rfl, after, hafter, ?_⟩, fun hfalse => ?_, fun hother => ?_⟩
    · rw [Stat.owner, hafterUid, hafterGid, toInt64_settled hu, toInt64_settled hg]
      rfl
    · cases hfalse
    · obtain ⟨error, hfails⟩ := hother.2 _ _ hu hg
      cases hworks.symm.trans hfails
  | refused hdiffers hu hg hfails message =>
    obtain ⟨after, hafter, hafterUid, hafterGid⟩ := hsystem.fails hstat hfails
    refine ⟨.of_false ⟨⟨message, rfl⟩, after, hafter, ?_⟩,
      fun _ => ⟨hdiffers.2.2, fun uid gid hu' hg' => ?_⟩, fun _ => rfl⟩
    · rw [Stat.owner, hafterUid, hafterGid, Stat.owner]
    · obtain rfl := Option.some.inj (hu.symm.trans hu')
      obtain rfl := Option.some.inj (hg.symm.trans hg')
      exact ⟨_, hfails⟩

/-- An entry whose group is the largest number. -/
def lastGroup : Entry :=
  { Entry.new [0x66] 0o100644 with uid := 5, gid := 4294967295 }

theorem lstat_oneFile : (superuser.system.view oneFile).lstat [0x66] =
    .ok (oneFile.statOf 1 markedFile) :=
  Caller.lstat_of_find (by decide) (Caller.find_eq_ok_iff.2 ⟨by cbv, rfl⟩)

/-- The file gets the owner, keeps its group, and the change succeeds. -/
theorem restore_truthful_lastGroup :
    let run := (restore superuser.system [0x66] lastGroup (oneFile.statOf 1 markedFile)).run oneFile
    run.value = true ∧ run.events = [] ∧
      ∃ after, (superuser.system.view run.state).lstat [0x66] = .ok after ∧
        after.owner = (5, 0) := by
  have hanswer :
      ((restore superuser.system [0x66] lastGroup (oneFile.statOf 1 markedFile)).run oneFile).value =
        true := by cbv
  have htruthful : Truthful superuser.system [0x66] lastGroup _ _ :=
    (restore_truthful superuser.givesOwners_system (by decide) (by decide) lstat_oneFile).1
  exact ⟨hanswer, htruthful.given hanswer⟩

/-- An entry whose owner and group are both the largest number. -/
def lastIds : Entry :=
  { Entry.new [0x66] 0o100644 with uid := 4294967295, gid := 4294967295 }

/-- An answer of success does not mean that the object has the owner and group of the entry: a call
with the largest numbers leaves both as they are, which anybody may ask for. -/
theorem not_forall_restored_owner :
    ¬ ∀ (caller : Caller) (volume : Volume) (path : Path) (entry : Entry) (stat after : Stat),
      entry.uid ≠ Entry.unknownId → entry.gid ≠ Entry.unknownId →
      (caller.system.view volume).lstat path = .ok stat →
      ((restore caller.system path entry stat).run volume).value = true →
      (caller.system.view ((restore caller.system path entry stat).run volume).state).lstat path =
        .ok after →
      after.owner = (entry.uid, entry.gid) := by
  intro h
  have hanswer :
      ((restore superuser.system [0x66] lastIds (oneFile.statOf 1 markedFile)).run oneFile).value =
        true := by cbv
  have hkept := h superuser oneFile [0x66] lastIds (oneFile.statOf 1 markedFile)
    (oneFile.statOf 1 markedFile) (by decide) (by decide) lstat_oneFile hanswer (by cbv)
  exact absurd hkept (by decide)

end Ownership

end TreeManifest
