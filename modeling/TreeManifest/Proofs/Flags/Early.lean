import TreeManifest.Proofs.Flags.Phases
import TreeManifest.Proofs.Volume.Calls
import TreeManifest.Restore.Listing

/-!
# The early phases of a restore

A directory gets some of its flags while it is empty, and a file before it has content. Neither may
become unchangeable at that point, so the bits that block changes stay what they were on every object
of the volume, and a new object has none of them.

## Main definitions

- `Volume.blockingBits`: the bits of an object that block changes.

## Main statements

- `Restore.blockingBits_early`: making directories and files leaves these bits alone.
-/

namespace TreeManifest

open Flags.Ioctl

/-- The flags of an object that block changes. An object without a flag word has none. -/
def VolumeObject.blockingBits (object : VolumeObject) : UInt32 :=
  object.flagWord.getD 0 &&& immutableClass

/-- The flags of an object of a volume that block changes. There are none where there is no
object. -/
def Volume.blockingBits (volume : Volume) (number : Nat) : UInt32 :=
  ((volume.object? number).map (·.blockingBits)).getD 0

/-- Two volumes agree in all flags that block changes. -/
def Volume.SameBlocking (first second : Volume) : Prop :=
  ∀ number, first.blockingBits number = second.blockingBits number

namespace Volume

variable {before after : Volume} {number : Nat} {object old : VolumeObject}

theorem SameBlocking.trans {third : Volume} (h : after.SameBlocking before)
    (h' : before.SameBlocking third) : after.SameBlocking third :=
  fun number => (h number).trans (h' number)

theorem sameBlocking_put (hold : before.object? number = some old)
    (h : object.blockingBits = old.blockingBits) :
    (before.put number object).SameBlocking before := by
  intro other
  rw [blockingBits, blockingBits, object?_put]
  by_cases hother : number = other
  · rw [if_pos hother, ← hother, hold]
    exact h
  · rw [if_neg hother]

/-- A name for a new object changes no flags that block changes if the object has none. -/
theorem Names.sameBlocking {directory : Nat} {name : Bytes}
    (h : before.Names directory name before.next object after) (hfresh : before.IsFresh)
    (hobject : object.blockingBits = 0) : after.SameBlocking before := by
  intro other
  rw [blockingBits, blockingBits]
  by_cases hnew : other = before.next
  · rw [hnew, h.object, hfresh _ (Nat.le_refl _)]
    exact hobject
  · by_cases hdirectory : other = directory
    · obtain ⟨above, names, parent, links, habove, -, hafter⟩ := h.exists_above
      rw [hdirectory, habove, hafter]
      rfl
    · rw [h.others other hnew hdirectory]

end Volume

namespace Caller

variable {caller : Caller} {volume : Volume}

/-- The flags that are taken over from a directory do not block changes. -/
theorem blockingBits_newObject (volume : Volume) (directory : Nat) (body : VolumeBody)
    (permissions : UInt32) :
    (caller.newObject volume directory body permissions).blockingBits = 0 := by
  have htaken : ∀ word : Option UInt32,
      (word.map (· &&& VolumeObject.inheritedFlags)).getD 0 &&& immutableClass = 0 := by
    intro word
    cases word with
    | none => rfl
    | some word =>
      show (word &&& VolumeObject.inheritedFlags) &&& immutableClass = 0
      rw [UInt32.and_assoc, show VolumeObject.inheritedFlags &&& immutableClass = 0 by decide,
        UInt32.and_zero]
  cases body with
  | file | directory => exact htaken _
  | symlink | special => exact htaken none

theorem sameBlocking_makeDirectory (hfresh : volume.IsFresh) (path : Path) (permissions : UInt32) :
    (caller.system.makeDirectory path permissions volume).2.IsFresh ∧
      (caller.system.makeDirectory path permissions volume).2.SameBlocking volume := by
  rcases pathCall_cases nulInName path (caller.makeDirectory path permissions) volume with
    ⟨-, _, after, hmade, hcall⟩ | ⟨error, hcall⟩
  · obtain ⟨place, -, -, hnames⟩ := names_of_makeDirectory hfresh hmade
    rw [show caller.system.makeDirectory path permissions volume = _ from hcall]
    exact ⟨hnames.isFresh hfresh, hnames.sameBlocking hfresh (caller.blockingBits_newObject volume
      place.directory (.directory [] place.directory) permissions)⟩
  · rw [show caller.system.makeDirectory path permissions volume = _ from hcall]
    exact ⟨hfresh, fun _ => rfl⟩

theorem sameBlocking_openForWriting (hfresh : volume.IsFresh) (path : Path) :
    (caller.system.openForWriting path volume).2.SameBlocking volume := by
  rcases pathCall_cases nulInName path (caller.openForWriting path) volume with
    ⟨-, handle, after, hopened, hcall⟩ | ⟨error, hcall⟩
  · rw [show caller.system.openForWriting path volume = _ from hcall]
    cases opened_of_openForWriting hfresh hopened with
    | made hleads hnone hnames =>
      exact hnames.sameBlocking hfresh (blockingBits_newObject ..)
    | emptied hleads hexisting hobject => exact Volume.sameBlocking_put hobject rfl
    | special => exact fun _ => rfl
  · rw [show caller.system.openForWriting path volume = _ from hcall]
    exact fun _ => rfl

/-- Replacing the flag word by one with the same blocking bits. -/
theorem sameBlocking_setFlagWord {handle : Handle} {current word : UInt32}
    (hcurrent : (caller.system.view volume).flagWord handle = .ok current)
    (h : word &&& immutableClass = current &&& immutableClass) :
    (caller.system.setFlagWord handle word volume).2.SameBlocking volume := by
  rcases call_cases (caller.setFlagWord handle word) volume with
    ⟨_, after, hset, hcall⟩ | ⟨error, hcall⟩
  · rw [show caller.system.setFlagWord handle word volume = _ from hcall]
    obtain ⟨object, hobject, rfl⟩ := put_of_setFlagWord hset
    have hword : object.flagWord = some current := by
      have hread : (Caller.flagWord volume handle).mapError IoError.os = .ok current := hcurrent
      replace hread := mapError_eq_ok hread
      simp only [flagWord, hobject, Option.bind_some] at hread
      split at hread
      · next found hfound => rw [hfound, Except.ok.inj hread]
      · cases hread
    refine Volume.sameBlocking_put hobject ?_
    rw [VolumeObject.blockingBits, VolumeObject.blockingBits, hword]
    exact h
  · rw [show caller.system.setFlagWord handle word volume = _ from hcall]
    exact fun _ => rfl

/-- An early phase leaves the blocking bits of every object alone. -/
theorem maintains_early {phase : FlagPhase} (hphase : phase ≠ .late) (restorer : FlagRestorer)
    (entry : Entry) (target : FlagTarget) (mask : FlagMask) :
    Task.Maintains (·.SameBlocking volume)
      (restorer.restore caller.system phase entry target mask) := by
  refine FlagRestorer.maintains_restore fun stored handle current state hfamily hstate _ hcurrent =>
    (sameBlocking_setFlagWord hcurrent (Flags.merge_and_of_disjoint ?_)).trans hstate
  have hdisjoint :=
    FlagPhase.effectiveBits_and_immutableClass hphase restorer.family restorer.privilege mask
  rw [hfamily] at hdisjoint
  rw [FlagRestorer.effectiveBits, hfamily]
  exact hdisjoint

end Caller

namespace Restore

variable {caller : Caller} {volume : Volume} {root : Path} {entry : Entry}
  {restorer : FlagRestorer} {options : RestoreOptions}

/-- Creating a directory sets and clears no bit that blocks changes. -/
theorem ensures_createDirectory (hfresh : volume.IsFresh) :
    Task.Ensures (· = volume) (createDirectory caller.system root entry restorer options)
      fun _ => (·.SameBlocking volume) := by
  have hmade : Task.Ensures (· = volume) (Task.perform (caller.system.makeDirectory
      (entry.fullPath root) (entry.permissions ||| ownerAccess)))
      fun _ => (·.SameBlocking volume) := by
    rintro _ rfl
    exact (caller.sameBlocking_makeDirectory hfresh _ _).2
  have hphase : Task.Maintains (·.SameBlocking volume) (restorer.restore caller.system
      .earlyDirectory entry (.named (entry.fullPath root)) options.flagMask) :=
    Caller.maintains_early (by decide) restorer entry _ options.flagMask
  refine hmade.bind fun made => ?_
  cases made with
  | ok => exact hphase
  | error error =>
    refine Task.Ensures.bind (Task.maintains_inspect _ _) fun reusable => ?_
    cases reusable with
    | true => exact hphase
    | false => exact Task.maintains_pure _ _

/-- Creating a file sets and clears no bit that blocks changes, unless writing its content does. -/
theorem ensures_createFile (hfresh : volume.IsFresh) {write : Handle → Call Volume Unit}
    (hwrite : ∀ handle state, state.SameBlocking volume →
      (write handle state).2.SameBlocking volume) :
    Task.Ensures (· = volume) (createFile caller.system root entry restorer options write)
      fun _ => (·.SameBlocking volume) := by
  have hopened : Task.Ensures (· = volume) (Task.perform (caller.system.openForWriting
      (entry.fullPath root))) fun _ => (·.SameBlocking volume) := by
    rintro _ rfl
    exact caller.sameBlocking_openForWriting hfresh _
  have hphase (handle : Handle) : Task.Maintains (·.SameBlocking volume) (restorer.restore
      caller.system .earlyFile entry (.opened handle (entry.fullPath root)) options.flagMask) :=
    Caller.maintains_early (by decide) restorer entry _ options.flagMask
  have hwritten (handle : Handle) :
      Task.Maintains (·.SameBlocking volume) (Task.perform (write handle)) :=
    Task.ensures_perform (hwrite handle)
  refine hopened.bind fun opened => ?_
  cases opened with
  | error error => exact Task.maintains_pure _ _
  | ok handle =>
    refine (hphase handle).bind fun outcome => ?_
    cases outcome with
    | error error => exact Task.maintains_pure _ _
    | ok outcome =>
      refine (hwritten handle).bind fun written => ?_
      cases written with
      | error error => exact Task.maintains_pure _ _
      | ok => exact Task.maintains_pure _ _

/-- Whatever the stored word, an early phase of any family keeps the bits that block changes and all
bits that the caller does not allow to change. So making a directory or a file leaves the blocking
bits of all objects as they are, and a new object has none. -/
theorem blockingBits_early (hfresh : volume.IsFresh) {write : Handle → Call Volume Unit}
    (hwrite : ∀ handle state, state.SameBlocking volume →
      (write handle state).2.SameBlocking volume) :
    (∀ (family : FlagFamily) (privilege : Privilege) (mask : FlagMask) (stored live : UInt32),
      ∀ phase ∈ [FlagPhase.earlyDirectory, .earlyFile],
        let word := Flags.merge live stored (phase.effectiveBits family privilege mask)
        word &&& family.immutableClass = live &&& family.immutableClass ∧
          word &&& ~~~mask.bits = live &&& ~~~mask.bits) ∧
      ∀ number,
        ((createDirectory caller.system root entry restorer options).run
          volume).state.blockingBits number = volume.blockingBits number ∧
        ((createFile caller.system root entry restorer options write).run
          volume).state.blockingBits number = volume.blockingBits number := by
  refine ⟨?_, fun number => ⟨ensures_createDirectory hfresh volume rfl number,
    ensures_createFile hfresh hwrite volume rfl number⟩⟩
  intro family privilege mask stored live phase hphase
  have hearly : phase ≠ .late := by
    rintro rfl
    simp at hphase
  exact ⟨Flags.merge_and_of_disjoint
      (FlagPhase.effectiveBits_and_immutableClass hearly family privilege mask),
    Flags.merge_and_of_disjoint (phase.effectiveBits_and_not_bits family privilege mask)⟩

/-- An entry of a directory with every flag. -/
def flaggedDirectory : Entry :=
  { Entry.new [0x64] 0o40755 with flags := some 0xFFFFFFFF }

/-- In a directory that is append-only, a directory is made with a word of all flags: it gets the
early ones, and neither of the two changes its blocking bits. -/
theorem blockingBits_early_flaggedDirectory :
    let volume := Volume.empty 0 (some appendOnly)
    let after := ((createDirectory (Caller.system {}) [0x2F] flaggedDirectory
      ⟨.privileged, .native⟩ {}).run volume).state
    (after.object? 1).bind (·.flagWord) = some directoryEarly ∧ after.blockingBits 1 = 0 ∧
      after.blockingBits Volume.top = appendOnly := by
  have hearly := (@blockingBits_early {} _ [0x2F] flaggedDirectory ⟨.privileged, .native⟩ {}
    (Volume.isFresh_empty 0 (some appendOnly)) (fun _ state => (.ok (), state))
    (fun _ _ h => h)).2
  exact ⟨by cbv, (hearly 1).1, (hearly Volume.top).1⟩

end Restore

end TreeManifest
