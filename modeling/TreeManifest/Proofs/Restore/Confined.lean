import TreeManifest.Proofs.Record.Reload
import TreeManifest.Proofs.Restore.Finish
import TreeManifest.Proofs.Volume.Descent

/-!
# Restoring below a root

The operations that restore an entry work on the objects below a root, as long as the path of the
entry stays there: it has to be relative and without the name `..`, and so has the canonical path of
a further name. Nothing checks this when an entry is loaded.

## Main definitions

- `Volume.ChangedBelow`: nothing outside a directory changed.
- `Restore.Operation`: the operations that restore an entry.

## Main statements

- `Restore.Operation.changedBelow_after`: an operation changes nothing outside the root.
-/

namespace TreeManifest

/-- Nothing outside a directory changed, and what is new is below it. -/
def Volume.ChangedBelow (before : Volume) (top : Nat) (after : Volume) : Prop :=
  ∀ number, after.object? number = before.object? number ∨ before.Below top number ∨
    (before.object? number = none ∧ after.Below top number)

namespace Volume

variable {before middle after : Volume} {top number directory : Nat} {name : Bytes}
  {object : VolumeObject}

theorem ChangedBelow.refl (volume : Volume) (top : Nat) : volume.ChangedBelow top volume :=
  fun _ => .inl rfl

theorem names_put (volume : Volume) (number other : Nat) (object : VolumeObject) :
    (volume.put number object).names other =
      if number = other then object.names else volume.names other := by
  rw [names, names, object?_put]
  by_cases hother : number = other
  · rw [if_pos hother, if_pos hother]
  · rw [if_neg hother, if_neg hother]

/-- An object below a directory, in the volume as it was or as a new one. -/
def Reachable (before : Volume) (top : Nat) (after : Volume) (number : Nat) : Prop :=
  before.Below top number ∨ (before.object? number = none ∧ after.Below top number)

/-- What can be reached can still be reached when directories keep their names. -/
theorem Reachable.mono (h : before.Reachable top middle number)
    (hnames : ∀ directory, after.names directory = middle.names directory) :
    before.Reachable top after number :=
  h.imp id (And.imp_right fun hbelow =>
    hbelow.mono fun directory _ hbinding => hnames directory ▸ hbinding)

/-- Further changes of an object below the directory that do not change any names. -/
theorem ChangedBelow.step (h : before.ChangedBelow top middle)
    (hnumber : before.Reachable top middle number)
    (hnames : ∀ directory, after.names directory = middle.names directory)
    (hothers : ∀ other, other ≠ number → after.object? other = middle.object? other) :
    before.ChangedBelow top after := by
  have hbelow : ∀ other, middle.Below top other → after.Below top other := fun other hother =>
    hother.mono fun directory _ hbinding => hnames directory ▸ hbinding
  intro other
  by_cases hother : other = number
  · rw [hother]
    exact .inr (hnumber.imp id (And.imp_right (hbelow number)))
  · rw [hothers other hother]
    exact (h other).imp id (Or.imp id (And.imp_right (hbelow other)))

/-- Touching an object that can be reached from the root stays below it. -/
theorem ChangedBelow.retouched (h : before.ChangedBelow top middle)
    (hnumber : before.Reachable top middle number) (hretouched : middle.Retouched number after) :
    before.ChangedBelow top after :=
  h.step hnumber hretouched.sameBodies.names_eq hretouched.others

/-! ## New names -/

/-- Putting an object under a name keeps all other names. -/
theorem Names.mem_names (h : before.Names directory name number object after)
    (hobject : object.names = before.names number) {other : Nat} {binding : Bytes × Nat}
    (hbinding : binding ∈ before.names other) : binding ∈ after.names other := by
  by_cases hnumber : other = number
  · rw [hnumber] at hbinding ⊢
    rwa [names_eq_of_object? h.object, hobject]
  · by_cases hdirectory : other = directory
    · obtain ⟨above, names, parent, links, habove, hbody, hafter⟩ := h.exists_above
      rw [hdirectory] at hbinding ⊢
      rw [names_eq_of_body habove hbody] at hbinding
      rw [names_eq_of_body hafter rfl]
      exact List.mem_append_left _ hbinding
    · rwa [names_of_object?_eq (h.others other hnumber hdirectory)]

/-- An object put under a name below the root is below the root. -/
theorem Names.below (h : before.Names directory name number object after)
    (hobject : object.names = before.names number) (hdirectory : before.Below top directory) :
    after.Below top number := by
  obtain ⟨above, names, parent, links, -, -, hafter⟩ := h.exists_above
  have hname : (name, number) ∈ after.names directory := by
    rw [names_eq_of_body hafter rfl]
    simp
  exact (hdirectory.mono fun _ _ => h.mem_names hobject).child hname

/-- A name in a directory below another one, for a new object or one that is below already. -/
theorem Names.changedBelow (h : before.Names directory name number object after)
    (hobject : object.names = before.names number) (hdirectory : before.Below top directory)
    (hnumber : before.Below top number ∨ before.object? number = none) :
    before.ChangedBelow top after := by
  intro other
  by_cases hnew : other = number
  · rw [hnew]
    exact .inr (hnumber.imp id fun hnone => ⟨hnone, h.below hobject hdirectory⟩)
  · by_cases habove : other = directory
    · rw [habove]
      exact .inr (.inl hdirectory)
    · exact .inl (h.others other hnew habove)

/-- What is below a directory after a new, empty directory was made. -/
theorem Names.below_or_eq (h : before.Names directory name before.next object after)
    (hobject : object.names = []) (hnumber : after.Below top number) :
    before.Below top number ∨ number = before.next := by
  induction hnumber with
  | top => exact .inl .top
  | @child within number binding _ hname ih =>
    rcases ih with hwithin | rfl
    · by_cases hdirectory : within = directory
      · obtain ⟨above, names, parent, links, habove, hbody, hafter⟩ := h.exists_above
        rw [hdirectory, names_eq_of_body hafter rfl, List.mem_append, List.mem_singleton,
          Prod.mk.injEq] at hname
        rcases hname with hname | ⟨-, hname⟩
        · rw [hdirectory] at hwithin
          rw [← names_eq_of_body habove hbody] at hname
          exact .inl (hwithin.child hname)
        · exact .inr hname
      · by_cases hnew : within = before.next
        · rw [hnew, names_eq_of_object? h.object, hobject] at hname
          cases hname
        · rw [names_of_object?_eq (h.others within hnew hdirectory)] at hname
          exact .inl (hwithin.child hname)
    · rw [names_eq_of_object? h.object, hobject] at hname
      cases hname

/-- Putting a new directory under a name turns nothing into a symlink. -/
theorem Names.target?_eq {parent : Nat} (h : before.Names directory name before.next object after)
    (hfresh : before.IsFresh) (hbody : object.body = .directory [] parent) (number : Nat) :
    (after.object? number).bind (·.target?) = (before.object? number).bind (·.target?) := by
  by_cases hnew : number = before.next
  · rw [hnew, h.object, hfresh _ (Nat.le_refl _)]
    simp [VolumeObject.target?, hbody]
  · by_cases hdirectory : number = directory
    · obtain ⟨above, names, parent, links, habove, hbody, hafter⟩ := h.exists_above
      rw [hdirectory, habove, hafter]
      simp [VolumeObject.target?, hbody]
    · rw [h.others number hnew hdirectory]

/-- A directory below a plain root leaves it one. -/
theorem Names.isPlainRoot {caller : Caller} {root : Path} {parent : Nat}
    (h : before.Names directory name before.next object after) (hfresh : before.IsFresh)
    (hbody : object.body = .directory [] parent) (hroot : before.IsPlainRoot caller root top) :
    after.IsPlainRoot caller root top := by
  have htarget := h.target?_eq hfresh hbody
  have hleaf : before.IsLeaf before.next object := hfresh.isLeaf (by rw [VolumeObject.names, hbody])
  refine ⟨?_, ?_, fun number hnumber => ?_⟩
  · have hresolve := Caller.resolve_eq_ok_iff.1 hroot.resolve_eq
    exact Caller.resolve_eq_ok_iff.2 ⟨hresolve.1, Caller.follow_mono
      (fun _ _ number hlookup => ⟨h.lookup_mono hleaf hlookup, htarget number⟩) hresolve.2⟩
  · obtain ⟨found, names, parent, hfound, hdirectory⟩ := hroot.exists_directory
    by_cases habove : top = directory
    · obtain ⟨above, names, parent, links, -, -, hafter⟩ := h.exists_above
      exact ⟨_, _, _, habove ▸ hafter, rfl⟩
    · exact ⟨found, names, parent,
        (h.others top (Nat.ne_of_lt (hfresh.lt hfound)) habove).trans hfound, hdirectory⟩
  · rw [htarget]
    rcases h.below_or_eq hleaf.names_eq hnumber with hbelow | rfl
    · exact hroot.target?_eq_none number hbelow
    · rw [hfresh _ (Nat.le_refl _)]
      rfl

end Volume

namespace Restore

variable {τ : Type} {caller : Caller} {volume : Volume} {root : Path} {entry : Entry} {top : Nat}

/-! ## Calls -/

/-- A call on a path stays below the root if its change does, for a refused one changes nothing. -/
theorem changedBelow_pathCall {path : Path} {change : Change Unit} (refusal : IoError)
    (h : ∀ after, change volume = .ok ((), after) → volume.ChangedBelow top after) :
    volume.ChangedBelow top (Caller.pathCall refusal path change volume).2 := by
  rcases Caller.pathCall_cases refusal path change volume with
    ⟨-, _, after, hchange, hcall⟩ | ⟨error, hcall⟩
  · rw [hcall]
    exact h after hchange
  · rw [hcall]
    exact .refl volume top

section Calls

variable (hroot : volume.IsPlainRoot caller root top) (hfresh : volume.IsFresh)
  (hstays : Path.Stays entry.path)

include hroot hstays

/-- The parent of a path that stays below the root, and at which nothing exists, is below the
root. -/
theorem below_of_existing_eq_none {place : Caller.Place}
    (hleads : caller.Leads volume (entry.fullPath root) place) (hnone : place.existing = none) :
    volume.Below top place.directory := by
  refine (hroot.below_of_leads hstays hleads).resolve_right ?_
  rintro ⟨number, hsome, -⟩
  rw [hnone] at hsome
  cases hsome

/-- An object that is no directory and no symlink is below the root under its name. -/
theorem below_of_existing_eq_some {place : Caller.Place} {number : Nat} {object : VolumeObject}
    (hleads : caller.Leads volume (entry.fullPath root) place)
    (hexisting : place.existing = some number) (hobject : volume.object? number = some object)
    (htarget : object.target? = none) : volume.Below top number := by
  rcases hroot.below_of_leads hstays hleads with hdirectory | ⟨found, hfound, hcase⟩
  · obtain ⟨above, names, parent, habove, hbody, hlookup⟩ := hleads.exists_directory
    rw [hexisting, ← Volume.names_eq_of_body habove hbody] at hlookup
    exact hdirectory.child (Volume.mem_of_lookup hlookup.symm)
  · rw [hexisting] at hfound
    cases hfound
    rcases hcase with rfl | ⟨target, hsome⟩
    · exact .top
    · rw [hobject, Option.bind_some, htarget] at hsome
      cases hsome

include hfresh

/-- Putting a new object at the path of an entry stays below the root. -/
theorem changedBelow_new {place : Caller.Place} {object : VolumeObject} {after : Volume}
    (hleads : caller.Leads volume (entry.fullPath root) place) (hnone : place.existing = none)
    (hnames : volume.Names place.directory place.name volume.next object after)
    (hobject : object.names = []) : volume.ChangedBelow top after := by
  have hnext := hfresh _ (Nat.le_refl _)
  refine hnames.changedBelow ?_ (below_of_existing_eq_none hroot hstays hleads hnone) (.inr hnext)
  rw [hobject, Volume.names, hnext]

/-- Making the symlink of an entry stays below the root, wherever it points. -/
theorem changedBelow_makeSymlink (target : Bytes) : volume.ChangedBelow top
    (caller.system.makeSymlink target (entry.fullPath root) volume).2 := by
  refine changedBelow_pathCall Caller.nulInName fun after hmade => ?_
  obtain ⟨place, hleads, hnone, hnames⟩ := Caller.names_of_makeSymlink hfresh hmade
  exact changedBelow_new hroot hfresh hstays hleads hnone hnames rfl

/-- Making the node of an entry stays below the root. -/
theorem changedBelow_makeNode (kind : FileKind) (permissions : UInt32) (device : Device) :
    volume.ChangedBelow top
      (caller.system.makeNode (entry.fullPath root) kind permissions device volume).2 := by
  refine changedBelow_pathCall (.os .einval) fun after hmade => ?_
  obtain ⟨place, hleads, hnone, hnames⟩ := Caller.names_of_makeNode hfresh hmade
  exact changedBelow_new hroot hfresh hstays hleads hnone hnames rfl

omit hfresh in
/-- A hard link stays below the root if the path of its canonical entry does. -/
theorem changedBelow_makeLink {canonical : Path} (hcanonical : Path.Stays canonical) :
    volume.ChangedBelow top (caller.system.makeLink (Path.join root canonical)
      (entry.fullPath root) volume).2 := by
  refine changedBelow_pathCall Caller.nulInName fun after hmade => ?_
  obtain ⟨place, number, object, hleads, hnone, hfind, -, hnames⟩ := Caller.names_of_makeLink hmade
  obtain ⟨hresolve, hobject⟩ := Caller.find_eq_ok_iff.1 hfind
  refine hnames.changedBelow (Volume.names_eq_of_object? hobject).symm
    (below_of_existing_eq_none hroot hstays hleads hnone) (.inl ?_)
  exact hroot.below_of_resolve_join (fun _ => rfl) hcanonical hresolve

/-- A directory is made below the root, which keeps what is said about the root. -/
theorem changedBelow_makeDirectory (permissions : UInt32) :
    volume.ChangedBelow top
        (caller.system.makeDirectory (entry.fullPath root) permissions volume).2 ∧
      (caller.system.makeDirectory (entry.fullPath root) permissions volume).2.IsPlainRoot caller
        root top ∧
      ∀ number, (caller.system.makeDirectory (entry.fullPath root) permissions volume).2.Below top
        number → volume.Reachable top
          (caller.system.makeDirectory (entry.fullPath root) permissions volume).2 number := by
  rcases Caller.pathCall_cases Caller.nulInName (entry.fullPath root)
    (caller.makeDirectory (entry.fullPath root) permissions) volume with
    ⟨-, _, after, hmade, hcall⟩ | ⟨error, hcall⟩
  · rw [show caller.system.makeDirectory (entry.fullPath root) permissions volume = _ from hcall]
    obtain ⟨place, hleads, hnone, hnames⟩ := Caller.names_of_makeDirectory hfresh hmade
    refine ⟨changedBelow_new hroot hfresh hstays hleads hnone hnames rfl,
      hnames.isPlainRoot hfresh rfl hroot, fun number hnumber => ?_⟩
    rcases hnames.below_or_eq rfl hnumber with hbelow | rfl
    · exact .inl hbelow
    · exact .inr ⟨hfresh _ (Nat.le_refl _), hnumber⟩
  · rw [show caller.system.makeDirectory (entry.fullPath root) permissions volume = _ from hcall]
    exact ⟨.refl volume top, hroot, fun number hnumber => .inl hnumber⟩

/-- A file is opened below the root. -/
theorem changedBelow_openForWriting : volume.ChangedBelow top
      (caller.system.openForWriting (entry.fullPath root) volume).2 ∧
    ∀ handle, (caller.system.openForWriting (entry.fullPath root) volume).1 = .ok handle →
      volume.Reachable top (caller.system.openForWriting (entry.fullPath root) volume).2
        handle.number := by
  rcases Caller.pathCall_cases Caller.nulInName (entry.fullPath root)
    (caller.openForWriting (entry.fullPath root)) volume with
    ⟨-, handle, after, hopened, hcall⟩ | ⟨error, hcall⟩
  · rw [show caller.system.openForWriting (entry.fullPath root) volume = _ from hcall]
    suffices volume.ChangedBelow top after ∧ volume.Reachable top after handle.number by
      refine ⟨this.1, fun other hother => ?_⟩
      cases hother
      exact this.2
    cases Caller.opened_of_openForWriting hfresh hopened with
    | @made place _ hleads hnone hnames =>
      have hdirectory : volume.Below top place.directory := by
        refine (hroot.below_of_leads hstays hleads).resolve_right ?_
        rintro ⟨number, hexisting, rfl | ⟨target, htarget⟩⟩
        · obtain ⟨object, -, -, hobject, -⟩ := hroot.exists_directory
          rw [hnone number hexisting] at hobject
          cases hobject
        · rw [hnone number hexisting] at htarget
          cases htarget
      have hnext := hfresh _ (Nat.le_refl _)
      have hobject : (caller.newObject volume place.directory (.file [])
          (Caller.filePermissions &&& ~~~caller.withheld)).names = volume.names volume.next := by
        rw [Volume.names, hnext]
        rfl
      exact ⟨hnames.changedBelow hobject hdirectory (.inr hnext),
        .inr ⟨hnext, hnames.below hobject hdirectory⟩⟩
    | @emptied _ number _ _ hleads hexisting hobject hbody =>
      have hbelow := below_of_existing_eq_some hroot hstays hleads hexisting hobject
        (by rw [VolumeObject.target?, hbody])
      have hnone : volume.names number = [] := by
        rw [Volume.names_eq_of_object? hobject, VolumeObject.names, hbody]
      refine ⟨(Volume.ChangedBelow.refl volume top).step (.inl hbelow) (fun directory => ?_)
        fun other hother => ?_, .inl hbelow⟩
      · rw [Volume.names_put]
        split
        · next hsame => rw [← hsame, hnone, VolumeObject.names]
        · rfl
      · rw [Volume.object?_put, if_neg (Ne.symm hother)]
    | special hleads hexisting hobject hbody =>
      exact ⟨.refl volume top, .inl (below_of_existing_eq_some hroot hstays hleads hexisting hobject
        (by rw [VolumeObject.target?, hbody]))⟩
  · rw [show caller.system.openForWriting (entry.fullPath root) volume = _ from hcall]
    refine ⟨.refl volume top, fun handle hhandle => ?_⟩
    cases hhandle

end Calls

/-! ## Phases and contents -/

/-- A phase on an object below the root. -/
theorem maintains_phase {middle : Volume} {restorer : FlagRestorer} {phase : FlagPhase}
    {target : FlagTarget} {mask : FlagMask}
    (hreach : ∀ (state : Volume × τ) (handle : Handle), state.1.SameBodies middle →
      target.Reaches caller.system.beside state handle →
      volume.Reachable top middle handle.number) :
    Task.Maintains
      (fun state : Volume × τ => volume.ChangedBelow top state.1 ∧ state.1.SameBodies middle)
      (restorer.restore caller.system.beside phase entry target mask) := by
  refine FlagRestorer.maintains_restore fun stored handle current state _ hstate htarget _ => ?_
  have hput := @Caller.retouched_setFlagWord caller state.1 handle
    (Flags.merge current stored (restorer.effectiveBits phase mask))
  have hreached := (hreach state handle hstate.2 htarget).mono hstate.2.names_eq
  exact ⟨hstate.1.retouched hreached hput, hput.sameBodies.trans hstate.2⟩

/-- Creating a directory with its flags stays below the root. -/
theorem changedBelow_createDirectory (hroot : volume.IsPlainRoot caller root top)
    (hfresh : volume.IsFresh) (hstays : Path.Stays entry.path) (restorer : FlagRestorer)
    (options : RestoreOptions) :
    Task.Ensures (fun state : Volume × τ => state.1 = volume)
      (createDirectory caller.system.beside root entry restorer options)
      fun _ state => volume.ChangedBelow top state.1 := by
  obtain ⟨hchanged, hplain, hbelow⟩ :=
    changedBelow_makeDirectory hroot hfresh hstays (entry.permissions ||| ownerAccess)
  generalize hmiddle : (caller.system.makeDirectory (entry.fullPath root)
    (entry.permissions ||| ownerAccess) volume).2 = middle at hchanged hplain hbelow
  have hmade : Task.Ensures (fun state : Volume × τ => state.1 = volume)
      (Task.perform (caller.system.beside.makeDirectory (entry.fullPath root)
        (entry.permissions ||| ownerAccess)))
      fun _ state => volume.ChangedBelow top state.1 ∧ state.1.SameBodies middle := by
    rintro state rfl
    have hstate : ((Task.perform (caller.system.beside.makeDirectory (entry.fullPath root)
        (entry.permissions ||| ownerAccess))).run state).state.1 = middle := hmiddle
    rw [hstate]
    exact ⟨hchanged, fun _ => rfl⟩
  have hphase : Task.Maintains
      (fun state : Volume × τ => volume.ChangedBelow top state.1 ∧ state.1.SameBodies middle)
      (restorer.restore caller.system.beside .earlyDirectory entry (.named (entry.fullPath root))
        options.flagMask) := by
    refine maintains_phase fun state handle hsame htarget => hbelow handle.number ?_
    obtain ⟨directory, hopened⟩ := htarget
    exact hplain.below_of_resolve hsame hstays (Caller.resolve_of_openForFlags hopened)
  have hboth : Task.Ensures (fun state : Volume × τ => state.1 = volume)
      (createDirectory caller.system.beside root entry restorer options)
      fun _ state => volume.ChangedBelow top state.1 ∧ state.1.SameBodies middle := by
    refine hmade.bind fun made => ?_
    cases made with
    | ok => exact hphase
    | error error =>
      refine Task.Ensures.bind (Task.maintains_inspect _ _) fun reusable => ?_
      cases reusable with
      | true => exact hphase
      | false => exact Task.maintains_pure _ _
  exact fun state hstate => (hboth state hstate).1

/-- Writing to an open file changes that object only, and no names. -/
def FillsOnly (write : Handle → Call (Volume × τ) Unit) : Prop :=
  ∀ handle state, (∀ directory, (write handle state).2.1.names directory = state.1.names directory) ∧
    ∀ other, other ≠ handle.number →
      (write handle state).2.1.object? other = state.1.object? other

/-- Creating a file with its flags and content stays below the root. -/
theorem changedBelow_createFile (hroot : volume.IsPlainRoot caller root top)
    (hfresh : volume.IsFresh) (hstays : Path.Stays entry.path) (restorer : FlagRestorer)
    (options : RestoreOptions) {write : Handle → Call (Volume × τ) Unit} (hwrite : FillsOnly write) :
    Task.Ensures (fun state : Volume × τ => state.1 = volume)
      (createFile caller.system.beside root entry restorer options write)
      fun _ state => volume.ChangedBelow top state.1 := by
  obtain ⟨hchanged, hreachable⟩ := changedBelow_openForWriting hroot hfresh hstays
  generalize hmiddle : caller.system.openForWriting (entry.fullPath root) volume = middle
    at hchanged hreachable
  have hopened : Task.Ensures (fun state : Volume × τ => state.1 = volume)
      (Task.perform (caller.system.beside.openForWriting (entry.fullPath root)))
      fun opened state => opened = middle.1 ∧ volume.ChangedBelow top state.1 ∧
        state.1.SameBodies middle.2 := by
    rintro state rfl
    have hvalue : ((Task.perform (caller.system.beside.openForWriting
        (entry.fullPath root))).run state).value = middle.1 := congrArg Prod.fst hmiddle
    have hstate : ((Task.perform (caller.system.beside.openForWriting
        (entry.fullPath root))).run state).state.1 = middle.2 := congrArg Prod.snd hmiddle
    rw [hvalue, hstate]
    exact ⟨rfl, hchanged, fun _ => rfl⟩
  refine hopened.bind fun opened => ?_
  cases opened with
  | error error => exact Task.ensures_pure fun _ h => h.2.1
  | ok handle =>
    by_cases hvalue : middle.1 = .ok handle
    · have hhandle := hreachable handle hvalue
      have hphase : Task.Maintains
          (fun state : Volume × τ => volume.ChangedBelow top state.1 ∧ state.1.SameBodies middle.2)
          (restorer.restore caller.system.beside .earlyFile entry
            (.opened handle (entry.fullPath root)) options.flagMask) := by
        refine maintains_phase fun state other _ htarget => ?_
        rwa [show other = handle from htarget]
      have hwritten : Task.Ensures
          (fun state : Volume × τ => volume.ChangedBelow top state.1 ∧ state.1.SameBodies middle.2)
          (Task.perform (write handle)) fun _ state => volume.ChangedBelow top state.1 :=
        fun state hstate => hstate.1.step (hhandle.mono hstate.2.names_eq)
          (hwrite handle state).1 (hwrite handle state).2
      refine Task.Ensures.imp ?_ (fun state hstate => hstate.2) fun _ _ h => h
      refine hphase.bind fun outcome => ?_
      cases outcome with
      | error error => exact Task.ensures_pure fun _ h => h.1
      | ok outcome =>
        refine hwritten.bind fun written => ?_
        cases written with
        | error error => exact Task.ensures_pure fun _ h => h
        | ok => exact Task.ensures_pure fun _ h => h
    · exact fun _ hstate => absurd hstate.1.symm hvalue

theorem changedBelow_finish (hroot : volume.IsPlainRoot caller root top)
    (hstays : Path.Stays entry.path) (restorer : FlagRestorer) (options : RestoreOptions)
    {provider : AttributeProvider (Volume × τ)} (hprovider : provider.NoFollow caller) :
    Task.Ensures (fun state : Volume × τ => state.1 = volume)
      (finish caller.system.beside root entry provider restorer options)
      fun _ state => volume.ChangedBelow top state.1 := by
  rintro state rfl number
  rcases finish_cases hprovider root entry restorer options state with
    hsame | ⟨named, hnamed, hfinishes⟩
  · exact .inl (congrArg (·.object? number) hsame)
  · by_cases hnumber : number = named
    · rw [hnumber]
      exact .inr (.inl (hroot.below_of_resolve (fun _ => rfl) hstays hnamed))
    · refine (hfinishes.others number hnumber).imp id fun hfollows => ?_
      obtain ⟨object, hfind, -⟩ := hfollows.exists_object
      exact .inl (hroot.below_of_resolve (fun _ => rfl) hstays (Caller.find_eq_ok_iff.1 hfind).1)

/-! ## Operations -/

/-- The operations that restore an entry. -/
inductive Operation (τ : Type) where
  | createDirectory
  | createFile (write : Handle → Call (Volume × τ) Unit)
  | createSymlink
  | createHardLink
  | createSpecial
  | finish (provider : AttributeProvider (Volume × τ))

namespace Operation

/-- The volume that an operation leaves behind. -/
def after (operation : Operation τ) (caller : Caller) (root : Path) (entry : Entry)
    (restorer : FlagRestorer) (options : RestoreOptions) (state : Volume × τ) : Volume :=
  let system : System (Volume × τ) := caller.system.beside
  match operation with
  | .createDirectory => ((Restore.createDirectory system root entry restorer options).run state).state.1
  | .createFile write =>
    ((Restore.createFile system root entry restorer options write).run state).state.1
  | .createSymlink => ((Restore.createSymlink system root entry).run state).state.1
  | .createHardLink => ((Restore.createHardLink system root entry).run state).state.1
  | .createSpecial => ((Restore.createSpecial system (entry.fullPath root) entry).run state).state.1
  | .finish provider =>
    ((Restore.finish system root entry provider restorer options).run state).state.1

/-- What an operation is given does only what it is for: content goes to the open file, and access
to attributes follows no symlinks. -/
def IsProper (caller : Caller) : Operation τ → Prop
  | .createFile write => FillsOnly write
  | .finish provider => provider.NoFollow caller
  | _ => True

/-- The paths of an entry that an operation uses cannot leave the root. -/
def Stays (entry : Entry) : Operation τ → Prop
  | .createHardLink =>
    Path.Stays entry.path ∧ ∀ canonical, entry.link = some canonical → Path.Stays canonical
  | _ => Path.Stays entry.path

/-- An operation with paths that stay below the root changes nothing outside it. -/
theorem changedBelow_after {operation : Operation τ} (hroot : volume.IsPlainRoot caller root top)
    (hfresh : volume.IsFresh) (hstays : operation.Stays entry) (hproper : operation.IsProper caller)
    (restorer : FlagRestorer) (options : RestoreOptions) (rest : τ) :
    volume.ChangedBelow top
      (operation.after caller root entry restorer options (volume, rest)) := by
  cases operation with
  | createDirectory =>
    exact changedBelow_createDirectory hroot hfresh hstays restorer options (volume, rest) rfl
  | createFile write =>
    exact changedBelow_createFile hroot hfresh hstays restorer options hproper (volume, rest) rfl
  | createSymlink =>
    simp only [after, Restore.createSymlink]
    split
    · exact .refl volume top
    · next target _ =>
      simp only [Task.run_bind, Task.run_perform]
      split
      · exact changedBelow_makeSymlink hroot hfresh hstays target
      · exact changedBelow_makeSymlink hroot hfresh hstays target
  | createHardLink =>
    simp only [after, Restore.createHardLink]
    split
    · exact .refl volume top
    · next canonical hlink =>
      simp only [Task.run_bind, Task.run_perform]
      split
      · exact changedBelow_makeLink hroot hstays.1 (hstays.2 canonical hlink)
      · exact changedBelow_makeLink hroot hstays.1 (hstays.2 canonical hlink)
  | createSpecial =>
    simp only [after, Restore.createSpecial]
    split
    · exact .refl volume top
    · simp only [Task.run_bind, Task.run_perform]
      split
      · exact changedBelow_makeNode hroot hfresh hstays _ _ _
      · exact changedBelow_makeNode hroot hfresh hstays _ _ _
  | finish provider =>
    exact changedBelow_finish hroot hstays restorer options hproper (volume, rest) rfl

/-- A volume with an empty directory `r` and a file `t` beside it. -/
def fileOutside : Volume where
  objects := [
    (0, { file with body := .directory [([0x72], 1), ([0x74], 2)] 0, permissions := 0o755 }),
    (1, { file with body := .directory [] 0, permissions := 0o755 }),
    (2, file)]
  next := 3
  now := 5
where
  /-- The file. -/
  file : VolumeObject := ⟨.file [1], 0o644, 0, 0, 0, 1, .empty, none⟩

theorem below_fileOutside {number : Nat} (h : fileOutside.Below 1 number) : number = 1 := by
  induction h with
  | top => rfl
  | child _ hname ih =>
    rw [ih] at hname
    cases hname

theorem isPlainRoot_fileOutside : fileOutside.IsPlainRoot {} [0x72] 1 where
  resolve_eq := by cbv
  exists_directory := ⟨_, _, _, rfl, rfl⟩
  target?_eq_none number h := by
    rw [below_fileOutside h]
    rfl

theorem isFresh_fileOutside : fileOutside.IsFresh :=
  Volume.isFresh_of_forall_lt (by decide)

/-- A file that is made in the directory leaves the file beside it alone. -/
theorem changedBelow_fileOutside :
    (after (.createFile fun _ state => (.ok (), state)) {} [0x72] (.new [0x74] 0o100644)
      ⟨.privileged, .native⟩ {} (fileOutside, ())).object? 2 = fileOutside.object? 2 := by
  have hstays : Path.Stays [0x74] := ⟨by decide, by decide⟩
  rcases @changedBelow_after Unit {} fileOutside [0x72] (.new [0x74] 0o100644) 1
    (.createFile fun _ state => (.ok (), state)) isPlainRoot_fileOutside isFresh_fileOutside hstays
    (fun _ _ => ⟨fun _ => rfl, fun _ _ => rfl⟩) ⟨.privileged, .native⟩ {} () 2 with
    hsame | hbelow | ⟨hnone, -⟩
  · exact hsame
  · cases below_fileOutside hbelow
  · cases hnone

/-- A record that can be loaded may name a file beside the root, which is then emptied. -/
theorem not_changedBelow_of_parse : ¬ ∀ (text : String) (entry : Entry),
    Entry.parse text = .ok entry → ∀ (operation : Operation Unit) (caller : Caller) (root : Path)
      (volume : Volume) (top : Nat) (restorer : FlagRestorer) (options : RestoreOptions),
      volume.IsPlainRoot caller root top → volume.IsFresh → operation.IsProper caller →
      volume.ChangedBelow top (operation.after caller root entry restorer options (volume, ())) := by
  intro hall
  have hparse : Entry.parse (Entry.new [0x2F, 0x74] 0o100644).render =
      .ok (.new [0x2F, 0x74] 0o100644) := by
    rw [Entry.parse_render_eq]
    exact congrArg Except.ok (by decide)
  rcases hall _ _ hparse (.createFile fun _ state => (.ok (), state)) {} [0x72] fileOutside 1
    ⟨.privileged, .native⟩ {} isPlainRoot_fileOutside isFresh_fileOutside
    (fun _ _ => ⟨fun _ => rfl, fun _ _ => rfl⟩) 2 with hsame | hbelow | ⟨hnone, -⟩
  · have htime := congrArg (Option.map (·.modTime)) hsame
    have hemptied : ((after (.createFile fun _ state => (.ok (), state)) {} [0x72]
        (.new [0x2F, 0x74] 0o100644) ⟨.privileged, .native⟩ {}
        (fileOutside, ())).object? 2).map (·.modTime) = some 5 := by cbv
    rw [hemptied] at htime
    exact absurd htime (by decide)
  · cases below_fileOutside hbelow
  · cases hnone

end Operation

end Restore

end TreeManifest
