import TreeManifest.Proofs.Flags.Phases
import TreeManifest.Proofs.Volume.Captured
import TreeManifest.Proofs.Volume.Descent
import TreeManifest.Restore.Listing

/-!
# What making an object does

Where nothing is found at the path of an entry, making its object gives one new name to an object:
to a new one that consists of what the entry says, or to the one that the entry is a further name
of. Nothing else is changed.

## Main definitions

- `Restore.Fits`: an object consists of what an entry says.
- `Restore.Makes`, `Restore.Adds`: the object that gets a name, and how it gets it.

## Main statements

- `Restore.adds_create`: what making an object does, if it works.
-/

namespace TreeManifest

namespace Caller

variable {caller : Caller} {volume after : Volume} {directory : Nat} {body : VolumeBody}
  {permissions : UInt32}

/-! ## New objects -/

theorem flagWord_newObject (hplain : volume.IsPlain) :
    (caller.newObject volume directory body permissions).flagWord = none := by
  have habove : (volume.object? directory).bind (·.flagWord) = none := by
    cases hobject : volume.object? directory with
    | none => rfl
    | some object => exact (hplain.object hobject).flagWord_eq
  unfold newObject
  dsimp only
  rw [habove]
  cases body <;> rfl

theorem isPlain_newObject (hplain : volume.IsPlain)
    (hpermissions : permissions &&& FileKind.permissionMask = permissions)
    (hspecial : ∀ kind rawDevice, body = .special kind rawDevice → kind.isSpecial = true)
    (hsymlink : ∀ target, body = .symlink target → permissions = symlinkPermissions) :
    (caller.newObject volume directory body permissions).IsPlain where
  flagWord_eq := flagWord_newObject hplain
  permissions_eq := hpermissions
  isSpecial := hspecial
  permissions_of_symlink hkind := by
    unfold VolumeObject.kind newObject at hkind
    cases body with
    | file | directory => cases hkind
    | symlink target => exact hsymlink target rfl
    | special kind rawDevice =>
      have hkind' : kind = .symlink := hkind
      have := hspecial kind rawDevice rfl
      rw [hkind'] at this
      cases this

/-- A new directory is a plain object of a plain volume. -/
theorem isPlain_newDirectory (hplain : volume.IsPlain) (directory : Nat) (permissions : UInt32) :
    (caller.newDirectory volume directory permissions).IsPlain := by
  have hlimit : directoryPermissions &&& FileKind.permissionMask = directoryPermissions := rfl
  have hgroup : setGroupId &&& FileKind.permissionMask = setGroupId := rfl
  have hword : (caller.newObject volume directory (.directory [] directory)
      (permissions &&& directoryPermissions &&& ~~~caller.withheld)).flagWord = none :=
    flagWord_newObject hplain
  refine ⟨hword, ?_,
    fun _ _ hbody => (nomatch hbody), fun hsymlink => (nomatch hsymlink)⟩
  have hpermissions := FileKind.and_permissionMask_of_and
    (FileKind.and_permissionMask_of_and hlimit permissions) (~~~caller.withheld)
  rw [UInt32.and_comm directoryPermissions] at hpermissions
  show (if _ then _ else _) &&& FileKind.permissionMask = if _ then _ else _
  split
  · rw [FileKind.or_and_distrib]
    exact congrArg₂ _ hpermissions hgroup
  · exact hpermissions

/-- A call on a path that works makes its change. -/
theorem pathCall_eq_ok {α : Type} {change : Change α} {refusal : IoError} {path : Path} {value : α}
    (h : (pathCall refusal path change volume).1 = .ok value) :
    ∃ after, change volume = .ok (value, after) ∧
      pathCall refusal path change volume = (.ok value, after) := by
  rcases pathCall_cases refusal path change volume with
    ⟨-, found, after, hchange, hcall⟩ | ⟨_, hcall⟩
  · rw [hcall] at h
    obtain rfl := Except.ok.inj h
    exact ⟨after, hchange, hcall⟩
  · rw [hcall] at h
    cases h

end Caller

namespace Restore

/-- An object consists of what an entry says, with the given content if it is a file. -/
inductive Fits (entry : Entry) (content : Bytes) : VolumeBody → Prop where
  | file (hkind : entry.kind = .regular) : Fits entry content (.file content)
  | directory (hkind : entry.kind = .directory) (names : List (Bytes × Nat)) (parent : Nat) :
      Fits entry content (.directory names parent)
  | symlink {target : Bytes} (hkind : entry.kind = .symlink) (hlink : entry.link = some target) :
      Fits entry content (.symlink target)
  | special (hkind : entry.kind.isSpecial = true) :
      Fits entry content (.special entry.kind
        (if entry.kind.isDevice then (entry.device?.getD ⟨0, 0⟩).toRaw else 0))

/-- The object that gets a name when the object of an entry is made: a new one that consists of what
the entry says, or the one at the canonical path, which has one name more from now on. -/
inductive Makes (caller : Caller) (target : Path) (entry : Entry) (content : Bytes)
    (before : Volume) : Nat → VolumeObject → Prop where
  | new {object : VolumeObject} (hrole : entry.role ≠ .linkTo)
      (hfits : Fits entry content object.body) (hplain : object.IsPlain)
      (hattributes : object.attributes = .empty)
      (hcount : object.isDirectory = false → object.linkCount = 1) (hnames : object.names = []) :
      Makes caller target entry content before before.next object
  | link {canonical : Path} {number : Nat} {old : VolumeObject} (hrole : entry.role = .linkTo)
      (hlink : entry.link = some canonical)
      (hfind : caller.find before false (Path.join target canonical) = .ok (number, old))
      (hfile : old.isDirectory = false) :
      Makes caller target entry content before number { old with linkCount := old.linkCount + 1 }

variable {caller : Caller} {target : Path} {entry : Entry} {content : Bytes}
  {before after middle : Volume} {directory number : Nat} {name : Bytes}
  {object changed : VolumeObject}

theorem Fits.kind_eq (h : Fits entry content object.body) : object.kind = entry.kind := by
  unfold VolumeObject.kind
  generalize object.body = body at h
  cases h with
  | file hkind => exact hkind.symm
  | directory hkind => exact hkind.symm
  | symlink hkind => exact hkind.symm
  | special => rfl

theorem names_eq_nil_of_isDirectory (h : object.isDirectory = false) : object.names = [] := by
  unfold VolumeObject.names
  unfold VolumeObject.isDirectory VolumeObject.kind at h
  cases hbody : object.body with
  | directory =>
    rw [hbody] at h
    cases h
  | file | symlink | special => rfl

/-- What is made leads nowhere yet. -/
theorem Makes.isLeaf (h : Makes caller target entry content before number object)
    (hfresh : before.IsFresh) : before.IsLeaf number object := by
  cases h with
  | new _ _ _ _ _ hnames => exact hfresh.isLeaf hnames
  | link _ _ hfind hfile =>
    refine ⟨names_eq_nil_of_isDirectory hfile, fun old hold => ?_⟩
    obtain rfl := Option.some.inj ((Caller.find_eq_ok_iff.1 hfind).2.symm.trans hold)
    exact ⟨rfl, hfile⟩

/-- What is made is a plain object. -/
theorem Makes.isPlain (h : Makes caller target entry content before number object)
    (hplain : before.IsPlain) : object.IsPlain := by
  cases h with
  | new _ _ hobject => exact hobject
  | link _ _ hfind =>
    have hold := hplain.object (Caller.find_eq_ok_iff.1 hfind).2
    exact ⟨hold.flagWord_eq, hold.permissions_eq, hold.isSpecial, hold.permissions_of_symlink⟩

/-- A volume stays plain when a plain object is put under a name. -/
theorem isPlain_of_names (h : before.Names directory name number object after)
    (hplain : before.IsPlain) (hobject : object.IsPlain) : after.IsPlain := by
  refine ⟨h.isFresh hplain.isFresh, fun {other found} hfound => ?_⟩
  by_cases hnumber : other = number
  · rw [hnumber, h.object] at hfound
    exact Option.some.inj hfound ▸ hobject
  · by_cases hdirectory : other = directory
    · obtain ⟨above, names, parent, links, habove, -, hafter⟩ := h.exists_above
      rw [hdirectory, hafter] at hfound
      obtain rfl := Option.some.inj hfound
      have hold := hplain.object habove
      exact ⟨hold.flagWord_eq, hold.permissions_eq, fun _ _ hbody => (nomatch hbody),
        fun hsymlink => (nomatch hsymlink)⟩
    · rw [h.others other hnumber hdirectory] at hfound
      exact hplain.object hfound

/-! ## Parts of making an object -/

theorem exists_of_map_eq_ok {ε α β : Type} {answer : Except ε α} {change : α → β} {value : β}
    (h : answer.map change = .ok value) : ∃ found, answer = .ok found := by
  cases answer with
  | error error => cases h
  | ok found => exact ⟨found, rfl⟩

/-- A further change of an object that got a name. -/
theorem names_of_change (h : before.Names directory name number object middle)
    (hobjects : ∀ other, after.object? other =
      if number = other then some changed else middle.object? other)
    (hnext : after.next = middle.next) (htimes : after.times = middle.times) :
    before.Names directory name number changed after := by
  obtain ⟨hne, -, ⟨above, names, parent, links, habove, hbody, hmiddle⟩, hothers, hle, hsucc,
    hlt, hheld⟩ := h
  refine ⟨hne, ?_, ⟨above, names, parent, links, habove, hbody, ?_⟩,
    fun other hnumber hdirectory => ?_, hnext ▸ hle, hnext ▸ hsucc, hnext ▸ hlt,
    htimes.trans hheld⟩
  · rw [hobjects, if_pos rfl]
  · rw [hobjects, if_neg hne, hmiddle]
  · rw [hobjects, if_neg (Ne.symm hnumber), hothers other hnumber hdirectory]

section Creating

variable (hsuper : caller.isSuperuser = true) (hplain : before.IsPlain)
  (hflags : entry.flags = none)
  (hfree : ∀ place, caller.Leads before (entry.fullPath target) place → place.existing = none)
  (hlost : ∀ number, caller.resolve before false (entry.fullPath target) ≠ .ok number)

/-- A task leaves a volume in which an object got a name at the place of an entry. -/
def Adds (caller : Caller) (target : Path) (entry : Entry) (content : Bytes)
    (before after : Volume) : Prop :=
  ∃ place number object, caller.Leads before (entry.fullPath target) place ∧
    Makes caller target entry content before number object ∧
    before.Names place.directory place.name number object after

include hplain

/-- Making a directory adds the object that its entry describes. -/
theorem adds_makeDirectory (hrole : entry.role ≠ .linkTo) (hkind : entry.kind = .directory)
    {permissions : UInt32}
    (h : caller.makeDirectory (entry.fullPath target) permissions before = .ok ((), after)) :
    Adds caller target entry content before after := by
  obtain ⟨place, hleads, -, hnames⟩ := Caller.names_of_makeDirectory hplain.isFresh h
  refine ⟨place, _, _, hleads, .new hrole (.directory hkind _ _) ?_ rfl ?_ rfl, hnames⟩
  · exact Caller.isPlain_newDirectory hplain place.directory permissions
  · intro hfile
    cases hfile

/-- Making a symlink adds the object that its entry describes. -/
theorem adds_makeSymlink (hrole : entry.role ≠ .linkTo) (hkind : entry.kind = .symlink)
    {link : Path} (hlink : entry.link = some link)
    (h : caller.makeSymlink link (entry.fullPath target) before = .ok ((), after)) :
    Adds caller target entry content before after := by
  obtain ⟨place, hleads, -, hnames⟩ := Caller.names_of_makeSymlink hplain.isFresh h
  exact ⟨place, _, _, hleads, .new hrole (.symlink hkind hlink)
    (Caller.isPlain_newObject hplain rfl (fun _ _ hbody => (nomatch hbody)) fun _ _ => rfl) rfl
    (fun _ => rfl) rfl, hnames⟩

/-- Making a node adds the object that its entry describes. -/
theorem adds_makeNode (hrole : entry.role ≠ .linkTo) (hkind : entry.kind.isSpecial = true)
    (h : caller.makeNode (entry.fullPath target) entry.kind entry.permissions
      (entry.device?.getD ⟨0, 0⟩) before = .ok ((), after)) :
    Adds caller target entry content before after := by
  obtain ⟨place, hleads, -, hnames⟩ := Caller.names_of_makeNode hplain.isFresh h
  refine ⟨place, _, _, hleads, .new hrole (.special hkind)
    (Caller.isPlain_newObject hplain
      (FileKind.and_permissionMask_of_and entry.permissions_and_permissionMask _) ?_
      fun _ hbody => (nomatch hbody)) rfl (fun _ => rfl) rfl, hnames⟩
  rintro kind rawDevice hbody
  obtain ⟨rfl, -⟩ := VolumeBody.special.inj hbody
  exact hkind

omit hplain in
/-- Making a hard link adds a name for the object of the canonical entry. -/
theorem adds_makeLink (hrole : entry.role = .linkTo) {canonical : Path}
    (hlink : entry.link = some canonical)
    (h : caller.makeLink (Path.join target canonical) (entry.fullPath target) before =
      .ok ((), after)) : Adds caller target entry content before after := by
  obtain ⟨place, number, object, hleads, -, hfind, hfile, hnames⟩ := Caller.names_of_makeLink h
  exact ⟨place, number, _, hleads, .link hrole hlink hfind hfile, hnames⟩

include hsuper hfree in
/-- A file that is opened for writing is a new one, and writing fills it. -/
theorem adds_openForWriting (hrole : entry.role ≠ .linkTo) (hkind : entry.kind = .regular)
    {handle : Handle}
    (h : caller.openForWriting (entry.fullPath target) before = .ok (handle, middle)) :
    ∃ after, caller.write handle content middle = .ok ((), after) ∧
      Adds caller target entry content before after := by
  have hexisting : ∀ {place : Caller.Place} {number},
      caller.Leads before (entry.fullPath target) place → place.existing = some number → False := by
    intro place number hleads hsome
    rw [hfree place hleads] at hsome
    cases hsome
  cases Caller.opened_of_openForWriting hplain.isFresh h with
  | emptied hleads hsome => exact (hexisting hleads hsome).elim
  | special hleads hsome => exact (hexisting hleads hsome).elim
  | @made place _ hleads _ hnames =>
    obtain ⟨after, hwrite, hnext, htimes, hobjects⟩ :=
      @Caller.object?_write caller middle ⟨before.next⟩ content
    refine ⟨after, hwrite, place, before.next, ?_⟩
    have hmiddle := hnames.object
    have hlimit : Caller.filePermissions &&& FileKind.permissionMask = Caller.filePermissions := rfl
    have hmade : (caller.newObject before place.directory (.file [])
        (Caller.filePermissions &&& ~~~caller.withheld)).IsPlain :=
      Caller.isPlain_newObject hplain (FileKind.and_permissionMask_of_and hlimit _)
        (fun _ _ hbody => (nomatch hbody)) fun _ hbody => (nomatch hbody)
    -- Writing nothing leaves the file as it is.
    by_cases hempty : content.isEmpty = true
    · obtain rfl : content = [] := List.isEmpty_iff.1 hempty
      refine ⟨_, hleads, .new hrole (.file hkind) hmade rfl (fun _ => rfl) rfl,
        names_of_change hnames (fun other => ?_) hnext htimes⟩
      rw [hobjects]
      split
      · next hother =>
        rw [← hother, hmiddle]
        rfl
      · rfl
    · refine ⟨{ caller.newObject before place.directory (.file [])
          (Caller.filePermissions &&& ~~~caller.withheld) with
          body := .file content, modTime := middle.now }, hleads,
        .new hrole (.file hkind) ⟨hmade.flagWord_eq, hmade.permissions_eq,
          fun _ _ hbody => (nomatch hbody), fun hsymlink => (nomatch hsymlink)⟩ rfl (fun _ => rfl)
          rfl,
        names_of_change hnames (fun other => ?_) hnext htimes⟩
      rw [hobjects]
      split
      · next hother =>
        rw [← hother, hmiddle, Option.map_some]
        simp only [Caller.newObject, Caller.afterWriting, hsuper, if_true, List.nil_append]
      · rfl

include hflags hlost in
/-- Creating a directory, flags included, adds what its entry describes. -/
theorem adds_createDirectory (hrole : entry.role ≠ .linkTo) (hkind : entry.kind = .directory)
    (restorer : FlagRestorer) (options : RestoreOptions) {outcome : FlagOutcome}
    (h : ((createDirectory caller.system target entry restorer options).run before).value =
      .ok outcome) :
    Adds caller target entry content before
      ((createDirectory caller.system target entry restorer options).run before).state := by
  simp only [createDirectory, FlagRestorer.restore_of_flags_eq_none hflags, Task.run_bind,
    Task.run_perform] at h ⊢
  cases hmade : (caller.system.makeDirectory (entry.fullPath target)
      (entry.permissions ||| ownerAccess) before).1 with
  | ok made =>
    obtain ⟨after, hchange, hcall⟩ := Caller.pathCall_eq_ok hmade
    rw [show caller.system.makeDirectory _ _ before = _ from hcall]
    exact adds_makeDirectory hplain hrole hkind hchange
  | error error =>
    -- There is no directory that could be used in place of a new one.
    have hreusable : isReusable (caller.snapshot before) (entry.fullPath target) error = false := by
      unfold isReusable
      cases hstat : (caller.snapshot before).lstat (entry.fullPath target) with
      | error _ => simp
      | ok stat =>
        obtain ⟨number, object, hfind, -⟩ := Caller.find_of_lstat hstat
        exact absurd (Caller.find_eq_ok_iff.1 hfind).1 (hlost number)
    have hstate : (caller.system.makeDirectory (entry.fullPath target)
        (entry.permissions ||| ownerAccess) before).2 = before := by
      rcases Caller.pathCall_cases Caller.nulInName (entry.fullPath target)
        (caller.makeDirectory (entry.fullPath target) (entry.permissions ||| ownerAccess)) before
        with ⟨-, _, after, -, hcall⟩ | ⟨_, hcall⟩
      · rw [show caller.system.makeDirectory _ _ before = _ from hcall] at hmade
        cases hmade
      · rw [show caller.system.makeDirectory _ _ before = _ from hcall]
    simp only [hmade, hstate, Task.run_bind, Task.run_inspect,
      show caller.system.view before = caller.snapshot before from rfl, hreusable,
      Bool.false_eq_true, if_false, Task.run_pure] at h
    cases h

include hsuper hflags hfree in
/-- Creating a file, flags and content included, adds what its entry describes. -/
theorem adds_createFile (hrole : entry.role ≠ .linkTo) (hkind : entry.kind = .regular)
    (restorer : FlagRestorer) (options : RestoreOptions) {outcome : FlagOutcome}
    (h : ((createFile caller.system target entry restorer options fun handle =>
      caller.system.write handle content).run before).value = .ok outcome) :
    Adds caller target entry content before
      ((createFile caller.system target entry restorer options fun handle =>
        caller.system.write handle content).run before).state := by
  simp only [createFile, FlagRestorer.restore_of_flags_eq_none hflags, Task.run_bind,
    Task.run_perform] at h ⊢
  cases hopened : (caller.system.openForWriting (entry.fullPath target) before).1 with
  | error error =>
    simp only [hopened, Task.run_pure] at h
    cases h
  | ok handle =>
    obtain ⟨middle, hchange, hcall⟩ := Caller.pathCall_eq_ok hopened
    obtain ⟨after, hwrite, hadds⟩ : ∃ after, caller.write handle content middle = .ok ((), after) ∧
        Adds caller target entry content before after :=
      adds_openForWriting hsuper hplain hfree hrole hkind hchange
    have hwritten : caller.system.write handle content middle = (.ok (), after) := by
      show Caller.call (caller.write handle content) middle = _
      rw [Caller.call, hwrite]
    simp only [show caller.system.openForWriting (entry.fullPath target) before = _ from hcall,
      Task.run_bind, Task.run_pure, Task.run_perform, hwritten]
    exact hadds

/-- Creating a symlink adds what its entry describes. -/
theorem adds_createSymlink (hrole : entry.role ≠ .linkTo) (hkind : entry.kind = .symlink)
    (h : ((createSymlink caller.system target entry).run before).value = .ok ()) :
    Adds caller target entry content before
      ((createSymlink caller.system target entry).run before).state := by
  unfold createSymlink at h ⊢
  cases hlink : entry.link with
  | none =>
    simp only [hlink, Task.run_pure] at h
    cases h
  | some link =>
    simp only [hlink, Task.run_bind, Task.run_perform] at h ⊢
    cases hmade : (caller.system.makeSymlink link (entry.fullPath target) before).1 with
    | error error =>
      simp only [hmade, Task.run_pure] at h
      cases h
    | ok made =>
      -- A zero byte would be refused in the target and in the path alike.
      obtain ⟨after, hchange, hcall⟩ := Caller.pathCall_eq_ok hmade
      rw [show caller.system.makeSymlink link _ before = _ from hcall]
      exact adds_makeSymlink hplain hrole hkind hlink hchange

omit hplain in
/-- A special file that is created is made by the one call. -/
theorem makeNode_of_createSpecial {location : Path}
    (h : ((createSpecial caller.system location entry).run before).value = .ok ()) :
    Bytes.nul ∉ location ∧ entry.kind.isSpecial = true ∧
      caller.makeNode location entry.kind entry.permissions (entry.device?.getD ⟨0, 0⟩) before =
        .ok ((), ((createSpecial caller.system location entry).run before).state) := by
  unfold createSpecial at h ⊢
  cases hkind : entry.kind.isSpecial with
  | false =>
    simp only [hkind, Bool.not_false, if_true, Task.run_pure] at h
    cases h
  | true =>
    simp only [hkind, Bool.not_true, Bool.false_eq_true, if_false, Task.run_bind,
      Task.run_perform] at h ⊢
    rcases Caller.pathCall_cases (.os .einval) location
        (caller.makeNode location entry.kind entry.permissions (entry.device?.getD ⟨0, 0⟩)) before
      with ⟨hnul, made, after, hchange, hcall⟩ | ⟨error, hcall⟩
    · rw [show caller.system.makeNode _ _ _ _ before = _ from hcall]
      exact ⟨hnul, trivial, hchange⟩
    · rw [show caller.system.makeNode _ _ _ _ before = _ from hcall] at h
      simp only [Task.run_bind, Task.run_pure] at h
      cases h

/-- Creating a special file adds what its entry describes. -/
theorem adds_createSpecial (hrole : entry.role ≠ .linkTo)
    (h : ((createSpecial caller.system (entry.fullPath target) entry).run before).value = .ok ()) :
    Adds caller target entry content before
      ((createSpecial caller.system (entry.fullPath target) entry).run before).state := by
  obtain ⟨-, hkind, hmade⟩ := makeNode_of_createSpecial h
  exact adds_makeNode hplain hrole hkind hmade

omit hplain in
/-- Creating a hard link adds a name for the object of the canonical entry. -/
theorem adds_createHardLink (hrole : entry.role = .linkTo)
    (h : ((createHardLink caller.system target entry).run before).value = .ok ()) :
    Adds caller target entry content before
      ((createHardLink caller.system target entry).run before).state := by
  unfold createHardLink at h ⊢
  cases hlink : entry.link with
  | none =>
    simp only [hlink, Task.run_pure] at h
    cases h
  | some canonical =>
    simp only [hlink, Task.run_bind, Task.run_perform] at h ⊢
    cases hmade : (caller.system.makeLink (Path.join target canonical) (entry.fullPath target)
        before).1 with
    | error error =>
      simp only [hmade, Task.run_bind, Task.run_pure] at h
      cases h
    | ok made =>
      obtain ⟨after, hchange, hcall⟩ := Caller.pathCall_eq_ok hmade
      rw [show caller.system.makeLink _ _ before = _ from hcall]
      exact adds_makeLink hrole hlink hchange

include hsuper hflags hfree hlost in
/-- Making the object of an entry where nothing is found gives one new name, if it works. -/
theorem adds_create (restorer : FlagRestorer) (options : RestoreOptions)
    {outcome : Option FlagOutcome}
    (h : ((create caller.system target restorer options content entry).run before).value =
      .ok outcome) :
    Adds caller target entry content before
      ((create caller.system target restorer options content entry).run before).state := by
  unfold create at h ⊢
  by_cases hrole : entry.role = .linkTo
  · simp only [if_pos hrole, Task.run_bind, Task.run_pure] at h ⊢
    obtain ⟨made, hmade⟩ := exists_of_map_eq_ok h
    exact adds_createHardLink hrole hmade
  · simp only [if_neg hrole] at h ⊢
    cases hkind : entry.kind with
    | directory =>
      simp only [hkind, Task.run_bind, Task.run_pure] at h ⊢
      obtain ⟨made, hmade⟩ := exists_of_map_eq_ok h
      exact adds_createDirectory hplain hflags hlost hrole hkind restorer options hmade
    | regular =>
      simp only [hkind, Task.run_bind, Task.run_pure] at h ⊢
      obtain ⟨made, hmade⟩ := exists_of_map_eq_ok h
      exact adds_createFile hsuper hplain hflags hfree hrole hkind restorer options hmade
    | symlink =>
      simp only [hkind, Task.run_bind, Task.run_pure] at h ⊢
      obtain ⟨made, hmade⟩ := exists_of_map_eq_ok h
      exact adds_createSymlink hplain hrole hkind hmade
    | fifo | charDevice | blockDevice | socket | unknown =>
      simp only [hkind, Task.run_bind, Task.run_pure] at h ⊢
      obtain ⟨made, hmade⟩ := exists_of_map_eq_ok h
      exact adds_createSpecial hplain hrole hmade

end Creating

end Restore

end TreeManifest
