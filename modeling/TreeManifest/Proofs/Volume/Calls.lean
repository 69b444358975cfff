import TreeManifest.Proofs.Volume.Attributes

/-!
# What the calls of a caller change

A call that works either changes what is known about one object, or gives an object a further name in
a directory. In both cases all other objects stay as they are.

## Main definitions

- `Volume.IsFresh`: no object has a number that is still to be given out.
- `Volume.Names`: a directory of a volume gets one more name.
- `Caller.Leads`: a path leads to a place in a directory.

## Main statements

- `Caller.names_of_makeDirectory`, `Caller.names_of_makeSymlink`, `Caller.names_of_makeNode`,
  `Caller.names_of_makeLink`: the calls that make a name.
- `Caller.opened_of_openForWriting`: what opening a file for writing does.
- `Caller.put_of_changeOwner`, `Caller.put_of_changePermissions`, `Caller.put_of_changeTime`: the
  calls that change one object.
-/

namespace TreeManifest

/-! ## Naming -/

/-- No object has a number that is still to be given out. -/
def Volume.IsFresh (volume : Volume) : Prop :=
  ∀ number, volume.next ≤ number → volume.object? number = none

/-- A directory gets one more name, for an object that is put into the volume or changed, and all
other objects stay as they are. -/
structure Volume.Names (before : Volume) (directory : Nat) (name : Bytes) (number : Nat)
    (object : VolumeObject) (after : Volume) : Prop where
  ne : number ≠ directory
  object : after.object? number = some object
  exists_above : ∃ above names parent links, before.object? directory = some above ∧
    above.body = .directory names parent ∧
    after.object? directory = some { above with
      body := .directory (names ++ [(name, number)]) parent
      modTime := before.now
      linkCount := links }
  others : ∀ other, other ≠ number → other ≠ directory →
    after.object? other = before.object? other
  next_le : before.next ≤ after.next
  next_le_succ : after.next ≤ before.next + 1
  lt_next : before.IsFresh → number < after.next
  times_eq : after.times = before.times

theorem Volume.mem_of_find? {α : Type} {number : Nat} {value : α} {table : List (Nat × α)}
    (h : find? number table = some value) : (number, value) ∈ table := by
  induction table with
  | nil => cases h
  | cons head rest ih =>
    rw [find?] at h
    split at h
    · next hkey =>
      rw [← hkey, ← Option.some.inj h]
      exact List.mem_cons_self
    · exact List.mem_cons_of_mem _ (ih h)

theorem Volume.isFresh_of_forall_lt {volume : Volume}
    (h : ∀ pair ∈ volume.objects, pair.1 < volume.next) : volume.IsFresh := by
  intro number hnumber
  by_contra hsome
  obtain ⟨object, hobject⟩ := Option.ne_none_iff_exists'.1 hsome
  exact absurd hnumber (Nat.not_le_of_lt (h _ (mem_of_find? hobject)))

theorem Volume.isFresh_empty (now : Int64) (flagWord : Option UInt32) :
    (Volume.empty now flagWord).IsFresh := by
  intro number hnumber
  exact if_neg (Nat.ne_of_lt hnumber)

/-- The number of an existing object is below the next free one. -/
theorem Volume.IsFresh.lt {volume : Volume} (h : volume.IsFresh) {number : Nat}
    {object : VolumeObject} (hobject : volume.object? number = some object) :
    number < volume.next := by
  by_contra hle
  rw [h number (Nat.le_of_not_lt hle)] at hobject
  cases hobject

/-- Putting an object under a new name leaves the next number free. -/
theorem Volume.Names.isFresh {before after : Volume} {directory number : Nat} {name : Bytes}
    {object : VolumeObject} (h : before.Names directory name number object after)
    (hfresh : before.IsFresh) : after.IsFresh := by
  intro other hother
  obtain ⟨above, -, -, -, habove, -, -⟩ := h.exists_above
  have hnumber := h.lt_next hfresh
  have hdirectory := hfresh.lt habove
  have hle := h.next_le
  rw [h.others other (by omega) (by omega)]
  exact hfresh other (by omega)

/-! ## Single objects -/

@[simp] theorem Volume.object?_update (volume : Volume) (number other : Nat)
    (change : VolumeObject → VolumeObject) : (volume.update number change).object? other =
      if number = other then (volume.object? other).map change else volume.object? other := by
  unfold update
  cases hobject : volume.object? number with
  | none =>
    by_cases hother : number = other
    · simp [← hother, hobject]
    · simp [hother]
  | some object =>
    by_cases hother : number = other
    · simp [← hother, hobject]
    · simp [hother]

@[simp] theorem Volume.next_put (volume : Volume) (number : Nat) (object : VolumeObject) :
    (volume.put number object).next = volume.next := rfl

@[simp] theorem Volume.next_update (volume : Volume) (number : Nat)
    (change : VolumeObject → VolumeObject) : (volume.update number change).next = volume.next := by
  unfold update
  cases volume.object? number <;> rfl

@[simp] theorem Volume.times_update (volume : Volume) (number : Nat)
    (change : VolumeObject → VolumeObject) :
    (volume.update number change).times = volume.times := by
  unfold update
  cases volume.object? number <;> rfl

/-- An object that is opened for its flag word is opened in one of two ways. -/
theorem Snapshot.exists_mode_of_openForFlags {view : Snapshot} {path : Path} {directory : Bool}
    {handle : Handle} (h : view.openForFlags path directory = .ok handle) :
    ∃ mode, view.openObject path mode = .ok handle := by
  unfold openForFlags at h
  split at h
  · split at h
    · exact ⟨_, h⟩
    · cases h
  · exact ⟨_, h⟩

namespace Caller

variable {caller : Caller} {volume after : Volume} {path : Path}

/-! ## Places -/

/-- The names of a path but the last lead to a directory, and the last one may be used in it. -/
structure Leads (caller : Caller) (volume : Volume) (path : Path) (place : Place) : Prop where
  checkPath_eq : checkPath path = .ok ()
  exists_front : ∃ front, Path.components path = front ++ [place.name] ∧
    caller.follow volume true linkLimit (beginning path caller.home) front = .ok place.directory
  ne_dot : place.name ≠ Path.dot
  ne_dotDot : place.name ≠ Path.dotDot
  length_le : place.name.length ≤ nameLimit
  exists_directory : ∃ above names parent, volume.object? place.directory = some above ∧
    above.body = .directory names parent ∧ place.existing = names.lookup place.name

/-- What a successful search for a name has passed: a directory that may be searched, and a name
that is the directory itself, the one above, or one of its own. -/
theorem exists_of_lookup {directory : Nat} {name : Bytes} {found : Option Nat}
    (h : caller.lookup volume directory name = .ok found) :
    ∃ above names parent, volume.object? directory = some above ∧
      above.body = .directory names parent ∧ caller.may .search above = true ∧
      (name = Path.dot ∧ found = some directory ∨
        name ≠ Path.dot ∧ name = Path.dotDot ∧ found = some parent ∨
        name ≠ Path.dot ∧ name ≠ Path.dotDot ∧ name.length ≤ nameLimit ∧
          found = names.lookup name) := by
  unfold lookup at h
  split at h
  · cases h
  · next above habove =>
    split at h
    · next names parent hbody =>
      refine ⟨above, names, parent, habove, hbody, ?_⟩
      split at h
      · cases h
      · next hmay =>
        refine ⟨by simpa using hmay, ?_⟩
        split at h
        · next hdot => exact .inl ⟨hdot, (Except.ok.inj h).symm⟩
        · next hdot =>
          split at h
          · next hdotDot => exact .inr (.inl ⟨hdot, hdotDot, (Except.ok.inj h).symm⟩)
          · next hdotDot =>
            split at h
            · cases h
            · next hlength =>
              exact .inr (.inr ⟨hdot, hdotDot, by omega, (Except.ok.inj h).symm⟩)
    · cases h

/-- In a directory that may be searched, a search comes down to the name. -/
theorem lookup_eq {directory : Nat} {above : VolumeObject} {names : List (Bytes × Nat)}
    {parent : Nat} (habove : volume.object? directory = some above)
    (hbody : above.body = .directory names parent) (hmay : caller.may .search above = true)
    (name : Bytes) : caller.lookup volume directory name =
      if name = Path.dot then .ok (some directory)
      else if name = Path.dotDot then .ok (some parent)
      else if name.length > nameLimit then .error .enametoolong
      else .ok (names.lookup name) := by
  simp [lookup, habove, hbody, hmay]

/-- A place is where the path leads. -/
theorem leads_of_place {place : Place} (h : caller.place volume path = .ok place) :
    caller.Leads volume path place := by
  simp only [Caller.place, bind, Except.bind] at h
  split at h
  · cases h
  · next hpath =>
    split at h
    · cases h
    · next name hname =>
      split at h
      · cases h
      · next directory hfollow =>
        split at h
        · cases h
        · next existing hlookup =>
          split at h
          · cases h
          · next hproper =>
            cases h
            rw [not_or] at hproper
            obtain ⟨above, names, parent, habove, hbody, -, hfound⟩ := exists_of_lookup hlookup
            obtain ⟨hlength, hexisting⟩ : name.length ≤ nameLimit ∧ existing = names.lookup name := by
              rcases hfound with ⟨hdot, -⟩ | ⟨-, hdotDot, -⟩ | ⟨-, -, hfound⟩
              · exact absurd hdot hproper.1
              · exact absurd hdotDot hproper.2
              · exact hfound
            exact {
              checkPath_eq := hpath
              exists_front := ⟨_, (List.dropLast_append_getLast? name hname).symm, hfollow⟩
              ne_dot := hproper.1
              ne_dotDot := hproper.2
              length_le := hlength
              exists_directory := ⟨above, names, parent, habove, hbody, hexisting⟩ }

/-- A place knows the object that already has its name. -/
theorem Leads.existing_eq {place : Place} (h : caller.Leads volume path place) {number : Nat}
    (hlookup : caller.lookup volume place.directory place.name = .ok (some number)) :
    place.existing = some number := by
  obtain ⟨above, names, parent, habove, hbody, hexisting⟩ := h.exists_directory
  obtain ⟨above', names', parent', habove', hbody', -, hfound⟩ := exists_of_lookup hlookup
  rw [habove] at habove'
  cases habove'
  rw [hbody] at hbody'
  cases hbody'
  rcases hfound with ⟨hdot, -⟩ | ⟨-, hdotDot, -⟩ | ⟨-, -, -, hsome⟩
  · exact absurd hdot h.ne_dot
  · exact absurd hdotDot h.ne_dotDot
  · rw [hexisting, hsome]

/-- A fresh place is a place at which nothing exists. -/
theorem place_of_freshPlace {place : Place} (h : caller.freshPlace volume path = .ok place) :
    caller.place volume path = .ok place ∧ place.existing = none := by
  simp only [freshPlace, bind, Except.bind] at h
  split at h
  · cases h
  · next found hfound =>
    split at h
    · cases h
    · next hnone =>
      split at h
      · cases h
      · cases h
        exact ⟨hfound, by simpa using hnone⟩

/-! ## New names -/

theorem object?_linkName (volume : Volume) (directory : Nat) (name : Bytes) (number other : Nat) :
    (linkName volume directory name number).object? other =
      if directory = other then
        (volume.object? other).map fun object =>
          match object.body with
          | .directory _ parent =>
            { object with
              body := .directory (volume.names directory ++ [(name, number)]) parent
              modTime := volume.now }
          | _ => object
      else volume.object? other :=
  Volume.object?_update volume directory other _

/-- Linking the name that a path leads to is putting the object under that name, if no other object
changes and at most one number is used up. -/
theorem names_linkName {before : Volume} {place : Place} {number : Nat} {object : VolumeObject}
    (hleads : caller.Leads before path place) (hne : number ≠ place.directory)
    (hlt : before.IsFresh → number < volume.next) (hnext : before.next ≤ volume.next)
    (hsucc : volume.next ≤ before.next + 1) (hnow : volume.now = before.now)
    (htimes : volume.times = before.times)
    (hobjects : ∀ other,
      volume.object? other = if number = other then some object else before.object? other) :
    before.Names place.directory place.name number object
      (linkName volume place.directory place.name number) := by
  obtain ⟨above, names, parent, habove, hbody, -⟩ := hleads.exists_directory
  have hdirectory : volume.object? place.directory = some above := by
    rw [hobjects, if_neg hne, habove]
  have hnames : volume.names place.directory = names := by
    rw [Volume.names, hdirectory]
    show above.names = names
    rw [VolumeObject.names, hbody]
  refine ⟨hne, ?_, ⟨above, names, parent, above.linkCount, habove, hbody, ?_⟩, ?_, ?_, ?_, ?_, ?_⟩
  · rw [object?_linkName, if_neg (Ne.symm hne), hobjects, if_pos rfl]
  · rw [object?_linkName, if_pos rfl, hdirectory, hnames, hnow]
    simp [hbody]
  · intro other hother hother'
    rw [object?_linkName, if_neg (Ne.symm hother'), hobjects, if_neg (Ne.symm hother)]
  · rw [linkName, Volume.setNames, Volume.next_update]
    exact hnext
  · rw [linkName, Volume.setNames, Volume.next_update]
    exact hsucc
  · rw [linkName, Volume.setNames, Volume.next_update]
    exact hlt
  · rw [linkName, Volume.setNames, Volume.times_update]
    exact htimes

/-- A new object under a name. -/
theorem names_add {place : Place} (hfresh : volume.IsFresh) (hleads : caller.Leads volume path place)
    (object : VolumeObject) :
    volume.Names place.directory place.name volume.next object
      (linkName (volume.add object).2 place.directory place.name volume.next) := by
  obtain ⟨above, -, -, habove, -⟩ := hleads.exists_directory
  refine names_linkName hleads (Nat.ne_of_gt (hfresh.lt habove)) (fun _ => Nat.lt_succ_self _)
    (Nat.le_succ _) (Nat.le_refl _) rfl rfl ?_
  intro other
  exact Volume.object?_put volume volume.next other object

/-- A new object gets the next number and is put under the name of its place. -/
theorem names_of_makeObject {place : Place} {body : VolumeBody} {permissions : UInt32}
    {number : Nat} (hfresh : volume.IsFresh) (hleads : caller.Leads volume path place)
    (h : caller.makeObject volume place body permissions = .ok (number, after)) :
    number = volume.next ∧ volume.Names place.directory place.name volume.next
      (caller.newObject volume place.directory body permissions) after := by
  simp only [makeObject, bind, Except.bind] at h
  split at h
  · cases h
  · cases h
    exact ⟨rfl, names_add hfresh hleads _⟩

/-- Making a symlink puts a new object under the name that the path leads to. -/
theorem names_of_makeSymlink {target : Bytes} (hfresh : volume.IsFresh)
    (h : caller.makeSymlink target path volume = .ok ((), after)) :
    ∃ place, caller.Leads volume path place ∧ place.existing = none ∧
      volume.Names place.directory place.name volume.next
        (caller.newObject volume place.directory (.symlink target) symlinkPermissions) after := by
  simp only [makeSymlink, bind, Except.bind] at h
  split at h
  · cases h
  · split at h
    · cases h
    · split at h
      · cases h
      · next place hplace =>
        obtain ⟨hplace, hnone⟩ := place_of_freshPlace hplace
        split at h
        · cases h
        · next made hmade =>
          cases h
          exact ⟨place, leads_of_place hplace, hnone,
            (names_of_makeObject hfresh (leads_of_place hplace) hmade).2⟩

/-- Making a node puts a new object under the name that the path leads to, and keeps the device of a
device node only. -/
theorem names_of_makeNode {kind : FileKind} {permissions : UInt32} {device : Device}
    (hfresh : volume.IsFresh)
    (h : caller.makeNode path kind permissions device volume = .ok ((), after)) :
    ∃ place, caller.Leads volume path place ∧ place.existing = none ∧
      volume.Names place.directory place.name volume.next
        (caller.newObject volume place.directory
          (.special kind (if kind.isDevice then device.toRaw else 0))
          (permissions &&& ~~~caller.withheld)) after := by
  simp only [makeNode, bind, Except.bind] at h
  split at h
  · cases h
  · next place hplace =>
    obtain ⟨hplace, hnone⟩ := place_of_freshPlace hplace
    split at h
    · cases h
    · split at h
      · cases h
      · split at h
        · cases h
        · next made hmade =>
          cases h
          exact ⟨place, leads_of_place hplace, hnone,
            (names_of_makeObject hfresh (leads_of_place hplace) hmade).2⟩

def newDirectory (caller : Caller) (volume : Volume) (directory : Nat) (permissions : UInt32) :
    VolumeObject :=
  let object := caller.newObject volume directory (.directory [] directory)
    (permissions &&& directoryPermissions &&& ~~~caller.withheld)
  let passed := (volume.object? directory).any (·.permissions &&& setGroupId != 0)
  { object with
    permissions := if passed then object.permissions ||| setGroupId else object.permissions
    linkCount := 2 }

/-- The count of the entries of a directory is of no concern to its names. -/
theorem Names.recount {before after : Volume} {directory number : Nat} {name : Bytes}
    {object : VolumeObject} (h : before.Names directory name number object after)
    (count : UInt64 → UInt64) :
    before.Names directory name number object (after.update directory fun above =>
      { above with linkCount := count above.linkCount }) := by
  obtain ⟨hne, hobject, ⟨above, names, parent, links, habove, hbody, hafter⟩, hothers, hle, hsucc,
    hlt, htimes⟩ := h
  refine ⟨hne, ?_, ⟨above, names, parent, count links, habove, hbody, ?_⟩, ?_, ?_, ?_, ?_, ?_⟩
  · rw [Volume.object?_update, if_neg (Ne.symm hne), hobject]
  · rw [Volume.object?_update, if_pos rfl, hafter]
    rfl
  · intro other hother hother'
    rw [Volume.object?_update, if_neg (Ne.symm hother'), hothers other hother hother']
  · rwa [Volume.next_update]
  · rwa [Volume.next_update]
  · rwa [Volume.next_update]
  · rwa [Volume.times_update]

/-- Making a directory puts a new object under the name that the path leads to. -/
theorem names_of_makeDirectory {permissions : UInt32} (hfresh : volume.IsFresh)
    (h : caller.makeDirectory path permissions volume = .ok ((), after)) :
    ∃ place, caller.Leads volume path place ∧ place.existing = none ∧
      volume.Names place.directory place.name volume.next
        (caller.newDirectory volume place.directory permissions) after := by
  simp only [makeDirectory, bind, Except.bind] at h
  split at h
  · cases h
  · next place hplace =>
    split at h
    · cases h
    · next hnone =>
      split at h
      · cases h
      · cases h
        have hleads := leads_of_place hplace
        exact ⟨place, hleads, by simpa using hnone,
          Names.recount (names_add hfresh hleads _) (· + 1)⟩

/-- A further name is put on the existing object itself, with one more link and nothing else
changed. -/
theorem names_of_makeLink {existing : Path}
    (h : caller.makeLink existing path volume = .ok ((), after)) :
    ∃ place number object, caller.Leads volume path place ∧ place.existing = none ∧
      caller.find volume false existing = .ok (number, object) ∧ object.isDirectory = false ∧
      volume.Names place.directory place.name number
        { object with linkCount := object.linkCount + 1 } after := by
  simp only [makeLink, bind, Except.bind] at h
  split at h
  · cases h
  · next found hfound =>
    obtain ⟨number, object⟩ := found
    split at h
    · cases h
    · next place hplace =>
      obtain ⟨hplace, hnone⟩ := place_of_freshPlace hplace
      split at h
      · cases h
      · split at h
        · cases h
        · next hallowed =>
          cases h
          have hleads := leads_of_place hplace
          have hobject := (find_eq_ok_iff.1 hfound).2
          have hfile : object.isDirectory = false := by
            simpa using (not_or.1 hallowed).2
          obtain ⟨above, names, parent, habove, hbody, -⟩ := hleads.exists_directory
          have hne : number ≠ place.directory := by
            rintro rfl
            rw [hobject] at habove
            cases habove
            simp [VolumeObject.isDirectory, VolumeObject.kind, hbody] at hfile
          refine ⟨place, number, object, hleads, hnone, hfound, hfile,
            names_linkName hleads hne (fun hfresh => hfresh.lt hobject) (Nat.le_refl _)
              (Nat.le_succ _) rfl rfl ?_⟩
          intro other
          exact Volume.object?_put volume number other _

/-! ## Open files -/

/-- What opening a file for writing does: a file is made, an existing one loses its content, and
nothing happens to a special file. -/
inductive Opened (caller : Caller) (volume : Volume) (path : Path) : Handle → Volume → Prop where
  | made {place : Place} {after : Volume} (hleads : caller.Leads volume path place)
      (hnone : ∀ number, place.existing = some number → volume.object? number = none)
      (hnames : volume.Names place.directory place.name volume.next
        (caller.newObject volume place.directory (.file [])
          (filePermissions &&& ~~~caller.withheld)) after) :
      Opened caller volume path ⟨volume.next⟩ after
  | emptied {place : Place} {number : Nat} {object : VolumeObject} {content : Bytes}
      (hleads : caller.Leads volume path place) (hexisting : place.existing = some number)
      (hobject : volume.object? number = some object) (hbody : object.body = .file content)
      (hfree : object.isFrozen = false) :
      Opened caller volume path ⟨number⟩ (volume.put number { object with
        body := .file []
        permissions := caller.afterWriting object.permissions
        modTime := volume.now })
  | special {place : Place} {number : Nat} {object : VolumeObject} {kind : FileKind}
      {rawDevice : UInt64} (hleads : caller.Leads volume path place)
      (hexisting : place.existing = some number) (hobject : volume.object? number = some object)
      (hbody : object.body = .special kind rawDevice) :
      Opened caller volume path ⟨number⟩ volume

theorem mapError_eq_ok {α ε ε' : Type} {answer : Except ε α} {change : ε → ε'} {value : α}
    (h : answer.mapError change = .ok value) : answer = .ok value := by
  cases answer with
  | error errno => cases h
  | ok found => exact congrArg Except.ok (Except.ok.inj h)

/-- Opening for writing makes a file where there is none, and otherwise truncates a file or leaves
the object alone. -/
theorem opened_of_openForWriting {handle : Handle} (hfresh : volume.IsFresh)
    (h : caller.openForWriting path volume = .ok (handle, after)) :
    caller.Opened volume path handle after := by
  simp only [openForWriting, bind, Except.bind] at h
  split at h
  · cases h
  · split at h
    · cases h
    · split at h
      · cases h
      · next place hplace =>
        have hleads := leads_of_place (mapError_eq_ok hplace)
        split at h
        · next hmissing =>
          split at h
          · cases h
          · split at h
            · cases h
            · next made hmade =>
              cases h
              obtain ⟨hnumber, hnames⟩ := names_of_makeObject hfresh hleads hmade
              rw [hnumber]
              refine .made hleads (fun number hexisting => ?_) hnames
              simpa [hexisting] using hmissing
        · next number object hfound =>
          obtain ⟨hexisting, hobject⟩ : place.existing = some number ∧
              volume.object? number = some object := by
            simp only [Option.bind_eq_some_iff, Option.map_eq_some_iff, Prod.mk.injEq] at hfound
            obtain ⟨_, hexisting, _, hobject, rfl, rfl⟩ := hfound
            exact ⟨hexisting, hobject⟩
          split at h
          · cases h
          · split at h
            · cases h
            · cases h
            · next kind rawDevice hbody =>
              split at h
              · cases h
              · split at h
                · cases h
                · cases h
                  exact .special hleads hexisting hobject hbody
            · next content hbody =>
              split at h
              · cases h
              · split at h
                · cases h
                · split at h
                  · cases h
                  · next hfree =>
                    cases h
                    exact .emptied hleads hexisting hobject hbody (by simpa using hfree)

/-- Writing changes the content of the open file. -/
theorem object?_write (volume : Volume) (handle : Handle) (bytes : Bytes) :
    ∃ after, caller.write handle bytes volume = .ok ((), after) ∧ after.next = volume.next ∧
      after.times = volume.times ∧ ∀ other, after.object? other = if handle.number = other then
        (volume.object? other).map fun object =>
          match object.body with
          | .file content =>
            if bytes.isEmpty then object
            else { object with
              body := .file (content ++ bytes)
              permissions := caller.afterWriting object.permissions
              modTime := volume.now }
          | _ => object
        else volume.object? other :=
  ⟨_, rfl, Volume.next_update _ _ _, Volume.times_update _ _ _,
    fun other => Volume.object?_update _ _ other _⟩

/-- An object is opened without following a symlink at the end of its path. -/
theorem resolve_of_openObject {mode : OpenMode} {handle : Handle}
    (h : caller.openObject volume path mode = .ok handle) :
    caller.resolve volume false path = .ok handle.number := by
  simp only [openObject, bind, Except.bind] at h
  split at h
  · cases h
  · next found hfound =>
    have hresolve := (find_eq_ok_iff.1 hfound).1
    split at h
    · cases h
    · -- Every way of opening ends with the number of the object that was found.
      split at h
      · cases h
      · split at h
        · cases h
        · split at h
          · cases h
          · split at h
            · cases h
            · cases h
              exact hresolve
      · split at h
        · cases h
        · split at h
          · cases h
          · cases h
            exact hresolve

theorem ok_of_withoutNul {α : Type} {refusal : IoError} {answer : Except Errno α} {value : α}
    (h : withoutNul refusal path answer = .ok value) : answer = .ok value := by
  unfold withoutNul at h
  split at h
  · cases h
  · exact mapError_eq_ok h

/-- A handle for a flag word belongs to the object that the path names without following a
symlink. -/
theorem resolve_of_openForFlags {directory : Bool} {handle : Handle}
    (h : (caller.snapshot volume).openForFlags path directory = .ok handle) :
    caller.resolve volume false path = .ok handle.number := by
  obtain ⟨mode, hmode⟩ := Snapshot.exists_mode_of_openForFlags h
  exact resolve_of_openObject (ok_of_withoutNul hmode)

/-- Metadata is that of the object that the path names without following a symlink. -/
theorem find_of_lstat {stat : Stat}
    (h : (caller.snapshot volume).lstat path = .ok stat) :
    ∃ number object, caller.find volume false path = .ok (number, object) ∧
      stat = volume.statOf number object := by
  have hstat := ok_of_withoutNul h
  simp only [Caller.stat, bind, Except.bind] at hstat
  split at hstat
  · cases hstat
  · next found hfound =>
    cases hstat
    exact ⟨found.1, found.2, hfound, rfl⟩

/-- Only paths without a zero byte have metadata. -/
theorem nul_notMem_of_lstat {stat : Stat} (h : (caller.snapshot volume).lstat path = .ok stat) :
    Bytes.nul ∉ path := by
  intro hnul
  simp only [snapshot, withoutNul, if_pos hnul] at h
  cases h

/-! ## Changes of one object -/

/-- A change of owner replaces owner, group and permissions of the named object and nothing else. -/
theorem put_of_changeOwner {uid gid : UInt32}
    (h : caller.changeOwner path uid gid volume = .ok ((), after)) :
    ∃ number object, caller.find volume false path = .ok (number, object) ∧
      after = volume.put number { object with
        uid := if uid = keepId then object.uid else uid
        gid := if gid = keepId then object.gid else gid
        permissions := afterOwnerChange object } := by
  simp only [changeOwner, bind, Except.bind] at h
  split at h
  · cases h
  · next found hfound =>
    split at h
    · cases h
    · split at h
      · cases h
      · cases h
        exact ⟨found.1, found.2, hfound, rfl⟩

/-- The permissions that a caller may give an object. -/
def admitted (caller : Caller) (object : VolumeObject) (permissions : UInt32) : UInt32 :=
  if caller.isSuperuser || caller.gid == object.gid then permissions &&& FileKind.permissionMask
  else permissions &&& FileKind.permissionMask &&& ~~~setGroupId

/-- A change of permissions follows a symlink and replaces the permissions of what it finds. -/
theorem put_of_changePermissions {permissions : UInt32}
    (h : caller.changePermissions path permissions volume = .ok ((), after)) :
    ∃ number object, caller.find volume true path = .ok (number, object) ∧
      after = volume.put number
        { object with permissions := caller.admitted object permissions } := by
  simp only [changePermissions, bind, Except.bind] at h
  split at h
  · cases h
  · next found hfound =>
    split at h
    · cases h
    · cases h
      exact ⟨found.1, found.2, hfound, rfl⟩

/-- A change of time replaces the time of the named object and nothing else. -/
theorem put_of_changeTime {time : Int64}
    (h : caller.changeTime path time volume = .ok ((), after)) :
    ∃ number object, caller.find volume false path = .ok (number, object) ∧
      after = volume.put number { object with modTime := time } := by
  simp only [changeTime, bind, Except.bind] at h
  split at h
  · cases h
  · next found hfound =>
    split at h
    · cases h
    · cases h
      exact ⟨found.1, found.2, hfound, rfl⟩

/-- Setting an attribute changes the attributes of the named object at that name only. -/
theorem put_of_setAttribute {name : String} {value : Bytes}
    (h : caller.setAttribute path name value volume = .ok ((), after)) :
    ∃ number object, caller.find volume false path = .ok (number, object) ∧
      after = volume.put number
        { object with attributes := object.attributes.insert name value } := by
  simp only [setAttribute, bind, Except.bind] at h
  split at h
  · cases h
  · split at h
    · cases h
    · split at h
      · cases h
      · next found hfound =>
        split at h
        · cases h
        · cases h
          exact ⟨found.1, found.2, hfound, rfl⟩

/-- Removing an attribute changes the attributes of the named object at that name only. -/
theorem put_of_removeAttribute {name : String}
    (h : caller.removeAttribute path name volume = .ok ((), after)) :
    ∃ number object, caller.find volume false path = .ok (number, object) ∧
      after = volume.put number
        { object with attributes := object.attributes.erase name } := by
  simp only [removeAttribute, bind, Except.bind] at h
  split at h
  · cases h
  · split at h
    · cases h
    · split at h
      · cases h
      · next found hfound =>
        split at h
        · cases h
        · split at h
          · cases h
            exact ⟨found.1, found.2, hfound, rfl⟩
          · cases h

/-- A change of a flag word replaces the word of the open object and nothing else. -/
theorem put_of_setFlagWord {handle : Handle} {word : UInt32}
    (h : caller.setFlagWord handle word volume = .ok ((), after)) :
    ∃ object, volume.object? handle.number = some object ∧
      after = volume.put handle.number { object with flagWord := some word } := by
  simp only [setFlagWord] at h
  split at h
  · cases h
  · next object hobject =>
    split at h
    · cases h
    · split at h
      · cases h
      · split at h
        · cases h
        · cases h
          exact ⟨object, hobject, rfl⟩

/-! ## Calls -/

/-- A call that is refused leaves the volume as it is. -/
theorem call_cases {α : Type} (change : Change α) (volume : Volume) :
    (∃ value after, change volume = .ok (value, after) ∧
      call change volume = (.ok value, after)) ∨
    ∃ error, call change volume = (.error error, volume) := by
  unfold call
  cases change volume with
  | error errno => exact .inr ⟨_, rfl⟩
  | ok made => exact .inl ⟨made.1, made.2, rfl, rfl⟩

/-- A call on a path works as its change does, or it is refused and leaves the volume alone. -/
theorem pathCall_cases {α : Type} (refusal : IoError) (path : Path) (change : Change α)
    (volume : Volume) :
    (Bytes.nul ∉ path ∧ ∃ value after, change volume = .ok (value, after) ∧
      pathCall refusal path change volume = (.ok value, after)) ∨
    ∃ error, pathCall refusal path change volume = (.error error, volume) := by
  unfold pathCall
  split
  · exact .inr ⟨_, rfl⟩
  · next hnul =>
    rcases call_cases change volume with hdone | hrefused
    · exact .inl ⟨hnul, hdone⟩
    · exact .inr hrefused

end Caller

end TreeManifest
