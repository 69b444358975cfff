import TreeManifest.Proofs.Hardlink.Groups
import TreeManifest.Proofs.Restore.Making
import TreeManifest.Proofs.Task.Triple
import TreeManifest.Proofs.Volume.Walked

/-!
# Making the objects of a listing

A listing in canonical order names every directory before what is in it, and every canonical entry
before its further names. So the objects can be made one after the other in an empty directory, and
afterwards names lead to the objects of the entries and to nothing else.

## Main definitions

- `Restore.Planned`, `Restore.IsPlan`: what an entry needs of the entries before it.
- `Restore.Created`: the volume after the objects of some entries were made.

## Main statements

- `Restore.Created.step`: one more object.
- `Restore.created_createAll`: all objects of a listing.
-/

namespace TreeManifest

/-- The number of the object to which a path leads down from a directory. -/
def Volume.numberOf? (volume : Volume) (top : Nat) (path : Path) : Option Nat :=
  volume.descend top (Path.components path)

namespace Restore

/-- What the object of an entry needs of the entries before it: the directory in which it is made,
and the object of which it is a further name. -/
structure Planned (front : List Entry) (entry : Entry) : Prop where
  exists_names : ∃ names name, (∀ other ∈ names ++ [name], Path.IsName other) ∧
    entry.path = Path.ofNames (names ++ [name]) ∧ (names = [] ∨ ∃ above ∈ front,
      above.role ≠ .linkTo ∧ above.kind = .directory ∧ above.path = Path.ofNames names)
  path_ne : ∀ other ∈ front, other.path ≠ entry.path
  exists_canonical : entry.role = .linkTo → ∃ canonical ∈ front, canonical.role ≠ .linkTo ∧
    canonical.kind = entry.kind ∧ entry.link = some canonical.path
  kind_ne : entry.role = .linkTo → entry.kind ≠ .directory
  flags_eq : entry.flags = none
  attributes_eq : entry.role = .linkTo → entry.attributes = none

/-- Every entry of a listing finds what it needs. -/
def IsPlan (entries : List Entry) : Prop :=
  ∀ front entry back, entries = front ++ entry :: back → Planned front entry

/-- The volume after the objects of some entries were made in the directory of the given number.
Names lead from there to these objects and to nothing else. -/
structure Created (caller : Caller) (target : Path) (top : Nat) (content : Entry → Bytes)
    (done : List Entry) (volume : Volume) : Prop where
  isPlain : volume.IsPlain
  opens : caller.Opens volume target top
  isProper : ∀ entry ∈ done, Path.IsProper entry.path
  only : ∀ {names number}, volume.descend top names = some number →
    names = [] ∨ ∃ entry ∈ done, names = Path.components entry.path
  nodup : ∀ {names number}, volume.descend top names = some number →
    ((volume.names number).map Prod.fst).Nodup
  linked : ∀ entry ∈ done, ∃ canonical ∈ done, canonical.role ≠ .linkTo ∧
    canonical.path = entry.canonicalPath ∧ canonical.kind = entry.kind ∧
    (entry.role = .linkTo → entry.kind ≠ .directory)
  exists_object : ∀ entry ∈ done, ∃ number object, volume.numberOf? top entry.path = some number ∧
    volume.object? number = some object ∧ number ≠ top
  number_eq_iff : ∀ entry ∈ done, ∀ other ∈ done,
    volume.numberOf? top entry.path = volume.numberOf? top other.path ↔
      entry.canonicalPath = other.canonicalPath
  made : ∀ entry ∈ done, entry.role ≠ .linkTo → ∀ {number object},
    volume.numberOf? top entry.path = some number → volume.object? number = some object →
    Fits entry (content entry) object.body ∧ object.attributes = .empty ∧
      (object.isDirectory = false → object.linkCount =
        .ofNat (done.countP fun other => other.canonicalPath = entry.path))

variable {caller : Caller} {target : Path} {top : Nat} {content : Entry → Bytes}
  {done : List Entry} {entry : Entry} {volume after : Volume}

theorem fullPath_eq (hpath : Path.IsProper entry.path) :
    entry.fullPath target = Path.join target entry.path :=
  Entry.fullPath_of_ne_nil
    (fun hnil => hpath.ne_nil (by rw [hnil, Path.components_nil])) target

/-- Where the object of the next entry belongs: a directory in which its name is free. -/
theorem Created.exists_place (h : Created caller target top content done volume)
    (hplanned : Planned done entry) :
    ∃ names name directory, (∀ other ∈ names ++ [name], Path.IsName other) ∧
      entry.path = Path.ofNames (names ++ [name]) ∧
      volume.descend top names = some directory ∧
      (∃ object bindings parent, volume.object? directory = some object ∧
        object.body = .directory bindings parent) ∧
      volume.child? directory name = none := by
  obtain ⟨names, name, hnames, hpath, habove⟩ := hplanned.exists_names
  obtain ⟨directory, hdescend, hdirectory⟩ : ∃ directory,
      volume.descend top names = some directory ∧
      ∃ object bindings parent, volume.object? directory = some object ∧
        object.body = .directory bindings parent := by
    rcases habove with rfl | ⟨above, habove, hrole, hkind, habovePath⟩
    · exact ⟨top, rfl, h.opens.exists_directory⟩
    · obtain ⟨number, object, hnumber, hobject, -⟩ := h.exists_object above habove
      obtain ⟨hfits, -⟩ := h.made above habove hrole hnumber hobject
      rw [Volume.numberOf?, habovePath, Path.components_ofNames fun other hother =>
        hnames other (List.mem_append_left _ hother)] at hnumber
      obtain ⟨bindings, parent, hbody⟩ := Caller.exists_directory_of_kind
        (h.isPlain.object hobject) (hfits.kind_eq.trans hkind)
      exact ⟨number, hnumber, object, bindings, parent, hobject, hbody⟩
  refine ⟨names, name, directory, hnames, hpath, hdescend, hdirectory, ?_⟩
  cases hchild : volume.child? directory name with
  | none => rfl
  | some number =>
    -- The name would be that of an entry before.
    rcases h.only (Volume.descend_concat_eq_some_iff.2 ⟨directory, hdescend, hchild⟩) with
      hnil | ⟨other, hother, hsame⟩
    · exact absurd hnil (List.concat_ne_nil _ _)
    · refine absurd ?_ (hplanned.path_ne other hother)
      rw [hpath, hsame]
      exact (h.isProper other hother).eq_ofNames

/-- The object that a caller finds at the path of an entry. -/
theorem Created.eq_of_resolve (h : Created caller target top content done volume)
    (hentry : entry ∈ done) {number found : Nat}
    (hnumber : volume.numberOf? top entry.path = some number)
    (hresolve : caller.resolve volume false (Path.join target entry.path) = .ok found) :
    found = number := by
  have hproper := h.isProper entry hentry
  rw [hproper.eq_ofNames] at hresolve
  exact h.opens.eq_of_resolve hproper.isName hproper.ne_nil hnumber hresolve

/-- The kind of the object of an entry. -/
theorem Created.kind_eq (h : Created caller target top content done volume) (hentry : entry ∈ done)
    {number : Nat} {object : VolumeObject}
    (hnumber : volume.numberOf? top entry.path = some number)
    (hobject : volume.object? number = some object) : object.kind = entry.kind := by
  obtain ⟨canonical, hcanonical, hrole, hpath, hkind, -⟩ := h.linked entry hentry
  rw [(h.number_eq_iff entry hentry canonical hcanonical).2
    (hpath.symm.trans (Entry.canonicalPath_of_role_ne hrole).symm)] at hnumber
  rw [← hkind]
  exact (h.made canonical hcanonical hrole hnumber hobject).1.kind_eq

/-- A directory is below the root under one name only. -/
theorem Created.eq_of_descend (h : Created caller target top content done volume)
    {first second : List Bytes} {directory : Nat} {object : VolumeObject}
    {bindings : List (Bytes × Nat)} {parent : Nat}
    (hfirst : volume.descend top first = some directory)
    (hsecond : volume.descend top second = some directory)
    (hobject : volume.object? directory = some object)
    (hbody : object.body = .directory bindings parent) : first = second := by
  have hkind : object.kind = .directory := by rw [VolumeObject.kind, hbody]
  have hcases : ∀ {names}, volume.descend top names = some directory →
      (names = [] ∧ directory = top) ∨ ∃ entry ∈ done, names = Path.components entry.path ∧
        entry.canonicalPath = entry.path ∧ directory ≠ top := by
    intro names hnames
    rcases h.only hnames with rfl | ⟨entry, hentry, rfl⟩
    · exact .inl ⟨rfl, (Option.some.inj hnames).symm⟩
    · obtain ⟨_, -, hnumber, -, hne⟩ := h.exists_object entry hentry
      obtain rfl := Option.some.inj (hnames.symm.trans hnumber)
      refine .inr ⟨entry, hentry, rfl, Entry.canonicalPath_of_role_ne fun hrole => ?_, hne⟩
      obtain ⟨-, -, -, -, -, hfile⟩ := h.linked entry hentry
      exact hfile hrole ((h.kind_eq hentry hnames hobject).symm.trans hkind)
  rcases hcases hfirst with ⟨rfl, htop⟩ | ⟨entry, hentry, rfl, hpath, hne⟩
  · rcases hcases hsecond with ⟨rfl, -⟩ | ⟨-, -, -, -, hne⟩
    · rfl
    · exact absurd htop hne
  · rcases hcases hsecond with ⟨-, htop⟩ | ⟨other, hother, rfl, hpath', -⟩
    · exact absurd htop hne
    · have hsame := (h.number_eq_iff entry hentry other hother).1 (hfirst.trans hsecond.symm)
      rw [← hpath, ← hpath', hsame]

/-! ## One more object -/

section Step

variable {names : List Bytes} {name : Bytes} {directory number : Nat} {object : VolumeObject}
  (h : Created caller target top content done volume) (hplanned : Planned done entry)
  (hproper : ∀ other ∈ names ++ [name], Path.IsName other)
  (hpath : entry.path = Path.ofNames (names ++ [name]))
  (hdescend : volume.descend top names = some directory)
  (hfree : volume.child? directory name = none)
  (hmakes : Makes caller target entry (content entry) volume number object)
  (hnames : volume.Names directory name number object after)

section

include h hmakes hnames hfree

theorem Created.descend_eq_some_iff {others : List Bytes} {found : Nat} :
    after.descend top others = some found ↔ volume.descend top others = some found ∨
      found = number ∧ ∃ front, others = front ++ [name] ∧
        volume.descend top front = some directory :=
  hnames.descend_eq_some_iff (hmakes.isLeaf h.isPlain.isFresh) hfree

theorem Created.numberOf?_eq {other : Entry} (hother : other ∈ done) :
    after.numberOf? top other.path = volume.numberOf? top other.path := by
  obtain ⟨found, -, hfound, -⟩ := h.exists_object other hother
  rw [hfound]
  exact (h.descend_eq_some_iff hfree hmakes hnames).2 (.inl hfound)

include hproper hpath hdescend in
theorem Created.numberOf?_entry : after.numberOf? top entry.path = some number := by
  rw [Volume.numberOf?, hpath, Path.components_ofNames hproper]
  exact (h.descend_eq_some_iff hfree hmakes hnames).2 (.inr ⟨rfl, names, rfl, hdescend⟩)

end

include h hplanned hmakes in
/-- An object had the number before exactly if the entry is a further name of it. -/
theorem Created.numberOf?_eq_some_iff {other : Entry} (hother : other ∈ done) :
    volume.numberOf? top other.path = some number ↔
      other.canonicalPath = entry.canonicalPath := by
  cases hmakes with
  | new hrole =>
    obtain ⟨found, old, hfound, hold, -⟩ := h.exists_object other hother
    obtain ⟨canonical, hcanonical, -, hsame, -⟩ := h.linked other hother
    constructor
    · intro hnumber
      rw [hfound] at hnumber
      rw [Option.some.inj hnumber, h.isPlain.isFresh _ (Nat.le_refl _)] at hold
      cases hold
    · intro hpaths
      rw [Entry.canonicalPath_of_role_ne hrole, ← hsame] at hpaths
      exact absurd hpaths (hplanned.path_ne canonical hcanonical)
  | link hrole hlink hfind =>
    obtain ⟨canonical, hcanonical, hcanonicalRole, -, hcanonicalLink⟩ :=
      hplanned.exists_canonical hrole
    obtain rfl := Option.some.inj (hlink.symm.trans hcanonicalLink)
    obtain ⟨found, -, hfound, -⟩ := h.exists_object canonical hcanonical
    obtain rfl := h.eq_of_resolve hcanonical hfound (Caller.find_eq_ok_iff.1 hfind).1
    rw [← hfound, h.number_eq_iff other hother canonical hcanonical,
      Entry.canonicalPath_of_role_ne hcanonicalRole]
    rw [Entry.canonicalPath_of_link hrole hlink]

/-- What was there before, and got no name, consists of the same or has one more name in it. -/
theorem exists_object?_of_names {found : Nat} {old : VolumeObject}
    (hnames : volume.Names directory name number object after) (hne : found ≠ number)
    (hold : volume.object? found = some old) :
    ∃ new, after.object? found = some new ∧ (new = old ∨
      (∃ bindings bindings' parent, old.body = .directory bindings parent ∧
        new.body = .directory bindings' parent) ∧ new.attributes = old.attributes) := by
  by_cases hdirectory : found = directory
  · obtain ⟨above, bindings, parent, links, habove, hbody, hafter⟩ := hnames.exists_above
    subst hdirectory
    obtain rfl := Option.some.inj (hold.symm.trans habove)
    exact ⟨_, hafter, .inr ⟨⟨_, _, _, hbody, rfl⟩, rfl⟩⟩
  · exact ⟨old, (hnames.others found hne hdirectory).trans hold, .inl rfl⟩

include h hmakes hnames hfree in
theorem Created.nodup_after {others : List Bytes} {found : Nat}
    (hothers : after.descend top others = some found) :
    ((after.names found).map Prod.fst).Nodup := by
  have hleaf := hmakes.isLeaf h.isPlain.isFresh
  rw [hnames.names_eq hleaf]
  rcases (h.descend_eq_some_iff hfree hmakes hnames).1 hothers with hbefore | ⟨rfl, -⟩
  · split
    · next hdirectory =>
      rw [List.map_append, List.nodup_append]
      refine ⟨h.nodup hbefore, List.nodup_singleton _, fun wanted hwanted last hlast => ?_⟩
      -- The name was free before.
      rintro rfl
      obtain rfl := List.mem_singleton.1 hlast
      obtain ⟨⟨_, child⟩, hmem, rfl⟩ := List.mem_map.1 hwanted
      obtain ⟨held, hheld⟩ := Caller.exists_child?_of_mem hmem
      rw [hdirectory, hfree] at hheld
      cases hheld
    · rw [List.append_nil]
      exact h.nodup hbefore
  · rw [hleaf.names_before, if_neg hnames.ne]
    exact List.nodup_nil

include h hplanned hmakes hnames in
/-- An object that was made before consists of the same, and its names are counted. -/
theorem Created.made_after {other : Entry} (hother : other ∈ done) (hrole : other.role ≠ .linkTo)
    {found : Nat} {new : VolumeObject} (hfound : volume.numberOf? top other.path = some found)
    (hnew : after.object? found = some new) :
    Fits other (content other) new.body ∧ new.attributes = .empty ∧
      (new.isDirectory = false → new.linkCount =
        .ofNat ((done ++ [entry]).countP fun held => held.canonicalPath = other.path)) := by
  obtain ⟨_, old, hnumber, hold, -⟩ := h.exists_object other hother
  obtain rfl := Option.some.inj (hfound.symm.trans hnumber)
  obtain ⟨hfits, hattributes, hcount⟩ := h.made other hother hrole hfound hold
  have hiff := h.numberOf?_eq_some_iff hplanned hmakes hother
  rw [hfound, Entry.canonicalPath_of_role_ne hrole, Option.some.injEq] at hiff
  rw [List.countP_append]
  by_cases hsame : found = number
  · subst hsame
    rw [hnames.object] at hnew
    obtain rfl := Option.some.inj hnew
    cases hmakes with
    | new =>
      rw [h.isPlain.isFresh _ (Nat.le_refl _)] at hold
      cases hold
    | link _ _ hfind hfile =>
      obtain rfl := Option.some.inj (hold.symm.trans (Caller.find_eq_ok_iff.1 hfind).2)
      refine ⟨hfits, hattributes, fun _ => ?_⟩
      show old.linkCount + 1 = _
      rw [hcount hfile, List.countP_singleton, if_pos (by simpa using (hiff.1 rfl).symm)]
      exact (UInt64.ofNat_add _ _).symm
  · have hpath : ¬ entry.canonicalPath = other.path := fun hpath => hsame (hiff.2 hpath.symm)
    rw [List.countP_singleton, if_neg (by simpa using hpath), Nat.add_zero]
    obtain ⟨_, hafter, rfl | ⟨⟨bindings, bindings', parent, hbody, hbody'⟩, hkept⟩⟩ :=
      exists_object?_of_names hnames hsame hold
    · obtain rfl := Option.some.inj (hnew.symm.trans hafter)
      exact ⟨hfits, hattributes, hcount⟩
    · obtain rfl := Option.some.inj (hnew.symm.trans hafter)
      have hkind := hfits.kind_eq
      rw [VolumeObject.kind, hbody] at hkind
      refine ⟨hbody' ▸ .directory hkind.symm bindings' parent, hkept.trans hattributes, ?_⟩
      intro hfile
      simp [VolumeObject.isDirectory, VolumeObject.kind, hbody'] at hfile

include h hplanned hmakes hnames in
/-- The object of a new entry. -/
theorem Created.made_entry (hrole : entry.role ≠ .linkTo) {new : VolumeObject}
    (hnew : after.object? number = some new) :
    Fits entry (content entry) new.body ∧ new.attributes = .empty ∧
      (new.isDirectory = false → new.linkCount =
        .ofNat ((done ++ [entry]).countP fun held => held.canonicalPath = entry.path)) := by
  rw [hnames.object] at hnew
  obtain rfl := Option.some.inj hnew
  have hnone : (done.countP fun held => held.canonicalPath = entry.path) = 0 := by
    rw [List.countP_eq_zero]
    intro held hheld hpath
    obtain ⟨canonical, hcanonical, -, hsame, -⟩ := h.linked held hheld
    exact hplanned.path_ne canonical hcanonical (hsame.trans (by simpa using hpath))
  cases hmakes with
  | new _ hfits _ hattributes hcount =>
    refine ⟨hfits, hattributes, fun hfile => ?_⟩
    rw [hcount hfile, List.countP_append, hnone, List.countP_singleton,
      if_pos (by simpa using Entry.canonicalPath_of_role_ne hrole)]
    rfl
  | link hlinkTo => exact absurd hlinkTo hrole

include h hmakes in
theorem Created.number_ne_top (hplanned : Planned done entry) : number ≠ top := by
  cases hmakes with
  | new =>
    obtain ⟨object, -, -, hobject, -⟩ := h.opens.exists_directory
    exact (h.isPlain.isFresh.lt hobject).ne'
  | link hrole hlink hfind =>
    obtain ⟨canonical, hcanonical, -, -, hcanonicalLink⟩ := hplanned.exists_canonical hrole
    obtain rfl := Option.some.inj (hlink.symm.trans hcanonicalLink)
    obtain ⟨found, -, hfound, -, hne⟩ := h.exists_object canonical hcanonical
    obtain rfl := h.eq_of_resolve hcanonical hfound (Caller.find_eq_ok_iff.1 hfind).1
    exact hne

include h hplanned hproper hpath hdescend hfree hmakes hnames in
/-- One more object. -/
theorem Created.step : Created caller target top content (done ++ [entry]) after := by
  have hentry := h.numberOf?_entry hproper hpath hdescend hfree hmakes hnames
  have hold : ∀ {other}, other ∈ done →
      after.numberOf? top other.path = volume.numberOf? top other.path :=
    h.numberOf?_eq hfree hmakes hnames
  have hlast : ∀ {other}, other ∈ done ++ [entry] → other ∈ done ∨ other = entry := by
    intro other hother
    rwa [List.mem_append, List.mem_singleton] at hother
  have hmem : ∀ {other}, other ∈ done → other ∈ done ++ [entry] := List.mem_append_left _
  have hself : entry ∈ done ++ [entry] := List.mem_append_right _ (List.mem_singleton_self entry)
  exact {
    isPlain := isPlain_of_names hnames h.isPlain (hmakes.isPlain h.isPlain)
    opens := h.opens.of_names hnames (hmakes.isLeaf h.isPlain.isFresh)
    isProper := fun other hother => by
      rcases hlast hother with hother | rfl
      · exact h.isProper other hother
      · rw [hpath]
        exact Path.isProper_ofNames hproper (List.concat_ne_nil _ _)
    only := fun {others found} hothers => by
      rcases (h.descend_eq_some_iff hfree hmakes hnames).1 hothers with
        hbefore | ⟨-, front, rfl, hfront⟩
      · refine (h.only hbefore).imp_right ?_
        rintro ⟨other, hother, hsame⟩
        exact ⟨other, hmem hother, hsame⟩
      · -- The directory of the new name has no other name.
        obtain ⟨above, bindings, parent, links, habove, hbody, -⟩ := hnames.exists_above
        rw [h.eq_of_descend hfront hdescend habove hbody]
        exact .inr ⟨entry, hself, by rw [hpath, Path.components_ofNames hproper]⟩
    nodup := h.nodup_after hfree hmakes hnames
    linked := fun other hother => by
      rcases hlast hother with hother | rfl
      · obtain ⟨canonical, hcanonical, hlinked⟩ := h.linked other hother
        exact ⟨canonical, hmem hcanonical, hlinked⟩
      · by_cases hrole : other.role = .linkTo
        · obtain ⟨canonical, hcanonical, hcanonicalRole, hkind, hlink⟩ :=
            hplanned.exists_canonical hrole
          exact ⟨canonical, hmem hcanonical, hcanonicalRole,
            (Entry.canonicalPath_of_link hrole hlink).symm, hkind, hplanned.kind_ne⟩
        · exact ⟨other, hself, hrole, (Entry.canonicalPath_of_role_ne hrole).symm, rfl,
            hplanned.kind_ne⟩
    exists_object := fun other hother => by
      rcases hlast hother with hother | rfl
      · obtain ⟨found, old, hfound, hobject, hne⟩ := h.exists_object other hother
        by_cases hnumber : found = number
        · exact ⟨found, object, (hold hother).trans hfound, hnumber ▸ hnames.object, hne⟩
        · obtain ⟨new, hnew, -⟩ := exists_object?_of_names hnames hnumber hobject
          exact ⟨found, new, (hold hother).trans hfound, hnew, hne⟩
      · exact ⟨number, object, hentry, hnames.object, h.number_ne_top hmakes hplanned⟩
    number_eq_iff := fun first hfirst second hsecond => by
      rcases hlast hfirst with hmem₁ | rfl
      · rcases hlast hsecond with hmem₂ | rfl
        · rw [hold hmem₁, hold hmem₂]
          exact h.number_eq_iff first hmem₁ second hmem₂
        · rw [hold hmem₁, hentry]
          exact h.numberOf?_eq_some_iff hplanned hmakes hmem₁
      · rcases hlast hsecond with hmem₂ | rfl
        · rw [hold hmem₂, hentry, eq_comm, h.numberOf?_eq_some_iff hplanned hmakes hmem₂, eq_comm]
        · exact iff_of_true rfl rfl
    made := fun other hother hrole found object hfound hobject => by
      rcases hlast hother with hother | rfl
      · rw [hold hother] at hfound
        exact h.made_after hplanned hmakes hnames hother hrole hfound hobject
      · obtain rfl := Option.some.inj (hfound.symm.trans hentry)
        exact h.made_entry hplanned hmakes hnames hrole hobject }

end Step

/-! ## All objects -/

section Run

variable (hsuper : caller.isSuperuser = true) (restorer : FlagRestorer) (options : RestoreOptions)

include hsuper

/-- Making the next object of a listing. -/
theorem Created.create (h : Created caller target top content done volume)
    (hplanned : Planned done entry) {outcome : Option FlagOutcome}
    (hvalue : ((create caller.system target restorer options (content entry) entry).run
      volume).value = .ok outcome) :
    Created caller target top content (done ++ [entry])
        ((Restore.create caller.system target restorer options (content entry) entry).run
          volume).state ∧
      ((Restore.create caller.system target restorer options (content entry) entry).run
        volume).state.next ≤ volume.next + 1 ∧
      ((Restore.create caller.system target restorer options (content entry) entry).run
        volume).state.times = volume.times := by
  obtain ⟨names, name, directory, hproper, hpath, hdescend,
    ⟨object, bindings, parent, hobject, hbody⟩, hfree⟩ := h.exists_place hplanned
  have hdirectory := Volume.target?_of_directory hobject hbody
  have hfull : entry.fullPath target =
      Path.join target (Path.ofNames (names ++ [name])) := by
    rw [fullPath_eq (hpath ▸ Path.isProper_ofNames hproper (List.concat_ne_nil _ _)), hpath]
  obtain ⟨place, number, made, hleads, hmakes, hnames⟩ := adds_create hsuper h.isPlain
    hplanned.flags_eq
    (fun place hleads => by
      obtain ⟨-, -, hexisting⟩ := h.opens.eq_of_leads hproper hdescend hdirectory (hfull ▸ hleads)
      rw [hexisting, hfree])
    (fun found hfound => h.opens.resolve_ne_ok hproper hdescend hdirectory hfree (hfull ▸ hfound))
    restorer options hvalue
  obtain ⟨hplaceDirectory, hplaceName, -⟩ :=
    h.opens.eq_of_leads hproper hdescend hdirectory (hfull ▸ hleads)
  rw [hplaceDirectory, hplaceName] at hnames
  exact ⟨h.step hplanned hproper hpath hdescend hfree hmakes hnames, hnames.next_le_succ,
    hnames.times_eq⟩

omit hsuper in
/-- Nothing has been made in an empty directory. -/
theorem created_nil (hplain : volume.IsPlain) (hopens : caller.Opens volume target top)
    (hempty : volume.names top = []) : Created caller target top content [] volume := by
  have hfirst : ∀ {names number}, volume.descend top names = some number →
      names = [] ∧ number = top := by
    intro names number hdescend
    cases names with
    | nil => exact ⟨rfl, (Option.some.inj hdescend).symm⟩
    | cons name rest =>
      rw [Volume.descend, Volume.child?, hempty] at hdescend
      cases hdescend
  exact {
    isPlain := hplain
    opens := hopens
    isProper := fun _ h => absurd h List.not_mem_nil
    only := fun hdescend => .inl (hfirst hdescend).1
    nodup := fun hdescend => by simp [(hfirst hdescend).2, hempty]
    linked := fun _ h => absurd h List.not_mem_nil
    exists_object := fun _ h => absurd h List.not_mem_nil
    number_eq_iff := fun _ h => absurd h List.not_mem_nil
    made := fun _ h => absurd h List.not_mem_nil }

/-- The objects of a listing are made in an empty directory. -/
theorem created_createAll {entries : List Entry} (hplan : IsPlan entries) (hplain : volume.IsPlain)
    (hopens : caller.Opens volume target top) (hempty : volume.names top = [])
    (hvalues : ∀ made ∈ ((createAll caller.system target restorer options content entries).run
      volume).value, made.2.isOk = true) :
    Created caller target top content entries
        ((createAll caller.system target restorer options content entries).run volume).state ∧
      ((createAll caller.system target restorer options content entries).run
        volume).state.next ≤ volume.next + entries.length ∧
      ((createAll caller.system target restorer options content entries).run
        volume).state.times = volume.times := by
  have hstart : Created caller target top content [] volume := created_nil hplain hopens hempty
  refine @Task.ensures_mapM _ _ _
    (fun front state => Created caller target top content front state ∧
      state.next ≤ volume.next + front.length ∧ state.times = volume.times) _
    (fun made : Entry × Except MetadataError (Option FlagOutcome) => made.2.isOk = true) _
    (fun front entry back hsplit state hstate hgood => ?_) volume ⟨hstart, Nat.le_refl _, rfl⟩
    hvalues
  rw [Task.run_bind, Task.run_pure] at hgood ⊢
  cases hvalue : ((create caller.system target restorer options (content entry) entry).run
      state).value with
  | error error =>
    rw [hvalue] at hgood
    cases hgood
  | ok outcome =>
    obtain ⟨hcreated, hnext, htimes⟩ :=
      hstate.1.create hsuper restorer options (hplan front entry back hsplit) hvalue
    refine ⟨hcreated, hnext.trans ?_, htimes.trans hstate.2.2⟩
    rw [List.length_append, ← Nat.add_assoc]
    exact Nat.add_le_add_right hstate.2.1 1

end Run

end Restore

end TreeManifest
