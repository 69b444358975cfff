import TreeManifest.Proofs.Path.Names
import TreeManifest.Proofs.Volume.Routes

/-!
# Objects below a directory

A relative path without the name `..` leads to an object below the directory in which it begins, as
long as there are no symlinks on the way.

## Main definitions

- `Volume.Below`: an object is a directory or in a directory below it.
- `Path.Stays`: a path cannot leave the directory in which it begins.
- `Volume.IsPlainRoot`: a path leads to a directory below which there are no symlinks.

## Main statements

- `Caller.follow_append`: a path is followed part by part.
- `Volume.IsPlainRoot.below_of_resolve`: the object of a path below a plain root is below it.
- `Volume.IsPlainRoot.below_of_leads`: so is the directory of a new object.
-/

namespace TreeManifest

/-! ## Paths -/

namespace Path

/-- A relative path that never goes up. -/
structure Stays (path : Path) : Prop where
  isAbsolute_eq : isAbsolute path = false
  dotDot_notMem : dotDot ∉ components path

/-- The components of a joined path are those of its parts. -/
theorem components_join {inner : Path} (base : Path) (h : isAbsolute inner = false) :
    components (join base inner) = components base ++ components inner := by
  rw [join, h, if_neg Bool.false_ne_true]
  -- Whether a slash is added depends on the last byte of the base.
  cases base using List.reverseRecOn with
  | nil => rfl
  | append_singleton front byte =>
    rw [List.getLast?_concat]
    split
    · next hslash =>
      have hbyte : byte = Bytes.slash := by simpa using hslash
      rw [hbyte, List.append_assoc, List.singleton_append, components_append_slash,
        components_append_slash, components_nil, List.append_nil]
    · rw [components_append_slash]

theorem IsProper.isAbsolute_eq {path : Path} (h : IsProper path) : isAbsolute path = false := by
  obtain ⟨first, hfirst, hhead⟩ := head?_pieces_ofNames h.isName h.ne_nil
  rw [← h.eq_ofNames] at hhead
  exact isAbsolute_eq_false_of_head?_pieces hhead hfirst.ne_nil

/-- Paths without anything redundant are told apart by their locations. -/
theorem IsProper.eq_of_join_eq {base first second : Path} (h : IsProper first)
    (h' : IsProper second) (hsame : join base first = join base second) : first = second := by
  have hcomponents := congrArg components hsame
  rw [components_join base h.isAbsolute_eq, components_join base h'.isAbsolute_eq] at hcomponents
  exact h.eq h' (List.append_cancel_left hcomponents)

/-- A joined path is absolute if its base is. -/
theorem isAbsolute_join {base inner : Path} (h : isAbsolute inner = false) (hbase : base ≠ []) :
    isAbsolute (join base inner) = isAbsolute base := by
  obtain ⟨byte, rest, rfl⟩ := List.exists_cons_of_ne_nil hbase
  rw [join, h, if_neg Bool.false_ne_true]
  split <;> rfl

theorem getLast?_join_nil {base : Path} (hbase : base ≠ []) :
    (join base []).getLast? = some Bytes.slash := by
  rw [join, if_neg (by simp [isAbsolute])]
  split
  · next hslash =>
    obtain ⟨byte, hbyte⟩ := Option.isSome_iff_exists.1 (List.getLast?_isSome.2 hbase)
    rw [hbyte, Option.all_some, beq_iff_eq] at hslash
    rw [List.append_nil, hbyte, hslash]
  · rw [List.getLast?_append]
    rfl

/-- A relative path has a component unless it is empty. -/
theorem components_ne_nil {path : Path} (h : isAbsolute path = false) (hne : path ≠ []) :
    components path ≠ [] := by
  obtain ⟨byte, rest, rfl⟩ := List.exists_cons_of_ne_nil hne
  have hbyte : byte ≠ Bytes.slash := by simpa [isAbsolute] using h
  obtain ⟨more, hpieces, -⟩ := exists_pieces_eq rest
  rw [components, pieces, if_neg hbyte, hpieces]
  simp

end Path

/-! ## Following part by part -/

namespace Caller

variable {caller : Caller} {volume : Volume}

/-- The first part of a path leads to where the last part begins. -/
theorem follow_append {followLast : Bool} {links here found : Nat} {front back : List Bytes}
    (hback : back ≠ [])
    (h : caller.follow volume followLast links here (front ++ back) = .ok found) :
    ∃ middle links', caller.follow volume true links here front = .ok middle ∧
      caller.follow volume followLast links' middle back = .ok found := by
  fun_induction follow caller volume true links here front with
  | case1 links here => exact ⟨here, links, rfl, h⟩
  | case2 links here name rest errno hlookup =>
    rw [List.cons_append, follow] at h
    simp only [hlookup] at h
    cases h
  | case3 links here name rest hlookup =>
    rw [List.cons_append, follow] at h
    simp only [hlookup] at h
    cases h
  | case4 links here name rest number hlookup htarget ih =>
    rw [List.cons_append, follow] at h
    simp only [hlookup, htarget] at h
    exact ih h
  | case5 links here name rest number hlookup target htarget hlast => simp at hlast
  | case6 here name rest number hlookup target htarget hlast =>
    rw [List.cons_append, follow] at h
    simp [hlookup, htarget, hback] at h
  | case7 here name rest number hlookup target htarget hlast links ih =>
    rw [List.cons_append, follow] at h
    simp only [hlookup, htarget, List.isEmpty_eq_false_iff.2 (List.append_ne_nil_of_right_ne_nil
      rest hback), Bool.false_and, Bool.false_eq_true, if_false] at h
    rw [← List.append_assoc] at h
    exact ih h

/-- A dot at the end of a path asks for the directory itself. -/
theorem follow_dot {followLast : Bool} {links here found : Nat}
    (h : caller.follow volume followLast links here [Path.dot] = .ok found) :
    found = here ∧ ∃ above names parent, volume.object? here = some above ∧
      above.body = .directory names parent := by
  rw [follow] at h
  split at h
  · cases h
  · cases h
  · next number hlookup =>
    obtain ⟨above, names, parent, habove, hbody, -, hfound⟩ := exists_of_lookup hlookup
    have hnumber : number = here := by
      rcases hfound with ⟨-, hsome⟩ | ⟨hne, -⟩ | ⟨hne, -⟩
      · exact Option.some.inj hsome
      · exact absurd rfl hne
      · exact absurd rfl hne
    have htarget : (volume.object? number).bind (·.target?) = none := by
      rw [hnumber, habove]
      simp [VolumeObject.target?, hbody]
    simp only [htarget, follow] at h
    exact ⟨(Except.ok.inj h).symm.trans hnumber, above, names, parent, habove, hbody⟩

/-- The names of a root lead to its directory, whether or not it ends with a slash. -/
theorem follow_components {root : Path} {top : Nat}
    (hresolve : caller.resolve volume true root = .ok top) :
    caller.follow volume true linkLimit (beginning root caller.home) (Path.components root) =
      .ok top := by
  have hfollow := (resolve_eq_ok_iff.1 hresolve).2
  rw [namesOf] at hfollow
  split at hfollow
  · obtain ⟨middle, links, hmiddle, hdot⟩ := follow_append (List.cons_ne_nil _ _) hfollow
    rw [(follow_dot hdot).1]
    exact hmiddle
  · rwa [List.append_nil] at hfollow

end Caller

/-! ## Below a directory -/

/-- An object is the given directory, or it has a name in a directory below it. -/
inductive Volume.Below (volume : Volume) (top : Nat) : Nat → Prop where
  | top : Below volume top top
  | child {directory number : Nat} {name : Bytes} (h : Below volume top directory)
      (hname : (name, number) ∈ volume.names directory) : Below volume top number

/-- A path leads to a directory without following a symlink at its end, and no object below that
directory is a symlink. -/
structure Volume.IsPlainRoot (volume : Volume) (caller : Caller) (root : Path) (top : Nat) :
    Prop where
  resolve_eq : caller.resolve volume false root = .ok top
  exists_directory : ∃ object names parent, volume.object? top = some object ∧
    object.body = .directory names parent
  target?_eq_none : ∀ number, volume.Below top number →
    (volume.object? number).bind (·.target?) = none

namespace Volume

variable {volume after : Volume} {caller : Caller} {root path : Path} {top number : Nat}

theorem names_eq_of_object? {object : VolumeObject} (h : volume.object? number = some object) :
    volume.names number = object.names := by
  rw [names, h]

theorem names_eq_of_body {object : VolumeObject} {names : List (Bytes × Nat)} {parent : Nat}
    (h : volume.object? number = some object) (hbody : object.body = .directory names parent) :
    volume.names number = names := by
  rw [names_eq_of_object? h, VolumeObject.names, hbody]

/-- What is below a root stays below it when directories only gain names. -/
theorem Below.mono (h : volume.Below top number)
    (hnames : ∀ directory binding, binding ∈ volume.names directory →
      binding ∈ after.names directory) : after.Below top number := by
  induction h with
  | top => exact .top
  | child _ hname ih => exact ih.child (hnames _ _ hname)

/-- A name that is found is one of the names. -/
theorem mem_of_lookup {names : List (Bytes × Nat)} {name : Bytes}
    (h : names.lookup name = some number) : (name, number) ∈ names := by
  induction names with
  | nil => cases h
  | cons head rest ih =>
    obtain ⟨other, found⟩ := head
    rw [List.lookup_cons] at h
    split at h
    · next heq =>
      cases h
      rw [eq_of_beq heq]
      exact List.mem_cons_self
    · exact List.mem_cons_of_mem _ (ih h)

/-- A name in a directory that is below another one. -/
theorem Below.of_lookup {directory : Nat} {name : Bytes} (h : volume.Below top directory)
    (hlookup : caller.lookup volume directory name = .ok (some number))
    (hname : name ≠ Path.dotDot) : volume.Below top number := by
  obtain ⟨above, names, parent, habove, hbody, -, hfound⟩ := Caller.exists_of_lookup hlookup
  rcases hfound with ⟨-, hsome⟩ | ⟨-, hdotDot, -⟩ | ⟨-, -, -, hsome⟩
  · rw [Option.some.inj hsome]
    exact h
  · exact absurd hdotDot hname
  · rw [← names_eq_of_body habove hbody] at hsome
    exact h.child (mem_of_lookup hsome.symm)

/-- Names without `..` never leave a directory below which there are no symlinks. -/
theorem Below.of_follow {followLast : Bool} {links here : Nat} {names : List Bytes}
    (hplain : ∀ number, volume.Below top number →
      (volume.object? number).bind (·.target?) = none)
    (h : volume.Below top here) (hnames : Path.dotDot ∉ names)
    (hfollow : caller.follow volume followLast links here names = .ok number) :
    volume.Below top number := by
  induction names generalizing here with
  | nil =>
    rw [Caller.follow] at hfollow
    exact Except.ok.inj hfollow ▸ h
  | cons name rest ih =>
    rw [List.mem_cons, not_or] at hnames
    rw [Caller.follow] at hfollow
    split at hfollow
    · cases hfollow
    · cases hfollow
    · next found hlookup =>
      have hfound := h.of_lookup hlookup (Ne.symm hnames.1)
      simp only [hplain found hfound] at hfollow
      exact ih hfound hnames.2 hfollow

namespace IsPlainRoot

variable (h : volume.IsPlainRoot caller root top)

include h

theorem ne_nil : root ≠ [] := by
  rintro rfl
  have hcheck := (Caller.resolve_eq_ok_iff.1 h.resolve_eq).1
  cases hcheck

theorem follow_components : caller.follow volume true Caller.linkLimit
    (Caller.beginning root caller.home) (Path.components root) = .ok top :=
  Caller.follow_components (Caller.resolve_true h.resolve_eq (h.target?_eq_none top .top))

/-- Names behind those of the root lead below it, also where the metadata differs. -/
theorem below_of_follow (hsame : after.SameBodies volume) {followLast : Bool} {back : List Bytes}
    (hback : back ≠ [] ∨ followLast = true) (hnames : Path.dotDot ∉ back)
    (hfollow : caller.follow after followLast Caller.linkLimit
      (Caller.beginning root caller.home) (Path.components root ++ back) = .ok number) :
    volume.Below top number := by
  have hfollow' := Caller.follow_superuser hsame hfollow
  have hroot := Caller.follow_superuser (fun _ => rfl) h.follow_components
  by_cases hnil : back = []
  · have hlast : followLast = true := hback.resolve_left fun hne => hne hnil
    rw [hnil, List.append_nil, hlast] at hfollow'
    rw [Except.ok.inj (hfollow'.symm.trans hroot)]
    exact .top
  · obtain ⟨middle, links, hmiddle, hrest⟩ := Caller.follow_append hnil hfollow'
    rw [Except.ok.inj (hmiddle.symm.trans hroot)] at hrest
    exact Below.of_follow h.target?_eq_none .top hnames hrest

/-- The object of a path below a plain root is below it. -/
theorem below_of_resolve_join (hsame : after.SameBodies volume) {followLast : Bool}
    (hstays : path.Stays)
    (hresolve : caller.resolve after followLast (Path.join root path) = .ok number) :
    volume.Below top number := by
  have hfollow := (Caller.resolve_eq_ok_iff.1 hresolve).2
  rw [Caller.namesOf, Caller.beginning, Path.isAbsolute_join hstays.isAbsolute_eq h.ne_nil,
    ← Caller.beginning, Path.components_join root hstays.isAbsolute_eq, List.append_assoc]
    at hfollow
  refine h.below_of_follow hsame (.inl ?_) ?_ hfollow
  · by_cases hpath : path = []
    · rw [hpath, Path.getLast?_join_nil h.ne_nil, if_pos rfl]
      exact List.append_ne_nil_of_right_ne_nil _ (List.cons_ne_nil _ _)
    · exact List.append_ne_nil_of_left_ne_nil (Path.components_ne_nil hstays.isAbsolute_eq hpath) _
  · rw [List.mem_append, not_or]
    refine ⟨hstays.dotDot_notMem, ?_⟩
    split
    · decide
    · exact List.not_mem_nil

/-- The object of an entry is below the root. -/
theorem below_of_resolve {entry : Entry} (hsame : after.SameBodies volume) {followLast : Bool}
    (hstays : Path.Stays entry.path)
    (hresolve : caller.resolve after followLast (entry.fullPath root) = .ok number) :
    volume.Below top number := by
  rw [Entry.fullPath] at hresolve
  split at hresolve
  · have hroot : caller.resolve volume followLast root = .ok top := by
      cases followLast with
      | false => exact h.resolve_eq
      | true => exact Caller.resolve_true h.resolve_eq (h.target?_eq_none top .top)
    rw [Caller.resolve_agree hsame hresolve hroot]
    exact .top
  · exact h.below_of_resolve_join hsame hstays hresolve

/-- The directory of a new object for an entry is below the root. The root itself exists already. -/
theorem below_of_leads {entry : Entry} {place : Caller.Place} (hstays : Path.Stays entry.path)
    (hleads : caller.Leads volume (entry.fullPath root) place) :
    volume.Below top place.directory ∨ ∃ number, place.existing = some number ∧
      (number = top ∨ ∃ target, (volume.object? number).bind (·.target?) = some target) := by
  obtain ⟨front, hcomponents, hfront⟩ := hleads.exists_front
  rw [Entry.fullPath] at hcomponents hfront
  split at hcomponents
  · right
    rw [if_pos ‹_›] at hfront
    have hroot := (Caller.resolve_eq_ok_iff.1 h.resolve_eq).2
    rw [Caller.namesOf, hcomponents, List.append_assoc, List.singleton_append] at hroot
    obtain ⟨middle, links, hmiddle, hlast⟩ := Caller.follow_append (List.cons_ne_nil _ _) hroot
    rw [Except.ok.inj (hmiddle.symm.trans hfront), Caller.follow] at hlast
    split at hlast
    · cases hlast
    · cases hlast
    · next number hlookup =>
      refine ⟨number, hleads.existing_eq hlookup, ?_⟩
      split at hlast
      · next htarget =>
        left
        split at hlast
        · exact (Caller.follow_dot hlast).1.symm
        · rw [Caller.follow] at hlast
          exact Except.ok.inj hlast
      · next target htarget => exact .inr ⟨target, htarget⟩
  · left
    next hpath =>
    rw [if_neg hpath] at hfront
    have hne := Path.components_ne_nil hstays.isAbsolute_eq fun hnil => hpath (by simp [hnil])
    rw [Path.components_join root hstays.isAbsolute_eq,
      ← List.dropLast_append_getLast hne, ← List.append_assoc] at hcomponents
    rw [Caller.beginning, Path.isAbsolute_join hstays.isAbsolute_eq h.ne_nil,
      ← Caller.beginning, ← (List.append_inj' hcomponents rfl).1] at hfront
    exact h.below_of_follow (fun _ => rfl) (.inr rfl)
      (fun hmem => hstays.dotDot_notMem (List.dropLast_subset _ hmem)) hfront

end IsPlainRoot

end Volume

end TreeManifest
