import TreeManifest.Proofs.Volume.Calls

/-!
# Where a path leads in different volumes

A path leads to the same object in two volumes in which the objects on its way consist of the same.
Permissions only decide whether a caller gets there.

## Main definitions

- `Volume.SameBodies`: the objects of two volumes consist of the same.
- `Volume.Retouched`: nothing changed but the metadata of one object.

## Main statements

- `Caller.follow_mono`: what is found in one volume is found in another one.
- `Caller.resolve_agree`: a path cannot lead to different objects.
-/

namespace TreeManifest

/-- The objects of two volumes consist of the same. -/
def Volume.SameBodies (first second : Volume) : Prop :=
  ∀ number, (first.object? number).map (·.body) = (second.object? number).map (·.body)

/-- Nothing changed but the metadata of one object. -/
structure Volume.Retouched (before : Volume) (number : Nat) (after : Volume) : Prop where
  others : ∀ other, other ≠ number → after.object? other = before.object? other
  body_eq : (after.object? number).map (·.body) = (before.object? number).map (·.body)

namespace Volume

variable {first second third before after : Volume} {number : Nat}

theorem SameBodies.symm (h : first.SameBodies second) : second.SameBodies first :=
  fun number => (h number).symm

theorem SameBodies.trans (h : first.SameBodies second) (h' : second.SameBodies third) :
    first.SameBodies third :=
  fun number => (h number).trans (h' number)

theorem Retouched.refl (volume : Volume) (number : Nat) : volume.Retouched number volume :=
  ⟨fun _ _ => rfl, rfl⟩

theorem Retouched.trans (h : first.Retouched number second) (h' : second.Retouched number third) :
    first.Retouched number third :=
  ⟨fun other hother => (h'.others other hother).trans (h.others other hother),
    h'.body_eq.trans h.body_eq⟩

/-- Touching an object leaves all objects what they are. -/
theorem Retouched.sameBodies (h : before.Retouched number after) : after.SameBodies before := by
  intro other
  by_cases hother : other = number
  · rw [hother]
    exact h.body_eq
  · rw [h.others other hother]

/-- Replacing an object by one of the same body touches that object only. -/
theorem retouched_put {old object : VolumeObject} (hold : before.object? number = some old)
    (hbody : object.body = old.body) : before.Retouched number (before.put number object) := by
  refine ⟨fun other hother => ?_, ?_⟩
  · rw [object?_put, if_neg (Ne.symm hother)]
  · rw [object?_put, if_pos rfl, hold, Option.map_some, Option.map_some, hbody]

theorem SameBodies.target?_eq (h : first.SameBodies second) (number : Nat) :
    (first.object? number).bind (·.target?) = (second.object? number).bind (·.target?) := by
  have hbody := h number
  cases hfirst : first.object? number with
  | none =>
    rw [hfirst] at hbody
    rw [Option.map_eq_none_iff.1 hbody.symm]
  | some object =>
    rw [hfirst] at hbody
    obtain ⟨other, hother, hsame⟩ := Option.map_eq_some_iff.1 hbody.symm
    rw [hother, Option.bind_some, Option.bind_some, VolumeObject.target?, VolumeObject.target?,
      hsame]

end Volume

namespace Caller

variable {caller other : Caller} {first second : Volume}

/-- What is found in one volume is found in another one, if every step of the way is. -/
theorem follow_mono
    (h : ∀ directory name number, caller.lookup first directory name = .ok (some number) →
      other.lookup second directory name = .ok (some number) ∧
        (second.object? number).bind (·.target?) = (first.object? number).bind (·.target?))
    {followLast : Bool} {links here found : Nat} {names : List Bytes}
    (hfound : caller.follow first followLast links here names = .ok found) :
    other.follow second followLast links here names = .ok found := by
  fun_induction follow caller first followLast links here names with
  | case1 links here =>
    rw [follow]
    exact hfound
  | case2 | case3 | case6 => cases hfound
  | case4 links here name rest number hlookup htarget ih =>
    obtain ⟨hlookup, hsame⟩ := h _ _ _ hlookup
    rw [htarget] at hsame
    rw [follow]
    simp only [hlookup, hsame]
    exact ih hfound
  | case5 links here name rest number hlookup target htarget hlast =>
    obtain ⟨hlookup, hsame⟩ := h _ _ _ hlookup
    rw [htarget] at hsame
    rw [follow]
    simp only [hlookup, hsame, if_pos hlast]
    exact hfound
  | case7 here name rest number hlookup target htarget hlast links ih =>
    obtain ⟨hlookup, hsame⟩ := h _ _ _ hlookup
    rw [htarget] at hsame
    rw [follow]
    simp only [hlookup, hsame, if_neg hlast]
    exact ih hfound

/-- A path leads somewhere if it is acceptable and its names can be followed. -/
theorem resolve_eq_ok_iff {volume : Volume} {followLast : Bool} {path : Path} {number : Nat} :
    caller.resolve volume followLast path = .ok number ↔ checkPath path = .ok () ∧
      caller.follow volume followLast linkLimit (beginning path caller.home) (namesOf path) =
        .ok number := by
  simp only [resolve, bind, Except.bind]
  cases checkPath path with
  | error errno => simp
  | ok => simp

/-- A name leads to the same in volumes that consist of the same, for those who may search its
directory. -/
theorem lookup_sameBodies (h : first.SameBodies second) {directory : Nat} {name : Bytes}
    {found : Option Nat}
    (hmay : ∀ above there, first.object? directory = some above →
      second.object? directory = some there → there.isDirectory = true →
      caller.may .search above = true → other.may .search there = true)
    (hlookup : caller.lookup first directory name = .ok found) :
    other.lookup second directory name = .ok found := by
  obtain ⟨above, names, parent, habove, hbody, hsearch, hfound⟩ := exists_of_lookup hlookup
  obtain ⟨there, hthere, hsame⟩ : ∃ there, second.object? directory = some there ∧
      there.body = .directory names parent := by
    have hsame := h directory
    rw [habove, Option.map_some, hbody] at hsame
    obtain ⟨there, hthere, hsame⟩ := Option.map_eq_some_iff.1 hsame.symm
    exact ⟨there, hthere, hsame⟩
  have hdirectory : there.isDirectory = true := by
    simp [VolumeObject.isDirectory, VolumeObject.kind, hsame]
  rw [lookup_eq hthere hsame (hmay above there habove hthere hdirectory hsearch)]
  rcases hfound with ⟨hdot, rfl⟩ | ⟨hdot, hdotDot, rfl⟩ | ⟨hdot, hdotDot, hlength, rfl⟩
  · simp [hdot]
  · subst hdotDot
    simp [hdot]
  · simp [hdot, hdotDot, Nat.not_lt.2 hlength]

/-- A caller finds nothing that the superuser would not find at the same place. -/
theorem lookup_superuser (h : first.SameBodies second) {directory : Nat} {name : Bytes}
    {found : Option Nat} (hlookup : caller.lookup first directory name = .ok found) :
    { caller with isSuperuser := true }.lookup second directory name = .ok found :=
  lookup_sameBodies h (fun _ there _ _ hdirectory _ => by simp [may, hdirectory]) hlookup

/-- A way that a caller can go is open to the superuser. -/
theorem follow_superuser (h : first.SameBodies second) {followLast : Bool} {links here found : Nat}
    {names : List Bytes} (hfound : caller.follow first followLast links here names = .ok found) :
    { caller with isSuperuser := true }.follow second followLast links here names = .ok found :=
  follow_mono (fun _ _ number hlookup => ⟨lookup_superuser h hlookup, (h.target?_eq number).symm⟩)
    hfound

/-- The superuser finds the same in volumes that consist of the same. -/
theorem resolve_sameBodies (hsuper : caller.isSuperuser = true) (h : first.SameBodies second)
    {followLast : Bool} {path : Path} {found : Nat}
    (hfound : caller.resolve first followLast path = .ok found) :
    caller.resolve second followLast path = .ok found := by
  have hcaller : { caller with isSuperuser := true } = caller := by
    rw [← hsuper]
  obtain ⟨hcheck, hfollow⟩ := resolve_eq_ok_iff.1 hfound
  have hsecond := follow_superuser h hfollow
  rw [hcaller] at hsecond
  exact resolve_eq_ok_iff.2 ⟨hcheck, hsecond⟩

/-- A path cannot lead to different objects in volumes that consist of the same. -/
theorem resolve_agree (h : first.SameBodies second) {followLast : Bool} {path : Path}
    {found found' : Nat} (hfound : caller.resolve first followLast path = .ok found)
    (hfound' : caller.resolve second followLast path = .ok found') : found = found' := by
  have hfirst := follow_superuser h (resolve_eq_ok_iff.1 hfound).2
  have hsecond := follow_superuser (fun _ => rfl) (resolve_eq_ok_iff.1 hfound').2
  rw [hfirst] at hsecond
  exact Except.ok.inj hsecond

/-- Only a symlink at the end of a path leads on. -/
theorem follow_true {volume : Volume} {links here found : Nat} {names : List Bytes}
    (hfound : caller.follow volume false links here names = .ok found)
    (htarget : (volume.object? found).bind (·.target?) = none) :
    caller.follow volume true links here names = .ok found := by
  fun_induction follow caller volume false links here names with
  | case1 links here =>
    rw [follow]
    exact hfound
  | case2 | case3 | case6 => cases hfound
  | case4 links here name rest number hlookup hno ih =>
    rw [follow]
    simp only [hlookup, hno]
    exact ih hfound
  | case5 links here name rest number hlookup target hlink =>
    cases hfound
    rw [hlink] at htarget
    cases htarget
  | case7 here name rest number hlookup target hlink hlast links ih =>
    have hrest : rest.isEmpty = false := by simpa using hlast
    rw [follow]
    simp only [hlookup, hlink, hrest, Bool.false_and, Bool.false_eq_true, if_false]
    exact ih hfound

/-- A path that does not end at a symlink leads to one place, whether its end is followed or not. -/
theorem resolve_true {volume : Volume} {path : Path} {found : Nat}
    (hfound : caller.resolve volume false path = .ok found)
    (htarget : (volume.object? found).bind (·.target?) = none) :
    caller.resolve volume true path = .ok found := by
  rw [resolve_eq_ok_iff] at hfound ⊢
  exact ⟨hfound.1, follow_true hfound.2 htarget⟩

end Caller

end TreeManifest
