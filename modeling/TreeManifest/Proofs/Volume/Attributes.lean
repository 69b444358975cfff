import Mathlib
import TreeManifest.Proofs.Attributes.Rights
import TreeManifest.Volume.Change

/-!
# Attributes of the objects of a volume

Where a path leads does not depend on the attributes of any object, and neither do the rights of a
caller. So the calls of a caller on the attributes of one object act as those of a map.

## Main definitions

- `VolumeObject.bare`: an object without its attributes.
- `Caller.attributeRights`: what a caller may do with the attributes of an object.

## Main statements

- `Caller.find_put`: a path still leads to the object after its attributes have changed.
- `Caller.givesMap`: the calls of a caller act as those of a map.

## Design notes

Mathlib is imported whole for the modules that build on this one. They run restores on small volumes
with `cbv`, which needs equations of library functions from many parts of Mathlib.
-/

namespace TreeManifest

def VolumeObject.bare (object : VolumeObject) : VolumeObject :=
  { object with attributes := .empty }

/-- Two volumes differ in attributes at most. -/
def Volume.SameBare (first second : Volume) : Prop :=
  ∀ number, (first.object? number).map (·.bare) = (second.object? number).map (·.bare)

namespace Caller

variable {caller : Caller} {first second : Volume}

/-! ## Where a path leads -/

/-- A search for a name takes no notice of attributes. -/
theorem lookup_eq_bare (volume : Volume) (directory : Nat) (name : Bytes) :
    caller.lookup volume directory name =
      match (volume.object? directory).map (·.bare) with
      | none => .error .enoent
      | some object =>
        match object.body with
        | .directory names parent =>
          if !caller.may .search object then .error .eacces
          else if name = Path.dot then .ok (some directory)
          else if name = Path.dotDot then .ok (some parent)
          else if name.length > nameLimit then .error .enametoolong
          else .ok (names.lookup name)
        | _ => .error .enotdir := by
  unfold lookup
  cases volume.object? directory with
  | none => rfl
  | some object => rfl

/-- Volumes that differ in attributes only are searched alike. -/
theorem lookup_congr (h : first.SameBare second) (directory : Nat) (name : Bytes) :
    caller.lookup first directory name = caller.lookup second directory name := by
  rw [lookup_eq_bare, lookup_eq_bare, h directory]

theorem target?_congr (h : first.SameBare second) (number : Nat) :
    (first.object? number).bind (·.target?) = (second.object? number).bind (·.target?) := by
  have hbare : ∀ volume : Volume, (volume.object? number).bind (·.target?) =
      ((volume.object? number).map (·.bare)).bind (·.target?) := by
    intro volume
    cases volume.object? number with
    | none => rfl
    | some object => rfl
  rw [hbare, hbare, h number]

/-- Volumes that differ in attributes only lead the same way. -/
theorem follow_congr (h : first.SameBare second) (followLast : Bool) (links here : Nat)
    (names : List Bytes) :
    caller.follow first followLast links here names =
      caller.follow second followLast links here names := by
  fun_induction follow caller first followLast links here names with
  | case1 => rw [follow]
  | case2 links here name rest errno hlookup =>
    rw [lookup_congr h] at hlookup
    rw [follow, hlookup]
  | case3 links here name rest hlookup =>
    rw [lookup_congr h] at hlookup
    rw [follow, hlookup]
  | case4 links here name rest number hlookup htarget ih =>
    rw [lookup_congr h] at hlookup
    rw [target?_congr h] at htarget
    rw [ih]
    conv_rhs => rw [follow]
    simp only [hlookup, htarget]
  | case5 links here name rest number hlookup target htarget hlast =>
    rw [lookup_congr h] at hlookup
    rw [target?_congr h] at htarget
    rw [follow]
    simp only [hlookup, htarget, if_pos hlast]
  | case6 here name rest number hlookup target htarget hlast =>
    rw [lookup_congr h] at hlookup
    rw [target?_congr h] at htarget
    rw [follow]
    simp only [hlookup, htarget, if_neg hlast]
  | case7 here name rest number hlookup target htarget hlast links ih =>
    rw [lookup_congr h] at hlookup
    rw [target?_congr h] at htarget
    rw [ih]
    conv_rhs => rw [follow]
    simp only [hlookup, htarget, if_neg hlast]

/-- What stands for an object that differs from another one in attributes at most. -/
theorem sameBare_put {volume : Volume} {number : Nat} {object : VolumeObject}
    (h : volume.object? number = some object) (attributes : AttributeMap) :
    (volume.put number { object with attributes }).SameBare volume := by
  intro other
  rw [Volume.object?_put]
  by_cases hother : number = other
  · subst hother
    simp [h, VolumeObject.bare]
  · simp [hother]

/-- An object is found where its path leads. -/
theorem find_eq_ok_iff {volume : Volume} {followLast : Bool} {path : Path} {number : Nat}
    {object : VolumeObject} :
    caller.find volume followLast path = .ok (number, object) ↔
      caller.resolve volume followLast path = .ok number ∧
        volume.object? number = some object := by
  simp only [find, bind, Except.bind]
  cases caller.resolve volume followLast path with
  | error errno => simp
  | ok found =>
    simp only [Except.ok.injEq]
    constructor
    · intro hfound
      split at hfound
      · next other hother =>
        cases hfound
        exact ⟨rfl, hother⟩
      · cases hfound
    · rintro ⟨rfl, hobject⟩
      rw [hobject]
      rfl

/-- A path still leads to an object whose attributes have changed. -/
theorem find_put {volume : Volume} {followLast : Bool} {path : Path} {number : Nat}
    {object : VolumeObject} (h : caller.find volume followLast path = .ok (number, object))
    (attributes : AttributeMap) :
    caller.find (volume.put number { object with attributes }) followLast path =
      .ok (number, { object with attributes }) := by
  rw [find_eq_ok_iff] at h ⊢
  obtain ⟨hresolve, hobject⟩ := h
  refine ⟨?_, by simp⟩
  rw [← hresolve, resolve, resolve, follow_congr (sameBare_put hobject attributes)]

/-! ## Rights -/

def checkReading (caller : Caller) (object : VolumeObject) (name : String) :
    Except Errno Unit := do
  if '\x00' ∈ name.toList then .error .einval
  AttributeSpace.checkLength name
  match AttributeSpace.ofName name with
  | .user =>
    if !object.kind.hasFlagWord then return
    else if !caller.may .read object then .error .eacces
    else AttributeSpace.checkForm name
  | .trusted => if caller.isSuperuser then AttributeSpace.checkForm name else return
  | .security => AttributeSpace.checkForm name
  | .unknown =>
    if caller.may .read object then AttributeSpace.checkForm name else .error .eacces

def checkChange (caller : Caller) (object : VolumeObject) (name : String) :
    Except Errno Unit := do
  if '\x00' ∈ name.toList then .error .einval
  AttributeSpace.checkLength name
  caller.checkAttributeChange object name

variable {volume : Volume} {path : Path} {number : Nat} {object : VolumeObject} {name : String}

/-- A change of an attribute of a known object comes down to its checks. -/
theorem checked_eq {α : Type} (h : caller.find volume false path = .ok (number, object))
    (name : String) (finish : Nat → VolumeObject → Except Errno α) :
    (do
      if '\x00' ∈ name.toList then .error .einval
      AttributeSpace.checkLength name
      let (number, object) ← caller.find volume false path
      caller.checkAttributeChange object name
      finish number object) =
    (do
      caller.checkChange object name
      finish number object) := by
  simp only [checkChange, h, bind, Except.bind]
  by_cases hnul : '\x00' ∈ name.toList
  · simp only [hnul, if_true]
  · simp only [hnul, if_false]
    cases AttributeSpace.checkLength name <;> rfl

/-- Setting an attribute comes down to the checks of the object. -/
theorem setAttribute_eq (h : caller.find volume false path = .ok (number, object))
    (name : String) (value : Bytes) :
    caller.setAttribute path name value volume = (caller.checkChange object name).map fun _ =>
      ((), volume.put number
        { object with attributes := object.attributes.insert name value }) := by
  refine (checked_eq h name fun number object => .ok ((), volume.put number
    { object with attributes := object.attributes.insert name value })).trans ?_
  cases caller.checkChange object name <;> rfl

/-- Removing an attribute that is there comes down to the checks of the object. -/
theorem removeAttribute_eq (h : caller.find volume false path = .ok (number, object))
    (hheld : object.attributes.contains name = true) :
    caller.removeAttribute path name volume = (caller.checkChange object name).map fun _ =>
      ((), volume.put number { object with attributes := object.attributes.erase name }) := by
  refine (checked_eq h name fun number object =>
    if object.attributes.contains name then .ok ((), volume.put number
      { object with attributes := object.attributes.erase name })
    else .error .enodata).trans ?_
  rw [if_pos hheld]
  cases caller.checkChange object name <;> rfl

/-- Only kinds with a flag word have attributes of users. -/
def HoldsPermitted (object : VolumeObject) : Prop :=
  object.kind.hasFlagWord = false → ∀ name, AttributeSpace.ofName name = .user →
    object.attributes.get? name = none

/-- Reading an attribute comes down to the checks of the object. -/
theorem attributeValue_eq (h : caller.find volume false path = .ok (number, object))
    (hplain : HoldsPermitted object) (hsees : caller.sees (.ofName name) = true) :
    caller.attributeValue volume path name =
      (caller.checkReading object name).map fun _ => object.attributes.get? name := by
  simp only [attributeValue, attributeValue.read, checkReading, bind, Except.bind]
  by_cases hnul : '\x00' ∈ name.toList
  · simp only [hnul, if_true]
    rfl
  · simp only [hnul, if_false, pure, Except.pure]
    cases hlength : AttributeSpace.checkLength name with
    | error errno => rfl
    | ok _ =>
      simp only [h]
      cases hspace : AttributeSpace.ofName name with
      | user =>
        cases hkind : object.kind.hasFlagWord with
        | false =>
          rw [hplain hkind name hspace]
          rfl
        | true =>
          cases caller.may .read object with
          | false => rfl
          | true => cases AttributeSpace.checkForm name <;> rfl
      | trusted =>
        rw [hspace, sees] at hsees
        simp only [hsees, if_true]
        cases AttributeSpace.checkForm name <;> rfl
      | security => cases AttributeSpace.checkForm name <;> rfl
      | unknown =>
        cases caller.may .read object with
        | false => rfl
        | true => cases AttributeSpace.checkForm name <;> rfl

def refusal : Except Errno Unit → Option IoError
  | .ok () => none
  | .error errno => some (.os errno)

theorem refusal_eq_none_iff {check : Except Errno Unit} :
    refusal check = none ↔ check = .ok () := by
  cases check <;> simp [refusal]

theorem mapError_map_eq {α : Type} (check : Except Errno Unit) (value : α) :
    (check.map fun _ => value).mapError IoError.os = (refusal check).elim (.ok value) .error := by
  cases check <;> rfl

/-- What a name has to be for the checks of a change to pass. -/
structure IsChangeable (caller : Caller) (object : VolumeObject) (name : String) : Prop where
  nul_notMem : '\x00' ∉ name.toList
  checkLength_eq : AttributeSpace.checkLength name = .ok ()
  checkForm_eq : AttributeSpace.checkForm name = .ok ()
  sees_eq : caller.sees (.ofName name) = true
  hasFlagWord_of_user : AttributeSpace.ofName name = .user → object.kind.hasFlagWord = true

/-- A name that passes the checks of a change is changeable. -/
theorem isChangeable_of_checkChange (h : caller.checkChange object name = .ok ()) :
    caller.IsChangeable object name := by
  simp only [checkChange, checkAttributeChange, bind, Except.bind] at h
  by_cases hnul : '\x00' ∈ name.toList
  · simp [hnul] at h
  · simp only [hnul, if_false] at h
    cases hlength : AttributeSpace.checkLength name with
    | error errno => simp [hlength] at h
    | ok _ =>
      cases hfrozen : object.isFrozen with
      | true => simp [hlength, hfrozen] at h
      | false =>
        simp only [hlength, hfrozen, Bool.false_eq_true, if_false] at h
        refine ⟨hnul, hlength, ?_, ?_, ?_⟩
        · cases hform : AttributeSpace.checkForm name with
          | ok _ => rfl
          | error errno =>
            -- Every branch ends with this check.
            exfalso
            rw [hform] at h
            revert h
            repeat' split
            all_goals simp
        · cases hspace : AttributeSpace.ofName name with
          | trusted =>
            cases hsuper : caller.isSuperuser with
            | true => exact hsuper
            | false => simp [hspace, hsuper] at h
          | user | security | unknown => rfl
        · intro hspace
          cases hkind : object.kind.hasFlagWord with
          | true => rfl
          | false => simp [hspace, hkind] at h

/-- The value of a name that can be changed is read or withheld. -/
theorem IsChangeable.checkReading_eq (h : caller.IsChangeable object name) :
    caller.checkReading object name = .ok () ∨
      caller.checkReading object name = .error .eacces := by
  simp only [checkReading, bind, Except.bind, pure, Except.pure, h.nul_notMem, if_false,
    h.checkLength_eq, h.checkForm_eq]
  cases hspace : AttributeSpace.ofName name with
  | user =>
    rw [h.hasFlagWord_of_user hspace]
    cases caller.may .read object <;> simp
  | trusted => simp
  | security => simp
  | unknown => cases caller.may .read object <;> simp

/-- What a caller may do with the attributes of an object. -/
def attributeRights (caller : Caller) (object : VolumeObject) : AttributeRights where
  shows name := caller.sees (.ofName name)
  list := none
  get name := refusal (caller.checkReading object name)
  set name _ := refusal (caller.checkChange object name)
  remove name := refusal (caller.checkChange object name)
  shows_of_set h := (isChangeable_of_checkChange (refusal_eq_none_iff.1 h)).sees_eq
  isRefusal_of_set {name value error} h herror := by
    have hchangeable := isChangeable_of_checkChange (refusal_eq_none_iff.1 h)
    rcases hchangeable.checkReading_eq with hreading | hreading
    · rw [hreading] at herror
      cases herror
    · rw [hreading] at herror
      cases herror
      decide

/-! ## Maps -/

/-- A path leads to an object that has any attributes that its kind allows. -/
def Finds (caller : Caller) (target : Path) (number : Nat) (object : VolumeObject)
    (volume : Volume) : Prop :=
  ∃ attributes, caller.find volume false target = .ok (number, { object with attributes }) ∧
    HoldsPermitted { object with attributes }

def attributesOf (number : Nat) (volume : Volume) : AttributeMap :=
  ((volume.object? number).map (·.attributes)).getD .empty

theorem attributesOf_of_find {volume : Volume} {followLast : Bool} {path : Path}
    (h : caller.find volume followLast path = .ok (number, object)) :
    attributesOf number volume = object.attributes := by
  rw [attributesOf, (find_eq_ok_iff.1 h).2]
  rfl

/-- A change of the attributes of an object that passes its checks or is refused. -/
theorem changed_of_pathCall {target : Path} {attributes map : AttributeMap}
    {change : Change Unit} {check : Except Errno Unit} (invalid : IoError)
    (hnul : Bytes.nul ∉ target)
    (hfind : caller.find volume false target = .ok (number, { object with attributes }))
    (hpermitted : HoldsPermitted { object with attributes })
    (hchange : change volume = check.map fun _ =>
      ((), volume.put number { object with attributes := map }))
    (hmap : check = .ok () → HoldsPermitted { object with attributes := map }) :
    caller.Finds target number object (pathCall invalid target change volume).2 ∧
      attributesOf number (pathCall invalid target change volume).2 =
        (refusal check).elim map (fun _ => attributesOf number volume) ∧
      (pathCall invalid target change volume).1 = (refusal check).elim (.ok ()) .error := by
  simp only [pathCall, if_neg hnul, call, hchange]
  cases check with
  | error errno => exact ⟨⟨attributes, hfind, hpermitted⟩, rfl, rfl⟩
  | ok _ =>
    have hput := find_put hfind map
    exact ⟨⟨map, hput, hmap rfl⟩, attributesOf_of_find hput, rfl⟩

/-- To a caller, the attributes of an object are a map. -/
theorem givesMap (caller : Caller) {target : Path} (hnul : Bytes.nul ∉ target) (number : Nat)
    (object : VolumeObject) :
    caller.system.GivesMap target (attributesOf number) (caller.attributeRights object)
      (caller.Finds target number object) where
  list {volume} h := by
    obtain ⟨attributes, hfind, -⟩ := h
    refine ⟨(attributes.keys.filter fun name => caller.sees (.ofName name)).map .text, ?_, ?_, ?_⟩
    · refine (attributes.nodup_keys.filter _).map fun first second heq => ?_
      exact AttributeLabel.text.inj heq
    · intro name
      simp [attributesOf_of_find hfind, AttributeMap.contains_iff, attributeRights]
    · simp only [system, snapshot, withoutNul, if_neg hnul, attributeNames, hfind]
      rfl
  get {volume name} h hshows := by
    obtain ⟨attributes, hfind, hpermitted⟩ := h
    simp only [system, snapshot, withoutNul, if_neg hnul,
      attributeValue_eq hfind hpermitted hshows, attributesOf_of_find hfind]
    exact mapError_map_eq _ _
  set {volume} name value h := by
    obtain ⟨attributes, hfind, hpermitted⟩ := h
    have hset := setAttribute_eq hfind name value
    have hmap := changed_of_pathCall (.os .einval) hnul hfind hpermitted hset ?_
    · rw [attributesOf_of_find hfind] at hmap ⊢
      exact hmap
    · intro hcheck hkind key hspace
      have hchangeable := isChangeable_of_checkChange hcheck
      rw [AttributeMap.get?_insert]
      split
      · next heq =>
        subst heq
        exact absurd ((hchangeable.hasFlagWord_of_user hspace).symm.trans hkind) (by decide)
      · exact hpermitted hkind key hspace
  remove {volume name} h hheld := by
    obtain ⟨attributes, hfind, hpermitted⟩ := h
    rw [attributesOf_of_find hfind] at hheld
    have hremove := removeAttribute_eq hfind hheld
    have hmap := changed_of_pathCall (.os .einval) hnul hfind hpermitted hremove ?_
    · rw [attributesOf_of_find hfind] at hmap ⊢
      exact hmap
    · intro _ hkind key hspace
      rw [AttributeMap.get?_erase, hpermitted hkind key hspace, ite_self]

end Caller

end TreeManifest
