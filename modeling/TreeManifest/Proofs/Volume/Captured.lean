import TreeManifest.Proofs.Attributes.Captured
import TreeManifest.Proofs.Entry.Words
import TreeManifest.Proofs.Volume.Calls
import TreeManifest.Proofs.Walk.Captured

/-!
# What is captured of an object of a volume

The entry that a walk makes of an object depends on the object alone. With all privileges it holds
every attribute that could be given to another object, so capturing what was restored from an entry
gives the same attributes again.

## Main definitions

- `VolumeObject.IsPlain`, `Volume.IsPlain`: objects without a flag word, with permissions that fit.
- `Caller.lister`: the lister of a caller that captures all it can.
- `Caller.capturedAttributes`, `Caller.entryOf`: what is captured of an object.

## Main statements

- `Caller.exists_entryOf`: a captured child is the entry of the object at its path.
- `Caller.capturedAttributes_eq`: what was captured once is captured again.
-/

namespace TreeManifest

/-- An object without a flag word of which everything can be captured: its permissions are below the
kind in a mode word, a special file has a special kind, and a symlink has the permissions of all
symlinks. -/
structure VolumeObject.IsPlain (object : VolumeObject) : Prop where
  flagWord_eq : object.flagWord = none
  permissions_eq : object.permissions &&& FileKind.permissionMask = object.permissions
  isSpecial : ∀ kind rawDevice, object.body = .special kind rawDevice → kind.isSpecial = true
  permissions_of_symlink : object.kind = .symlink → object.permissions = Caller.symlinkPermissions

structure Volume.IsPlain (volume : Volume) : Prop where
  isFresh : volume.IsFresh
  object : ∀ {number object}, volume.object? number = some object → object.IsPlain

namespace Caller

/-- The lister of a caller that captures all it can. -/
def lister (caller : Caller) (volume : Volume) (root : Path) : Lister :=
  .native root { privilege := .privileged } (caller.snapshot volume)

instance (caller : Caller) (object : VolumeObject) (name : String) :
    Decidable (caller.IsChangeable object name) :=
  decidable_of_iff ('\x00' ∉ name.toList ∧ AttributeSpace.checkLength name = .ok () ∧
      AttributeSpace.checkForm name = .ok () ∧ caller.sees (.ofName name) = true ∧
      (AttributeSpace.ofName name = .user → object.kind.hasFlagWord = true))
    ⟨fun ⟨hnul, hlength, hform, hsees, huser⟩ => ⟨hnul, hlength, hform, hsees, huser⟩,
      fun ⟨hnul, hlength, hform, hsees, huser⟩ => ⟨hnul, hlength, hform, hsees, huser⟩⟩

def captures (caller : Caller) (object : VolumeObject) (name : String) : Bool :=
  NativeAttributes.isPermitted .privileged name && decide (AttributeName.IsVisible name) &&
    decide (caller.IsChangeable object name)

/-- The attributes that are captured of an object with all privileges. -/
def capturedAttributes (caller : Caller) (object : VolumeObject) : Option AttributeMap :=
  if object.kind.carriesAttributes then
    (some (object.attributes.filter (caller.captures object))).filter fun map => !map.isEmpty
  else none

/-- The entry of an object of a volume without flag words. -/
def entryOf (caller : Caller) (volume : Volume) (path : Path) (number : Nat)
    (object : VolumeObject) : Entry :=
  { Entry.ofStat path (volume.statOf number object) with
    link := object.target?
    attributes := caller.capturedAttributes object }

variable {caller : Caller} {volume : Volume} {root path : Path} {number : Nat}
  {object : VolumeObject}

/-! ## Attributes -/

theorem sees_of_isSuperuser (hsuper : caller.isSuperuser = true) (space : AttributeSpace) :
    caller.sees space = true := by
  cases space <;> first | rfl | exact hsuper

/-- The superuser reads what could be changed, and nothing else. -/
theorem toOption_attributeValue (hsuper : caller.isSuperuser = true)
    (hfind : caller.find volume false path = .ok (number, object)) (name : String) :
    (caller.attributeValue volume path name).toOption.join =
      if caller.IsChangeable object name then object.attributes.get? name else none := by
  have hsees := sees_of_isSuperuser hsuper
  have hmay : caller.may .read object = true := by simp [may, hsuper]
  by_cases hchangeable : caller.IsChangeable object name
  · obtain ⟨hnul, hlength, hform, -, huser⟩ := hchangeable
    rw [if_pos ⟨hnul, hlength, hform, hsees _, huser⟩]
    simp only [attributeValue, attributeValue.read, bind, Except.bind, hnul, if_false, hlength,
      hfind, hform, hmay, hsuper, pure, Except.pure]
    cases hspace : AttributeSpace.ofName name with
    | user => simp [huser hspace, Except.toOption]
    | trusted | security | unknown => simp [Except.toOption]
  · rw [if_neg hchangeable]
    by_cases hnul : '\x00' ∈ name.toList
    · simp [attributeValue, hnul, bind, Except.bind, Except.toOption]
    cases hlength : AttributeSpace.checkLength name with
    | error errno => simp [attributeValue, hnul, hlength, bind, Except.bind, Except.toOption]
    | ok =>
      simp only [attributeValue, attributeValue.read, bind, Except.bind, hnul, if_false, hlength,
        hfind, hmay, hsuper, pure, Except.pure]
      cases hform : AttributeSpace.checkForm name with
      | error errno =>
        cases AttributeSpace.ofName name with
        | user => cases object.kind.hasFlagWord <;> simp [Except.toOption]
        | trusted | security | unknown => simp [Except.toOption]
      | ok =>
        -- Only attributes of users are withheld for the kind of the object.
        have huser : ¬ (AttributeSpace.ofName name = .user → object.kind.hasFlagWord = true) :=
          fun huser => hchangeable ⟨hnul, hlength, hform, hsees _, huser⟩
        obtain ⟨hspace, hkind⟩ := Classical.not_imp.1 huser
        simp [hspace, hkind, Except.toOption]

/-- The superuser lists all permitted attributes. -/
theorem run_list (hsuper : caller.isSuperuser = true) (hnul : Bytes.nul ∉ path)
    (hfind : caller.find volume false path = .ok (number, object)) :
    (((caller.lister volume root).provider.list path).run ()).value =
      .ok (object.attributes.keys.filter fun name =>
        NativeAttributes.isPermitted .privileged name) := by
  have hsees := sees_of_isSuperuser hsuper
  have hnames : (caller.snapshot volume).attributeNames path =
      .ok (object.attributes.keys.map .text) := by
    simp only [snapshot, withoutNul, if_neg hnul, attributeNames, hfind, bind, Except.bind, hsees,
      List.filter_true]
    rfl
  show ((NativeAttributes.list .privileged (caller.snapshot volume) path).run ()).value = _
  unfold NativeAttributes.list
  rw [hnames]
  dsimp only
  rw [Task.run_bind]
  refine congrArg Except.ok
    ((NativeAttributes.run_permittedNames .privileged path _ ()).1.trans ?_)
  rw [List.filterMap_map, ← List.filterMap_eq_filter]
  refine List.filterMap_congr fun name _ => ?_
  simp [NativeAttributes.permitted?, Option.guard]

/-- The superuser captures exactly the visible attributes that could be changed. -/
theorem attributeAt?_eq (hsuper : caller.isSuperuser = true) (hnul : Bytes.nul ∉ path)
    (hfind : caller.find volume false path = .ok (number, object)) (name : String) :
    (caller.lister volume root).attributeAt? path name =
      if AttributeName.IsVisible name ∧ caller.IsChangeable object name then
        (object.attributes.get? name).map (name, ·) else none := by
  have hvalue : (((caller.lister volume root).provider.get path name).run ()).value.toOption =
      (caller.attributeValue volume path name).toOption := by
    show (NativeAttributes.get (caller.snapshot volume) path name).toOption = _
    simp only [NativeAttributes.get, snapshot, withoutNul, if_neg hnul]
    cases caller.attributeValue volume path name <;> rfl
  rw [Lister.attributeAt?, hvalue, toOption_attributeValue hsuper hfind]
  by_cases hvisible : AttributeName.IsVisible name
  · by_cases hchangeable : caller.IsChangeable object name <;> simp [hvisible, hchangeable]
  · simp [hvisible]

/-- The captured attributes of an object do not depend on where it was found. -/
theorem attributesAt_eq (hsuper : caller.isSuperuser = true) (hnul : Bytes.nul ∉ path)
    (hfind : caller.find volume false path = .ok (number, object)) :
    (caller.lister volume root).attributesAt object.kind path =
      caller.capturedAttributes object := by
  unfold Lister.attributesAt capturedAttributes
  cases object.kind.carriesAttributes with
  | false => rfl
  | true =>
    simp only [run_list hsuper hnul hfind, Lister.value_readListed, Bool.not_true,
      Bool.false_eq_true, if_false, if_true]
    refine congrArg (fun map => (some map).filter fun map : AttributeMap => !map.isEmpty) ?_
    rw [← AttributeMap.ofList_toList (object.attributes.filter _)]
    refine congrArg AttributeMap.ofList ?_
    show ((object.attributes.toList.map Prod.fst).filter _).filterMap _ =
      object.attributes.toList.filter fun binding => caller.captures object binding.1
    rw [List.filterMap_filter, List.filterMap_map, ← List.filterMap_eq_filter]
    refine List.filterMap_congr fun binding hbinding => ?_
    -- A listed name is bound, so what is read is its value.
    have hvalue : object.attributes.get? binding.1 = some binding.2 :=
      AttributeMap.get?_eq_some_iff.2 hbinding
    simp only [Function.comp_apply, attributeAt?_eq hsuper hnul hfind, hvalue, captures,
      Option.guard, Option.map_some, Bool.and_eq_true, decide_eq_true_eq]
    split <;> split <;> simp_all

/-- What was captured of an object is captured again of an object of that kind which has nothing
else. -/
theorem capturedAttributes_eq {other : VolumeObject} (hkind : other.kind = object.kind)
    (hattributes : other.attributes = (caller.capturedAttributes object).getD .empty) :
    caller.capturedAttributes other = caller.capturedAttributes object := by
  have hcaptures : caller.captures other = caller.captures object := by
    funext name
    have hchangeable : caller.IsChangeable other name ↔ caller.IsChangeable object name := by
      constructor
      · rintro ⟨hnul, hlength, hform, hsees, huser⟩
        exact ⟨hnul, hlength, hform, hsees, hkind ▸ huser⟩
      · rintro ⟨hnul, hlength, hform, hsees, huser⟩
        exact ⟨hnul, hlength, hform, hsees, hkind ▸ huser⟩
    simp only [captures, hchangeable]
  unfold capturedAttributes at hattributes ⊢
  rw [hkind, hcaptures]
  split
  · next hcarries =>
    rw [if_pos hcarries] at hattributes
    have hsame : other.attributes = object.attributes.filter (caller.captures object) := by
      rw [hattributes, Option.filter_some]
      split
      · rfl
      · next hempty =>
        have hnil : (object.attributes.filter (caller.captures object)).toList = [] := by
          simpa [AttributeMap.isEmpty] using hempty
        refine AttributeMap.ext_get? fun name => ?_
        rw [Option.getD_none, AttributeMap.get?_empty, AttributeMap.get?, hnil]
        rfl
    rw [hsame]
    refine congrArg (fun map => (some map).filter fun map : AttributeMap => !map.isEmpty) ?_
    refine AttributeMap.ext_get? fun name => ?_
    rw [AttributeMap.get?_filter, AttributeMap.get?_filter]
    split <;> rfl
  · rfl

/-! ## Entries -/

theorem flagWord_eq_error (hplain : volume.IsPlain) (handle : Handle) :
    (caller.snapshot volume).flagWord handle = .error (.os .enotty) := by
  show (flagWord volume handle).mapError IoError.os = _
  unfold flagWord
  cases hobject : volume.object? handle.number with
  | none => rfl
  | some object => simp [(hplain.object hobject).flagWord_eq, Except.mapError]

/-- Objects of a plain volume have no flag word to capture. -/
theorem flagsAt_eq_none (hplain : volume.IsPlain) (stat : Stat) :
    (caller.lister volume root).flagsAt path stat = none := by
  have hview : (caller.lister volume root).view = caller.snapshot volume := rfl
  unfold Lister.flagsAt Flags.read
  rw [hview]
  cases stat.kind.hasFlagWord with
  | false => rfl
  | true =>
    cases (caller.snapshot volume).openForFlags path (stat.kind = .directory) with
    | error error => rfl
    | ok handle =>
      simp only [flagWord_eq_error hplain]
      rfl

theorem kind_statOf (hplain : object.IsPlain) :
    (volume.statOf number object).kind = object.kind :=
  FileKind.ofMode_or object.kind hplain.permissions_eq

theorem exists_directory_of_kind (hplain : object.IsPlain) (hkind : object.kind = .directory) :
    ∃ bindings parent, object.body = .directory bindings parent := by
  unfold VolumeObject.kind at hkind
  split at hkind
  · cases hkind
  · next bindings parent hbody => exact ⟨bindings, parent, hbody⟩
  · cases hkind
  · next kind rawDevice hbody =>
    have hspecial := hplain.isSpecial kind rawDevice hbody
    rw [hkind] at hspecial
    cases hspecial

theorem target?_of_kind_ne (hkind : object.kind ≠ .symlink) : object.target? = none := by
  unfold VolumeObject.kind at hkind
  unfold VolumeObject.target?
  cases hbody : object.body with
  | symlink target =>
    rw [hbody] at hkind
    exact absurd rfl hkind
  | file | directory | special => rfl

theorem target?_of_readLink {target : Bytes}
    (hfind : caller.find volume false path = .ok (number, object))
    (h : (caller.snapshot volume).readLink path = .ok target) : object.target? = some target := by
  simp only [snapshot, withoutNul] at h
  split at h
  · cases h
  · have hread := mapError_eq_ok h
    simp only [readLink, hfind, bind, Except.bind] at hread
    split at hread
    · next found hfound =>
      cases hread
      exact hfound
    · cases hread

/-- A captured child is the entry of the object at its path. -/
theorem exists_entryOf (hsuper : caller.isSuperuser = true) (hplain : volume.IsPlain)
    (htree : (caller.lister volume root).IsTree) {child : Child} {kept : Entry}
    (h : (caller.lister volume root).Captures child kept) :
    ∃ number object, Bytes.nul ∉ Path.join root kept.path ∧
      caller.find volume false (Path.join root kept.path) = .ok (number, object) ∧
      child.stat = volume.statOf number object ∧
      kept = caller.entryOf volume kept.path number object := by
  have hlstat : (caller.snapshot volume).lstat (Path.join root kept.path) = .ok child.stat :=
    h.lstat_eq htree
  have hnul : Bytes.nul ∉ Path.join root kept.path := by
    intro hnul
    simp only [snapshot, withoutNul, if_pos hnul] at hlstat
    cases hlstat
  obtain ⟨number, object, hfind, hstat⟩ := find_of_lstat hlstat
  refine ⟨number, object, hnul, hfind, hstat, ?_⟩
  have hpath := h.path_eq
  have hlocation : child.location = Path.join root kept.path := by
    rw [hpath]
    exact h.isChild.location_eq htree
  have hkind : child.entry.kind = object.kind := by
    rw [h.isChild.kind_eq, hstat, kind_statOf (hplain.object (find_eq_ok_iff.1 hfind).2)]
  obtain ⟨link, hlink, hkept⟩ := h.exists_link
  have hentry := h.isChild.entry_eq
  rw [← hpath, hstat] at hentry
  have htarget : link = object.target? := by
    unfold Lister.linkOf at hlink
    split at hlink
    · cases hread : (caller.snapshot volume).readLink child.location with
      | error error =>
        rw [show (caller.lister volume root).view.readLink child.location = _ from hread] at hlink
        cases hlink
      | ok target =>
        rw [show (caller.lister volume root).view.readLink child.location = _ from hread] at hlink
        rw [hlocation] at hread
        rw [target?_of_readLink hfind hread]
        exact (Except.ok.inj hlink).symm
    · next hne =>
      rw [target?_of_kind_ne (hkind ▸ hne), ← Except.ok.inj hlink, hentry]
      rfl
  have hattributes : (caller.lister volume root).attributesAt child.entry.kind child.location =
      caller.capturedAttributes object := by
    rw [hkind, hlocation, attributesAt_eq hsuper hnul hfind]
  refine hkept.trans ?_
  show { child.entry with
    link := link
    attributes := (caller.lister volume root).attributesAt child.entry.kind child.location
    flags := (caller.lister volume root).flagsAt child.location child.stat } = _
  rw [hattributes, flagsAt_eq_none hplain, htarget, hentry]
  rfl

end Caller

end TreeManifest
