import TreeManifest.Proofs.Attributes.Left
import TreeManifest.Proofs.Volume.Calls

/-!
# Restores that skip nothing

A provider can refuse a call for any reason. Where the calls that work do what they say, a restore
that neither fails nor skips a name has made every change that it wanted, since each call that did
not work is counted or returned. So the listed attributes of the object are then the wanted ones,
whatever they were before.

## Main definitions

- `AttributeProvider.Truthful`: the calls of a provider that work do what they say.
- `SyncProgress.IsClean`: the progress of a restore in which no call has failed.

## Main statements

- `clean_foldlM`: a loop that ends without a failure had none in any round.
- `syncAttributes_complete`: the attributes of an object after a restore that skips nothing.
- `Caller.truthful_native`: the calls of a caller do what they say.
-/

namespace TreeManifest

variable {σ : Type}

/-- On one object, the calls of a provider that work do to a map what they say. `held` gives the map
of a state, `shows` tells which of its names are listed, and `valid` is kept by all calls. Nothing
is said about calls that fail. -/
structure AttributeProvider.Truthful (provider : AttributeProvider σ) (target : Path)
    (held : σ → AttributeMap) (shows : String → Bool) (valid : σ → Prop) : Prop where
  list : ∀ {state}, valid state →
    valid ((provider.list target).run state).state ∧
    held ((provider.list target).run state).state = held state ∧
    ∀ names, ((provider.list target).run state).value = .ok names →
      ∀ name, name ∈ names ↔ (held state).contains name = true ∧ shows name = true
  get : ∀ {state} (name), valid state →
    valid ((provider.get target name).run state).state ∧
    held ((provider.get target name).run state).state = held state ∧
    ∀ value, ((provider.get target name).run state).value = .ok (some value) →
      (held state).get? name = some value
  set : ∀ {state} (name value), valid state →
    valid ((provider.set target name value).run state).state ∧
    (((provider.set target name value).run state).value = .ok () →
      held ((provider.set target name value).run state).state = (held state).insert name value)
  remove : ∀ {state} (name), valid state →
    valid ((provider.remove target name).run state).state ∧
    (((provider.remove target name).run state).value = .ok () →
      held ((provider.remove target name).run state).state = (held state).erase name)

namespace SyncProgress

/-- No call has failed so far. -/
def IsClean (progress : SyncProgress) : Prop :=
  progress.firstError = none ∧ progress.sync.skipped = 0

variable {progress : SyncProgress}

/-- A failed call is noted for good. -/
theorem not_isClean_failed (progress : SyncProgress) (error : MetadataError) :
    ¬ (progress.failed error).IsClean := by
  rintro ⟨hnone, hskipped⟩
  unfold failed at hnone hskipped
  split at hnone
  · next hrefusal =>
    rw [if_pos hrefusal] at hskipped
    exact Nat.succ_ne_zero _ hskipped
  · cases hfirst : progress.firstError <;> simp [hfirst] at hnone

theorem isClean_wrote : progress.wrote.IsClean ↔ progress.IsClean := Iff.rfl

theorem isClean_removedOne : progress.removedOne.IsClean ↔ progress.IsClean := Iff.rfl

end SyncProgress

section Rounds

variable {provider : AttributeProvider σ} {target : Path} {held : σ → AttributeMap}
  {shows : String → Bool} {valid : σ → Prop} {state : σ}

/-- A round keeps what is valid. If no call has failed when it is over, none had before, and the map
of the object has changed as the round says. -/
def CleanRound (held : σ → AttributeMap) (valid : σ → Prop) (progress : SyncProgress)
    (change : AttributeMap → AttributeMap) (round : Task σ SyncProgress) : Prop :=
  ∀ state, valid state → valid (round.run state).state ∧
    ((round.run state).value.IsClean →
      progress.IsClean ∧ held (round.run state).state = change (held state))

/-- A loop without a failure had none in any round. -/
theorem clean_foldlM {α : Type} {round : SyncProgress → α → Task σ SyncProgress}
    {change : AttributeMap → α → AttributeMap} (items : List α)
    (h : ∀ item ∈ items, ∀ progress,
      CleanRound held valid progress (change · item) (round progress item))
    (progress : SyncProgress) :
    CleanRound held valid progress (items.foldl change ·) (items.foldlM round progress) := by
  induction items generalizing progress with
  | nil => exact fun state hvalid => ⟨hvalid, fun hclean => ⟨hclean, rfl⟩⟩
  | cons item items ih =>
    intro state hvalid
    rw [List.foldlM_cons, Task.run_bind]
    obtain ⟨hmiddle, hround⟩ := h item List.mem_cons_self progress state hvalid
    obtain ⟨hafter, hrest⟩ := ih (fun other hother => h other (List.mem_cons_of_mem _ hother))
      ((round progress item).run state).value _ hmiddle
    refine ⟨hafter, fun hclean => ?_⟩
    obtain ⟨hbetween, hlast⟩ := hrest hclean
    obtain ⟨hbefore, hfirst⟩ := hround hbetween
    exact ⟨hbefore, hlast.trans (congrArg (items.foldl change) hfirst)⟩

variable (h : provider.Truthful target held shows valid)

include h

theorem clean_writeAttribute (progress : SyncProgress) (binding : String × Bytes) :
    CleanRound held valid progress (·.insert binding.1 binding.2)
      (writeAttribute provider target progress binding) := by
  intro state hvalid
  obtain ⟨hafter, hset⟩ := h.set binding.1 binding.2 hvalid
  unfold writeAttribute
  rw [Task.run_bind]
  cases hvalue : ((provider.set target binding.1 binding.2).run state).value with
  | ok _ => exact ⟨hafter, fun hclean => ⟨SyncProgress.isClean_wrote.1 hclean, hset hvalue⟩⟩
  | error error =>
    obtain ⟨hfailed, hkept⟩ := run_fail progress error
      ((provider.set target binding.1 binding.2).run state).state
    dsimp only
    rw [hfailed, hkept]
    exact ⟨hafter, fun hclean => absurd hclean (progress.not_isClean_failed error)⟩

/-- A wanted binding is made, or it was in place, where making it changes nothing. -/
theorem clean_syncBinding (present : List String) (progress : SyncProgress)
    (binding : String × Bytes) :
    CleanRound held valid progress (·.insert binding.1 binding.2)
      (syncBinding provider target present progress binding) := by
  unfold syncBinding
  split
  · intro state hvalid
    obtain ⟨hafter, hsame, hget⟩ := h.get binding.1 hvalid
    rw [Task.run_bind]
    cases hvalue : ((provider.get target binding.1).run state).value with
    | error error =>
      obtain ⟨hfailed, hkept⟩ := run_fail progress error
        ((provider.get target binding.1).run state).state
      dsimp only
      rw [hfailed, hkept]
      exact ⟨hafter, fun hclean => absurd hclean (progress.not_isClean_failed error)⟩
    | ok current =>
      dsimp only
      split
      · next hcurrent =>
        refine ⟨hafter, fun hclean => ⟨hclean, AttributeMap.ext_get? fun name => ?_⟩⟩
        have hheld := hget binding.2 (hcurrent ▸ hvalue)
        rw [Task.run_pure, hsame, AttributeMap.get?_insert]
        split
        · next hname => rw [← hname, hheld]
        · rfl
      · rw [← hsame]
        exact clean_writeAttribute h progress binding _ hafter
  · exact clean_writeAttribute h progress binding

/-- A listed name that is not wanted is removed. -/
theorem clean_removeUnwanted (wanted : AttributeMap) (progress : SyncProgress) (name : String) :
    CleanRound held valid progress
      (fun map => if wanted.contains name then map else map.erase name)
      (removeUnwanted provider target wanted progress name) := by
  intro state hvalid
  unfold removeUnwanted
  split
  · exact ⟨hvalid, fun hclean => ⟨hclean, rfl⟩⟩
  · obtain ⟨hafter, hremove⟩ := h.remove name hvalid
    rw [Task.run_bind]
    cases hvalue : ((provider.remove target name).run state).value with
    | ok _ =>
      exact ⟨hafter, fun hclean => ⟨SyncProgress.isClean_removedOne.1 hclean, hremove hvalue⟩⟩
    | error error =>
      obtain ⟨hfailed, hkept⟩ := run_fail progress error
        ((provider.remove target name).run state).state
      dsimp only
      rw [hfailed, hkept]
      exact ⟨hafter, fun hclean => absurd hclean (progress.not_isClean_failed error)⟩

/-- Both loops of a restore. -/
theorem clean_syncListed (wanted : AttributeMap) (present : List String) :
    CleanRound held valid {}
      (fun map => present.foldl
        (fun map name => if wanted.contains name then map else map.erase name)
        (wanted.toList.foldl (fun map binding => map.insert binding.1 binding.2) map))
      (Course.syncListed provider target wanted present) := by
  intro state hvalid
  obtain ⟨hmiddle, hbindings⟩ := clean_foldlM wanted.toList
    (fun binding _ progress => clean_syncBinding h present progress binding) {} state hvalid
  obtain ⟨hafter, hremovals⟩ := clean_foldlM present
    (fun name _ progress => clean_removeUnwanted h wanted progress name)
    ((wanted.toList.foldlM (syncBinding provider target present) {}).run state).value _ hmiddle
  refine ⟨hafter, fun hclean => ?_⟩
  obtain ⟨hbetween, hlast⟩ := hremovals hclean
  obtain ⟨hstart, hfirst⟩ := hbindings hbetween
  exact ⟨hstart, hlast.trans (by rw [hfirst])⟩

end Rounds

namespace AttributeMap

/-- Removing names one after the other, but for those that are wanted. -/
theorem get?_foldl_erase (wanted : AttributeMap) (names : List String) (map : AttributeMap)
    (name : String) :
    (names.foldl (fun map name => if wanted.contains name then map else map.erase name) map).get?
        name =
      if name ∈ names ∧ wanted.contains name = false then none else map.get? name := by
  induction names generalizing map with
  | nil => simp
  | cons first names ih =>
    rw [List.foldl_cons, ih]
    by_cases hname : name = first
    · subst hname
      cases hwanted : wanted.contains name with
      | true => simp
      | false => simp [get?_erase]
    · cases hwanted : wanted.contains first with
      | true => simp [hname]
      | false => simp [hname, get?_erase]

end AttributeMap

section Restores

variable {provider : AttributeProvider σ} {target : Path} {held : σ → AttributeMap}
  {shows : String → Bool} {valid : σ → Prop} {state : σ} {entry : Entry} {sync : AttributeSync}
  {present : List String}

/-- After a restore that could list the names and neither fails nor skips one of them, the listed
attributes of an object are those of the entry. -/
theorem syncAttributes_complete (h : provider.Truthful target held shows valid)
    (hvalid : valid state) (hcarries : entry.kind.carriesAttributes = true)
    (hpresent : ((provider.list target).run state).value = .ok present)
    (hvalue : ((syncAttributes provider entry target).run state).value = .ok sync)
    (hskipped : sync.skipped = 0) {name : String} (hshows : shows name = true) :
    (held ((syncAttributes provider entry target).run state).state).get? name =
      (entry.attributes.getD .empty).get? name := by
  obtain ⟨hlisted, hsame, hlist⟩ := h.list hvalid
  have hmem := hlist present hpresent
  rw [Course.syncAttributes_of_carries hcarries] at hvalue ⊢
  generalize entry.attributes.getD .empty = wanted at hvalue ⊢
  simp only [Task.run_bind, hpresent, Task.run_pure] at hvalue ⊢
  obtain ⟨hnone, rfl⟩ := Course.answer_eq_ok_iff.1 hvalue
  obtain ⟨-, hlast⟩ := (clean_syncListed h wanted present _ hlisted).2 ⟨hnone, hskipped⟩
  rw [hlast, AttributeMap.get?_foldl_erase, AttributeMap.get?_foldl_insert wanted.ascending, hsame]
  change (if _ then none else (wanted.get? name).or _) = wanted.get? name
  simp only [hmem, AttributeMap.contains]
  cases wanted.get? name with
  | some value => simp
  | none => cases (held state).get? name <;> simp [hshows]

end Restores

/-! ## Callers -/

/-- A change that works is the call of the system. -/
theorem NativeAttributes.done_of_change (valid done : σ → Prop) {attempt : Attempt} {target : Path}
    {name : String} {call : Call σ Unit} {state : σ} (hvalid : valid state)
    (hafter : valid (call state).2) (hdone : (call state).1 = .ok () → done (call state).2) :
    valid ((change attempt target name call).run state).state ∧
      (((change attempt target name call).run state).value = .ok () →
        done ((change attempt target name call).run state).state) := by
  rcases change_cases attempt target name call state with
    ⟨error, hvalue, hstate⟩ | ⟨hvalue, hstate⟩
  · rw [hvalue, hstate]
    exact ⟨hvalid, nofun⟩
  · rw [hvalue, hstate]
    exact ⟨hafter, fun hanswer => hdone (Caller.mapError_eq_ok hanswer)⟩

namespace Caller

variable {caller : Caller} {volume : Volume} {path : Path} {number : Nat} {object : VolumeObject}
  {name : String} {value : Bytes}

/-- A value that is read is the one that the object has. -/
theorem get?_of_attributeValue (hfind : caller.find volume false path = .ok (number, object))
    (h : caller.attributeValue volume path name = .ok (some value)) :
    object.attributes.get? name = some value := by
  have hread : attributeValue.read name object = .ok (some value) →
      object.attributes.get? name = some value := by
    intro hread
    simp only [attributeValue.read, bind, Except.bind] at hread
    split at hread
    · cases hread
    · exact Except.ok.inj hread
  simp only [attributeValue, hfind, bind, Except.bind] at h
  -- Every branch that does not end without a value ends with reading it.
  repeat' split at h
  all_goals first | exact hread h | cases h

def FindsBare (caller : Caller) (path : Path) (number : Nat) (object : VolumeObject)
    (volume : Volume) : Prop :=
  ∃ attributes, caller.find volume false path = .ok (number, { object with attributes })

/-- A change of the attributes of an object leaves it where it is. -/
theorem attributesOf_of_pathCall (change : Change Unit) {attributes : AttributeMap}
    (map : AttributeMap)
    (hfind : caller.find volume false path = .ok (number, { object with attributes }))
    (hchange : ∀ {after}, change volume = .ok ((), after) →
      after = volume.put number { object with attributes := map }) :
    caller.FindsBare path number object (pathCall (.os .einval) path change volume).2 ∧
      ((pathCall (.os .einval) path change volume).1 = .ok () →
        attributesOf number (pathCall (.os .einval) path change volume).2 = map) := by
  rcases pathCall_cases (.os .einval) path change volume with
    ⟨-, _, after, hdone, hcall⟩ | ⟨error, hcall⟩
  · obtain rfl := hchange hdone
    have hput := find_put hfind map
    rw [hcall]
    exact ⟨⟨map, hput⟩, fun _ => attributesOf_of_find hput⟩
  · rw [hcall]
    exact ⟨⟨attributes, hfind⟩, nofun⟩

/-- On an object that a caller finds, the calls of the caller do what they say. -/
theorem truthful_native (caller : Caller) (privilege : Privilege) (path : Path) (number : Nat)
    (object : VolumeObject) :
    (NativeAttributes.provider privilege caller.system).Truthful path (attributesOf number)
      (fun name => NativeAttributes.isPermitted privilege name && caller.sees (.ofName name))
      (caller.FindsBare path number object) where
  list {volume} h := by
    obtain ⟨attributes, hfind⟩ := h
    obtain ⟨hvalue, hstate⟩ := NativeAttributes.run_list privilege caller.system path volume
    rw [hstate, hvalue, attributesOf_of_find hfind]
    refine ⟨⟨attributes, hfind⟩, rfl, fun names hnames name => ?_⟩
    cases hlabels : (caller.system.view volume).attributeNames path with
    | error error =>
      rw [hlabels] at hnames
      cases hnames
    | ok labels =>
      rw [hlabels] at hnames
      obtain rfl := Except.ok.inj hnames
      have hlisted := ok_of_withoutNul hlabels
      simp only [attributeNames, hfind, bind, Except.bind, pure, Except.pure] at hlisted
      obtain rfl := Except.ok.inj hlisted
      simp [List.mem_filterMap, NativeAttributes.permitted?_eq_some_iff,
        AttributeMap.contains_iff]
      tauto
  get {volume} name h := by
    obtain ⟨attributes, hfind⟩ := h
    refine ⟨⟨attributes, hfind⟩, rfl, fun value hvalue => ?_⟩
    rw [attributesOf_of_find hfind]
    have hanswer : (caller.snapshot volume).attributeValue path name = .ok (some value) :=
      mapError_eq_ok hvalue
    exact get?_of_attributeValue hfind (ok_of_withoutNul hanswer)
  set {volume} name value h := by
    obtain ⟨attributes, hfind⟩ := h
    rw [attributesOf_of_find hfind]
    have hcall := attributesOf_of_pathCall (caller.setAttribute path name value)
      (attributes.insert name value) hfind fun hchange => by
        obtain ⟨found, held, hheld, rfl⟩ := put_of_setAttribute hchange
        obtain ⟨rfl, rfl⟩ := Prod.mk.inj (Except.ok.inj (hheld.symm.trans hfind))
        rfl
    exact NativeAttributes.done_of_change (caller.FindsBare path number object)
      (attributesOf number · = _) ⟨attributes, hfind⟩ hcall.1 hcall.2
  remove {volume} name h := by
    obtain ⟨attributes, hfind⟩ := h
    rw [attributesOf_of_find hfind]
    have hcall := attributesOf_of_pathCall (caller.removeAttribute path name)
      (attributes.erase name) hfind fun hchange => by
        obtain ⟨found, held, hheld, rfl⟩ := put_of_removeAttribute hchange
        obtain ⟨rfl, rfl⟩ := Prod.mk.inj (Except.ok.inj (hheld.symm.trans hfind))
        rfl
    exact NativeAttributes.done_of_change (caller.FindsBare path number object)
      (attributesOf number · = _) ⟨attributes, hfind⟩ hcall.1 hcall.2

end Caller

end TreeManifest
