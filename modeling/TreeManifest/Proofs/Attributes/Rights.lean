import Mathlib.Data.List.Nodup
import TreeManifest.Attributes.Native
import TreeManifest.Proofs.Attributes.Course

/-!
# Rights to attributes

To a process, the attributes of an object are a map. Its rights decide which names are listed and
which calls are refused, and they do not change with the attributes themselves. The provider of a
system then serves the object, and lists the permitted names among those that the system lists.

## Main definitions

- `AttributeRights`: what a process may do with the attributes of an object.
- `System.GivesMap`: the calls of a system on the attributes of an object act as those of a map.

## Main statements

- `NativeAttributes.serves`: the provider of such a system serves the object.
-/

namespace TreeManifest

/-- What a process may do with the attributes of one object, as the error of each call that is
refused. -/
structure AttributeRights where
  /-- The names that are listed where the object has them. -/
  shows : String → Bool
  list : Option IoError
  get : String → Option IoError
  set : String → Bytes → Option IoError
  remove : String → Option IoError
  /-- Only names that are listed can be made. -/
  shows_of_set : ∀ {name value}, set name value = none → shows name = true
  /-- The value of a name that can be made is readable or withheld. -/
  isRefusal_of_set : ∀ {name value error}, set name value = none → get name = some error →
    error.errorClass.isRefusal = true

variable {σ : Type}

/-- The calls of a system on the attributes of one object act as those of a map within some rights.
`held` gives the map of a state, and `valid` is kept by all calls. -/
structure System.GivesMap (system : System σ) (target : Path) (held : σ → AttributeMap)
    (rights : AttributeRights) (valid : σ → Prop) : Prop where
  list : ∀ {state}, valid state → ∃ labels, labels.Nodup ∧
    (∀ name, .text name ∈ labels ↔ (held state).contains name = true ∧ rights.shows name = true) ∧
    (system.view state).attributeNames target = rights.list.elim (.ok labels) .error
  get : ∀ {state name}, valid state → rights.shows name = true →
    (system.view state).attributeValue target name =
      (rights.get name).elim (.ok ((held state).get? name)) .error
  set : ∀ {state} (name value), valid state →
    valid (system.setAttribute target name value state).2 ∧
    held (system.setAttribute target name value state).2 =
      (rights.set name value).elim ((held state).insert name value) (fun _ => held state) ∧
    (system.setAttribute target name value state).1 =
      (rights.set name value).elim (.ok ()) .error
  remove : ∀ {state name}, valid state → (held state).contains name = true →
    valid (system.removeAttribute target name state).2 ∧
    held (system.removeAttribute target name state).2 =
      (rights.remove name).elim ((held state).erase name) (fun _ => held state) ∧
    (system.removeAttribute target name state).1 = (rights.remove name).elim (.ok ()) .error

namespace NativeAttributes

/-! ## Calls -/

/-- A change fails without a call, or it is the call of the system. -/
theorem change_cases (attempt : Attempt) (target : Path) (name : String) (call : Call σ Unit)
    (state : σ) :
    (∃ error, ((change attempt target name call).run state).value = .error error ∧
      ((change attempt target name call).run state).state = state) ∨
    (((change attempt target name call).run state).value =
        (call state).1.mapError (⟨attempt, target, ·⟩) ∧
      ((change attempt target name call).run state).state = (call state).2) := by
  unfold change
  cases AttributeProvider.checkName attempt target name with
  | error error => exact .inl ⟨error, rfl, rfl⟩
  | ok _ =>
    simp only [Task.run_bind, Task.run_perform]
    refine .inr ?_
    cases (call state).1 with
    | error error => exact ⟨rfl, rfl⟩
    | ok _ => exact ⟨rfl, rfl⟩

def permitted? (privilege : Privilege) : AttributeLabel → Option String
  | .text name => if isPermitted privilege name then some name else none
  | .raw _ => none

theorem permitted?_eq_some_iff {privilege : Privilege} {label : AttributeLabel} {name : String} :
    permitted? privilege label = some name ↔
      label = .text name ∧ isPermitted privilege name = true := by
  cases label with
  | raw bytes => simp [permitted?]
  | text other =>
    simp only [permitted?, AttributeLabel.text.injEq]
    by_cases hother : isPermitted privilege other = true
    · simp only [hother, if_true, Option.some.injEq]
      exact ⟨fun heq => ⟨heq, heq ▸ hother⟩, fun hand => hand.1⟩
    · simp only [hother, Bool.false_eq_true, if_false, reduceCtorEq, false_iff]
      rintro ⟨rfl, hname⟩
      exact hother hname

theorem run_permittedNames (privilege : Privilege) (target : Path) (labels : List AttributeLabel)
    (state : σ) :
    ((permittedNames privilege target labels).run state).value =
        labels.filterMap (permitted? privilege) ∧
      ((permittedNames privilege target labels).run state).state = state := by
  induction labels with
  | nil => exact ⟨rfl, rfl⟩
  | cons label labels ih =>
    obtain ⟨hvalue, hstate⟩ := ih
    cases label with
    | raw bytes =>
      rw [List.filterMap_cons_none rfl]
      exact ⟨hvalue, hstate⟩
    | text name =>
      simp only [permittedNames, Task.run_bind, Task.run_pure, hvalue, hstate, and_true]
      by_cases hname : isPermitted privilege name = true <;>
        simp [permitted?, hname]

/-- Listing gives the permitted texts among the labels, and changes nothing. -/
theorem run_list (privilege : Privilege) (system : System σ) (target : Path) (state : σ) :
    (((provider privilege system).list target).run state).value =
        (((system.view state).attributeNames target).mapError
          (⟨.listExtendedAttributes, target, ·⟩)).map (·.filterMap (permitted? privilege)) ∧
      (((provider privilege system).list target).run state).state = state := by
  simp only [provider, list, Task.run_bind, Task.run_inspect]
  cases (system.view state).attributeNames target with
  | error error => exact ⟨rfl, rfl⟩
  | ok labels =>
    obtain ⟨hvalue, hstate⟩ := run_permittedNames privilege target labels state
    simp only [Task.run_bind, Task.run_pure, hvalue, hstate]
    exact ⟨rfl, trivial⟩

/-- What is listed of labels without repetition. -/
theorem listed_of_labels (privilege : Privilege) {labels : List AttributeLabel}
    (h : labels.Nodup) :
    (labels.filterMap (permitted? privilege)).Nodup ∧
      ∀ name, name ∈ labels.filterMap (permitted? privilege) ↔
        .text name ∈ labels ∧ isPermitted privilege name = true := by
  constructor
  · refine h.filterMap fun first second name hfirst hsecond => ?_
    rw [Option.mem_def, permitted?_eq_some_iff] at hfirst hsecond
    exact hfirst.1.trans hsecond.1.symm
  · intro name
    simp [List.mem_filterMap, permitted?_eq_some_iff, ← and_assoc]

/-! ## Serving -/

/-- What becomes of a call that the system may refuse. -/
def verdict (attempt : Attempt) (target : Path) (refusal : Option IoError) : Verdict :=
  refusal.elim .works fun error => .fails (· = ⟨attempt, target, error⟩)

/-- What becomes of a change, which also needs a name that an attribute may have. -/
def changeVerdict (attempt : Attempt) (target : Path) (name : String) (refusal : Option IoError) :
    Verdict :=
  match AttributeProvider.checkName attempt target name with
  | .ok () => verdict attempt target refusal
  | .error error => .fails (· = error)

/-- What becomes of the calls on an object within some rights. -/
def callPolicy (rights : AttributeRights) (target : Path) : CallPolicy where
  list := verdict .listExtendedAttributes target rights.list
  get name := verdict .readExtendedAttribute target (rights.get name)
  set name value := changeVerdict .writeExtendedAttribute target name (rights.set name value)
  remove name := changeVerdict .removeExtendedAttribute target name (rights.remove name)

/-- The names that the provider lists where the object has them. -/
def shows (privilege : Privilege) (rights : AttributeRights) (name : String) : Bool :=
  isPermitted privilege name && rights.shows name

/-- A change acts as the call of the system does, if the name is one that an attribute may have. -/
theorem run_change {held : σ → AttributeMap} {valid : σ → Prop} {attempt : Attempt}
    {target : Path} {name : String} {call : Call σ Unit} {refusal : Option IoError}
    {map : AttributeMap} {state : σ} (hvalid : valid state) (hafter : valid (call state).2)
    (hheld : held (call state).2 = refusal.elim map fun _ => held state)
    (hanswer : (call state).1 = refusal.elim (.ok ()) .error) :
    valid ((change attempt target name call).run state).state ∧
      held ((change attempt target name call).run state).state =
        (if (changeVerdict attempt target name refusal).isWorking then map else held state) ∧
      (changeVerdict attempt target name refusal).Answers (fun _ => True)
        ((change attempt target name call).run state).value := by
  unfold change changeVerdict
  cases hname : AttributeProvider.checkName attempt target name with
  | error error => exact ⟨hvalid, rfl, rfl⟩
  | ok _ =>
    cases refusal with
    | none =>
      simp only [Option.elim_none] at hheld hanswer
      simp only [Task.run_bind, Task.run_perform, hanswer, Task.run_pure, hheld, verdict]
      exact ⟨hafter, rfl, rfl, trivial⟩
    | some error =>
      simp only [Option.elim_some] at hheld hanswer
      simp only [Task.run_bind, Task.run_perform, hanswer, Task.run_pure, hheld, verdict]
      exact ⟨hafter, rfl, rfl⟩

theorem serves {system : System σ} {target : Path} {held : σ → AttributeMap}
    {rights : AttributeRights} {valid : σ → Prop} (h : system.GivesMap target held rights valid)
    (privilege : Privilege) :
    (provider privilege system).Serves target held (shows privilege rights)
      (callPolicy rights target) valid where
  list {state} hvalid := by
    obtain ⟨labels, hnodup, hlabels, hanswer⟩ := h.list hvalid
    obtain ⟨hvalue, hstate⟩ := run_list privilege system target state
    rw [hstate, hvalue, hanswer]
    unfold callPolicy verdict
    cases rights.list with
    | some error => exact ⟨hvalid, rfl, rfl⟩
    | none =>
      obtain ⟨hdistinct, hmem⟩ := listed_of_labels privilege hnodup
      refine ⟨hvalid, rfl, rfl, hdistinct, fun name => ?_⟩
      rw [hmem, hlabels, shows, Bool.and_eq_true]
      tauto
  get {state name} hvalid hshows := by
    have hanswer := h.get hvalid (Bool.and_eq_true_iff.1 hshows).2
    simp only [provider, get, Task.run_bind, Task.run_inspect, Task.run_pure, hanswer, callPolicy,
      verdict]
    refine ⟨hvalid, trivial, ?_⟩
    cases rights.get name with
    | some error => exact rfl
    | none => exact ⟨rfl, rfl⟩
  set name value hvalid := by
    obtain ⟨hafter, hheld, hanswer⟩ := h.set name value hvalid
    exact run_change hvalid hafter hheld hanswer
  remove hvalid hcontains := by
    obtain ⟨hafter, hheld, hanswer⟩ := h.remove hvalid hcontains
    exact run_change hvalid hafter hheld hanswer

end NativeAttributes

end TreeManifest
