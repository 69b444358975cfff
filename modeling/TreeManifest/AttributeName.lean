import TreeManifest.Text.Quoted

/-!
# Names of extended attributes

A visible attribute has a non-empty name that does not start with NUL. Names with that prefix were
once used to store the flag word among the attributes and stay reserved.

## Main definitions

- `AttributeName.IsReserved`, `AttributeName.IsVisible`: the two classes of names.
- `AttributeName.check`: the test that every operation on a visible map applies.
- `AttributeName.legacyFlagNames`: the reserved names that held a flag word.
-/

namespace TreeManifest

/-- Why a name cannot be stored as a visible attribute. -/
inductive AttributeNameError where
  | empty
  | reserved (name : String)
  deriving DecidableEq

def AttributeNameError.message : AttributeNameError → String
  | .empty => "attribute name is empty"
  | .reserved name => "attribute name " ++ Quoted.quote name ++ " uses the reserved NUL prefix"

namespace AttributeName

/-- Whether a name starts with the reserved NUL. -/
def isReserved (name : String) : Bool :=
  name.toList.head? == some '\x00'

def IsVisible (name : String) : Prop :=
  name ≠ "" ∧ isReserved name = false

instance (name : String) : Decidable (IsVisible name) :=
  inferInstanceAs (Decidable (_ ∧ _))

/-- Accepts the names that a visible attribute may have. -/
def check (name : String) : Except AttributeNameError Unit :=
  if name = "" then .error .empty
  else if isReserved name then .error (.reserved name)
  else .ok ()

/-- The reserved names that held the flag word of an object. -/
def legacyFlagNames : List String :=
  ["\x00L", "\x00lf", "\x00bf", "\x00B"]

theorem check_eq_ok_iff {name : String} : check name = .ok () ↔ IsVisible name := by
  unfold check IsVisible
  split
  · simp_all
  · split <;> simp_all

end AttributeName

end TreeManifest
