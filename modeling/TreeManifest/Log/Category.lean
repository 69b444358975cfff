/-!
# Log categories

Every report of the library belongs to one category. A category has a short name, and a target made
of a common scope and that name, by which filters select it.

## Main definitions

- `Log.Category`: the categories.
- `Log.Category.target`, `Log.Category.ofTarget?`: passage between categories and targets.
-/

namespace TreeManifest.Log

inductive Category where
  | listDir
  | attributes
  | flags
  | ownership
  | hardlink
  /-- Making special files. -/
  | special
  /-- Leaving out marked objects. -/
  | exclude
  | walk
  deriving DecidableEq

namespace Category

def all : List Category :=
  [.listDir, .attributes, .flags, .ownership, .hardlink, .special, .exclude, .walk]

def name : Category → String
  | .listDir => "list_dir"
  | .attributes => "attributes"
  | .flags => "flags"
  | .ownership => "ownership"
  | .hardlink => "hardlink"
  | .special => "special"
  | .exclude => "exclude"
  | .walk => "walk"

/-- What every target starts with. -/
def scope : String := "dupluxy::"

def target (category : Category) : String := scope ++ category.name

def ofTarget? (target : String) : Option Category :=
  all.find? fun category => category.target == target

end Category

end TreeManifest.Log
