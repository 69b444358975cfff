import TreeManifest.Log.Directive

/-!
# Log filters

A filter is a list of directives, written with commas between them, each of which lets the reports
of some targets pass up to some verbosity.

## Main definitions

- `Log.Filter`, `Log.Filter.parse?`, `Log.Filter.render`: filters and their written form.
- `Log.Filter.enables`: whether a filter lets a report pass.
- `Log.Config`: where a program takes its filter from.

## Design notes

Directives are kept from the most to the least specific one, so the first directive whose target
covers a report decides. A later directive replaces an earlier one for the same reports. A directive
with brackets speaks about spans, and those without come first in the written form. One that names a
field, but neither a span nor a value, speaks about both and is written twice.
-/

namespace TreeManifest.Log

/-- A filter: directives from the most to the least specific one, those about reports before those
about spans. -/
structure Filter where
  directives : List Directive

namespace Filter

/-- Puts a directive at its place, where it replaces an earlier one for the same reports. -/
def place (directive : Directive) : List Directive → List Directive
  | [] => [directive]
  | other :: rest =>
    match directive.compare other with
    | .lt => directive :: other :: rest
    | .eq => directive :: rest
    | .gt => other :: place directive rest

def ofDirectives (directives : List Directive) : Filter :=
  let sorted := directives.foldl (fun sorted directive => place directive sorted) []
  ⟨sorted.filter (·.isStatic) ++ sorted.filter (·.hasBrackets)⟩

/-- The non-empty texts between the commas of a text. -/
def segments (text : String) : List (List Char) :=
  (text.toList.splitOn ',').filter fun segment => !segment.isEmpty

/-- Reads a filter of which every directive must be well formed. Without any it lets nothing
pass. -/
def parse? (text : String) : Option Filter :=
  ((segments text).mapM Directive.parse?).map ofDirectives

/-- Reads a filter and passes over the directives that are not well formed. If none is left it lets
errors pass. -/
def parseLossy (text : String) : Filter :=
  let directives := (segments text).filterMap Directive.parse?
  ofDirectives (if directives.isEmpty then [.plain (.upTo .error)] else directives)

def render (filter : Filter) : String :=
  ",".intercalate (filter.directives.map Directive.render)

def enables (filter : Filter) (event : Event) : Bool :=
  match filter.directives.find? (·.covers event.category.target) with
  | some directive => event.level.verbosity ≤ directive.verbosity.rank
  | none => false

end Filter

/-- Where a program takes its filter from, and how it prints reports. -/
structure Config where
  /-- The variable that may hold a filter. -/
  variableName : String := "DUPLUXY_LOG"
  /-- The filter for the case that the variable holds none. -/
  defaultDirective : String := "warn"
  /-- Whether reports are coloured. -/
  ansi : Bool := false
  /-- Whether reports show their target. -/
  showTarget : Bool := true
  deriving DecidableEq

/-- The filter of a program, given the value of its variable. -/
def Config.filter (config : Config) (value : Option String) : Filter :=
  (value.bind Filter.parse?).getD (Filter.parseLossy config.defaultDirective)

/-- The line that shows a report made at the given time. -/
def Config.line (config : Config) (time : String) (event : Event) : String :=
  let level := event.level.name
  let padding := if level.length < 5 then " " else ""
  time ++ " " ++ padding ++ level ++ " " ++
    (if config.showTarget then event.category.target ++ ": " else "") ++ event.message ++ "\n"

end TreeManifest.Log
