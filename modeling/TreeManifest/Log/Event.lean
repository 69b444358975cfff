import TreeManifest.Log.Category
import TreeManifest.Text.Quoted

/-!
# Reports and their collection

A report carries a category, a severity and a message. Reports of other programs have targets of
their own; a collection keeps those reports only whose target is that of a category.

## Main definitions

- `Log.Level`: the severities.
- `Log.Event`: one report.
- `Log.Payload`: how a message was given.
- `Log.Capture`: a collection of reports.
-/

namespace TreeManifest.Log

/-- The severity of a report, the gravest first. -/
inductive Level where
  | error
  | warn
  | info
  | debug
  | trace
  deriving DecidableEq

def Level.name : Level → String
  | .error => "ERROR"
  | .warn => "WARN"
  | .info => "INFO"
  | .debug => "DEBUG"
  | .trace => "TRACE"

/-- How talkative a filter has to be to let a severity pass. -/
def Level.verbosity : Level → Nat
  | .error => 1
  | .warn => 2
  | .info => 3
  | .debug => 4
  | .trace => 5

structure Event where
  category : Category
  level : Level
  message : String
  deriving DecidableEq

/-- How the message of a report was given. -/
inductive Payload where
  /-- As the text itself. -/
  | text (message : String)
  /-- As a text that is shown in quotes. -/
  | quoted (message : String)
  /-- Not at all. -/
  | absent

def Payload.message : Payload → String
  | .text message => message
  | .quoted message => Quoted.quote message
  | .absent => ""

/-- A collection of reports in the order in which they came. -/
structure Capture where
  events : List Event := []

namespace Capture

def record (capture : Capture) (event : Event) : Capture :=
  ⟨capture.events ++ [event]⟩

/-- Adds a report if its target is that of a category. -/
def recordTarget (capture : Capture) (target : String) (level : Level) (payload : Payload) :
    Capture :=
  match Category.ofTarget? target with
  | some category => capture.record ⟨category, level, payload.message⟩
  | none => capture

def drain (capture : Capture) : List Event × Capture := (capture.events, {})

def forCategory (capture : Capture) (category : Category) : List Event :=
  capture.events.filter (·.category = category)

end Capture

end TreeManifest.Log
