import MetricFormula.Json.Printer
import MetricFormula.Report.Document

/-! # The reporting command

The command reads settings and an entity document and prints the computed fields as JSON. All it
does to files is to read them, so it is a function of what was found under their names. -/

namespace MetricFormula

/-- What was found under a name; without content if it could not be read. -/
structure Source where
  name : String
  content : Option ByteArray

inductive CommandFault where
  | settingsUnreadable (name : String)
  | settingsMalformed (name : String)
  | documentUnreadable (name : String)
  | documentMalformed
  deriving DecidableEq

def CommandFault.message : CommandFault → String
  | settingsUnreadable name => s!"read config {name}"
  | settingsMalformed name => s!"parse config {name}"
  | documentUnreadable name => s!"read {name}"
  | documentMalformed => "parse entity document"

/-- What the command prints. -/
structure Report where
  output : String
  diagnostics : String
  deriving DecidableEq

/-- How the command prints. -/
structure ReportStyle where
  /-- Whether to print the fault of every field without a number. -/
  verbose : Bool := false
  /-- Whether to print every item on a line of its own. -/
  pretty : Bool := false

/-- The line for a field without a number. -/
def faultLine (key : String) (fault : Fault) : String :=
  s!"{key}: {fault.message} ({fault.kind.name})\n"

def Report.ofOutcomes (style : ReportStyle) (outcomes : List Outcome) : Report :=
  let results := Json.ofList (fun o => o.computed.toJson) outcomes
  let faults := if style.verbose then outcomes.filterMap Outcome.fault? else []
  { output := (if style.pretty then results.pretty else results.compact) ++ "\n"
    diagnostics := String.join (faults.map fun (key, fault) => faultLine key fault) }

/-- The policy in a settings file; the default policy without one. -/
def loadPolicy (settings : Option Source) : Except CommandFault Policy :=
  match settings with
  | none => .ok {}
  | some source =>
    match source.content with
    | none => .error (.settingsUnreadable source.name)
    | some bytes =>
      match (Json.readBytes? bytes).bind Policy.ofJson? with
      | none => .error (.settingsMalformed source.name)
      | some policy => .ok policy

def loadDocument (source : Source) : Except CommandFault Document :=
  match source.content with
  | none => .error (.documentUnreadable source.name)
  | some bytes =>
    match (Json.readBytes? bytes).bind Document.ofJson? with
    | none => .error .documentMalformed
    | some document => .ok document

/-- Settings are loaded before the document. -/
def runCommand (style : ReportStyle) (settings : Option Source) (source : Source) :
    Except CommandFault Report := do
  let policy ← loadPolicy settings
  let document ← loadDocument source
  return .ofOutcomes style (document.outcomes policy)

end MetricFormula
