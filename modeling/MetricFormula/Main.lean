import MetricFormula.Report.Command

/-! # Command line

`--input FILE` names the entity document, which is otherwise read from standard input; `--config
FILE` names the settings; `--verbose` and `--pretty` choose the style. -/

namespace MetricFormula

structure CommandLine where
  input : Option String := none
  config : Option String := none
  style : ReportStyle := {}

/-- The arguments of the command, where `none` stands for arguments it does not have. -/
def CommandLine.ofArguments? (line : CommandLine) : List String → Option CommandLine
  | [] => some line
  | "--input" :: path :: rest => ofArguments? { line with input := some path } rest
  | "--config" :: path :: rest => ofArguments? { line with config := some path } rest
  | "--verbose" :: rest | "-v" :: rest =>
    ofArguments? { line with style := { line.style with verbose := true } } rest
  | "--pretty" :: rest =>
    ofArguments? { line with style := { line.style with pretty := true } } rest
  | _ => none

/-- Read a file that need not be there. -/
def Source.ofPath (path : String) : IO Source := do
  try
    return ⟨path, some (← IO.FS.readBinFile path)⟩
  catch _ => return ⟨path, none⟩

/-- All of standard input. -/
partial def readAll (stream : IO.FS.Stream) (soFar : ByteArray) : IO ByteArray := do
  let more ← stream.read 65536
  if more.isEmpty then return soFar else readAll stream (soFar ++ more)

def CommandLine.run (line : CommandLine) : IO UInt32 := do
  let settings ← line.config.mapM Source.ofPath
  let source : Source ← match line.input with
    | some path => Source.ofPath path
    | none => pure ⟨"stdin", some (← readAll (← IO.getStdin) .empty)⟩
  match runCommand line.style settings source with
  | .ok report =>
    IO.eprint report.diagnostics
    IO.print report.output
    return 0
  | .error fault =>
    IO.eprintln s!"Error: {fault.message}"
    return 1

end MetricFormula

def main (args : List String) : IO UInt32 := do
  match MetricFormula.CommandLine.ofArguments? {} args with
  | some line => line.run
  | none =>
    IO.eprintln "usage: [--input FILE] [--config FILE] [--verbose] [--pretty]"
    return 2
