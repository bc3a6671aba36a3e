import SelectorLang.CommandLine.Report

/-! # The program

Prints the report on the arguments of the program and ends with its exit code.
-/

/-- Runs the program. -/
def main (arguments : List String) : IO UInt32 := do
  let report := SelectorLang.CommandLine.report arguments
  IO.print report.output
  IO.eprint report.errors
  return report.code.toUInt32
