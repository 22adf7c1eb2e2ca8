import PodRoutes.CommandLine.Report

/-!
# The command line

Reads the arguments and the environment, and prints the report of the start.
-/

namespace PodRoutes.CommandLine

def readVariables : List String → IO (List (String × String))
  | [] => return []
  | name :: rest => do
    let others ← readVariables rest
    match ← IO.getEnv name with
    | some value => return (name, value) :: others
    | none => return others

end PodRoutes.CommandLine

/-- Prints the report, on standard error if the start fails, and gives the exit code. -/
def main (args : List String) : IO UInt32 := do
  let found ← PodRoutes.CommandLine.readVariables PodRoutes.CommandLine.variableNames
  let report := PodRoutes.CommandLine.report (fun name => found.lookup name) args
  if report.exitCode = 0 then IO.print report.text else IO.eprint report.text
  return UInt32.ofNat report.exitCode
