import PrefixScript.CommandLine.Report

/-!
# The Program

Running scripts from the command line. Everything the program does is in its
report; here the script is read and the report is carried out.
-/

namespace PrefixScript

namespace CommandLine

/-- The text of a file, if there is one and it is valid UTF-8. -/
def readText? (path : String) : IO (Option String) := do
  try
    let content ← IO.FS.readBinFile path
    return String.fromUTF8? content
  catch _ => return none

/-- What the system says about a failed write. -/
def excuse : IO.Error → String
  | .resourceExhausted _ code details | .resourceVanished code details
  | .hardwareFault code details | .otherError code details =>
    details ++ " (os error " ++ toString code ++ ")"
  | failure => toString failure

/-- Hand a report's part to standard output, and tell what kind of device that
    turned out to be. -/
def tryStdout (report : Report) : IO Device := do
  try
    let stdout ← IO.getStdout
    stdout.write report.stdout
    stdout.flush
    return .working
  catch failure => return .broken (excuse failure) none

end CommandLine

end PrefixScript

open PrefixScript PrefixScript.CommandLine in
/-- Run the script that the arguments name. The report is made for a working
    standard output, and once more for a broken one if need be. -/
def main (arguments : List String) : IO UInt32 := do
  let source ← match Options.parse arguments with
    | .ok { path := some path, .. } => readText? path
    | _ => pure none
  let reportFor (device : Device) : Report := .ofArguments device (fun _ => source) arguments
  let report := reportFor (← tryStdout (reportFor .working))
  IO.eprint report.stderr
  return report.exitCode
