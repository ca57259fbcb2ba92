import Ldap.CommandLine.Run

/-! The program: reads what the arguments name, runs the command, and prints. It ends with 0, with
1 if the command failed, and with 2 if the arguments do not follow the usage. -/
namespace Ldap.CommandLine

def usage : String :=
  "Usage: ldap-controls [OPTIONS] json FILE\n" ++
  "       ldap-controls [OPTIONS] ber --hex HEX\n" ++
  "Options: -c, --config FILE; -d, --debug; --strict; --strict-top-level; --metrics"

def readable (content : IO String) : IO (Option String) :=
  try return some (← content) catch _ => return none

def gather (a : Arguments) : IO Inputs := do
  let contents ← a.files.mapM fun (path : String) => return (path, ← readable (IO.FS.readFile path))
  let standard ← if a.readsStandard then readable (do (← IO.getStdin).readToEnd) else pure none
  return ⟨standard, fun path => (contents.lookup path).join⟩

def explain (messages : List String) : String :=
  "Error: " ++ "\n\nCaused by:\n    ".intercalate messages

end Ldap.CommandLine

open Ldap.CommandLine in
def main (arguments : List String) : IO UInt32 := do
  match Arguments.ofList? arguments with
  | none =>
    IO.eprintln usage
    return 2
  | some a =>
    let (printed, failure) := run a (← gather a)
    IO.print printed
    match failure with
    | none => return 0
    | some e =>
      IO.eprintln (explain e.messages)
      return 1
