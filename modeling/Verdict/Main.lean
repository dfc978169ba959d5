import Std.Time.DateTime
import Verdict.CommandLine.Run

/-!
# The program

Gathers what a run can see, and prints what it leaves behind.
-/

namespace Verdict.CommandLine

private def readFile (path : String) : IO (Option String) := do
  try
    return some (← IO.FS.readFile path)
  catch _ =>
    return none

private def readVariables : IO (List (String × String)) := do
  let values ← World.variableNames.mapM fun name => do
    return (← IO.getEnv name).map fun value => (name, value)
  return values.filterMap id

private def readClock : IO Instant := do
  let elapsed ← Std.Time.Timestamp.now
  return (Instant.ofNanos? 0 elapsed.toNanosecondsSinceUnixEpoch.toInt).getD default

private def World.gather (arguments : List String) : IO World := do
  let unread : World := ⟨fun _ => none, ← readVariables, ← readClock⟩
  let texts ← (unread.paths arguments).mapM fun path => do
    return (path, ← readFile path)
  return { unread with file := fun path => (texts.lookup path).join }

def execute (arguments : List String) : IO UInt32 := do
  let outcome := run (← World.gather arguments) arguments
  match outcome with
  | .printed text => IO.print text
  | .failed f => IO.eprintln ("Error: " ++ f.message)
  | .misused => IO.eprint programHelp
  return outcome.exitCode.toUInt32

end Verdict.CommandLine

def main (arguments : List String) : IO UInt32 :=
  Verdict.CommandLine.execute arguments
