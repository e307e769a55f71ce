import Std.Time.Format
import TranslitScheme.CommandLine.Run
import TranslitScheme.Files.Disk

/-!
# The program

Runs a command on the files of the machine, at the current time, and prints what the run has
printed.
-/

namespace TranslitScheme

/-- The current time in the form of RFC 3339. -/
def currentTime : IO String := do
  let time := Std.Time.DateTime.ofTimestampWithZone (← Std.Time.Timestamp.now) .UTC
  return time.format "uuuu-MM-dd'T'HH:mm:ss.SSSSSSSSSxxx"

end TranslitScheme

/-- Run the command line and hand its exit code to the system. -/
def main (arguments : List String) : IO UInt32 := do
  let outcome ← TranslitScheme.CommandLine.run arguments (← TranslitScheme.currentTime)
  (← IO.getStdout).putStr outcome.terminal.out
  (← IO.getStderr).putStr outcome.terminal.err
  return UInt32.ofNat outcome.exitCode
