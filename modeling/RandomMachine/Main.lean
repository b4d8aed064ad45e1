import RandomMachine.CommandLine.Run

/-!
# The program

Runs the command line against files and standard streams.
-/

namespace RandomMachine

/-- The words of the system for a refusal. -/
def systemWords : IO.Error → String
  | .noFileOrDirectory .. => "No such file or directory (os error 2)"
  | .inappropriateType .. => "Is a directory (os error 21)"
  | .permissionDenied .. => "Permission denied (os error 13)"
  | other => toString other

/-- Performs an action and words its failure. -/
def attempt {α : Type} (action : IO α) : IO (Except String α) := do
  match ← action.toBaseIO with
  | .ok value => return .ok value
  | .error error => return .error (systemWords error)

/-- The surroundings of a process. -/
def processHost : CommandLine.Host IO where
  load path := attempt (IO.FS.readBinFile path)
  save path text := attempt (IO.FS.writeFile path text)
  print := IO.print
  complain := IO.eprint
  entropy := do return (← IO.getRandomBytes 8).toUInt64LE!

end RandomMachine

def main (arguments : List String) : IO UInt32 :=
  RandomMachine.CommandLine.run RandomMachine.processHost arguments
