import ModuleSurface.CommandLine.Run

/-! # The command

The command runs on the files of the system and prints what the run leaves behind. -/

namespace ModuleSurface

/-- Whether the number of an error is a given one; some calls of the system negate it. -/
def isErrorNumber (number code : UInt32) : Bool := code == number || code + number == 0

/-- The fault that an error of the system is. The number tells whether a path leads through a file
or to a directory, and whether it is too long. -/
def FileFault.ofError? : IO.Error → Option FileFault
  | .noFileOrDirectory .. => some .missing
  | .permissionDenied .. => some .denied
  | .inappropriateType _ code _ =>
    some (if isErrorNumber 20 code then .notDirectory else .isDirectory)
  | .invalidArgument _ code _ => if isErrorNumber 36 code then some .nameTooLong else none
  | _ => none

/-- An action on a file, its faults as values. -/
def attempt {α : Type} (action : IO α) : IO (Except FileFault α) := do
  try return .ok (← action)
  catch error =>
    match FileFault.ofError? error with
    | some fault => return .error fault
    | none => throw error

/-- The files of the system. -/
def systemFiles : Files IO where
  read path := attempt (IO.FS.readBinFile path.toText)
  write path text := attempt (IO.FS.writeFile path.toText text)

end ModuleSurface

/-- **The command.** A run that is broken off says so and exits with 1. -/
def main (arguments : List String) : IO UInt32 := do
  let outcome ← ModuleSurface.run ModuleSurface.systemFiles arguments
  IO.print outcome.stdout
  IO.eprint outcome.stderr
  match outcome.ending with
  | .exit code => return code.toUInt32
  | .brokenOff _ =>
    IO.eprintln "defgen: the run was broken off"
    return 1
