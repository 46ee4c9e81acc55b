import PipeScript.Command.Run

/-!
The program: command lines, with the files of the operating system.
-/

namespace PipeScript

/-- The number of a system error, which some system calls report negated. -/
def errorNumber (code : UInt32) : Nat :=
  if code < 0x80000000 then code.toNat else (0 - code).toNat

/-- What the operating system says of a file, as an error of this library. -/
def FileError.ofSystem : IO.Error → FileError
  | .noFileOrDirectory .. => .notFound
  | .inappropriateType _ code _ => if errorNumber code = 20 then .notDirectory else .isDirectory
  | .invalidArgument _ code details =>
    if errorNumber code = 36 then .nameTooLong
    else .system (errorNumber code) "InvalidInput" details
  | .resourceExhausted _ code details =>
    if errorNumber code = 28 then .noSpace
    else .system (errorNumber code) "Other" details
  | .permissionDenied _ code _ =>
    .system (errorNumber code) "PermissionDenied" "Permission denied"
  | other => .system 0 "Other" other.toString

/-- The files of the operating system. -/
def Host.system : Host IO where
  read path := do
    match ← (IO.FS.readBinFile path).toBaseIO with
    | .ok bytes => return .ok bytes
    | .error error => return .error (.ofSystem error)
  write path bytes := do
    match ← (IO.FS.writeBinFile path bytes).toBaseIO with
    | .ok () => return .ok ()
    | .error error => return .error (.ofSystem error)
  print text := do (← IO.getStdout).putStr text

end PipeScript

/-- Runs a command line and exits with its code. -/
def main (arguments : List String) : IO UInt32 := do
  let report ← (PipeScript.Invocation.ofArguments arguments).run PipeScript.Host.system
  match report.complaint with
  | some complaint => (← IO.getStderr).putStrLn complaint
  | none => pure ()
  return report.exit.toUInt32
