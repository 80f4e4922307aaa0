import ExprFront.Cli.Run

/-!
# The program

Reads the file that the command line names, and prints what the run comes to.
-/

namespace ExprFront.Cli

/-- The fault that the system reports by a number, which may be negated, and a reason. -/
def faultOf (code : UInt32) (reason : String) : FileFault :=
  let number := min code (-code)
  if number = 20 then .notFolder
  else if number = 21 then .isFolder
  else if number = 36 then .nameTooLong
  else .other reason

/-- The fault of a file that could not be read. -/
def fileFault : IO.Error → FileFault
  | .noFileOrDirectory _ _ _ => .missing
  | .inappropriateType _ code reason => faultOf code reason
  | .permissionDenied _ code reason => faultOf code reason
  | .resourceExhausted _ code reason => faultOf code reason
  | .invalidArgument _ code reason => faultOf code reason
  | .otherError code reason => faultOf code reason
  | e => .other (toString e)

/-- The bytes of a file. -/
def readBytes (name : String) : IO (Except FileFault (List UInt8)) := do
  try
    let bytes ← IO.FS.readBinFile name
    return .ok bytes.toList
  catch e =>
    return .error (fileFault e)

/-- The file that a command line asks for. -/
def fileAsked (arguments : List String) : Option String :=
  match request arguments with
  | .run settings =>
    match settings.source with
    | .file name => some name
    | .text _ => none
  | _ => none

/-- Prints lines to both outputs. -/
def emit (printed logged : List String) : IO Unit := do
  logged.forM fun line => IO.eprintln line
  printed.forM fun line => IO.println line

end ExprFront.Cli

open ExprFront

/-- Answers a command line, and gives the status of the run. -/
def main (arguments : List String) : IO UInt32 := do
  let found ← match Cli.fileAsked arguments with
    | some name => Cli.readBytes name
    | none => pure (.error .missing)
  match Cli.answer arguments fun _ => found with
  | .finished status printed logged | .exited status printed logged =>
    Cli.emit printed logged
    return status.toUInt32
  | .failed printed =>
    Cli.emit printed []
    return 2
  | .escaped (.undecodable fault) =>
    IO.eprintln fault.message
    return 1
  | .escaped .nullInName =>
    IO.eprintln "embedded null byte"
    return 1
