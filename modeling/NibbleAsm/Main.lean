import NibbleAsm.CommandLine.Run

/-!
# The command-line tool

Gives a run access to the files of the computer and prints what it shows. Everything it decides is
decided by the library.
-/
namespace NibbleAsm

/-- The code of a name that is too long. Some actions report codes with the sign changed. -/
def isNameTooLong (code : UInt32) : Bool :=
  code == 36 || code == 0xFFFFFFDC

/-- A failure of the file system in the library's terms. -/
def FileError.ofSystem : IO.Error → FileError
  | .noFileOrDirectory .. => .notFound
  | .permissionDenied .. => .denied
  | .inappropriateType _ code _ => if code = 21 then .isDirectory else .notDirectory
  | .invalidArgument file code details =>
    if isNameTooLong code then .nameTooLong
    else .other (toString (IO.Error.invalidArgument file code details))
  | error => .other (toString error)

/-- The result of an action on the file system. -/
def attemptFile {α : Type} (action : IO α) : IO (Except FileError α) := do
  match ← action.toBaseIO with
  | .ok value => pure (.ok value)
  | .error error => pure (.error (.ofSystem error))

/-- Print what a run shows and give its exit status. -/
def Outcome.present (outcome : Outcome) : IO UInt32 := do
  IO.eprint outcome.stderr
  IO.print outcome.stdout
  pure outcome.exit.toUInt32

/-- Access to the files of the computer. -/
def FileAccess.system : FileAccess IO where
  read path := attemptFile (IO.FS.readBinFile path.text)
  write path content := attemptFile (IO.FS.writeBinFile path.text content)

end NibbleAsm

open NibbleAsm in
def main (arguments : List String) : IO UInt32 := do
  let requested := (← IO.getEnv "RUST_LOG").bind LogLimit.ofName?
  let outcome ← runTool .system requested (arguments.map PathName.ofText)
  outcome.present
