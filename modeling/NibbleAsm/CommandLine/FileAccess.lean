import NibbleAsm.CommandLine.PathName

/-!
# Access to files

A run reads one file as a whole and writes one file as a whole, and either may fail. What the two
actions do is left open here, so a run can be carried out on the files of a computer as well as on a
state that stands for them.
-/
namespace NibbleAsm

/-- Why a file cannot be read or written. -/
inductive FileError where
  | notFound
  | notDirectory
  | isDirectory
  /-- A name, or the whole path, has too many bytes. -/
  | nameTooLong
  | denied
  /-- Another failure in the words of the system. -/
  | other (text : String)
  deriving DecidableEq

def FileError.message : FileError → String
  | notFound => "No such file or directory (os error 2)"
  | notDirectory => "Not a directory (os error 20)"
  | isDirectory => "Is a directory (os error 21)"
  | nameTooLong => "File name too long (os error 36)"
  | denied => "Permission denied (os error 13)"
  | other text => text

/-- Reading and writing whole files by their path names. -/
structure FileAccess (m : Type → Type) where
  read : PathName → m (Except FileError ByteArray)
  /-- Create a file, or replace the content of one. -/
  write : PathName → ByteArray → m (Except FileError Unit)

end NibbleAsm
