import RelayDescriptor.Text.Quoted

/-!
# Files by name

What the system tells of the names of files.  A name is brought into a normal form
before it is looked up: parts between slashes that say nothing are left out.  Looking
up a name can fail in ways that do not mean that there is nothing under it.
-/

namespace RelayDescriptor

/-- An error of the system. -/
structure SystemError where
  number : Nat
  description : String
  deriving Repr, DecidableEq

namespace SystemError

def missing : SystemError := ⟨2, "No such file or directory"⟩
def denied : SystemError := ⟨13, "Permission denied"⟩
def blocked : SystemError := ⟨20, "Not a directory"⟩
def directory : SystemError := ⟨21, "Is a directory"⟩
def tooLong : SystemError := ⟨36, "File name too long"⟩

/-- The numbers of the errors by which a name is known to lead nowhere: there is no such file, a
part of it that should be a directory is none, it is a bad descriptor, or its links go in
circles. -/
def absences : List Nat := [2, 20, 9, 40]

/-- Whether an error means that there is nothing under a name. -/
def isAbsence (error : SystemError) : Bool := absences.contains error.number

/-- The name of the class of an error in reports. -/
def className (error : SystemError) : String :=
  match error.number with
  | 1 | 13 => "PermissionError"
  | 2 => "FileNotFoundError"
  | 4 => "InterruptedError"
  | 11 => "BlockingIOError"
  | 20 => "NotADirectoryError"
  | 21 => "IsADirectoryError"
  | 110 => "TimeoutError"
  | _ => "OSError"

/-- The wording of an error for a name. -/
def message (error : SystemError) (name : Text) : String :=
  s!"[Errno {error.number}] {error.description}: " ++ shown (Quoted.text name)

end SystemError

/-- What the system tells of a name. -/
inductive FileEntry where
  /-- The name cannot be looked up. -/
  | hidden (error : SystemError)
  | directory
  /-- A file that cannot be read. -/
  | closed (error : SystemError)
  | file (content : List UInt8)
  deriving Repr, DecidableEq

namespace FileEntry

/-- There is nothing under the name. -/
def missing : FileEntry := hidden .missing

/-- The content of a file. -/
def read : FileEntry → Except SystemError (List UInt8)
  | hidden error | closed error => .error error
  | directory => .error .directory
  | file content => .ok content

/-- Whether an entry has a property, when nothing has it where a name leads nowhere.  Other errors
of looking up the name are passed on. -/
def test (has : FileEntry → Bool) : FileEntry → Except SystemError Bool
  | hidden error => if error.isAbsence then .ok false else .error error
  | entry => .ok (has entry)

/-- Whether there is anything under the name. -/
def isThere : FileEntry → Except SystemError Bool := test fun _ => true

/-- Whether there is a file under the name. -/
def isFile : FileEntry → Except SystemError Bool := test (· ≠ directory)

end FileEntry

namespace FileName

/-- The slashes that a normal form begins with: two stay two, but more are one. -/
def root (name : Text) : Text :=
  match (name.takeWhile (· = '/')).length with
  | 0 => []
  | 2 => ['/', '/']
  | _ => ['/']

/-- The normal form of a name; nothing at all names the current directory. -/
def normal (name : Text) : Text :=
  let parts := (Text.pieces '/' name).filter fun part => !part.isEmpty && part != ['.']
  match root name ++ Text.joinWith ['/'] parts with
  | [] => ['.']
  | result => result

/-- The name of a file in a directory. -/
def within (directory name : Text) : Text :=
  if directory.getLast? = some '/' then directory ++ name else directory ++ '/' :: name

end FileName

end RelayDescriptor
