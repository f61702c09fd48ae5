/-!
# File faults

Why a file cannot be read or a program cannot be started.
-/

namespace MediaPhases

/-- Why an operation on a file fails. -/
inductive FileFault where
  | notFound
  | permissionDenied
  | notDirectory
  | isDirectory
  /-- The path or a name in it is too long. -/
  | nameTooLong
  /-- The path holds the character that ends texts of the operating system. -/
  | holdsNul
  /-- The content is not text. -/
  | notText
  | stated (text : String)
deriving DecidableEq, Repr

namespace FileFault

/-- The fault in words. -/
def reason : FileFault → String
  | .notFound => "No such file or directory"
  | .permissionDenied => "Permission denied"
  | .notDirectory => "Not a directory"
  | .isDirectory => "Is a directory"
  | .nameTooLong => "File name too long"
  | .holdsNul => "file name contained an unexpected NUL byte"
  | .notText => "stream did not contain valid UTF-8"
  | .stated text => text

/-- The number of a fault that the operating system reports. -/
def code? : FileFault → Option Nat
  | .notFound => some 2
  | .permissionDenied => some 13
  | .notDirectory => some 20
  | .isDirectory => some 21
  | .nameTooLong => some 36
  | .holdsNul | .notText | .stated _ => none

/-- The wording of a fault. -/
def message (f : FileFault) : String :=
  match f.code? with
  | some code => f.reason ++ s!" (os error {code})"
  | none => f.reason

end FileFault

end MediaPhases
