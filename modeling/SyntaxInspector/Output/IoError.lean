/-! # Failures of input and output

A failure is either one of the operating system, with its number and description, or one raised
above it, with a description of its own. -/

namespace SyntaxInspector

/-- Why input or output fails. -/
inductive IoError where
  /-- The reader of what is written is gone. -/
  | brokenPipe
  | permissionDenied
  | storageFull
  | timedOut
  /-- A writer takes no bytes at all. -/
  | writeZero
  /-- What is read as text is not UTF-8. -/
  | notUtf8
  /-- A file name contains the null character. -/
  | nullInFileName
  /-- An argument for a program contains the null character. -/
  | nullInArgument
  /-- The operating system reports an error by its number. -/
  | system (number : Nat) (description : String)
  deriving DecidableEq, Repr

namespace IoError

/-- The failure as it is shown. -/
def message : IoError → String
  | brokenPipe => "broken pipe"
  | permissionDenied => "permission denied"
  | storageFull => "no storage space"
  | timedOut => "timed out"
  | writeZero => "failed to write whole buffer"
  | notUtf8 => "stream did not contain valid UTF-8"
  | nullInFileName => "file name contained an unexpected NUL byte"
  | nullInArgument => "nul byte found in provided data"
  | system number description => description ++ " (os error " ++ toString number ++ ")"

/-- There is no such file. -/
def noSuchFile : IoError := system 2 "No such file or directory"

/-- What is there must not be used like this. -/
def notPermitted : IoError := system 13 "Permission denied"

/-- A path leads through something that is no directory. -/
def notADirectory : IoError := system 20 "Not a directory"

/-- A directory stands where a file is wanted. -/
def isADirectory : IoError := system 21 "Is a directory"

/-- A device has no room left. -/
def noSpace : IoError := system 28 "No space left on device"

/-- A pipe has no reader. -/
def closedPipe : IoError := system 32 "Broken pipe"

/-- A part of a path is longer than file names may be. -/
def nameTooLong : IoError := system 36 "File name too long"

/-- The reader of what is written is gone, whoever says so. -/
def isBrokenPipe (e : IoError) : Bool := e == brokenPipe || e == closedPipe

end IoError
end SyntaxInspector
