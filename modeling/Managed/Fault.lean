import Managed.Defect

namespace Managed

inductive FileError where
  | notFound
  | notDirectory
  | notMappable
  | nameTooLong
  | tooManyLinks
  | nulCharacter
deriving DecidableEq, Repr

def FileError.message : FileError → String
  | notFound => "No such file or directory (os error 2)"
  | notDirectory => "Not a directory (os error 20)"
  | notMappable => "No such device (os error 19)"
  | nameTooLong => "File name too long (os error 36)"
  | tooManyLinks => "Too many levels of symbolic links (os error 40)"
  | nulCharacter => "file name contained an unexpected NUL byte"

inductive Fault where
  | malformed (defect : Defect)
  | outOfBounds
  | notSupported
  | empty
  | file (error : FileError)
  | container
deriving DecidableEq, Repr

/-- The container's own reader gives no reason. -/
def Fault.message : Fault → String
  | malformed defect => defect.message
  | outOfBounds => "Out of Bound read would have occurred!"
  | notSupported => "This file type is not supported"
  | empty => "Provided input was empty"
  | file error => error.message
  | container => ""

end Managed
