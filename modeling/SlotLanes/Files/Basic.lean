/-! Files as the program sees them at one moment: whether something stands at a path, and what
reading it gives, bytes or the system's reason why not. -/
namespace SlotLanes

namespace Files

inductive Fault where
  | missing
  | accessDenied
  | notDirectory
  | isDirectory
  | nameTooLong
  | linkLoop
  | zeroInName
  | other (reason : String)
  deriving DecidableEq, Repr

def Fault.message : Fault → String
  | missing => "No such file or directory (os error 2)"
  | accessDenied => "Permission denied (os error 13)"
  | notDirectory => "Not a directory (os error 20)"
  | isDirectory => "Is a directory (os error 21)"
  | nameTooLong => "File name too long (os error 36)"
  | linkLoop => "Too many levels of symbolic links (os error 40)"
  | zeroInName => "file name contained an unexpected NUL byte"
  | other reason => reason

end Files

/-- The two questions are asked apart, and neither answer follows from the other: a path that
leads through a directory without access is not seen to hold anything, while a file without
access is seen and not read. -/
structure Files where
  read : String → Except Files.Fault (List UInt8)
  present : String → Bool

end SlotLanes
