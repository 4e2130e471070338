/-!
# Why a file operation fails

The faults are those of the operating system, with the messages it gives for them, and two from
outside the operating system: a path that cannot be spelled to it, and bytes that are not text.
-/

namespace ConsoleSweep

/-- Why a file operation fails. -/
inductive Fault where
  | notFound
  | alreadyExists
  | notADirectory
  | isADirectory
  | invalidArgument
  | nameTooLong
  | tooManyLinks
  | nulInPath
  | notText
  deriving DecidableEq, Repr, Inhabited

namespace Fault

/-- The words for a cause the operating system numbers. -/
def numbered (words : String) (number : Nat) : String :=
  words ++ " (os error " ++ toString number ++ ")"

/-- A cause in words. -/
def message : Fault → String
  | notFound => numbered "No such file or directory" 2
  | alreadyExists => numbered "File exists" 17
  | notADirectory => numbered "Not a directory" 20
  | isADirectory => numbered "Is a directory" 21
  | invalidArgument => numbered "Invalid argument" 22
  | nameTooLong => numbered "File name too long" 36
  | tooManyLinks => numbered "Too many levels of symbolic links" 40
  | nulInPath => "file name contained an unexpected NUL byte"
  | notText => "stream did not contain valid UTF-8"

end Fault

end ConsoleSweep
