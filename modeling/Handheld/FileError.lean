/-!
# Why a file could not be used
-/

namespace Handheld

/-- The reasons for which opening, reading or creating a file fails. -/
inductive FileError where
  | notPermitted
  | notFound
  | accessDenied
  | notADirectory
  | isADirectory
  | nameTooLong
  /-- The name holds the character that ends names in the operating system. -/
  | malformedName
  | other (code : Nat) (reason : String)
  deriving DecidableEq, Repr, Inhabited

namespace FileError

/-- The number the operating system gives the reason, if it has been asked. -/
def code? : FileError → Option Nat
  | notPermitted => some 1
  | notFound => some 2
  | accessDenied => some 13
  | notADirectory => some 20
  | isADirectory => some 21
  | nameTooLong => some 36
  | malformedName => none
  | other code _ => some code

/-- The reason in words. -/
def reason : FileError → String
  | notPermitted => "Operation not permitted"
  | notFound => "No such file or directory"
  | accessDenied => "Permission denied"
  | notADirectory => "Not a directory"
  | isADirectory => "Is a directory"
  | nameTooLong => "File name too long"
  | malformedName => "file name contained an unexpected NUL byte"
  | other _ reason => reason

/-- The reason as it is reported, with its number. -/
def message (e : FileError) : String :=
  match e.code? with
  | some code => e.reason ++ " (os error " ++ toString code ++ ")"
  | none => e.reason

/-- The reason with the number that the operating system gives it. -/
def ofCode (code : Nat) (reason : String) : FileError :=
  match code with
  | 1 => notPermitted
  | 2 => notFound
  | 13 => accessDenied
  | 20 => notADirectory
  | 21 => isADirectory
  | 36 => nameTooLong
  | code => other code reason

end FileError

/-- What reading a file gives. -/
abbrev FileContents := Except FileError (Array UInt8)

end Handheld
