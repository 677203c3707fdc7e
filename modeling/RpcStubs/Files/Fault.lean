namespace RpcStubs.Files

/-!
# Faults of file access

Why a file operation fails, in the words of the operating system.
-/

/-- Why a file operation fails. -/
inductive Fault
  | notFound
  | denied
  | present
  | notDirectory
  | isDirectory
  | tooManyLinks
  | notText
  | readOnly
  | other (text : String)
deriving Repr, DecidableEq

/-- The fault in words. -/
def Fault.message : Fault → String
  | .notFound => "No such file or directory (os error 2)"
  | .denied => "Permission denied (os error 13)"
  | .present => "File exists (os error 17)"
  | .notDirectory => "Not a directory (os error 20)"
  | .isDirectory => "Is a directory (os error 21)"
  | .tooManyLinks => "Too many levels of symbolic links (os error 40)"
  | .notText => "stream did not contain valid UTF-8"
  | .readOnly => "read-only"
  | .other text => text

end RpcStubs.Files
