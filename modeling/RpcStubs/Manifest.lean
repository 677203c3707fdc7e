import RpcStubs.Failure
import RpcStubs.Files.Access
namespace RpcStubs

open Text

/-!
# Module manifests

A module manifest is a file that declares the import path of everything below its
directory. It is searched for from a directory upward.
-/

/-- The directory of a manifest and the module path that it declares. -/
structure Manifest where
  root : String
  modulePath : String
deriving Repr, DecidableEq

namespace Manifest

/-- The text before the first comment. -/
def withoutComment : List Char → List Char
  | [] => []
  | '/' :: '/' :: _ => []
  | character :: rest => character :: withoutComment rest

/-- Whether a character quotes a module path. -/
def isQuote (character : Char) : Bool :=
  character == '\x22' || character == '\x60'

/-- The text without quotes at either end. -/
def unquoted (text : List Char) : List Char :=
  ((text.dropWhile isQuote).reverse.dropWhile isQuote).reverse

/-- The module path that a line declares. -/
def declaredIn? (line : List Char) : Option (List Char) :=
  let text := trim (withoutComment line)
  if "module".toList.isPrefixOf text then
    match text.drop 6 with
    | [] => none
    | first :: rest =>
        if isBlank first then
          let path := unquoted (trim (first :: rest))
          if path = [] then none else some path
        else
          none
  else
    none

/-- The module path that the first declaring line of a manifest declares. -/
def modulePath? (content : String) : Option String :=
  ((lines content.toList).findSome? declaredIn?).map String.ofList

variable {m : Type → Type} [Monad m] [Files.Reads m]

/-- The manifest of a file name that is nearest to a directory. -/
def discover (start file : String) : m (Except Failure Manifest) := do
  match ← Files.findUpward start file with
  | none => return .error (.manifest (.absent file start))
  | some path =>
      match ← Files.readText path with
      | .error cause => return .error (.manifest (.unreadable path cause))
      | .ok content =>
          match modulePath? content with
          | none => return .error (.manifest (.undeclared path))
          | some modulePath =>
              return .ok ⟨(Files.Path.parent? path).getD ".", modulePath⟩

end Manifest

end RpcStubs
