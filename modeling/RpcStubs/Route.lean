import RpcStubs.Failure
import RpcStubs.Text.Capital
import RpcStubs.Text.Pieces
namespace RpcStubs

open Text

/-!
# Routes

A route is a path of the form `/v<N>/<subject>.<method>`. It is read from text, and the
names of the generated method and constant are derived from its subject and its method.
-/

/-- A route by its parts. -/
structure Route where
  version : String
  subject : String
  method : String
deriving Repr, DecidableEq

namespace Route

/-- Whether a segment is the letter `v` and one or more digits. -/
def isVersion : List Char → Bool
  | 'v' :: digits => !digits.isEmpty && digits.all Char.isDigit
  | _ => false

/-- Whether a character separates the words of a segment. -/
def isSeparator (character : Char) : Bool :=
  character == '-' || character == '_'

/-- Whether a segment is a letter followed by letters, digits and separators. -/
def isIdentifier : List Char → Bool
  | [] => false
  | first :: rest =>
      first.isAlpha && rest.all fun character => character.isAlphanum || isSeparator character

/-- The route that a path spells. -/
def parse? (path : String) : Option Route :=
  match path.toList with
  | '/' :: rest =>
      match cutFirst '/' rest with
      | some (version, call) =>
          match pieces (· == '.') call with
          | [subject, method] =>
              if isVersion version && isIdentifier subject && isIdentifier method then
                some ⟨String.ofList version, String.ofList subject, String.ofList method⟩
              else
                none
          | _ => none
      | none => none
  | _ => none

/-- The route that a path spells, or the failure that names the path. -/
def parse (path : String) : Except Failure Route :=
  match parse? path with
  | some route => .ok route
  | none => .error (.route path)

/-- The path of a route. -/
def path (route : Route) : String :=
  "/" ++ route.version ++ "/" ++ route.subject ++ "." ++ route.method

/-- The words of a segment, each with a capital first letter, written without separators. -/
def identifier (segment : List Char) : List Char :=
  ((pieces isSeparator segment).filter (!·.isEmpty)).flatMap capitalized

/-- The name of the generated method. -/
def methodName (route : Route) : String :=
  String.ofList (identifier route.subject.toList ++ identifier route.method.toList)

/-- The name of the constant that holds the path of a method. -/
def constantFor (methodName : String) : String :=
  "RPC" ++ methodName

/-- Different methods have different constants. -/
theorem constantFor_injective {first second : String}
    (same : constantFor first = constantFor second) :
    first = second := by
  have sameText := congrArg String.toList same
  simp only [constantFor, String.toList_append, List.append_cancel_left_eq] at sameText
  exact String.toList_inj.mp sameText

/-- The name of the generated constant. -/
def constantName (route : Route) : String :=
  constantFor route.methodName

/-- Whether the method speaks of a list, whatever the case of its letters. -/
def mentionsList (route : Route) : Bool :=
  occursIn "list".toList (route.method.toList.map Char.toLower)

end Route

end RpcStubs
