import RpcStubs.Artifact.Render
namespace RpcStubs.Artifact

/-!
# Names in generated lines

The parts of a line say which of its texts are names.  From them the messages that a file uses
and the names that it declares are read off, for every model.
-/

namespace Part

/-- The message that a part uses. -/
def message? : Part → Option String
  | .message name => some name
  | _ => none

/-- The name that a part declares. -/
def declared? : Part → Option String
  | .declared name => some name
  | _ => none

end Part

/-- The names of one kind in some lines, in order. -/
def namesIn (kind : Part → Option String) (lines : List Line) : List String :=
  lines.flatMap (·.filterMap kind)

/-- The messages that an artifact uses. -/
def messagesUsed (artifact : Artifact) (model : Model) : List String :=
  namesIn Part.message? (artifact.lines model)

/-- The names that an artifact declares. -/
def namesDeclared (artifact : Artifact) (model : Model) : List String :=
  namesIn Part.declared? (artifact.lines model)

section

variable (kind : Part → Option String)

@[simp] theorem namesIn_nil :
    namesIn kind [] = [] := rfl

@[simp] theorem namesIn_cons
    (line : Line)
    (rest : List Line) :
    namesIn kind (line :: rest) = line.filterMap kind ++ namesIn kind rest := rfl

@[simp] theorem namesIn_append
    (first second : List Line) :
    namesIn kind (first ++ second) = namesIn kind first ++ namesIn kind second := by
  simp [namesIn]

/-- Blocks of lines that are made from elements hold the names of each block. -/
@[simp] theorem namesIn_flatMap
    {α : Type}
    (block : α → List Line)
    (elements : List α) :
    namesIn kind (elements.flatMap block) =
      elements.flatMap fun element => namesIn kind (block element) := by
  simp [namesIn, List.flatMap_assoc]

@[simp] theorem namesIn_map
    {α : Type}
    (line : α → Line)
    (elements : List α) :
    namesIn kind (elements.map line) =
      elements.flatMap fun element => (line element).filterMap kind := by
  simp [namesIn, List.flatMap_map]

/-- The import of the messages has no names but texts. -/
theorem namesIn_messageImport
    (ignoresText : ∀ text, kind (.text text) = none)
    (model : Model) :
    namesIn kind (messageImport model) = [] := by
  unfold messageImport
  split
  · rfl
  · simp [fixed, ignoresText]

/-- A summary has no names but texts. -/
theorem namesIn_summaryLines
    (ignoresText : ∀ text, kind (.text text) = none)
    (operation : Operation) :
    namesIn kind (summaryLines operation) = [] := by
  unfold summaryLines
  split
  · rfl
  · simp [ignoresText]

end

@[simp] theorem filterMap_message?_fixed
    (text : String) :
    (fixed text).filterMap Part.message? = [] := rfl

@[simp] theorem filterMap_declared?_fixed
    (text : String) :
    (fixed text).filterMap Part.declared? = [] := rfl

end RpcStubs.Artifact
