import RpcStubs.Text.Pieces
namespace RpcStubs.CommandLine

/-!
# Arguments

The arguments of a command are read into items one after the other: switches, switches with
a value, and operands. An argument that fits nothing is a misuse.
-/

/-- A switch by its long name. -/
structure Switch where
  long : String
  short : Option Char := none
  takesValue : Bool := false
deriving Repr, DecidableEq

/-- What an argument comes to. -/
inductive Item
  | switch (long : String)
  | valued (long value : String)
  | operand (text : String)
  | misuse
deriving Repr, DecidableEq

/-- The kinds of arguments by how they start. -/
inductive Shape
  | terminator
  | long (text : List Char)
  | cluster (letters : List Char)
  | plain
deriving Repr, DecidableEq

/-- The kind of an argument; a single dash is plain. -/
def shapeOf (argument : String) : Shape :=
  match argument.toList with
  | ['-', '-'] => .terminator
  | '-' :: '-' :: text => .long text
  | '-' :: letter :: letters => .cluster (letter :: letters)
  | _ => .plain

/-- The item of a switch whose value is the next argument, and the arguments after it. -/
def withNext (long : String) : List String → Item × List String
  | [] => (.misuse, [])
  | argument :: rest =>
      if shapeOf argument = .plain then (.valued long argument, rest) else (.misuse, rest)

/-- The item of a long switch, and the arguments after it. -/
def longItem (switches : List Switch) (text : List Char) (rest : List String) :
    Item × List String :=
  let (name, value) := match Text.cutFirst '=' text with
    | some (name, value) => (name, some (String.ofList value))
    | none => (text, none)
  match switches.find? (fun switch => switch.long.toList = name), value with
  | none, _ => (.misuse, rest)
  | some switch, some value =>
      if switch.takesValue then (.valued switch.long value, rest) else (.misuse, rest)
  | some switch, none =>
      if switch.takesValue then withNext switch.long rest else (.switch switch.long, rest)

/-- The items of letters written together, and the arguments after them. -/
def clusterItems (switches : List Switch) (rest : List String) :
    List Char → List Item × List String
  | [] => ([], rest)
  | letter :: letters =>
      match switches.find? (fun switch => switch.short = some letter) with
      | none => ([.misuse], rest)
      | some switch =>
          if switch.takesValue then
            match letters with
            | [] =>
                let (item, after) := withNext switch.long rest
                ([item], after)
            | '=' :: value => ([.valued switch.long (String.ofList value)], rest)
            | value => ([.valued switch.long (String.ofList value)], rest)
          else
            let (items, after) := clusterItems switches rest letters
            (.switch switch.long :: items, after)

/-- What a switch takes comes from the arguments after it. -/
theorem length_withNext (long : String) (rest : List String) :
    (withNext long rest).2.length ≤ rest.length := by
  cases rest with
  | nil =>
      simp [withNext]
  | cons argument others =>
      simp only [withNext]
      split <;> simp

/-- What a long switch takes comes from the arguments after it. -/
theorem length_longItem (switches : List Switch) (text : List Char) (rest : List String) :
    (longItem switches text rest).2.length ≤ rest.length := by
  simp only [longItem]
  split
  · simp
  · split <;> simp
  · split
    · exact length_withNext _ rest
    · simp

/-- What letters take comes from the arguments after them. -/
theorem length_clusterItems (switches : List Switch) (rest : List String) (letters : List Char) :
    (clusterItems switches rest letters).2.length ≤ rest.length := by
  induction letters with
  | nil =>
      simp [clusterItems]
  | cons letter others inductionHypothesis =>
      simp only [clusterItems]
      split
      · simp
      · split
        · split
          · exact length_withNext _ rest
          · simp
          · simp
        · exact inductionHypothesis

/-- The items of the arguments of one command. -/
def items (switches : List Switch) : List String → List Item
  | [] => []
  | argument :: rest =>
      match shapeOf argument with
      | .terminator => rest.map .operand
      | .plain => .operand argument :: items switches rest
      | .long text =>
          let read := longItem switches text rest
          read.1 :: items switches read.2
      | .cluster letters =>
          let read := clusterItems switches rest letters
          read.1 ++ items switches read.2
termination_by arguments => arguments.length
decreasing_by
  · simp
  · have shorter := length_longItem switches text rest
    simp only [List.length_cons]
    change (longItem switches text rest).2.length < _
    omega
  · have shorter := length_clusterItems switches rest letters
    simp only [List.length_cons]
    change (clusterItems switches rest letters).2.length < _
    omega

/-- The items before the first plain argument, and the arguments from it on. -/
def leadingItems (switches : List Switch) : List String → List Item × List String
  | [] => ([], [])
  | argument :: rest =>
      match shapeOf argument with
      | .terminator => ([.misuse], [])
      | .plain => ([], argument :: rest)
      | .long text =>
          let read := longItem switches text rest
          let (others, after) := leadingItems switches read.2
          (read.1 :: others, after)
      | .cluster letters =>
          let read := clusterItems switches rest letters
          let (others, after) := leadingItems switches read.2
          (read.1 ++ others, after)
termination_by arguments => arguments.length
decreasing_by
  · have shorter := length_longItem switches text rest
    simp only [List.length_cons]
    change (longItem switches text rest).2.length < _
    omega
  · have shorter := length_clusterItems switches rest letters
    simp only [List.length_cons]
    change (clusterItems switches rest letters).2.length < _
    omega

end RpcStubs.CommandLine
