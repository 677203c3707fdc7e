import RpcStubs.Command.Utility
namespace RpcStubs.Command

/-!
# Scripts

A script is a list of pipelines of simple commands. Its text is read into tokens, the tokens
into pipelines, and the pipelines are carried out one after the other.
-/

/-- A part of a word: plain text, or a parameter to look up. -/
inductive WordPart
  | plain (text : List Char)
  | parameter (name : Char)
deriving Repr, DecidableEq

/-- A word as it is written. -/
abbrev Word := List WordPart

/-- What stands between two pipelines: when the second one is carried out. -/
inductive Connector
  | always
  | ifDone
  | ifFailed
deriving Repr, DecidableEq

/-- The smallest parts of a script. -/
inductive ScriptToken
  | word (word : Word)
  | connector (connector : Connector)
  | pipe
  | redirect (stream : Nat)
deriving Repr, DecidableEq

/-- How characters are quoted. -/
inductive Quoting
  | bare
  | single
  | double
deriving Repr, DecidableEq

/-- How far a script has been read: its tokens, and the word that is open. -/
structure Lexing where
  tokens : List ScriptToken := []
  word : Option Word := none
  quoting : Quoting := .bare
deriving Repr, DecidableEq

namespace Lexing

/-- The open word with one more part. -/
def add (lexing : Lexing) (part : WordPart) : Lexing :=
  { lexing with word := some (lexing.word.getD [] ++ [part]) }

/-- The open word ended. -/
def endWord (lexing : Lexing) : Lexing :=
  match lexing.word with
  | some word => { lexing with tokens := lexing.tokens ++ [.word word], word := none }
  | none => lexing

/-- The open word ended, and one more token. -/
def emit (lexing : Lexing) (token : ScriptToken) : Lexing :=
  let ended := lexing.endWord
  { ended with tokens := ended.tokens ++ [token] }

/-- Start a redirection; a stream number right before it belongs to it. -/
def redirect (lexing : Lexing) : Lexing :=
  match lexing.word with
  | some [.plain ['1']] => { lexing with word := none }.emit (.redirect 1)
  | some [.plain ['2']] => { lexing with word := none }.emit (.redirect 2)
  | _ => lexing.emit (.redirect 1)

/-- The open word with a quotation started or ended in it. -/
def quote (lexing : Lexing) (quoting : Quoting) : Lexing :=
  { lexing.add (.plain []) with quoting := quoting }

end Lexing

/-- Whether a character after a dollar sign names a parameter. -/
def isParameter (character : Char) : Bool :=
  character.isDigit || "$?#@*".toList.contains character

/-- Read a character between single quotes. -/
def Lexing.stepSingle (lexing : Lexing) (character : Char) : Lexing :=
  if character = '\x27' then
    { lexing with quoting := .bare }
  else
    lexing.add (.plain [character])

/-- Read a dollar sign and what follows; the number says how many further characters are read. -/
def Lexing.dollar (lexing : Lexing) (following : Option Char) : Lexing × Nat :=
  match following with
  | some name =>
      if isParameter name then
        (lexing.add (.parameter name), 1)
      else
        (lexing.add (.plain ['$']), 0)
  | none => (lexing.add (.plain ['$']), 0)

/-- Read a character between double quotes. -/
def Lexing.stepDouble (lexing : Lexing) (character : Char) (following : Option Char) :
    Lexing × Nat :=
  match character, following with
  | '\x22', _ => ({ lexing with quoting := .bare }, 0)
  | '$', _ => lexing.dollar following
  | '\\', some escaped =>
      if "$\\\x22\x60".toList.contains escaped then
        (lexing.add (.plain [escaped]), 1)
      else
        (lexing.add (.plain ['\\', escaped]), 1)
  | _, _ => (lexing.add (.plain [character]), 0)

/-- Read a character outside quotes. -/
def Lexing.stepBare (lexing : Lexing) (character : Char) (following : Option Char) :
    Lexing × Nat :=
  match character, following with
  | '\x27', _ => (lexing.quote .single, 0)
  | '\x22', _ => (lexing.quote .double, 0)
  | '\\', some escaped => (lexing.add (.plain [escaped]), 1)
  | '$', _ => lexing.dollar following
  | '&', some '&' => (lexing.emit (.connector .ifDone), 1)
  | '|', some '|' => (lexing.emit (.connector .ifFailed), 1)
  | '|', _ => (lexing.emit .pipe, 0)
  | ';', _ => (lexing.emit (.connector .always), 0)
  | '\n', _ => (lexing.emit (.connector .always), 0)
  | '>', some '&' => (lexing.redirect.add (.plain ['&']), 1)
  | '>', some '>' => (lexing.redirect, 1)
  | '>', _ => (lexing.redirect, 0)
  | ' ', _ => (lexing.endWord, 0)
  | '\t', _ => (lexing.endWord, 0)
  | _, _ => (lexing.add (.plain [character]), 0)

/-- Read a character, with further ones that belong to it. -/
def Lexing.step (lexing : Lexing) (character : Char) (following : Option Char) : Lexing × Nat :=
  match lexing.quoting with
  | .single => (lexing.stepSingle character, 0)
  | .double => lexing.stepDouble character following
  | .bare => lexing.stepBare character following

/-- The tokens of a script from where it has been read to, if every quotation ends. -/
def lex (lexing : Lexing) : List Char → Option (List ScriptToken)
  | [] => if lexing.quoting = .bare then some lexing.endWord.tokens else none
  | character :: rest =>
      let (next, further) := lexing.step character rest.head?
      lex next (rest.drop further)
termination_by text => text.length
decreasing_by
  simp only [List.length_cons, List.length_drop]
  omega

/-- Words to carry out, and where streams of theirs go. -/
structure SimpleCommand where
  words : List Word := []
  redirections : List (Nat × Word) := []
deriving Repr, DecidableEq

/-- A pipeline: its commands before the last one, the last one, and when it is carried out. -/
structure Pipeline where
  connector : Connector := .always
  earlier : List SimpleCommand := []
  last : SimpleCommand := {}
deriving Repr, DecidableEq

namespace Pipeline

/-- The commands in order. -/
def commands (pipeline : Pipeline) : List SimpleCommand :=
  pipeline.earlier ++ [pipeline.last]

/-- The pipeline with one more word in its last command. -/
def addWord (pipeline : Pipeline) (word : Word) : Pipeline :=
  { pipeline with last := { pipeline.last with words := pipeline.last.words ++ [word] } }

/-- The pipeline with one more redirection in its last command. -/
def redirect (pipeline : Pipeline) (stream : Nat) (target : Word) : Pipeline :=
  { pipeline with
    last :=
      { pipeline.last with
        redirections := pipeline.last.redirections ++ [(stream, target)] } }

/-- The pipeline with one more command. -/
def extend (pipeline : Pipeline) : Pipeline :=
  { pipeline with earlier := pipeline.commands, last := {} }

end Pipeline

/-- The pipelines of tokens that follow a pipeline not yet ended. -/
def pipelines (current : Pipeline) : List ScriptToken → List Pipeline
  | [] => [current]
  | .connector connector :: rest => current :: pipelines { connector := connector } rest
  | .pipe :: rest => pipelines current.extend rest
  | .redirect stream :: .word target :: rest => pipelines (current.redirect stream target) rest
  | .redirect _ :: rest => pipelines current rest
  | .word word :: rest => pipelines (current.addWord word) rest

/-- The pipelines of a script. -/
def pipelinesOf? (script : String) : Option (List Pipeline) :=
  (lex {} script.toList).map (pipelines {})

/-- A script at work: its arguments, the last exit code, its streams, and whether it has ended. -/
structure Session where
  arguments : List String := ["sh"]
  status : Int := 0
  streams : Streams := {}
  ended : Bool := false

namespace Session

/-- The number of the process that carries a script out. -/
def process : String := "2"

/-- What a parameter stands for. -/
def parameter (session : Session) (name : Char) : String :=
  match name with
  | '$' => process
  | '?' => toString session.status
  | '#' => toString (session.arguments.length - 1)
  | '@' => Text.join " " session.arguments.tail
  | '*' => Text.join " " session.arguments.tail
  | _ => session.arguments.getD (name.toNat - 48) ""

/-- What a part of a word stands for. -/
def part (session : Session) : WordPart → String
  | .plain text => String.ofList text
  | .parameter name => session.parameter name

/-- What a word stands for. -/
def expand (session : Session) (word : Word) : String :=
  String.join (word.map session.part)

/-- The session ended with an exit code. -/
def finish (session : Session) (status : Int) : Session :=
  { session with status := status, ended := true }

/-- The exit code that a command asks the session to end with. -/
def ending? (session : Session) : List String → Option Int
  | ["exit"] => some session.status
  | ["exit", number] => some ((number.toNat?.getD 2 % 256 : Nat) : Int)
  | ["kill", signal, target] =>
      if target = process ∧ signal ≠ "-0" then some killed else none
  | ["kill", target] => if target = process then some killed else none
  | _ => none

/-- Where a stream goes: to the output, to the errors, or nowhere. -/
inductive Route
  | output
  | errors
  | nowhere
deriving Repr, DecidableEq

/-- The routes of output and errors after one more redirection. -/
def route (routes : Route × Route) (stream : Nat) (target : String) : Route × Route :=
  let aim := match target with
    | "&1" => routes.1
    | "&2" => routes.2
    | "/dev/stdout" => .output
    | "/dev/stderr" => .errors
    | _ => .nowhere
  if stream = 1 then (aim, routes.2) else (routes.1, aim)

/-- The streams with bytes sent along a route. -/
def send (streams : Streams) (bytes : ByteArray) : Route → Streams
  | .output => { streams with output := streams.output ++ bytes }
  | .errors => { streams with errors := streams.errors ++ bytes }
  | .nowhere => streams

/-- The bytes of words where a backslash starts an escape. -/
def escaped (words : List String) : List UInt8 :=
  let text := (Text.join " " words).toList
  (formatted [] (text.flatMap fun character =>
    if character = '%' then ['%', '%'] else [character])).1

/-- Write words as a script does: a backslash starts an escape. -/
def echoEscaped : Utility
  | "-n" :: words, streams => (0, streams.write (escaped words))
  | words, streams => (0, streams.write (escaped words ++ [10]))

/-- The program of a name as a script knows it. -/
def utility (name : String) : Utility :=
  match name with
  | "echo" => echoEscaped
  | ":" => fun _ streams => (0, streams)
  | _ =>
      match utilities.lookup name with
      | some utility => utility
      | none => fun _ streams => (127, streams.complain s!"sh: 1: {name}: not found")

/-- Carry out one command. -/
def perform (session : Session) (command : SimpleCommand) : Session :=
  match command.words.map session.expand with
  | [] => { session with status := 0 }
  | name :: arguments =>
      match session.ending? (name :: arguments) with
      | some status => session.finish status
      | none =>
          let (status, own) :=
            utility name arguments { input := session.streams.input }
          let routes := command.redirections.foldl
            (fun routes redirection =>
              route routes redirection.1 (session.expand redirection.2)) (.output, .errors)
          let kept := { session.streams with input := own.input }
          { session with
            status := status
            streams := send (send kept own.output routes.1) own.errors routes.2 }

/-- Carry out commands, each fed with the output of the one before it. -/
def performAll (session : Session) : List SimpleCommand → Session
  | [] => session
  | [command] => session.perform command
  | command :: next :: others =>
      let fed := { session with streams := { session.streams with output := .empty } }
      let done := fed.perform command
      let piped := performAll
        { done with
          ended := false
          streams :=
            { input := done.streams.output.toList
              output := session.streams.output
              errors := done.streams.errors } }
        (next :: others)
      { piped with streams := { piped.streams with input := done.streams.input } }

/-- Whether a connector lets the next pipeline be carried out. -/
def allows (session : Session) : Connector → Bool
  | .always => true
  | .ifDone => session.status = 0
  | .ifFailed => session.status ≠ 0

/-- Carry out one more pipeline, unless the session has ended. -/
def advance (session : Session) (pipeline : Pipeline) : Session :=
  if session.ended || !session.allows pipeline.connector || pipeline.commands = [{}] then
    session
  else
    session.performAll pipeline.commands

end Session

/-- Carry out a script with its arguments. -/
def runScript (script : String) (arguments : List String) (streams : Streams) : Int × Streams :=
  match pipelinesOf? script with
  | none => (2, streams.complain "sh: 1: Syntax error: Unterminated quoted string")
  | some pipelines =>
      let session := pipelines.foldl Session.advance { arguments := arguments, streams := streams }
      (session.status, session.streams)

end RpcStubs.Command
