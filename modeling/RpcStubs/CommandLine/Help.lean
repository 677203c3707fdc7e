import RpcStubs.CommandLine.Order
namespace RpcStubs.CommandLine

/-!
# Help texts

What the program says about itself and its commands. Names stand in a column that is as wide
as the longest one.
-/

/-- A name and what is said about it. -/
structure Described where
  name : String
  about : String
deriving Repr, DecidableEq

/-- A line about a name in a column of some width. -/
def describedLine (width : Nat) (described : Described) : String :=
  "  " ++ described.name ++
    String.ofList (List.replicate (width - described.name.length) ' ') ++ "  " ++
    described.about ++ "\n"

/-- A heading with lines about names under it. -/
def describedList (heading : String) (described : List Described) : String :=
  let width := described.foldl (fun width each => max width each.name.length) 0
  heading ++ ":\n" ++ String.join (described.map (describedLine width))

/-- A text about the program or a command: what it does, how it is used, and lists of names. -/
def page (about usage : String) (lists : List String) : String :=
  Text.join "\n" ((about ++ "\n") :: ("Usage: " ++ usage ++ "\n") :: lists)

/-- What is said about the switch for more messages. -/
def verboseLine : Described :=
  ⟨"-v, --verbose", "Log debug details of extraction and classification"⟩

/-- What is said about the switch for help. -/
def helpLine : Described :=
  ⟨"-h, --help", "Print help"⟩

/-- What the program does. -/
def programAbout : String :=
  "Generate RPC clients, servers and protobuf definitions from " ++
    "convention-following OpenAPI specs"

/-- What the command that generates does. -/
def generateAbout : String :=
  "Generate client, server and protobuf artifacts from an OpenAPI document"

/-- What the command that checks does. -/
def validateAbout : String :=
  "Check an OpenAPI document against the RPC convention"

/-- What the command that helps does. -/
def helpAbout : String :=
  "Print this message or the help of the given subcommand(s)"

/-- What is said about the document. -/
def specLine : Described :=
  ⟨"[SPEC]", "Path to the OpenAPI document (YAML or JSON) [default: " ++ usualSpec ++ "]"⟩

/-- What is said about the switches of the command that generates. -/
def generateLines : List Described := [
  ⟨"    --package <PACKAGE>", "Package name of the generated sources"⟩,
  verboseLine,
  ⟨"-o, --output <OUTPUT>", "Output directory (must exist)"⟩,
  ⟨"    --proto-path <PROTO_PATH>", "Protobuf file path, relative to the output directory"⟩,
  ⟨"    --proto-import <PROTO_IMPORT>",
    "Import path of the code generated from the protobuf file"⟩,
  ⟨"    --proto-package <PROTO_PACKAGE>", "Protobuf package namespace"⟩,
  ⟨"    --vendor <VENDOR>", "Vendor prefix of the derived protobuf namespace"⟩,
  ⟨"    --full",
    "Also scaffold the daemon, service stubs, tests, Makefile and buf configuration"⟩,
  ⟨"    --config <CONFIG>", "Settings file (defaults to the nearest oasrpc.toml)"⟩,
  ⟨"    --skip-validation", "Generate even when the document violates the convention"⟩,
  ⟨"    --dry-run", "Report what would be written without touching the filesystem"⟩,
  ⟨"    --gofmt", "Pipe generated Go sources through gofmt"⟩,
  helpLine]

/-- The help text about a topic. -/
def Topic.text : Topic → String
  | .program =>
      page programAbout "oasrpc [OPTIONS] <COMMAND>" [
        describedList "Commands" [
          ⟨"generate", generateAbout⟩,
          ⟨"validate", validateAbout⟩,
          ⟨"help", helpAbout⟩],
        describedList "Options" [verboseLine, helpLine, ⟨"-V, --version", "Print version"⟩]]
  | .generate =>
      page generateAbout "oasrpc generate [OPTIONS] [SPEC]" [
        describedList "Arguments" [specLine], describedList "Options" generateLines]
  | .validate =>
      page validateAbout "oasrpc validate [OPTIONS] [SPEC]" [
        describedList "Arguments" [specLine], describedList "Options" [verboseLine, helpLine]]
  | .help =>
      page helpAbout "oasrpc help [COMMAND]..." [
        describedList "Arguments" [⟨"[COMMAND]...", "Print help for the subcommand(s)"⟩]]

/-- The name of the program and its version. -/
def versionText : String := "oasrpc 0.1.0\n"

end RpcStubs.CommandLine
