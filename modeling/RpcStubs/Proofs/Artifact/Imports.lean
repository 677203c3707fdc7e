import RpcStubs.Proofs.Artifact.Header
import RpcStubs.Proofs.Model.Fits
import RpcStubs.Proofs.Text.Stripped
namespace RpcStubs.Artifact

/-!
# Imported packages

A file calls a package by the name that its import binds.  A qualified name is one of the package
where no other import binds the qualifier, and nothing else takes it: the language, a function of
the file, or a variable that stands above.  The daemon writes the name of the generated package
among names of its own, so that most accepted names of packages can be called, but not all.
-/

/-- A package that a file imports, under the name that stands for it. -/
structure Import where
  name : String
  path : String
deriving Repr, DecidableEq

/-- A qualified name. -/
structure Qualified where
  qualifier : String
  member : String
deriving Repr, DecidableEq

/-- The import on a line: a path in quotes, with a name in front or named by its last element. -/
def importIn? (line : List Char) : Option Import :=
  match Text.cutFirst '\x22' line with
  | none => none
  | some (front, quoted) =>
      match Text.cutLast '\x22' quoted with
      | none => none
      | some (path, _) =>
          match Text.trim front with
          | [] => some ⟨String.ofList (Text.afterLast '/' path), String.ofList path⟩
          | name => some ⟨String.ofList name, String.ofList path⟩

/-- The lines of the import block of a file, and the lines below. -/
def importBlock (lines : List (List Char)) : List (List Char) × List (List Char) :=
  ((lines.dropWhile (· ≠ "import (".toList)).drop 1).span (· ≠ ")".toList)

/-- The imports of a file. -/
def imports (lines : List (List Char)) : List Import :=
  (importBlock lines).1.filterMap importIn?

/-- The function that a line opens. -/
def functionIn? (line : List Char) : Option String :=
  if "func ".toList.isPrefixOf line then
    (Text.cutFirst '(' (line.drop 5)).map fun (name, _) => String.ofList name
  else
    none

/-- The variable that a line declares, for the lines below. -/
def variableIn? (line : List Char) : Option String :=
  match Text.cutFirst ':' line with
  | some (front, '=' :: _) => some (String.ofList (Text.trim front))
  | _ => none

/-- A character of a name, or the dot of a qualified name. -/
def isWritten (character : Char) : Bool :=
  character.isAlphanum || character == '_' || character == '.'

/-- The qualified names on a line. -/
def qualifiedIn (line : List Char) : List Qualified :=
  (Text.pieces (!isWritten ·) line).filterMap fun word =>
    (Text.cutFirst '.' word).map fun (qualifier, member) =>
      ⟨String.ofList qualifier, String.ofList member⟩

/-- The only import of a name, unless the name is taken. -/
def importOf? (imports : List Import) (taken : List String) (name : String) : Option Import :=
  if name ∈ taken then
    none
  else
    match imports.filter (·.name = name) with
    | [only] => some only
    | _ => none

/-- The qualified names on some lines, each with the import that its qualifier stands for. -/
def usesFrom (imports : List Import) (taken : List String) :
    List (List Char) → List (Qualified × Option Import)
  | [] => []
  | line :: rest =>
      (qualifiedIn line).map (fun name => (name, importOf? imports taken name.qualifier)) ++
        usesFrom imports ((variableIn? line).toList ++ taken) rest

/--
The qualified names below the imports of a file, each with the import that its qualifier stands for.

The blank name binds nothing, and that of initialisers is not referred to.
-/
def uses (lines : List (List Char)) : List (Qualified × Option Import) :=
  usesFrom (imports lines) (["_", "init"] ++ lines.filterMap functionIn?) (importBlock lines).2

/-- Whether a qualified name is that of a constructor of the generated package. -/
def isConstructor (name : Qualified) : Bool :=
  ["NewHandler", "NewService"].contains name.member

/-- The uses of constructors in an artifact. -/
def constructorUses (artifact : Artifact) (model : Model) : List (Qualified × Option Import) :=
  (uses (artifact.texts model)).filter fun (name, _) => isConstructor name

/-- The last import stands for its name where nothing else takes or binds the name. -/
theorem importOf?_append_singleton
    {others : List Import}
    {last : Import}
    {taken : List String} :
    importOf? (others ++ [last]) taken last.name = some last ↔
      last.name ∉ taken ∧ last.name ∉ others.map Import.name := by
  have bound : (others ++ [last]).filter (·.name = last.name) =
      others.filter (·.name = last.name) ++ [last] := by
    simp
  have noOther : others.filter (·.name = last.name) = [] ↔
      last.name ∉ others.map Import.name := by
    simp [List.filter_eq_nil_iff]
  rw [importOf?, bound, ← noOther]
  by_cases isTaken : last.name ∈ taken
  · simp [isTaken]
  · rw [if_neg isTaken]
    cases others.filter (·.name = last.name) with
    | nil =>
        simp [isTaken]
    | cons other rest =>
        cases rest <;> simp

/-! Names on lines. -/

theorem qualifiedIn_append
    {mark : Char}
    (notWritten : isWritten mark = false)
    (before after : List Char) :
    qualifiedIn (before ++ mark :: after) = qualifiedIn before ++ qualifiedIn after := by
  have marks : (!isWritten mark) = true := by
    simp [notWritten]
  simp [qualifiedIn, Text.pieces_append (!isWritten ·) marks]

/-- A word without a dot is no qualified name. -/
theorem qualifiedIn_word
    {word : List Char}
    (alphanum : ∀ character ∈ word, character.isAlphanum = true) :
    qualifiedIn word = [] := by
  have oneWord : ∀ character ∈ word, (!isWritten character) = false := by
    intro character member
    simp [isWritten, alphanum character member]
  have noDot : Text.cutFirst '.' word = none := by
    cases cut : Text.cutFirst '.' word with
    | none =>
        rfl
    | some parts =>
        have dotted : '.' ∈ word := by
          simp [Text.eq_of_cutFirst_eq_some cut]
        cases alphanum '.' dotted
  simp [qualifiedIn, Text.pieces_of_free oneWord, noDot]

section

variable {name : List Char}
  (isName : ∀ character ∈ name, character.isAlphanum = true ∨ character = '_')

include isName

theorem isWritten_of_isName :
    ∀ character ∈ name, isWritten character = true := by
  intro character member
  rcases isName character member with alphanum | rfl
  · simp [isWritten, alphanum]
  · rfl

theorem not_mem_of_isName
    {mark : Char}
    (noLetter : mark.isAlphanum = false)
    (noUnderscore : mark ≠ '_') :
    mark ∉ name := by
  intro member
  rcases isName mark member with alphanum | isUnderscore
  · exact Bool.false_ne_true (noLetter.symm.trans alphanum)
  · exact noUnderscore isUnderscore

theorem isBare_of_isName :
    Text.IsBare Text.isBlank name := by
  have solid : ∀ character ∈ name, Text.isBlank character = false := by
    intro character member
    rcases isName character member with alphanum | rfl
    · exact Text.of_ascii
        (fun character => character.isAlphanum = true → Text.isBlank character = false)
        (by decide) (Text.toNat_lt_of_isAlphanum alphanum) alphanum
    · rfl
  exact ⟨fun first isFirst => solid first (List.mem_of_mem_head? isFirst),
    fun last isLast => solid last (List.mem_of_mem_getLast? isLast)⟩

/-- A name in front of a call is qualified with the member that is called. -/
theorem qualifiedIn_call
    {member : List Char}
    (written : member.all isWritten = true)
    (rest : List Char) :
    qualifiedIn (name ++ '.' :: (member ++ '(' :: rest)) =
      ⟨String.ofList name, String.ofList member⟩ :: qualifiedIn rest := by
  have shape : name ++ '.' :: (member ++ '(' :: rest) = name ++ '.' :: member ++ '(' :: rest := by
    simp
  have oneWord : ∀ character ∈ name ++ '.' :: member, (!isWritten character) = false := by
    intro character inWord
    rw [Bool.not_eq_false']
    rcases List.mem_append.mp inWord with inName | later
    · exact isWritten_of_isName isName character inName
    · rcases List.mem_cons.mp later with rfl | inMember
      · rfl
      · exact List.all_eq_true.mp written character inMember
  have noDot : '.' ∉ name := not_mem_of_isName isName (by decide) (by decide)
  have cut := Text.cutFirst_append noDot member
  rw [shape, qualifiedIn_append (by decide), qualifiedIn, Text.pieces_of_free oneWord]
  simp [cut]

/-- A name in front of a path in quotes is that of the import. -/
theorem importIn?_named
    (nonempty : name ≠ [])
    (path : List Char) :
    importIn? ('\t' :: (name ++ ' ' :: '\x22' :: (path ++ ['\x22']))) =
      some ⟨String.ofList name, String.ofList path⟩ := by
  have shape : '\t' :: (name ++ ' ' :: '\x22' :: (path ++ ['\x22'])) =
      (['\t'] ++ (name ++ [' '])) ++ '\x22' :: (path ++ ['\x22']) := by
    simp
  have notInName : '\x22' ∉ name := not_mem_of_isName isName (by decide) (by decide)
  have noQuote : '\x22' ∉ ['\t'] ++ (name ++ [' ']) := by
    simp [notInName]
  have trimmed : Text.trim (['\t'] ++ (name ++ [' '])) = name := by
    rw [Text.trim_eq_stripped]
    exact Text.stripped_append (List.forall_mem_singleton.mpr rfl) (isBare_of_isName isName)
      (List.forall_mem_singleton.mpr rfl)
  rw [shape, importIn?, Text.cutFirst_append noQuote]
  simp only [Text.cutLast_append path List.not_mem_nil, trimmed]

end

/-! Uses from line to line. -/

theorem usesFrom_append
    (imports : List Import)
    (taken : List String)
    (above below : List (List Char)) :
    usesFrom imports taken (above ++ below) =
      usesFrom imports taken above ++
        usesFrom imports ((above.filterMap variableIn?).reverse ++ taken) below := by
  induction above generalizing taken with
  | nil =>
      rfl
  | cons line rest inductionHypothesis =>
      rw [List.cons_append, usesFrom, usesFrom, inductionHypothesis, List.append_assoc]
      cases declared : variableIn? line <;> simp [declared]

/-- Lines that name no constructor use none. -/
theorem filter_usesFrom_eq_nil
    {lines : List (List Char)}
    (free : ∀ line ∈ lines, ∀ name ∈ qualifiedIn line, isConstructor name = false)
    (imports : List Import)
    (taken : List String) :
    (usesFrom imports taken lines).filter (fun (name, _) => isConstructor name) = [] := by
  induction lines generalizing taken with
  | nil =>
      rfl
  | cons line rest inductionHypothesis =>
      have restFree := inductionHypothesis fun other member =>
        free other (List.mem_cons_of_mem _ member)
      rw [usesFrom, List.filter_append, restFree, List.append_nil, List.filter_map,
        List.filter_eq_nil_iff.mpr, List.map_nil]
      intro name member
      simp [free line List.mem_cons_self name member]

/-! The daemon. -/

/-- The lines of the daemon that import packages of the language. -/
def libraryLines : List Line := [
  fixed "\t\"flag\"",
  fixed "\t\"log\"",
  fixed "\t\"net/http\"",
  fixed ""]

/-- The line that imports the generated package. -/
def packageLine (model : Model) : Line :=
  [.text "\t", .text model.package, .text " \"", .text model.packageImport, .text "\""]

/-- The lines of the daemon above the call of the generated package. -/
def linesAbove : List Line := [
  fixed ")",
  fixed "",
  fixed "func main() \x7b",
  fixed "\taddr := flag.String(\"addr\", \":8080\", \"listen address\")",
  fixed "\tflag.Parse()",
  fixed ""]

/-- The line that calls the generated package. -/
def handlerLine (model : Model) : Line :=
  [.text "\thandler := ", .text model.package, .text ".NewHandler(", .text model.package,
    .text ".NewService())"]

/-- The line that tells how many calls are served. -/
def servingLine (model : Model) : Line :=
  [.text "\tlog.Printf(\"serving ", .text (toString model.operations.length),
    .text " RPCs on %s\", *addr)"]

/-- The last lines of the daemon. -/
def linesBelow : List Line := [
  fixed "\tlog.Fatal(http.ListenAndServe(*addr, handler))",
  fixed "\x7d"]

theorem lines_daemon
    (model : Model) :
    Artifact.daemon.lines model =
      [fixed "package main", fixed "", fixed "import ("] ++ libraryLines ++ packageLine model ::
        (linesAbove ++ handlerLine model :: servingLine model :: linesBelow) := rfl

theorem importBlock_daemon
    (model : Model) :
    importBlock (texts .daemon model) =
      (libraryLines.map lineText ++ [lineText (packageLine model)],
        linesAbove.map lineText ++ lineText (handlerLine model) ::
          (servingLine model :: linesBelow).map lineText) := by
  rw [texts, lines_daemon]
  simp only [importBlock, libraryLines, packageLine, linesAbove, handlerLine, servingLine,
    linesBelow, List.cons_append, List.nil_append, List.map_cons, List.map_nil, lineText_fixed,
    lineText_text]
  -- Fixed texts are taken apart into characters first, which are compared one by one.
  repeat rewrite [String.toList_ofList]
  rfl

theorem functions_daemon
    (model : Model) :
    (texts .daemon model).filterMap functionIn? = ["main"] := by
  rw [texts, lines_daemon]
  simp only [libraryLines, packageLine, linesAbove, handlerLine, servingLine, linesBelow,
    List.cons_append, List.nil_append, List.map_cons, List.map_nil, lineText_fixed, lineText_text]
  repeat rewrite [String.toList_ofList]
  rfl

theorem imports_library :
    (libraryLines.map lineText).filterMap importIn? =
      [⟨"flag", "flag"⟩, ⟨"log", "log"⟩, ⟨"http", "net/http"⟩] := by
  simp only [libraryLines, List.map_cons, List.map_nil, lineText_fixed]
  repeat rewrite [String.toList_ofList]
  rfl

theorem variables_above :
    (linesAbove.map lineText).filterMap variableIn? = ["addr"] := by
  simp only [linesAbove, List.map_cons, List.map_nil, lineText_fixed]
  repeat rewrite [String.toList_ofList]
  rfl

/-- Only the line that calls the generated package names constructors. -/
theorem no_constructors :
    ∀ line ∈ linesAbove.map lineText ++ linesBelow.map lineText, ∀ name ∈ qualifiedIn line,
      isConstructor name = false := by
  simp only [linesAbove, linesBelow, List.map_cons, List.map_nil, lineText_fixed]
  repeat rewrite [String.toList_ofList]
  decide

/-- Whatever the number of calls is, the line that tells it uses only the log. -/
theorem qualifiedIn_servingLine
    (model : Model) :
    qualifiedIn (lineText (servingLine model)) = [⟨"log", "Printf"⟩] := by
  have digits : ∀ character ∈ (toString model.operations.length).toList,
      character.isAlphanum = true := fun character member => by
    simp [Char.isAlphanum, Text.isDigit_of_mem_toString member]
  have shape : lineText (servingLine model) =
      "\tlog.Printf(\"serving".toList ++ ' ' :: ((toString model.operations.length).toList ++
        ' ' :: "RPCs on %s\", *addr)".toList) := by
    simp only [servingLine, lineText_text]
    repeat rewrite [String.toList_ofList]
    rfl
  rw [shape, qualifiedIn_append (by decide), qualifiedIn_append (by decide),
    qualifiedIn_word digits]
  repeat rewrite [String.toList_ofList]
  rfl

section

variable {model : Model}
  (accepted : Package.fault? model.package "main" = none)

include accepted

theorem isName_package :
    ∀ character ∈ model.package.toList, character.isAlphanum = true ∨ character = '_' :=
  Package.isAlphanum_or_eq_underscore (Package.fault?_eq_none_iff.mp accepted).1

theorem package_ne_nil :
    model.package.toList ≠ [] := by
  intro isEmpty
  have bare := (Package.fault?_eq_none_iff.mp accepted).1
  rw [isEmpty] at bare
  cases bare

theorem imports_daemon :
    imports (texts .daemon model) =
      [⟨"flag", "flag"⟩, ⟨"log", "log"⟩, ⟨"http", "net/http"⟩] ++
        [⟨model.package, model.packageImport⟩] := by
  have shape : lineText (packageLine model) =
      '\t' :: (model.package.toList ++ ' ' :: '\x22' ::
        (model.packageImport.toList ++ ['\x22'])) := by
    simp only [packageLine, lineText_text]
    repeat rewrite [String.toList_ofList]
    rfl
  have named := importIn?_named (isName_package accepted) (package_ne_nil accepted)
    model.packageImport.toList
  rw [String.ofList_toList, String.ofList_toList, ← shape] at named
  rw [imports, importBlock_daemon, List.filterMap_append, imports_library]
  simp [named]

theorem qualifiedIn_handlerLine :
    qualifiedIn (lineText (handlerLine model)) =
      [⟨model.package, "NewHandler"⟩, ⟨model.package, "NewService"⟩] := by
  have isName := isName_package accepted
  have shape : lineText (handlerLine model) =
      "\thandler :=".toList ++ ' ' :: (model.package.toList ++ '.' :: ("NewHandler".toList ++
        '(' :: (model.package.toList ++ '.' :: ("NewService".toList ++ '(' :: [')', ')'])))) := by
    simp only [handlerLine, lineText_text]
    repeat rewrite [String.toList_ofList]
    rfl
  rw [shape, qualifiedIn_append (by decide), qualifiedIn_call isName (by decide),
    qualifiedIn_call isName (by decide), String.ofList_toList, String.ofList_toList,
    String.ofList_toList]
  repeat rewrite [String.toList_ofList]
  rfl

/-- The daemon uses both constructors, where only one variable is declared above. -/
theorem constructorUses_daemon :
    constructorUses .daemon model =
      [⟨model.package, "NewHandler"⟩, ⟨model.package, "NewService"⟩].map fun name =>
        (name,
          importOf? (imports (texts .daemon model)) ["addr", "_", "init", "main"]
            model.package) := by
  have noneAbove : ∀ line ∈ linesAbove.map lineText, ∀ name ∈ qualifiedIn line,
      isConstructor name = false := fun line member =>
    no_constructors line (List.mem_append_left _ member)
  have noneBelow : ∀ line ∈ (servingLine model :: linesBelow).map lineText,
      ∀ name ∈ qualifiedIn line, isConstructor name = false := by
    intro line member
    rcases List.mem_cons.mp member with rfl | below
    · rw [qualifiedIn_servingLine]
      decide
    · exact no_constructors line (List.mem_append_right _ below)
  rw [constructorUses, uses, functions_daemon, importBlock_daemon, usesFrom_append,
    List.filter_append, filter_usesFrom_eq_nil noneAbove, variables_above, usesFrom,
    List.filter_append, filter_usesFrom_eq_nil noneBelow, qualifiedIn_handlerLine accepted]
  rfl

end

/--
What the daemon calls the packages that it imports, for any accepted name of the generated package.

The names are distinct and none is blank unless the package has one of four names.  The constructors
are those of the package unless it has one of these, the name that the language keeps for
initialisers, or that of the variable which the daemon declares above.
-/
theorem daemon_calls_package_iff
    {model : Model}
    (accepted : Package.fault? model.package "main" = none) :
    (Artifact.daemon.render model).toList =
        (Artifact.daemon.header model.generatedAt).toList ++
          '\n' :: '\n' :: Source.ended (texts .daemon model) ∧
      (imports (texts .daemon model)).map Import.name = ["flag", "log", "http", model.package] ∧
      (((imports (texts .daemon model)).map Import.name).Nodup ∧
          "_" ∉ (imports (texts .daemon model)).map Import.name ↔
        model.package ∉ ["_", "flag", "log", "http"]) ∧
      (constructorUses .daemon model).map Prod.fst =
        [⟨model.package, "NewHandler"⟩, ⟨model.package, "NewService"⟩] ∧
      ((∀ use ∈ constructorUses .daemon model,
          use.2 = some ⟨model.package, model.packageImport⟩) ↔
        model.package ∉ ["_", "init", "flag", "log", "http", "addr"]) := by
  have notReserved : model.package ≠ "main" := (Package.fault?_eq_none_iff.mp accepted).2.1
  rw [constructorUses_daemon accepted, imports_daemon accepted]
  refine ⟨toList_render .daemon model, rfl, ?_, rfl, ?_⟩
  · simp
    grind
  · have refers := @importOf?_append_singleton
      [⟨"flag", "flag"⟩, ⟨"log", "log"⟩, ⟨"http", "net/http"⟩]
      ⟨model.package, model.packageImport⟩ ["addr", "_", "init", "main"]
    have both (found : Option Import) :
        (∀ use ∈ [⟨model.package, "NewHandler"⟩, ⟨model.package, "NewService"⟩].map
            fun name : Qualified => (name, found),
          use.2 = some ⟨model.package, model.packageImport⟩) ↔
          found = some ⟨model.package, model.packageImport⟩ := by
      simp
    rw [both, refers]
    simp only [List.map_cons, List.map_nil, List.mem_cons, List.not_mem_nil, or_false]
    grind

/-- A model of a package without operations. -/
def packageModel (package : String) : Model :=
  { sampleModel [] with
    package := package
    packageImport := "example.com/acme/" ++ package }

/-- A name may start with an underscore. -/
theorem internal_calls_package :
    Package.fault? "_internal" "main" = none ∧
      ((imports (texts .daemon (packageModel "_internal"))).map Import.name).Nodup ∧
      ∀ use ∈ constructorUses .daemon (packageModel "_internal"),
        use.2 = some ⟨"_internal", "example.com/acme/_internal"⟩ := by
  have accepted : Package.fault? "_internal" "main" = none := by
    decide
  obtain ⟨_, _, distinct, _, refers⟩ :=
    @daemon_calls_package_iff (packageModel "_internal") accepted
  exact ⟨accepted, (distinct.mpr (by decide)).1, refers.mpr (by decide)⟩

/-- Names are accepted that are bound twice in the daemon, that bind nothing, or that it shadows. -/
theorem taken_names_accepted :
    (Package.fault? "log" "main" = none ∧
      ¬((imports (texts .daemon (packageModel "log"))).map Import.name).Nodup) ∧
    (Package.fault? "_" "main" = none ∧
      "_" ∈ (imports (texts .daemon (packageModel "_"))).map Import.name) ∧
    Package.fault? "addr" "main" = none ∧
      constructorUses .daemon (packageModel "addr") =
        [(⟨"addr", "NewHandler"⟩, none), (⟨"addr", "NewService"⟩, none)] := by
  have log : Package.fault? "log" "main" = none := by
    decide
  have blank : Package.fault? "_" "main" = none := by
    decide
  have shadowed : Package.fault? "addr" "main" = none := by
    decide
  rw [@imports_daemon (packageModel "log") log, @imports_daemon (packageModel "_") blank,
    @constructorUses_daemon (packageModel "addr") shadowed,
    @imports_daemon (packageModel "addr") shadowed]
  exact ⟨⟨log, by decide⟩, ⟨blank, by decide⟩, shadowed, by decide⟩

end RpcStubs.Artifact
