import RpcStubs.Proofs.Files.Upward
import RpcStubs.Proofs.Run.Prefix
namespace RpcStubs

open Files Files.Path Files.Tree

/-!
# Spellings of the output directory

The output directory of a request may be spelled in many ways.  The directory and its module
are found through the canonical path, but settings are searched for along the path as it is
spelled.  Where that search finds the same settings, a request comes to the same with the
canonical path in place of the path as spelled; where settings lie further up than the spelled
path reaches, it need not.
-/

variable {tree : Tree} {request : Request} {output : String}

namespace Request

/-- The path of the output directory, as far as a request says it without settings. -/
def outputPath (request : Request) : String :=
  request.choices.output.getD request.fallbacks.output

/-- A request with another path in place of that of its output directory. -/
def withOutput (request : Request) (output : String) : Request :=
  { request with
    choices := { request.choices with output := request.choices.output.map fun _ => output }
    fallbacks := { request.fallbacks with
      output := if request.choices.output.isSome then request.fallbacks.output else output } }

/-- Two requests come to the same configuration, report and tree, or both to nothing. -/
structure Agrees (first second : Request) (tree : Tree) : Prop where
  configuration :
    (first.configure (m := ReaderM Tree) tree).toOption =
      (second.configure (m := ReaderM Tree) tree).toOption
  report : ∀ writer formatter,
    (tree.generate writer formatter first).1.toOption =
      (tree.generate writer formatter second).1.toOption
  after : ∀ writer formatter,
    (tree.generate writer formatter first).2 = (tree.generate writer formatter second).2

theorem prepare_of_configure_error
    {failure : Failure}
    (formatter : Source.Formatter)
    (failed : request.configure (m := ReaderM Tree) tree = .error failure) :
    request.prepare (m := ReaderM Tree) formatter tree = .error (.failed failure) := by
  rw [prepare, bind_reading, failed]
  rfl

/-- Requests for one document agree when they come to one configuration. -/
theorem Agrees.of_configure
    {first second : Request}
    (sameSpec : first.spec = second.spec)
    (sameChecks : first.skipsValidation = second.skipsValidation)
    (sameTime : first.time = second.time)
    (configured :
      (first.configure (m := ReaderM Tree) tree).toOption =
        (second.configure (m := ReaderM Tree) tree).toOption) :
    first.Agrees second tree := by
  -- Past the configuration, nothing looks at the choices and fallbacks.
  have loads :
      first.loadDocument (m := ReaderM Tree) = second.loadDocument (m := ReaderM Tree) := by
    unfold loadDocument
    rw [sameSpec, sameChecks]
  have carried (request : Request) (writer : Writer (StateM Tree)) (formatter : Source.Formatter) :
      tree.generate writer formatter request =
        carryOut (m := StateM Tree) writer
          (request.prepare (m := ReaderM Tree) formatter tree) tree := rfl
  cases firstConfigured : first.configure (m := ReaderM Tree) tree with
  | error failure =>
      cases secondConfigured : second.configure (m := ReaderM Tree) tree with
      | error other =>
          refine ⟨configured, fun writer formatter => ?_, fun writer formatter => ?_⟩
          · rw [carried, carried, prepare_of_configure_error formatter firstConfigured,
              prepare_of_configure_error formatter secondConfigured]
            rfl
          · rw [carried, carried, prepare_of_configure_error formatter firstConfigured,
              prepare_of_configure_error formatter secondConfigured]
            rfl
      | ok configuration =>
          rw [firstConfigured, secondConfigured] at configured
          cases configured
  | ok configuration =>
      have secondConfigured :
          second.configure (m := ReaderM Tree) tree = .ok configuration := by
        rw [firstConfigured] at configured
        cases found : second.configure (m := ReaderM Tree) tree with
        | error other =>
            rw [found] at configured
            cases configured
        | ok other =>
            rw [found] at configured
            rw [Option.some.inj configured]
      have prepared (formatter : Source.Formatter) :
          first.prepare (m := ReaderM Tree) formatter tree =
            second.prepare (m := ReaderM Tree) formatter tree := by
        rw [prepare, prepare, bind_reading, bind_reading, firstConfigured, secondConfigured]
        simp only [loads, sameTime]
      refine ⟨configured, fun writer formatter => ?_, fun writer formatter => ?_⟩
      · rw [carried, carried, prepared]
      · rw [carried, carried, prepared]

end Request

namespace Configuration

/-- What paths name alike is found alike as an output directory. -/
theorem findOutput_congr
    {first second : String}
    (kept : tree.workplace.lost = 0)
    (same : tree.look first = tree.look second) :
    (findOutput (m := ReaderM Tree) first tree).toOption =
      (findOutput (m := ReaderM Tree) second tree).toOption := by
  have canonical :
      tree.canonical first = tree.canonical second := by
    rw [Tree.canonical, Tree.canonical, kept, same]
    simp
  have isDirectory : tree.isDirectory first = tree.isDirectory second := by
    rw [Tree.isDirectory, Tree.isDirectory, same]
  simp only [findOutput, bind_reading]
  have reads (path : String) :
      Reads.isDirectory (m := ReaderM Tree) path tree = tree.isDirectory path := rfl
  have shows (path : String) :
      Reads.canonical (m := ReaderM Tree) path tree = tree.canonical path := rfl
  rw [reads, reads, isDirectory]
  split
  · rw [bind_reading, bind_reading, shows, shows, canonical]
    cases tree.canonical second <;> rfl
  · rfl

/-- A directory and its canonical path are found alike. -/
theorem findOutput_canonical
    {path : String}
    (sound : tree.IsSound)
    (isDirectory : tree.isDirectory path = true)
    (canonical : tree.canonical path = .ok output) :
    findOutput (m := ReaderM Tree) path tree =
      findOutput (m := ReaderM Tree) output tree := by
  have finds {path : String} (isDirectory : tree.isDirectory path = true)
      (canonical : tree.canonical path = .ok output) :
      findOutput (m := ReaderM Tree) path tree = .ok output := by
    have present : Reads.isDirectory (m := ReaderM Tree) path tree = true := isDirectory
    have shown : Reads.canonical (m := ReaderM Tree) path tree = .ok output := canonical
    rw [findOutput, bind_reading, if_pos present, bind_reading, shown]
    rfl
  obtain ⟨straight, same, stands, _⟩ := sound.canonical_directory isDirectory canonical
  have outputLook := sound.look_directory straight stands
  rw [finds isDirectory canonical,
    finds (by rw [Tree.isDirectory, outputLook])
      (sound.canonical_of_straight straight same stands)]

/-- A configuration depends on the spelling of the output directory only through what is found. -/
theorem resolve_congr
    (choices : Choices)
    (fallbacks : Fallbacks)
    {spelled : Option String}
    {fallback : String}
    (same :
      (findOutput (m := ReaderM Tree) (choices.output.getD fallbacks.output) tree).toOption =
        (findOutput (m := ReaderM Tree) (spelled.getD fallback) tree).toOption) :
    (resolve (m := ReaderM Tree) choices fallbacks tree).toOption =
      (resolve (m := ReaderM Tree) { choices with output := spelled }
        { fallbacks with output := fallback } tree).toOption := by
  simp only [resolve]
  cases Package.fault? (choices.package.getD fallbacks.package) fallbacks.reservedPackage with
  | some fault =>
      rfl
  | none =>
      simp only [bind_reading]
      cases found : findOutput (m := ReaderM Tree) (choices.output.getD fallbacks.output) tree with
      | error fault =>
          rw [found] at same
          cases otherFound : findOutput (m := ReaderM Tree) (spelled.getD fallback) tree with
          | error other =>
              rfl
          | ok other =>
              rw [otherFound] at same
              cases same
      | ok shown =>
          rw [found] at same
          cases otherFound : findOutput (m := ReaderM Tree) (spelled.getD fallback) tree with
          | error other =>
              rw [otherFound] at same
              cases same
          | ok other =>
              rw [otherFound] at same
              cases same
              rfl

end Configuration

namespace Settings

/-- The settings in the file that a path names, as they are written there. -/
def written? (tree : Tree) (path : String) : Option Settings :=
  (readText (m := ReaderM Tree) path tree).toOption.bind ofText?

theorem written?_congr
    {first second : String}
    (same : tree.look first = tree.look second) :
    written? tree first = written? tree second := by
  have read :
      Reads.read (m := ReaderM Tree) first tree = Reads.read (m := ReaderM Tree) second tree := by
    change tree.read first = tree.read second
    rw [Tree.read, Tree.read, same]
  rw [written?, written?, readText, readText, bind_reading, bind_reading, read]

/-- Two searches for settings find one file, or both find none. -/
def FoundAlike (tree : Tree) (first second : String) : Prop :=
  (findUpward (m := ReaderM Tree) first fileName tree).map tree.look =
    (findUpward (m := ReaderM Tree) second fileName tree).map tree.look

/-- Settings are loaded as they are written, seen from where their file is. -/
theorem load_toOption
    (path : String) :
    (load (m := ReaderM Tree) path tree).toOption = (written? tree path).map (placed path) := by
  rw [load, bind_reading, written?]
  cases readText (m := ReaderM Tree) path tree with
  | error cause =>
      rfl
  | ok text =>
      simp only [Except.toOption, Option.bind_some]
      cases ofText? text <;> rfl

end Settings

namespace Request

/-- Without a settings file of its own, a request takes the one that is found upward. -/
theorem findSettings_eq
    (implicit : request.settings = none)
    (isDirectory : tree.isDirectory request.outputPath = true) :
    (request.findSettings (m := ReaderM Tree) tree).toOption =
      match findUpward (m := ReaderM Tree) request.outputPath Settings.fileName tree with
      | none => some {}
      | some path => (Settings.written? tree path).map (Settings.placed path) := by
  have present :
      Reads.isDirectory (m := ReaderM Tree)
        (request.choices.output.getD request.fallbacks.output) tree = true := isDirectory
  rw [findSettings, implicit]
  simp only [bind_reading]
  rw [if_pos present, bind_reading, Settings.discover, bind_reading]
  rw [outputPath]
  cases findUpward (m := ReaderM Tree) (request.choices.output.getD request.fallbacks.output)
    Settings.fileName tree with
  | none =>
      rfl
  | some path =>
      simp only [bind_reading, ← Settings.load_toOption]
      cases Settings.load (m := ReaderM Tree) path tree <;> rfl

/-- A request is configured from the settings that are found for it. -/
theorem configure_toOption
    (request : Request)
    (tree : Tree) :
    (request.configure (m := ReaderM Tree) tree).toOption =
      (request.findSettings (m := ReaderM Tree) tree).toOption.bind fun settings =>
        (Configuration.resolve (m := ReaderM Tree) (request.choices.orElse settings)
          request.fallbacks tree).toOption := by
  rw [configure, bind_reading]
  cases findSettings (m := ReaderM Tree) request tree <;> rfl

/-- Without a settings file of its own, it is configured from the one that is found upward. -/
theorem configure_eq
    (implicit : request.settings = none)
    (isDirectory : tree.isDirectory request.outputPath = true) :
    (request.configure (m := ReaderM Tree) tree).toOption =
      match findUpward (m := ReaderM Tree) request.outputPath Settings.fileName tree with
      | none =>
          (Configuration.resolve (m := ReaderM Tree) (request.choices.orElse {})
            request.fallbacks tree).toOption
      | some path =>
          (Settings.written? tree path).bind fun settings =>
            (Configuration.resolve (m := ReaderM Tree)
              (request.choices.orElse (settings.placed path)) request.fallbacks tree).toOption := by
  rw [configure_toOption, findSettings_eq implicit isDirectory]
  cases findUpward (m := ReaderM Tree) request.outputPath Settings.fileName tree with
  | none =>
      rfl
  | some path =>
      exact Option.bind_map

theorem outputPath_withOutput
    (request : Request)
    (output : String) :
    (request.withOutput output).outputPath = output := by
  rw [outputPath, withOutput]
  cases request.choices.output <;> rfl

/-- What settings name as output directory counts only for a request that leaves it open. -/
theorem findOutput_withOutput
    {typed found : Option String}
    (alike :
      (Configuration.findOutput (m := ReaderM Tree) request.outputPath tree).toOption =
        (Configuration.findOutput (m := ReaderM Tree) output tree).toOption)
    (named :
      request.choices.output = none →
        (Configuration.findOutput (m := ReaderM Tree)
          (typed.getD request.fallbacks.output) tree).toOption =
          (Configuration.findOutput (m := ReaderM Tree) (found.getD output) tree).toOption) :
    (Configuration.findOutput (m := ReaderM Tree)
      ((request.choices.output <|> typed).getD request.fallbacks.output) tree).toOption =
      (Configuration.findOutput (m := ReaderM Tree)
        (((request.withOutput output).choices.output <|> found).getD
          (request.withOutput output).fallbacks.output) tree).toOption := by
  cases given : request.choices.output with
  | none =>
      have unchanged : (request.withOutput output).choices.output = none := by
        rw [withOutput, given]
        rfl
      have replaced : (request.withOutput output).fallbacks.output = output := by
        rw [withOutput, given]
        rfl
      rw [unchanged, replaced]
      exact named given
  | some spelled =>
      have replaced : (request.withOutput output).choices.output = some output := by
        rw [withOutput, given]
        rfl
      rw [outputPath, given] at alike
      rw [replaced]
      exact alike

/-- With settings that differ only in an output directory found alike, it resolves to the same. -/
theorem resolve_withOutput
    {first second : Settings}
    (differ : second = { first with output := second.output })
    (same :
      (Configuration.findOutput (m := ReaderM Tree)
        ((request.choices.output <|> first.output).getD request.fallbacks.output)
          tree).toOption =
        (Configuration.findOutput (m := ReaderM Tree)
          (((request.withOutput output).choices.output <|> second.output).getD
            (request.withOutput output).fallbacks.output) tree).toOption) :
    (Configuration.resolve (m := ReaderM Tree) (request.choices.orElse first)
        request.fallbacks tree).toOption =
      (Configuration.resolve (m := ReaderM Tree)
        ((request.withOutput output).choices.orElse second)
        (request.withOutput output).fallbacks tree).toOption := by
  have choices :
      (request.withOutput output).choices.orElse second =
        { request.choices.orElse first with
          output := (request.withOutput output).choices.output <|> second.output } := by
    rw [differ]
    rfl
  rw [choices]
  exact Configuration.resolve_congr (request.choices.orElse first) request.fallbacks same

/--
A request is configured alike where the same settings are found, and where these name the
output directory alike if the request leaves it open.
-/
theorem configure_withOutput_of_placed
    (sound : tree.IsSound)
    (implicit : request.settings = none)
    (isDirectory : tree.isDirectory request.outputPath = true)
    (canonical : tree.canonical request.outputPath = .ok output)
    (alike : Settings.FoundAlike tree request.outputPath output)
    (placed :
      request.choices.output = none →
        ∀ path other,
          findUpward (m := ReaderM Tree) request.outputPath Settings.fileName tree = some path →
            findUpward (m := ReaderM Tree) output Settings.fileName tree = some other →
              ∀ named,
                (Configuration.findOutput (m := ReaderM Tree)
                    (join ((parent? path).getD "") named) tree).toOption =
                  (Configuration.findOutput (m := ReaderM Tree)
                    (join ((parent? other).getD "") named) tree).toOption) :
    (request.configure (m := ReaderM Tree) tree).toOption =
      ((request.withOutput output).configure (m := ReaderM Tree) tree).toOption := by
  obtain ⟨straight, _, stands, _⟩ := sound.canonical_directory isDirectory canonical
  have outputDirectory : tree.isDirectory output = true := by
    rw [Tree.isDirectory, sound.look_directory straight stands]
  have foundAlike := congrArg Except.toOption
    (Configuration.findOutput_canonical sound isDirectory canonical)
  rw [configure_eq implicit isDirectory,
    configure_eq (show (request.withOutput output).settings = none from implicit)
      (by rw [outputPath_withOutput, outputDirectory]), outputPath_withOutput]
  unfold Settings.FoundAlike at alike
  cases typed : findUpward (m := ReaderM Tree) request.outputPath Settings.fileName tree with
  | none =>
      cases found : findUpward (m := ReaderM Tree) output Settings.fileName tree with
      | some other =>
          rw [typed, found] at alike
          cases alike
      | none =>
          refine resolve_withOutput rfl (findOutput_withOutput foundAlike ?_)
          intro isOpen
          rwa [outputPath, isOpen] at foundAlike
  | some path =>
      cases found : findUpward (m := ReaderM Tree) output Settings.fileName tree with
      | none =>
          rw [typed, found] at alike
          cases alike
      | some other =>
          rw [typed, found] at alike
          simp only [← Settings.written?_congr (Option.some.inj alike)]
          cases Settings.written? tree path with
          | none =>
              rw [Option.bind_none, Option.bind_none]
          | some settings =>
              refine resolve_withOutput rfl (findOutput_withOutput foundAlike ?_)
              intro isOpen
              cases names : settings.output with
              | none =>
                  rw [outputPath, isOpen] at foundAlike
                  rwa [Settings.placed, Settings.placed, names]
              | some named =>
                  rw [Settings.placed, Settings.placed, names]
                  exact placed isOpen path other typed found named

/-- Settings name a directory alike from the working directory and from its canonical path. -/
theorem findOutput_placed_here
    (sound : tree.IsSound)
    (canonical : tree.canonical "." = .ok output)
    {path other : String}
    (typed : findUpward (m := ReaderM Tree) "." Settings.fileName tree = some path)
    (found : findUpward (m := ReaderM Tree) output Settings.fileName tree = some other)
    (named : String) :
    (Configuration.findOutput (m := ReaderM Tree)
        (join ((parent? path).getD "") named) tree).toOption =
      (Configuration.findOutput (m := ReaderM Tree)
        (join ((parent? other).getD "") named) tree).toOption := by
  have kept : tree.workplace.lost = 0 := kept_of_canonical canonical
  have here : tree.entry? tree.workplace.names = some .directory := sound.anchored kept
  have leads : (tree.start ".").names ++ names "." = tree.workplace.names :=
    List.append_nil _
  obtain ⟨straight, shownNames⟩ :=
    sound.canonical_of_leads (by decide) (by decide) (by rw [leads, here]) canonical
  rw [leads] at shownNames
  -- Below the dot and below every straight path to the same directory, paths name the same.
  have sameBelow {base : String} (baseStraight : IsStraight base)
      (sameNames : names base = names output) {path : String}
      (nonempty : path ≠ "" ∨ base ≠ "") :
      tree.look (join "." path) = tree.look (join base path) := by
    have fromTop : tree.start base = { names := [] } := start_of_straight baseStraight
    rw [sound.look_join_congr (show ".." ∉ piecesOf "." by decide) kept leads here
        (.inl (by decide)),
      sound.look_join_congr baseStraight.noUp (by rw [fromTop])
        (by rw [fromTop, List.nil_append, sameNames, shownNames]) here nonempty.symm]
  obtain ⟨rfl, held⟩ := sound.findUpward_here (by decide) kept typed
  rw [isFile_congr (sameBelow straight rfl (.inr straight.ne_empty))] at held
  rw [findUpward_of_isFile held] at found
  rw [← Option.some.inj found]
  obtain ⟨parent, isParent, sameStart, noUp, parentNames⟩ :=
    exists_parent_of_join straight.ne_empty straight.noUp
      (show IsName Settings.fileName by decide)
  have parentStraight : IsStraight parent := ⟨sameStart.trans straight.absolute, noUp⟩
  have hereParent : parent? (join "." Settings.fileName) = some "." := by decide
  rw [isParent, hereParent]
  exact Configuration.findOutput_congr kept
    (sameBelow parentStraight parentNames (.inr parentStraight.ne_empty))

end Request

/--
A request comes to the same for every spelling of its output directory from which the settings
are found that are found from the canonical path.

From the canonical path these are the settings of the nearest directory that holds some.  A
spelling that leads along names to the directory finds the same ones exactly when some are held
between the output directory and the directory where the spelling starts, or none are held
further up.  In a plain tree every spelling without `..` leads along names.
-/
theorem generate_output_spelling
    (sound : tree.IsSound)
    (implicit : request.settings = none)
    (fallback : request.choices.output = none → request.fallbacks.output = ".")
    (isDirectory : tree.isDirectory request.outputPath = true)
    (canonical : tree.canonical request.outputPath = .ok output) :
    (findUpward (m := ReaderM Tree) output Settings.fileName tree).map tree.look =
        (nearest? (tree.holdsFile Settings.fileName) (names output).reverse).map
          (fun directory => tree.look (join (pathOf directory) Settings.fileName)) ∧
      (Settings.FoundAlike tree request.outputPath output →
        request.Agrees (request.withOutput output) tree) ∧
      (".." ∉ piecesOf request.outputPath →
        tree.entry? ((tree.start request.outputPath).names ++ names request.outputPath) =
            some .directory →
          (Settings.FoundAlike tree request.outputPath output ↔
            (∃ below, below <+: names request.outputPath ∧
              tree.holdsFile Settings.fileName
                ((tree.start request.outputPath).names ++ below) = true) ∨
              ∀ upper, Above upper (tree.start request.outputPath).names →
                tree.holdsFile Settings.fileName upper = false)) := by
  have named : Settings.fileName ≠ "" := by decide
  obtain ⟨straight, _, stands, _⟩ := sound.canonical_directory isDirectory canonical
  have fromTop : tree.start output = { names := [] } := start_of_straight straight
  refine ⟨?_, fun alike => ?_, fun noUp leads => ?_⟩
  · have nearest := sound.look_findUpward named straight.ne_empty straight.noUp
      (by rw [fromTop]) (by simpa [fromTop] using stands)
    simpa only [fromTop, List.nil_append] using nearest
  · apply Request.Agrees.of_configure
    · rfl
    · rfl
    · rfl
    · apply Request.configure_withOutput_of_placed sound implicit isDirectory canonical alike
      intro isOpen path other typed found named
      have dotted : request.outputPath = "." := by
        rw [Request.outputPath, isOpen]
        exact fallback isOpen
      rw [dotted] at canonical typed
      exact Request.findOutput_placed_here sound canonical typed found named
  · apply sound.findUpward_canonical_iff named _ noUp leads canonical
    intro empty
    rw [empty] at isDirectory
    cases isDirectory

/-- A tree with settings above the directory `app`, and a place to work in it. -/
def nestedTree (workplace : List String) : Tree where
  entries := Catalog.ofList [
    (["work"], .directory),
    (["work", "go.mod"], .file "module example.com/acme\n".toUTF8),
    (["work", "oasrpc.toml"], .file "[generate]\npackage = \"billing\"\n".toUTF8),
    (["work", "app"], .directory)]
  workplace := { names := workplace }

/-- A request to generate into a directory. -/
def directedRequest (output : String) : Request where
  spec := "api.json"
  choices := { output := some output }
  time := ⟨0, 0⟩

/-- From the directory with the settings, `app` comes to the same as its canonical path. -/
theorem nestedTree_spelled_alike :
    (nestedTree ["work"]).IsPlain ∧
      (nestedTree ["work"]).canonical "app" = .ok "/work/app" ∧
      (directedRequest "app").Agrees (directedRequest "/work/app") (nestedTree ["work"]) ∧
      ((directedRequest "app").configure (m := ReaderM Tree)
        (nestedTree ["work"])).toOption.map (·.package) = some "billing" := by
  have plain : (nestedTree ["work"]).IsPlain :=
    Tree.isPlain_of_entries (by decide) (by decide) (by decide) (by decide)
  have canonical : (nestedTree ["work"]).canonical "app" = .ok "/work/app" := by
    decide +kernel
  have isDirectory : (nestedTree ["work"]).isDirectory "app" = true := by
    decide +kernel
  have held : (nestedTree ["work"]).holdsFile Settings.fileName ["work"] = true := by
    decide +kernel
  obtain ⟨_, agrees, alikeIff⟩ :=
    generate_output_spelling plain.isSound
      (show (directedRequest "app").settings = none from rfl) (by decide) isDirectory canonical
  have leads := plain.leads_of_isDirectory (show ".." ∉ piecesOf "app" by decide) rfl isDirectory
  have alike := (alikeIff (by decide) leads).mpr (.inl ⟨[], List.nil_prefix, held⟩)
  exact ⟨plain, canonical, agrees alike, by decide +kernel⟩

/-- From `app` itself, the settings above it are found only from its canonical path. -/
theorem nestedTree_spelled_apart :
    (nestedTree ["work", "app"]).IsPlain ∧
      (nestedTree ["work", "app"]).canonical "." = .ok "/work/app" ∧
      ((directedRequest ".").configure (m := ReaderM Tree)
        (nestedTree ["work", "app"])).toOption.map (·.package) = some "api" ∧
      ((directedRequest "/work/app").configure (m := ReaderM Tree)
        (nestedTree ["work", "app"])).toOption.map (·.package) = some "billing" ∧
      ¬(directedRequest ".").Agrees (directedRequest "/work/app")
        (nestedTree ["work", "app"]) := by
  have plain : (nestedTree ["work", "app"]).IsPlain :=
    Tree.isPlain_of_entries (by decide) (by decide) (by decide) (by decide)
  have typed :
      ((directedRequest ".").configure (m := ReaderM Tree)
        (nestedTree ["work", "app"])).toOption.map (·.package) = some "api" := by
    decide +kernel
  have shown :
      ((directedRequest "/work/app").configure (m := ReaderM Tree)
        (nestedTree ["work", "app"])).toOption.map (·.package) = some "billing" := by
    decide +kernel
  refine ⟨plain, by decide +kernel, typed, shown, fun agrees => ?_⟩
  rw [agrees.configuration, shown] at typed
  exact absurd typed (by decide)

end RpcStubs
