import RpcStubs.Proofs.Configuration.Geometry
namespace RpcStubs

open Files Files.Path
open Files.Tree (withoutTail)

/-!
# The path of the message file

The path of the message file is read in two ways.  The file lands along its components, so
slashes and dots between them do not count; its import path is continued by the text in front of
the last slash.  Both agree on tidy paths, and on no others: a slash or a dot behind the file
makes the file itself a directory of the import path, and one between directories stays there.
-/

namespace Files.Path

/-- A path leads along directories to a file, with extra slashes in front of the file only. -/
def IsTidy (path : String) : Prop :=
  ∃ directories count file,
    piecesOf path = directories ++ List.replicate count "" ++ [file] ∧
      directories ≠ [] ∧
      (∀ directory ∈ directories, isIdle directory = false) ∧
      isIdle file = false

/-- Pieces that are not idle are their own steps. -/
theorem steps_of_busy
    {pieces : List String}
    (busy : ∀ piece ∈ pieces, isIdle piece = false) :
    steps pieces = pieces := by
  rw [steps, List.filter_eq_self]
  intro piece member
  simp [busy piece member]

theorem steps_replicate_empty
    (count : Nat) :
    steps (List.replicate count "") = [] := by
  simp [steps, isIdle]

/-- A path is tidy when its pieces in front of the last are its directories and empty ones. -/
theorem isTidy_iff
    {path last file : String}
    {front directories : List String}
    (cut : piecesOf path = front ++ [last])
    (named : names path = directories ++ [file]) :
    IsTidy path ↔ directories ≠ [] ∧ withoutTail front = directories := by
  rw [names, cut, steps_append] at named
  constructor
  · rintro ⟨others, count, other, tidy, nonempty, busy, otherBusy⟩
    rw [cut] at tidy
    obtain ⟨rfl, same⟩ := List.append_inj' tidy rfl
    cases same
    rw [steps_append, steps_of_busy busy, steps_replicate_empty, List.append_nil,
      steps_cons_of_not_idle otherBusy, steps_nil] at named
    obtain ⟨rfl, _⟩ := List.append_inj' named rfl
    have solid : others.getLast? ≠ some "" := by
      intro empty
      cases busy "" (List.mem_of_getLast? empty)
    exact ⟨nonempty, Tree.withoutTail_append_replicate solid count⟩
  · rintro ⟨nonempty, kept⟩
    obtain ⟨count, shape⟩ := Tree.exists_withoutTail front
    have busy : ∀ directory ∈ directories, isIdle directory = false := by
      intro directory member
      have step : directory ∈ steps front ++ steps [last] := by
        rw [named]
        exact List.mem_append_left _ member
      rw [← steps_append] at step
      simpa using (List.mem_filter.mp step).2
    -- The directories in front use up all names but one, so the last piece is the file.
    rw [kept] at shape
    rw [shape, steps_append, steps_of_busy busy, steps_replicate_empty, List.append_nil,
      List.append_cancel_left_eq] at named
    have lastBusy : isIdle last = false := by
      cases idle : isIdle last with
      | false =>
          rfl
      | true =>
          rw [steps_cons_of_idle idle] at named
          cases named
    exact ⟨directories, count, last, by rw [cut, shape], nonempty, busy, lastBusy⟩

/-- The first piece of a path along names is one of them. -/
theorem IsInner.exists_first
    {path file : String}
    (inner : IsInner path)
    (named : fileName? path = some file) :
    ∃ first rest, piecesOf path = first :: rest ∧ isIdle first = false := by
  have nonempty : path ≠ "" := by
    rintro rfl
    cases named
  have cut : piecesOf path ≠ [] := by
    rw [piecesOf_relative inner.relative]
    exact Text.segments_ne_nil '/' path
  obtain ⟨first, rest, shape⟩ := List.exists_cons_of_ne_nil cut
  refine ⟨first, rest, shape, ?_⟩
  have notEmpty : first ≠ "" := by
    have notHead := head?_piecesOf nonempty inner.relative
    simpa [shape] using notHead
  have notDot : first ≠ "." := by
    rintro rfl
    have starts := inner.components
    simp only [Path.components, inner.relative, shape, List.head?_cons, Bool.false_eq_true,
      ↓reduceIte] at starts
    have impossible := congrArg List.head? starts
    cases shown : names path with
    | nil =>
        simp [shown] at impossible
    | cons name others =>
        simp [shown] at impossible
  simp [isIdle, notEmpty, notDot]

end Files.Path

namespace Configuration

/-- The pieces of the directory of a message file are those in front of the last piece. -/
theorem exists_last_of_protoDirectory
    {path directory : String}
    (accepted : protoDirectory path = .ok directory) :
    ∃ last, piecesOf path = Text.segments '/' directory ++ [last] := by
  have inner := (protoDirectory_eq_ok accepted).1
  unfold protoDirectory at accepted
  split at accepted
  · cases accepted
  · split at accepted
    · cases accepted
    · split at accepted
      · rename_i first rest after cut
        cases accepted
        obtain ⟨shape, free⟩ := Text.cutLast_eq_some_iff.mp cut
        refine ⟨String.ofList after, ?_⟩
        have whole : path = String.ofList (first :: rest) ++ String.singleton '/' ++
            String.ofList after :=
          String.toList_inj.mp (by simp [shape])
        have uncut : '/' ∉ (String.ofList after).toList := by
          simpa using free
        rw [piecesOf_relative inner.relative, whole, Text.segments_append,
          Text.segments_of_not_mem uncut]
      · cases accepted

/-- The directory of a message file, trimmed, is joined from its pieces without empty ends. -/
theorem trimmed_protoDirectory
    {directory first : String}
    {rest : List String}
    (started : Text.segments '/' directory = first :: rest)
    (busy : isIdle first = false) :
    withoutTail (Text.segments '/' directory) ≠ [] ∧
      ImportPath.trimmed directory =
        Text.join "/" (withoutTail (Text.segments '/' directory)) ∧
      ImportPath.trimmed directory ≠ "" := by
  have free : ∀ piece ∈ Text.segments '/' directory, '/' ∉ piece.toList :=
    fun piece member => Text.not_mem_of_mem_segments member
  obtain ⟨count, shape⟩ := Tree.exists_withoutTail (Text.segments '/' directory)
  have nonempty : withoutTail (Text.segments '/' directory) ≠ [] := by
    intro none
    rw [none, started, List.nil_append] at shape
    have idle := List.eq_of_mem_replicate (shape ▸ List.mem_cons_self)
    subst idle
    cases busy
  obtain ⟨other, others, solid⟩ := List.exists_cons_of_ne_nil nonempty
  have notEmpty : other ≠ "" := by
    rw [solid, started, List.cons_append, List.cons.injEq] at shape
    rw [← shape.1]
    rintro rfl
    cases busy
  have front : (withoutTail (Text.segments '/' directory)).head? ≠ some "" := by
    rw [solid]
    simpa using notEmpty
  have keptFree : ∀ piece ∈ withoutTail (Text.segments '/' directory), '/' ∉ piece.toList :=
    fun piece member => free piece (Tree.subset_withoutTail member)
  have trimmedThere := ImportPath.trimmed_join nonempty keptFree front
    (Tree.getLast?_withoutTail _) count
  rw [← shape, Text.join_segments] at trimmedThere
  refine ⟨nonempty, trimmedThere, ?_⟩
  rw [trimmedThere, solid]
  exact Text.join_ne_empty "/" notEmpty others

/-- The messages are imported from the package, continued by the directories of their file. -/
def ImportsDirectories (configuration : Configuration) : Prop :=
  ∃ directories file,
    components configuration.protoPath = (directories ++ [file]).map .name ∧
      directories ≠ [] ∧
      configuration.protoImport =
        Text.join "/" ([configuration.packageImport].filter (· ≠ "") ++ directories)

/-- Messages that are imported from the text of their directory are so from a tidy path. -/
theorem importsDirectories_iff
    {configuration : Configuration}
    {directory file : String}
    {directories : List String}
    (accepted : protoDirectory configuration.protoPath = .ok directory)
    (packageImport :
      configuration.packageImport =
        ImportPath.join [configuration.modulePath, configuration.outputRelative])
    (protoImport :
      configuration.protoImport =
        ImportPath.join [configuration.modulePath, configuration.outputRelative, directory])
    (named : names configuration.protoPath = directories ++ [file]) :
    configuration.ImportsDirectories ↔ IsTidy configuration.protoPath := by
  have inner := (protoDirectory_eq_ok accepted).1
  have isFile : fileName? configuration.protoPath = some file := by
    rw [inner.fileName?_eq, named, List.getLast?_concat]
  obtain ⟨first, rest, started, busy⟩ := inner.exists_first isFile
  obtain ⟨last, cut⟩ := exists_last_of_protoDirectory accepted
  obtain ⟨others, frontStarted⟩ :
      ∃ others, Text.segments '/' directory = first :: others := by
    obtain ⟨other, others, shape⟩ :=
      List.exists_cons_of_ne_nil (Text.segments_ne_nil '/' directory)
    rw [cut, shape, List.cons_append, List.cons.injEq] at started
    exact ⟨others, started.1 ▸ shape⟩
  obtain ⟨nonempty, trimmedThere, counts⟩ := trimmed_protoDirectory frontStarted busy
  have continued : configuration.protoImport =
      Text.join "/" ([configuration.packageImport].filter (· ≠ "") ++
        [ImportPath.trimmed directory]) := by
    rw [protoImport, packageImport]
    exact ImportPath.join_snoc [configuration.modulePath, configuration.outputRelative] counts
  have sameDirectories :
      configuration.ImportsDirectories ↔
        directories ≠ [] ∧
          configuration.protoImport =
            Text.join "/" ([configuration.packageImport].filter (· ≠ "") ++ directories) := by
    constructor
    · rintro ⟨others, other, otherAlong, imports⟩
      rw [inner.components, named] at otherAlong
      have same := (List.map_inj_right fun _ _ => Component.name.inj).mp otherAlong
      obtain ⟨rfl, _⟩ := List.append_inj' same rfl
      exact imports
    · intro imports
      exact ⟨directories, file, by rw [inner.components, named], imports⟩
  rw [sameDirectories, isTidy_iff cut named]
  refine and_congr_right fun someDirectory => ?_
  rw [continued, Text.join_append_right_inj "/" _ (List.cons_ne_nil _ []) someDirectory,
    trimmedThere]
  have free : ∀ piece ∈ withoutTail (Text.segments '/' directory), '/' ∉ piece.toList :=
    fun piece member => Text.not_mem_of_mem_segments (Tree.subset_withoutTail member)
  have directoriesFree : ∀ piece ∈ directories, '/' ∉ piece.toList := by
    intro piece member
    have step : piece ∈ names configuration.protoPath := by
      rw [named]
      exact List.mem_append_left _ member
    exact noSlash_of_mem_piecesOf (List.mem_filter.mp step).1
  constructor
  · exact Text.join_injective nonempty someDirectory free directoriesFree
  · exact congrArg (Text.join "/")

/--
A resolved path of the message file leads along names to a `.proto` file, which is written there.

It has no directory exactly when only slashes and dots come behind its first name.  Unless the
user chooses otherwise, the messages are imported from the directories of their file exactly
when the path is tidy.
-/
theorem resolve_protoPath
    {tree : Tree}
    (sound : tree.IsSound)
    {choices : Choices}
    {fallbacks : Fallbacks}
    {configuration : Configuration}
    (resolved : resolve (m := ReaderM Tree) choices fallbacks tree = .ok configuration) :
    configuration.protoPath = choices.protoPath.getD fallbacks.protoPath ∧
      (∃ directories file,
        components configuration.protoPath = (directories ++ [file]).map .name ∧
          fileName? configuration.protoPath = some file ∧
          extension? configuration.protoPath = some "proto" ∧
          names (Artifact.proto.target configuration) =
            names configuration.output ++ directories ++ [file] ∧
          (directories = [] ↔
            ∀ piece ∈ (piecesOf configuration.protoPath).tail, isIdle piece = true)) ∧
      (choices.protoImport = none →
        (configuration.ImportsDirectories ↔ IsTidy configuration.protoPath)) := by
  have ready := resolve_isReady sound resolved
  obtain ⟨chosen, packageImport, directory, accepted, protoImport⟩ := resolve_imports resolved
  obtain ⟨file, isFile⟩ : ∃ file, fileName? configuration.protoPath = some file := by
    cases isFile : fileName? configuration.protoPath with
    | some file =>
        exact ⟨file, rfl⟩
    | none =>
        have isProto := ready.isProto
        simp [extension?, isFile] at isProto
  obtain ⟨directories, named⟩ : ∃ directories,
      names configuration.protoPath = directories ++ [file] := by
    rw [ready.protoPath.fileName?_eq, List.getLast?_eq_some_iff] at isFile
    exact isFile
  obtain ⟨first, rest, cut, busy⟩ := ready.protoPath.exists_first isFile
  have along : components configuration.protoPath = (directories ++ [file]).map .name := by
    rw [ready.protoPath.components, named]
  refine ⟨chosen, ⟨directories, file, along, isFile, ready.isProto, ?_, ?_⟩, ?_⟩
  · rw [Artifact.names_target ready, List.append_assoc, ← named]
    rfl
  · rw [names, cut, steps_cons_of_not_idle busy] at named
    rw [cut, List.tail_cons]
    constructor
    · rintro rfl
      have noSteps := (List.cons.inj named).2
      simpa [steps, List.filter_eq_nil_iff] using noSteps
    · intro idle
      have noSteps : steps rest = [] := by
        simpa [steps, List.filter_eq_nil_iff] using idle
      have lengths := congrArg List.length named
      rw [noSteps, List.length_append] at lengths
      exact List.eq_nil_of_length_eq_zero (by simpa using lengths)
  · intro implicit
    rw [implicit, Option.getD_none] at protoImport
    exact importsDirectories_iff accepted packageImport protoImport named

/-- A tree with a module in the directory where one works. -/
def moduleTree : Tree where
  entries := Catalog.ofList [
    (["work"], .directory),
    (["work", "go.mod"], .file "module example.com/acme\n".toUTF8)]
  workplace := { names := ["work"] }

/-- What a path of the message file comes to: its components and the import path. -/
def messagesAt (path : String) : Except Failure (List Component × String) :=
  (resolve (m := ReaderM Tree) { protoPath := some path } {} moduleTree).map
    fun configuration => (components configuration.protoPath, configuration.protoImport)

/-- A path along directories is imported from them, also with two slashes in front of the file. -/
theorem moduleTree_importsDirectories :
    moduleTree.IsSound ∧
      ∃ configuration,
        resolve (m := ReaderM Tree) { protoPath := some "proto/v1//api.proto" } {} moduleTree =
            .ok configuration ∧
          configuration.protoImport = "example.com/acme/proto/v1" ∧
          configuration.ImportsDirectories := by
  have sound : moduleTree.IsSound :=
    Tree.isSound_of_entries (by decide) (by decide) (by decide)
  have shown : messagesAt "proto/v1//api.proto" =
      .ok ([.name "proto", .name "v1", .name "api.proto"], "example.com/acme/proto/v1") := by
    decide +kernel
  have tidy : IsTidy "proto/v1//api.proto" :=
    ⟨["proto", "v1"], 1, "api.proto", by decide, by decide, by decide, by decide⟩
  obtain ⟨configuration, resolved, same⟩ := exists_resolve_of_map shown
  obtain ⟨chosen, _, importsIff⟩ := resolve_protoPath sound resolved
  exact ⟨sound, configuration, resolved, congrArg Prod.snd same,
    (importsIff rfl).mpr (chosen ▸ tidy)⟩

/-- A slash behind the only name makes the file a directory, and a dot stays in the import path. -/
theorem moduleTree_imports_otherwise :
    messagesAt "api.proto/" = .ok ([.name "api.proto"], "example.com/acme/api.proto") ∧
      messagesAt "proto/./api.proto" =
        .ok ([.name "proto", .name "api.proto"], "example.com/acme/proto/.") ∧
      ∃ configuration,
        resolve (m := ReaderM Tree) { protoPath := some "api.proto/" } {} moduleTree =
            .ok configuration ∧
          ¬configuration.ImportsDirectories := by
  have shown : messagesAt "api.proto/" =
      .ok ([.name "api.proto"], "example.com/acme/api.proto") := by
    decide +kernel
  refine ⟨shown, by decide +kernel, ?_⟩
  obtain ⟨configuration, resolved, same⟩ := exists_resolve_of_map shown
  refine ⟨configuration, resolved, ?_⟩
  rintro ⟨directories, file, along, someDirectory, _⟩
  rw [show components configuration.protoPath = _ from congrArg Prod.fst same] at along
  have lengths := congrArg List.length along
  simp only [List.length_map, List.length_append, List.length_cons, List.length_nil] at lengths
  exact someDirectory (List.eq_nil_of_length_eq_zero (by omega))

end Configuration

end RpcStubs
