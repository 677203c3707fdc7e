import RpcStubs.Artifact.Basic
import RpcStubs.Configuration.Resolve
import RpcStubs.Proofs.Files.Components
import RpcStubs.Proofs.Files.Sound
namespace RpcStubs

open Files Files.Path

/-!
# Where artifacts land

A resolved configuration has straight directories and a fit path for the message file.  Each
artifact then lands under names of its own.
-/

/-- A configuration whose directories are straight and whose message file has a fit path. -/
structure Configuration.IsReady (configuration : Configuration) : Prop where
  output : IsStraight configuration.output
  moduleRoot : IsStraight configuration.moduleRoot
  protoPath : IsInner configuration.protoPath
  isProto : extension? configuration.protoPath = some "proto"

namespace Configuration

/-- A path that is accepted for the message file leads along names to a `.proto` file. -/
theorem protoDirectory_eq_ok
    {path directory : String}
    (accepted : protoDirectory path = .ok directory) :
    IsInner path ∧ extension? path = some "proto" := by
  unfold protoDirectory at accepted
  split at accepted
  · cases accepted
  · rename_i plain
    split at accepted
    · cases accepted
    · rename_i isProto
      refine ⟨isInner_of_components fun component member => ?_, by simpa using isProto⟩
      have allNames : (components path).all isName = true := by
        simp only [Bool.or_eq_true, Bool.not_eq_true', not_or, Bool.not_eq_false] at plain
        exact plain.2
      have nameThere := List.all_eq_true.mp allNames component member
      unfold isName at nameThere
      split at nameThere
      · exact ⟨_, rfl⟩
      · cases nameThere

variable {tree : Tree}

/-- The output directory is found under its canonical path. -/
theorem findOutput_eq_ok
    (sound : tree.IsSound)
    {path output : String}
    (found : findOutput (m := ReaderM Tree) path tree = .ok output) :
    IsStraight output ∧ Tree.pathOf (names output) = output := by
  rw [findOutput, bind_reading] at found
  split at found
  · rename_i isDirectory
    rw [bind_reading] at found
    cases canonical : Reads.canonical (m := ReaderM Tree) path tree with
    | error cause =>
        rw [canonical] at found
        cases found
    | ok shown =>
        rw [canonical] at found
        cases found
        obtain ⟨straight, shown, _⟩ := sound.canonical_directory isDirectory canonical
        exact ⟨straight, shown⟩
  · cases found

end Configuration

namespace Files

/-- What is found first is one of the paths. -/
theorem firstFile_eq_some
    {tree : Tree}
    {paths : List String}
    {path : String}
    (found : firstFile (m := ReaderM Tree) paths tree = some path) :
    path ∈ paths := by
  induction paths with
  | nil =>
      cases found
  | cons first others inductionHypothesis =>
      rw [firstFile, bind_reading] at found
      split at found
      · cases found
        simp
      · exact List.mem_cons_of_mem _ (inductionHypothesis found)

/-- A file found upward from a straight path has an absolute path. -/
theorem findUpward_eq_some
    {tree : Tree}
    {start name path : String}
    (straight : IsStraight start)
    (found : findUpward (m := ReaderM Tree) start name tree = some path) :
    isAbsolute path = true := by
  obtain ⟨directory, member, rfl⟩ := List.mem_map.mp (firstFile_eq_some found)
  apply isAbsolute_join
  rcases List.mem_cons.mp member with rfl | above
  · exact straight.absolute
  · exact (straight.of_mem_parents above).1.absolute

end Files

namespace Configuration

/-- The directory of an absolute path, if it is one to which something can be added. -/
theorem parent_straight
    {output path rest : String}
    (straight : IsStraight output)
    (absolute : isAbsolute path = true)
    (below : remainder? ((parent? path).getD ".") output = some rest) :
    IsStraight ((parent? path).getD ".") := by
  cases isParent : parent? path with
  | none =>
      rw [isParent] at below
      have shared := components_prefix_of_remainder? below
      rw [components_of_straight straight] at shared
      have here : components "." = [.here] := by decide
      simp [here] at shared
  | some parent =>
      rw [isParent] at below
      have parentAbsolute : isAbsolute parent = true := by
        have member := List.mem_of_head? isParent
        rw [parents, absolute] at member
        obtain ⟨_, _, _, _, _, rfl⟩ := exists_of_mem_chain member
        exact isAbsolute_iff.mpr ⟨_, rfl⟩
      exact straight.of_remainder? parentAbsolute below

/-- What is discovered is the directory of a file found upward; the rest are manifest faults. -/
theorem discover_cases
    {tree : Tree}
    {start file : String}
    {result : Except Failure Manifest}
    (discovered : Manifest.discover (m := ReaderM Tree) start file tree = result) :
    (∃ fault, result = .error (.manifest fault)) ∨
      ∃ path modulePath,
        findUpward (m := ReaderM Tree) start file tree = some path ∧
          result = .ok ⟨(parent? path).getD ".", modulePath⟩ := by
  subst discovered
  rw [Manifest.discover, bind_reading]
  cases findUpward (m := ReaderM Tree) start file tree with
  | none =>
      exact Or.inl ⟨_, rfl⟩
  | some path =>
      simp only [bind_reading]
      cases readText (m := ReaderM Tree) path tree with
      | error cause =>
          exact Or.inl ⟨_, rfl⟩
      | ok content =>
          cases declared : Manifest.modulePath? content with
          | none =>
              exact Or.inl ⟨_, by simp only [declared]; rfl⟩
          | some modulePath =>
              exact Or.inr ⟨path, modulePath, rfl, by simp only [declared]; rfl⟩

/-- What is resolved comes from an output directory, a message path and a manifest. -/
theorem resolve_cases
    {tree : Tree}
    {choices : Choices}
    {fallbacks : Fallbacks}
    {result : Except Failure Configuration}
    (resolved : resolve (m := ReaderM Tree) choices fallbacks tree = result) :
    (∃ fault, result = .error (.configuration fault)) ∨
      (∃ fault, result = .error (.manifest fault)) ∨
      ∃ output directory manifest relative,
        findOutput (m := ReaderM Tree) (choices.output.getD fallbacks.output) tree =
            .ok output ∧
          protoDirectory (choices.protoPath.getD fallbacks.protoPath) = .ok directory ∧
          Manifest.discover (m := ReaderM Tree) output fallbacks.manifest tree =
            .ok manifest ∧
          relativePath output manifest.root = .ok relative ∧
          result = .ok (assemble choices fallbacks
            (choices.package.getD fallbacks.package) output
            (choices.protoPath.getD fallbacks.protoPath) directory relative manifest) := by
  subst resolved
  simp only [resolve]
  cases Package.fault? (choices.package.getD fallbacks.package) fallbacks.reservedPackage with
  | some fault =>
      exact Or.inl ⟨_, rfl⟩
  | none =>
      simp only [bind_reading]
      cases findOutput (m := ReaderM Tree) (choices.output.getD fallbacks.output) tree with
      | error fault =>
          exact Or.inl ⟨_, rfl⟩
      | ok output =>
          cases accepted : protoDirectory (choices.protoPath.getD fallbacks.protoPath) with
          | error fault =>
              exact Or.inl ⟨_, rfl⟩
          | ok directory =>
              simp only [bind_reading]
              cases discovered : Manifest.discover (m := ReaderM Tree) output
                fallbacks.manifest tree with
              | error failure =>
                  rcases discover_cases discovered with ⟨fault, same⟩ | ⟨_, _, _, same⟩
                  · cases same
                    exact Or.inr (Or.inl ⟨fault, rfl⟩)
                  · cases same
              | ok manifest =>
                  cases below : relativePath output manifest.root with
                  | error fault =>
                      exact Or.inl ⟨_, by simp only [below]; rfl⟩
                  | ok relative =>
                      exact Or.inr (Or.inr ⟨output, directory, manifest, relative, rfl, rfl,
                        discovered, below, by simp only [below]; rfl⟩)

/-- What is resolved on a sound tree is ready. -/
theorem resolve_isReady
    {tree : Tree}
    (sound : tree.IsSound)
    {choices : Choices}
    {fallbacks : Fallbacks}
    {configuration : Configuration}
    (resolved : resolve (m := ReaderM Tree) choices fallbacks tree = .ok configuration) :
    configuration.IsReady := by
  rcases resolve_cases resolved with ⟨_, impossible⟩ | ⟨_, impossible⟩ |
    ⟨output, directory, manifest, relative, found, accepted, discovered, below, same⟩
  · cases impossible
  · cases impossible
  · cases same
    have outputStraight := (findOutput_eq_ok sound found).1
    obtain ⟨inner, isProto⟩ := protoDirectory_eq_ok accepted
    refine ⟨outputStraight, ?_, inner, isProto⟩
    rcases discover_cases discovered with ⟨_, impossible⟩ | ⟨path, modulePath, upward, same⟩
    · cases impossible
    · cases same
      unfold relativePath at below
      split at below
      · rename_i rest remains
        exact parent_straight outputStraight (findUpward_eq_some outputStraight upward) remains
      · cases below

/-- The output directory of what is resolved lies in the directory of its module. -/
theorem resolve_output_in_module
    {tree : Tree}
    (sound : tree.IsSound)
    {choices : Choices}
    {fallbacks : Fallbacks}
    {configuration : Configuration}
    (resolved : resolve (m := ReaderM Tree) choices fallbacks tree = .ok configuration) :
    names configuration.moduleRoot <+: names configuration.output := by
  have ready := resolve_isReady sound resolved
  rcases resolve_cases resolved with ⟨_, impossible⟩ | ⟨_, impossible⟩ |
    ⟨output, directory, manifest, relative, _, _, _, below, same⟩
  · cases impossible
  · cases impossible
  · cases same
    unfold relativePath at below
    split at below
    · rename_i rest remains
      have outputStraight : IsStraight output := ready.output
      have rootStraight : IsStraight manifest.root := ready.moduleRoot
      have shared := components_prefix_of_remainder? remains
      rw [components_of_straight outputStraight, components_of_straight rootStraight,
        List.cons_prefix_cons] at shared
      obtain ⟨_, after, shape⟩ := shared
      obtain ⟨upper, lower, whole, isUpper, _⟩ := List.map_eq_append_iff.mp shape.symm
      have isRoot := (List.map_inj_right fun _ _ => Component.name.inj).mp isUpper
      exact ⟨lower, isRoot ▸ whole.symm⟩
    · cases below

/-- On a plain tree, too, the output directory lies in the directory of the module. -/
theorem resolve_inModule
    {tree : Tree}
    (plain : tree.IsPlain)
    {choices : Choices}
    {fallbacks : Fallbacks}
    {configuration : Configuration}
    (resolved : resolve (m := ReaderM Tree) choices fallbacks tree = .ok configuration) :
    names configuration.moduleRoot <+: names configuration.output :=
  resolve_output_in_module plain.isSound resolved

end Configuration

namespace Artifact

variable {configuration : Configuration}

/-- Every artifact but the messages has the name of its template. -/
theorem fileName?_relativePath
    (configuration : Configuration)
    {artifact : Artifact}
    (other : artifact ≠ .proto) :
    IsInner (artifact.relativePath configuration) ∧
      fileName? (artifact.relativePath configuration) = some artifact.template := by
  cases artifact with
  | proto =>
      exact (other rfl).elim
  | _ =>
      simp only [relativePath, template]
      exact ⟨⟨by decide, by decide, by decide⟩, by decide⟩

theorem isInner_relativePath
    (ready : configuration.IsReady)
    (artifact : Artifact) :
    IsInner (artifact.relativePath configuration) := by
  by_cases messages : artifact = .proto
  · subst messages
    exact ready.protoPath
  · exact (fileName?_relativePath configuration messages).1

/-- Only the messages are in a `.proto` file. -/
theorem extension?_relativePath
    (configuration : Configuration)
    {artifact : Artifact}
    (other : artifact ≠ .proto) :
    extension? (artifact.relativePath configuration) ≠ some "proto" := by
  cases artifact with
  | proto =>
      exact (other rfl).elim
  | _ =>
      simp only [relativePath]
      decide

theorem template_injective
    {first second : Artifact}
    (same : first.template = second.template) :
    first = second := by
  revert same
  cases first <;> cases second <;> decide

/-- An artifact lands under its file name. -/
theorem target_lands
    (ready : configuration.IsReady)
    (artifact : Artifact) :
    IsStraight (artifact.target configuration) ∧
      (names (artifact.target configuration)).getLast? =
        fileName? (artifact.relativePath configuration) ∧
      fileName? (artifact.relativePath configuration) ≠ none := by
  obtain ⟨inner, last, named⟩ :
      IsInner (artifact.relativePath configuration) ∧
        ∃ last, fileName? (artifact.relativePath configuration) = some last := by
    by_cases messages : artifact = .proto
    · subst messages
      refine ⟨ready.protoPath, ?_⟩
      cases named : fileName? configuration.protoPath with
      | none =>
          have isProto := ready.isProto
          simp [extension?, named] at isProto
      | some last =>
          exact ⟨last, named⟩
    · obtain ⟨inner, named⟩ := fileName?_relativePath configuration messages
      exact ⟨inner, _, named⟩
  obtain ⟨base, baseStraight, shape⟩ :
      ∃ base,
        IsStraight base ∧
          artifact.target configuration = join base (artifact.relativePath configuration) := by
    unfold target
    cases artifact.destination with
    | outputDirectory =>
        exact ⟨configuration.output, ready.output, rfl⟩
    | moduleRoot =>
        exact ⟨configuration.moduleRoot, ready.moduleRoot, rfl⟩
  obtain ⟨straight, ending⟩ := baseStraight.join_inner inner named
  rw [shape]
  exact ⟨straight, ending.trans named.symm, by simp [named]⟩

/-- An artifact lands under the names of its directory and those along its own path. -/
theorem names_target
    (ready : configuration.IsReady)
    (artifact : Artifact) :
    names (artifact.target configuration) =
      names (match artifact.destination with
        | .outputDirectory => configuration.output
        | .moduleRoot => configuration.moduleRoot) ++
        names (artifact.relativePath configuration) := by
  have inner := isInner_relativePath ready artifact
  unfold target
  cases artifact.destination with
  | outputDirectory =>
      exact (ready.output.join inner.relative inner.noUp).2
  | moduleRoot =>
      exact (ready.moduleRoot.join inner.relative inner.noUp).2

/-- Different artifacts land under different names. -/
theorem target_injective
    (ready : configuration.IsReady)
    {first second : Artifact}
    (same : names (first.target configuration) = names (second.target configuration)) :
    first = second := by
  have sameName :
      fileName? (first.relativePath configuration) =
        fileName? (second.relativePath configuration) := by
    rw [← (target_lands ready first).2.1, same, (target_lands ready second).2.1]
  have sameExtension := extension?_congr sameName
  by_cases firstMessages : first = .proto
  · subst firstMessages
    by_cases secondMessages : second = .proto
    · exact secondMessages.symm
    · exact (extension?_relativePath configuration secondMessages
        (sameExtension.symm.trans ready.isProto)).elim
  · by_cases secondMessages : second = .proto
    · subst secondMessages
      exact (extension?_relativePath configuration firstMessages
        (sameExtension.trans ready.isProto)).elim
    · have firstName := (fileName?_relativePath configuration firstMessages).2
      have secondName := (fileName?_relativePath configuration secondMessages).2
      rw [firstName, secondName] at sameName
      exact template_injective (Option.some.inj sameName)

/-- No artifact is selected twice. -/
theorem selected_nodup
    (model : Model) :
    (selected model).Nodup :=
  List.Pairwise.filter _ (by decide : all.Nodup)

end Artifact

end RpcStubs
