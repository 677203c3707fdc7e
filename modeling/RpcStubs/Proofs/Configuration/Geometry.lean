import RpcStubs.Proofs.Artifact.Makefile
import RpcStubs.Proofs.Configuration.ImportPath
import RpcStubs.Proofs.Configuration.Targets
import RpcStubs.Proofs.Files.Canonical
namespace RpcStubs

open Files Files.Path
open Files.Tree (pathOf)

/-!
# Directories of a resolved configuration

The module root, the output directory and the paths between them say the same.  On a sound tree
the output directory is a path along names; the module root is the path along as many of these
names as lead to the nearest manifest, and the names behind them are the relative path.  Import
paths and the makefile are written from that relative path, so they lead where they should.
-/

namespace Configuration

/-- The module root and the output directory by the names that lead to them. -/
structure IsPlaced (configuration : Configuration) (root below : List String) : Prop where
  allNames : ∀ name ∈ root ++ below, IsName name
  moduleRoot : configuration.moduleRoot = pathOf root
  output : configuration.output = pathOf (root ++ below)
  outputRelative : configuration.outputRelative = Text.join "/" below

variable {tree : Tree}

/-- Resolving takes the chosen path, and joins the imports from module, relative path and it. -/
theorem resolve_imports
    {choices : Choices}
    {fallbacks : Fallbacks}
    {configuration : Configuration}
    (resolved : resolve (m := ReaderM Tree) choices fallbacks tree = .ok configuration) :
    configuration.protoPath = choices.protoPath.getD fallbacks.protoPath ∧
      configuration.packageImport =
        ImportPath.join [configuration.modulePath, configuration.outputRelative] ∧
      ∃ directory,
        protoDirectory configuration.protoPath = .ok directory ∧
          configuration.protoImport =
            choices.protoImport.getD
              (ImportPath.join
                [configuration.modulePath, configuration.outputRelative, directory]) := by
  rcases resolve_cases resolved with ⟨_, impossible⟩ | ⟨_, impossible⟩ |
    ⟨output, directory, manifest, relative, _, accepted, _, _, same⟩
  · cases impossible
  · cases impossible
  · cases same
    exact ⟨rfl, rfl, directory, accepted, rfl⟩

/-- What is read off a successful result is read off a resolved configuration. -/
theorem exists_resolve_of_map
    {α : Type}
    {choices : Choices}
    {fallbacks : Fallbacks}
    {read : Configuration → α}
    {value : α}
    (shown : (resolve (m := ReaderM Tree) choices fallbacks tree).map read = .ok value) :
    ∃ configuration,
      resolve (m := ReaderM Tree) choices fallbacks tree = .ok configuration ∧
        read configuration = value := by
  cases resolved : resolve (m := ReaderM Tree) choices fallbacks tree with
  | error failure =>
      rw [resolved] at shown
      cases shown
  | ok configuration =>
      rw [resolved] at shown
      exact ⟨configuration, rfl, Except.ok.inj shown⟩

end Configuration

namespace Configuration.IsPlaced

variable {configuration : Configuration} {root below : List String}

theorem rootNames
    (placed : configuration.IsPlaced root below) :
    ∀ name ∈ root, IsName name :=
  fun name member => placed.allNames name (List.mem_append_left _ member)

end Configuration.IsPlaced

namespace Configuration

variable {tree : Tree}

/-- A tree with a module in `work` and a link from there to a directory inside of it. -/
def linkedTree : Tree where
  entries := Catalog.ofList [
    (["work"], .directory),
    (["work", "go.mod"], .file "module example.com/acme/\n".toUTF8),
    (["work", "billing"], .directory),
    (["work", "billing", "stubs"], .directory),
    (["work", "out"], .link "billing/stubs")]
  workplace := { names := ["work"] }

end Configuration

end RpcStubs
