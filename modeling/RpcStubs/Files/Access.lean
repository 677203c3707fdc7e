import RpcStubs.Files.Tree
import RpcStubs.Text.Utf8
namespace RpcStubs.Files

/-!
# Access to files

What a program asks of the files around it. A program that only reads is written against
`Reads`, and one that also changes files against `Writes`; a file tree answers both.
-/

/-- Questions about files. -/
class Reads (m : Type → Type) where
  isDirectory : String → m Bool
  isFile : String → m Bool
  isPresent : String → m Bool
  canonical : String → m (Except Fault String)
  read : String → m (Except Fault ByteArray)

/-- Changes to files. -/
class Writes (m : Type → Type) where
  makeDirectories : String → m (Except Fault Unit)
  writeFile : String → ByteArray → m (Except Fault Unit)

instance : Reads (ReaderM Tree) where
  isDirectory path := fun tree => tree.isDirectory path
  isFile path := fun tree => tree.isFile path
  isPresent path := fun tree => tree.isPresent path
  canonical path := fun tree => tree.canonical path
  read path := fun tree => tree.read path

instance : Reads (StateM Tree) where
  isDirectory path := fun tree => (tree.isDirectory path, tree)
  isFile path := fun tree => (tree.isFile path, tree)
  isPresent path := fun tree => (tree.isPresent path, tree)
  canonical path := fun tree => (tree.canonical path, tree)
  read path := fun tree => (tree.read path, tree)

instance : Writes (StateM Tree) where
  makeDirectories path := fun tree => tree.makeDirectories path
  writeFile path content := fun tree =>
    match tree.writeFile path content with
    | .ok written => (.ok (), written)
    | .error fault => (.error fault, tree)

/-- One reading program after another one sees the same tree. -/
theorem bind_reading {First Second : Type} (first : ReaderM Tree First)
    (next : First → ReaderM Tree Second) (tree : Tree) :
    (first >>= next) tree = next (first tree) tree := rfl

/-- One changing program after another one sees the tree that the first one leaves. -/
theorem bind_changing {First Second : Type} (first : StateM Tree First)
    (next : First → StateM Tree Second) (tree : Tree) :
    (first >>= next) tree = next (first tree).1 (first tree).2 := rfl

/-- The text of the file that a path names. -/
def readText {m : Type → Type} [Monad m] [Reads m] (path : String) : m (Except Fault String) := do
  match ← Reads.read path with
  | .error fault => return .error fault
  | .ok content =>
      match Text.decode? content with
      | some text => return .ok text
      | none => return .error .notText

/-- The first of some paths that names a file. -/
def firstFile {m : Type → Type} [Monad m] [Reads m] : List String → m (Option String)
  | [] => return none
  | path :: others => do
      if ← Reads.isFile path then
        return some path
      else
        firstFile others

/-- The nearest file of a name in a directory or above it, as the path is written. -/
def findUpward {m : Type → Type} [Monad m] [Reads m] (start name : String) :
    m (Option String) :=
  firstFile ((Path.ancestors start).map fun directory => Path.join directory name)

end RpcStubs.Files
