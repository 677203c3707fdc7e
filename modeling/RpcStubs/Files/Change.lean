import RpcStubs.Files.Tree
import RpcStubs.Text.Utf8
namespace RpcStubs.Files

/-!
# Changes to a tree

A listing shows every path below a directory with its content; two listings are compared
path by path.
-/

/-- A path with what it shows: a file its text, a directory nothing, a link that it is one. -/
structure Listed where
  path : String
  content : String
deriving Repr, DecidableEq

/-- How an entry at a path is listed; the path of a directory ends in a slash. -/
def Entry.listed (path : String) : Entry → Listed
  | .file content => ⟨path, Text.shown content⟩
  | .directory => ⟨path ++ "/", ""⟩
  | .link _ => ⟨path, "<link>"⟩

/-- How an entry is listed below a directory, if it lies there. -/
def listedBelow? (root names : List String) (entry : Entry) : Option Listed :=
  if root.isPrefixOf names && names ≠ root then
    some (entry.listed (Text.join "/" (names.drop root.length)))
  else
    none

/-- Everything below a directory. -/
def Tree.listing (tree : Tree) (root : List String) : List Listed :=
  tree.entries.entries.filterMap fun entry => listedBelow? root entry.1 entry.2

/-- What is new or different in the second of two listings. -/
def changed (before after : List Listed) : List Listed :=
  after.filter fun listed => !before.contains listed

/-- The paths of a first listing that a second one lacks, in order. -/
def removed (before after : List Listed) : List String :=
  let kept := after.map Listed.path
  ((before.map Listed.path).filter fun path => !kept.contains path).mergeSort
    fun left right => decide (left ≤ right)

end RpcStubs.Files
