import RpcStubs.Catalog
import RpcStubs.Files.Fault
import RpcStubs.Files.Path
namespace RpcStubs.Files

/-!
# File trees

A file tree holds files, directories and symbolic links under their lists of names from the
top, and the place from which relative paths start. Finding what a path names follows links
on the way, a bounded number of times.
-/

instance (priority := high) decidableEqContent : DecidableEq ByteArray :=
  ByteArray.instDecidableEq

/-- What a list of names holds. -/
inductive Entry
  | file (content : ByteArray)
  | directory
  | link (target : String)
deriving DecidableEq

/--
A directory by its names from the top.

A directory that was removed while in use lies `lost` levels below its last directory that
is still there.
-/
structure Place where
  names : List String
  lost : Nat := 0
deriving Repr, DecidableEq

/-- The directory above; the top is above itself. -/
def Place.up (place : Place) : Place :=
  if place.lost = 0 then
    { place with names := place.names.dropLast }
  else
    { place with lost := place.lost - 1 }

/-- A tree of files and the place from which relative paths start. -/
structure Tree where
  entries : Catalog (List String) Entry := {}
  workplace : Place := { names := [] }

/-- What a walk along a path ends at. -/
inductive Spot
  | found (place : Place) (entry : Entry)
  | absent (directory : List String) (name : String)
deriving DecidableEq

namespace Tree

/-- The entry at a list of names; the top is a directory. -/
def entry? (tree : Tree) (names : List String) : Option Entry :=
  if names = [] then
    some .directory
  else
    tree.entries.get? names

/-- The tree with an entry at a list of names. -/
def place (tree : Tree) (names : List String) (entry : Entry) : Tree :=
  { tree with entries := tree.entries.declare names entry }

/-- How many links one walk may follow. -/
def linkLimit : Nat := 40

/-- The directory from which a path starts. -/
def start (tree : Tree) (path : String) : Place :=
  if Path.isAbsolute path then { names := [] } else tree.workplace

/--
Follow pieces of a path from a directory.

A link in last place is followed when `followsLast` holds; `jump` follows what is left after
a link, from the directory where its target starts.
-/
def walkFrom (tree : Tree) (followsLast : Bool) (jump : Place → List String → Except Fault Spot)
    (here : Place) : List String → Except Fault Spot
  | [] => .ok (.found here .directory)
  | piece :: rest =>
      if Path.isIdle piece then
        tree.walkFrom followsLast jump here rest
      else if piece = ".." then
        tree.walkFrom followsLast jump here.up rest
      else if here.lost ≠ 0 then
        .error .notFound
      else
        let names := here.names ++ [piece]
        match tree.entry? names with
        | none => if rest = [] then .ok (.absent here.names piece) else .error .notFound
        | some .directory => tree.walkFrom followsLast jump { names := names } rest
        | some (.file content) =>
            if rest = [] then
              .ok (.found { names := names } (.file content))
            else
              .error .notDirectory
        | some (.link target) =>
            if rest = [] && !followsLast then
              .ok (.found { names := names } (.link target))
            else
              let origin := if Path.isAbsolute target then { names := [] } else here
              jump origin (Path.piecesOf target ++ rest)

/-- Follow pieces of a path from a directory, with a bound on how many links are followed. -/
def walk (tree : Tree) (followsLast : Bool) :
    Nat → Place → List String → Except Fault Spot
  | 0 => tree.walkFrom followsLast fun _ _ => .error .tooManyLinks
  | budget + 1 => tree.walkFrom followsLast (tree.walk followsLast budget)

/-- A walk follows pieces, however it goes on after a link. -/
theorem exists_walkFrom (tree : Tree) (followsLast : Bool) (budget : Nat) :
    ∃ jump, tree.walk followsLast budget = tree.walkFrom followsLast jump := by
  cases budget with
  | zero => exact ⟨_, rfl⟩
  | succ budget => exact ⟨_, rfl⟩

/-- What a path names, links followed. -/
def look (tree : Tree) (path : String) : Except Fault (Place × Entry) :=
  if path = "" then
    .error .notFound
  else
    match tree.walk true linkLimit (tree.start path) (Path.piecesOf path) with
    | .error fault => .error fault
    | .ok (.absent _ _) => .error .notFound
    | .ok (.found place entry) => .ok (place, entry)

/-- Whether a path names a directory. -/
def isDirectory (tree : Tree) (path : String) : Bool :=
  match tree.look path with
  | .ok (_, .directory) => true
  | _ => false

/-- Whether a path names a file. -/
def isFile (tree : Tree) (path : String) : Bool :=
  match tree.look path with
  | .ok (_, .file _) => true
  | _ => false

/-- Whether a path names anything. -/
def isPresent (tree : Tree) (path : String) : Bool :=
  match tree.look path with
  | .ok _ => true
  | .error _ => false

/-- The path from the top along a list of names. -/
def pathOf (names : List String) : String :=
  "/" ++ Text.join "/" names

/-- The path without links and dots that names the same thing. -/
def canonical (tree : Tree) (path : String) : Except Fault String :=
  if !Path.isAbsolute path && tree.workplace.lost ≠ 0 then
    .error .notFound
  else
    match tree.look path with
    | .error fault => .error fault
    | .ok (place, _) => .ok (pathOf place.names)

/-- The content of the file that a path names. -/
def read (tree : Tree) (path : String) : Except Fault ByteArray :=
  match tree.look path with
  | .error fault => .error fault
  | .ok (_, .file content) => .ok content
  | .ok _ => .error .isDirectory

/-- Pieces of a path without the empty ones at the end. -/
def withoutTail (pieces : List String) : List String :=
  (pieces.reverse.dropWhile (· = "")).reverse

/-- Make one directory, whose parent must be there. -/
def makeDirectory (tree : Tree) (path : String) : Except Fault Tree :=
  if path = "" then
    .error .notFound
  else
    match tree.walk false linkLimit (tree.start path) (withoutTail (Path.piecesOf path)) with
    | .error fault => .error fault
    | .ok (.found _ _) => .error .present
    | .ok (.absent directory name) => .ok (tree.place (directory ++ [name]) .directory)

/--
Make the first of some paths a directory, and before it the later paths as far as needed.

Each path is the parent of the one before it.
-/
def makeChain (tree : Tree) : List String → Except Fault Unit × Tree
  | [] => (.error .notFound, tree)
  | path :: above =>
      if path = "" then
        (.ok (), tree)
      else
        match tree.makeDirectory path with
        | .ok made => (.ok (), made)
        | .error .notFound =>
            match tree.makeChain above with
            | (.error fault, made) => (.error fault, made)
            | (.ok (), made) =>
                match made.makeDirectory path with
                | .ok finished => (.ok (), finished)
                | .error fault =>
                    if made.isDirectory path then (.ok (), made) else (.error fault, made)
        | .error fault =>
            if tree.isDirectory path then (.ok (), tree) else (.error fault, tree)

/-- Make a path a directory, with every directory above it. -/
def makeDirectories (tree : Tree) (path : String) : Except Fault Unit × Tree :=
  tree.makeChain (Path.ancestors path)

/-- Whether the last piece of a path can only name a directory. -/
def endsInDirectory (pieces : List String) : Bool :=
  match pieces.getLast? with
  | some piece => Path.isIdle piece || piece == ".."
  | none => true

/-- Give a file its content, making the file when it is absent. -/
def writeFile (tree : Tree) (path : String) (content : ByteArray) : Except Fault Tree :=
  let pieces := Path.piecesOf path
  if path = "" then
    .error .notFound
  else if endsInDirectory pieces then
    match tree.walk true linkLimit (tree.start path) ((withoutTail pieces).dropLast ++ [""]) with
    | .error fault => .error fault
    | .ok _ => .error .isDirectory
  else
    match tree.walk true linkLimit (tree.start path) pieces with
    | .error fault => .error fault
    | .ok (.found place (.file _)) => .ok (tree.place place.names (.file content))
    | .ok (.found _ _) => .error .isDirectory
    | .ok (.absent directory name) => .ok (tree.place (directory ++ [name]) (.file content))

/--
Remove an entry with everything below it.

When the workplace goes with it, relative paths still start there, below the directory that
held the entry.
-/
def remove (tree : Tree) (names : List String) : Tree :=
  let kept := tree.entries.entries.filter fun entry => !names.isPrefixOf entry.1
  let here := tree.workplace
  { entries := Catalog.ofList kept
    workplace :=
      if names.isPrefixOf here.names then
        { names := names.dropLast, lost := here.lost + (here.names.length - names.length) + 1 }
      else
        here }

end Tree

end RpcStubs.Files
