import RpcStubs.Data.Yaml.Core
import RpcStubs.Data.Yaml.Token
namespace RpcStubs.Data.Yaml

/-!
# From tokens to data trees

The grammar of nodes: scalars, lists and maps, in blocks or between brackets, with their
anchors, references and tags.
-/

/-- What the document says before its node, and the nodes that have anchors so far. -/
structure Context where
  prefixes : List (String × String) := []
  anchors : List (String × Option Node) := []

/-- A part of the grammar: the node that was read, the context after it, and what is left. -/
abbrev Read := Option (Node × Context × List Token)

/-- The node that nothing stands for. -/
def emptyNode : Node := .scalar .null (some "")

/-- What a handle stands for. -/
def Context.expansion? (context : Context) (handle : String) : Option String :=
  match context.prefixes.lookup handle with
  | some expansion => some expansion
  | none =>
      match handle with
      | "!" => some "!"
      | "!!" => some "tag:yaml.org,2002:"
      | _ => none

/-- The tag that a handle and a suffix make. -/
def Context.tag? (context : Context) (handle suffix : String) : Option String :=
  if handle = "" then
    some suffix
  else
    (context.expansion? handle).map (· ++ suffix)

/-- Keep a node under an anchor; a node that is still being read is none. -/
def Context.keep (context : Context) (anchor : Option String) (node : Option Node) : Context :=
  match anchor with
  | some name => { context with anchors := (name, node) :: context.anchors }
  | none => context

/-- What stands before a node: its anchor and its tag. -/
structure Properties where
  anchor : Option String := none
  tag : Option String := none

/-- The anchor and the tag before a node, in either order. -/
def properties? (context : Context) : List Token → Option (Properties × List Token)
  | .anchor name :: .tag handle suffix :: rest => do
      let tag ← context.tag? handle suffix
      return ({ anchor := some name, tag := some tag }, rest)
  | .anchor name :: rest => some ({ anchor := some name }, rest)
  | .tag handle suffix :: .anchor name :: rest => do
      let tag ← context.tag? handle suffix
      return ({ anchor := some name, tag := some tag }, rest)
  | .tag handle suffix :: rest => do
      let tag ← context.tag? handle suffix
      return ({ tag := some tag }, rest)
  | rest => some ({}, rest)

/-- A collection with the tag that stands before it. -/
def withTag (tag : Option String) (node : Node) : Node :=
  match tag with
  | some tag => if isLocal tag then .tagged node else node
  | none => node

/-- Where a node stands: whether blocks are admitted, and lists that are not indented. -/
structure Standing where
  isBlock : Bool := false
  isBare : Bool := false

/-- The standing of an item of a list in a block. -/
def itemStanding : Standing := { isBlock := true }

/-- The standing of a key or value of a map in a block. -/
def entryStanding : Standing := { isBlock := true, isBare := true }

/-- The standing of a node between brackets. -/
def flowStanding : Standing := {}

/-- Whether a collection starts with some tokens. -/
def startsCollection (standing : Standing) : List Token → Bool
  | .flowList :: _ => true
  | .flowMap :: _ => true
  | .blockList :: _ => standing.isBlock
  | .blockMap :: _ => standing.isBlock
  | .listItem :: _ => standing.isBare
  | _ => false

/-- Whether the first of some tokens is among given ones. -/
def startsWithAny (expected : List Token) : List Token → Bool
  | token :: _ => expected.contains token
  | [] => false

/-- The tokens after a comma, which only the first member of a collection does without. -/
def afterComma? (isFirst : Bool) : List Token → Option (List Token)
  | .comma :: rest => if isFirst then some (.comma :: rest) else some rest
  | rest => if isFirst then some rest else none

mutual

/-- A node at the start of some tokens; collections nest at most `depth` deep. -/
def node? : Nat → Nat → Standing → Context → List Token → Read
  | 0, _, _, _, _ => none
  | _, _, _, context, .reference name :: rest =>
      match context.anchors.lookup name with
      | some (some node) => some (node, context, rest)
      | _ => none
  | fuel + 1, depth, standing, context, tokens =>
      match properties? context tokens with
      | none => none
      | some (properties, rest) =>
          match rest with
          | .scalar text isPlain :: left =>
              match scalarNode? properties.tag text isPlain with
              | none => none
              | some node => some (node, context.keep properties.anchor (some node), left)
          | _ =>
              if startsCollection standing rest then
                match depth with
                | 0 => none
                | inner + 1 =>
                    let opened := context.keep properties.anchor none
                    match collection? fuel inner opened rest with
                    | none => none
                    | some (node, after, left) =>
                        let tagged := withTag properties.tag node
                        some (tagged, after.keep properties.anchor (some tagged), left)
              else if properties.anchor.isSome || properties.tag.isSome then
                match scalarNode? properties.tag "" true with
                | none => none
                | some node => some (node, context.keep properties.anchor (some node), rest)
              else
                none

/-- A node, or the empty node when one of the given tokens comes first. -/
def nodeUnless? : Nat → Nat → Standing → List Token → Context → List Token → Read
  | 0, _, _, _, _, _ => none
  | fuel + 1, depth, standing, ends, context, tokens =>
      if startsWithAny ends tokens then
        some (emptyNode, context, tokens)
      else
        node? fuel depth standing context tokens

/-- The collection that starts with some tokens. -/
def collection? : Nat → Nat → Context → List Token → Read
  | 0, _, _, _ => none
  | fuel + 1, depth, context, tokens =>
      match tokens with
      | .flowList :: rest => flowItems? fuel depth true [] context rest
      | .flowMap :: rest => flowEntries? fuel depth true [] context rest
      | .blockList :: rest => blockItems? fuel depth [] context rest
      | .blockMap :: rest => blockEntries? fuel depth [] context rest
      | rest => bareItems? fuel depth [] context rest

/-- The items of a list in a block, after those in `read`, in reverse. -/
def blockItems? : Nat → Nat → List Node → Context → List Token → Read
  | 0, _, _, _, _ => none
  | fuel + 1, depth, read, context, tokens =>
      match tokens with
      | .listItem :: rest =>
          match nodeUnless? fuel depth itemStanding [.listItem, .blockEnd] context rest with
          | none => none
          | some (item, after, left) => blockItems? fuel depth (item :: read) after left
      | .blockEnd :: rest => some (.list read.reverse, context, rest)
      | _ => none

/-- The items of a list that is not indented further than its map. -/
def bareItems? : Nat → Nat → List Node → Context → List Token → Read
  | 0, _, _, _, _ => none
  | fuel + 1, depth, read, context, tokens =>
      match tokens with
      | .listItem :: rest =>
          match nodeUnless? fuel depth itemStanding [.listItem, .key, .value, .blockEnd]
              context rest with
          | none => none
          | some (item, after, left) => bareItems? fuel depth (item :: read) after left
      | rest => some (.list read.reverse, context, rest)

/-- The entries of a map in a block, after those in `read`, in reverse. -/
def blockEntries? : Nat → Nat → List (Node × Node) → Context → List Token → Read
  | 0, _, _, _, _ => none
  | fuel + 1, depth, read, context, tokens =>
      match tokens with
      | .key :: rest =>
          match nodeUnless? fuel depth entryStanding [.key, .value, .blockEnd] context rest with
          | none => none
          | some (key, afterKey, beyond) =>
              match blockValue? fuel depth afterKey beyond with
              | none => none
              | some (value, after, left) =>
                  blockEntries? fuel depth ((key, value) :: read) after left
      | .blockEnd :: rest => some (.map read.reverse, context, rest)
      | _ => none

/-- The value after a key in a block. -/
def blockValue? : Nat → Nat → Context → List Token → Read
  | 0, _, _, _ => none
  | fuel + 1, depth, context, tokens =>
      match tokens with
      | .value :: rest =>
          nodeUnless? fuel depth entryStanding [.key, .value, .blockEnd] context rest
      | rest => some (emptyNode, context, rest)

/-- The items of a list between brackets, after those in `read`, in reverse. -/
def flowItems? : Nat → Nat → Bool → List Node → Context → List Token → Read
  | 0, _, _, _, _, _ => none
  | fuel + 1, depth, isFirst, read, context, tokens =>
      match tokens with
      | .flowListEnd :: rest => some (.list read.reverse, context, rest)
      | _ =>
          match afterComma? isFirst tokens with
          | none => none
          | some (.flowListEnd :: rest) => some (.list read.reverse, context, rest)
          | some (.key :: rest) =>
              match flowPair? fuel depth context rest with
              | none => none
              | some (pair, after, left) => flowItems? fuel depth false (pair :: read) after left
          | some rest =>
              match node? fuel depth flowStanding context rest with
              | none => none
              | some (item, after, left) => flowItems? fuel depth false (item :: read) after left

/-- The map of one entry that is an item of a list between brackets, after its key mark. -/
def flowPair? : Nat → Nat → Context → List Token → Read
  | 0, _, _, _ => none
  | _, 0, _, _ => none
  | fuel + 1, depth + 1, context, tokens =>
      let key := match tokens with
        | [] => none
        | first :: rest =>
            if startsWithAny [.value, .comma, .flowListEnd] (first :: rest) then
              some (emptyNode, context, rest)
            else
              node? fuel depth flowStanding context (first :: rest)
      match key with
      | none => none
      | some (key, afterKey, beyond) =>
          match flowValue? fuel depth .flowListEnd afterKey beyond with
          | none => none
          | some (value, after, left) => some (.map [(key, value)], after, left)

/-- The value after a key between brackets, of which `close` is the closing one. -/
def flowValue? : Nat → Nat → Token → Context → List Token → Read
  | 0, _, _, _, _ => none
  | fuel + 1, depth, close, context, tokens =>
      match tokens with
      | .value :: rest => nodeUnless? fuel depth flowStanding [.comma, close] context rest
      | rest => some (emptyNode, context, rest)

/-- The entries of a map between brackets, after those in `read`, in reverse. -/
def flowEntries? : Nat → Nat → Bool → List (Node × Node) → Context → List Token → Read
  | 0, _, _, _, _, _ => none
  | fuel + 1, depth, isFirst, read, context, tokens =>
      match tokens with
      | .flowMapEnd :: rest => some (.map read.reverse, context, rest)
      | _ =>
          match afterComma? isFirst tokens with
          | none => none
          | some (.flowMapEnd :: rest) => some (.map read.reverse, context, rest)
          | some (.key :: rest) =>
              match nodeUnless? fuel depth flowStanding [.value, .comma, .flowMapEnd]
                  context rest with
              | none => none
              | some (key, afterKey, beyond) =>
                  match flowValue? fuel depth .flowMapEnd afterKey beyond with
                  | none => none
                  | some (value, after, left) =>
                      flowEntries? fuel depth false ((key, value) :: read) after left
          | some rest =>
              match node? fuel depth flowStanding context rest with
              | none => none
              | some (key, after, left) =>
                  flowEntries? fuel depth false ((key, emptyNode) :: read) after left

end

/-- How deep collections may nest. -/
def depthLimit : Nat := 128

/-- The context that directives make, and the tokens after them. -/
def directives? : Bool → Context → List Token → Option (Context × List Token)
  | hasVersion, context, .version major minor :: rest =>
      if hasVersion || major ≠ 1 || (minor ≠ 1 && minor ≠ 2) then
        none
      else
        directives? true context rest
  | hasVersion, context, .tagPrefix handle expansion :: rest =>
      if (context.prefixes.lookup handle).isSome then
        none
      else
        directives? hasVersion
          { context with prefixes := (handle, expansion) :: context.prefixes } rest
  | _, context, rest => some (context, rest)

/-- The node at the start of a document, and the tokens after it. -/
def root? (context : Context) (tokens : List Token) : Option (Node × List Token) :=
  (node? (4 * tokens.length + 8) depthLimit itemStanding context tokens).map
    fun (node, _, rest) => (node, rest)

/-- The content after the mark that starts a document, and the tokens after it. -/
def content? (context : Context) : List Token → Option (Node × List Token)
  | [] => some (emptyNode, [])
  | .documentEnd :: rest => some (emptyNode, .documentEnd :: rest)
  | tokens => root? context tokens

/-- The first document, and the tokens after it. -/
def document? (tokens : List Token) : Option (Node × List Token) :=
  match directives? false {} tokens with
  | none => none
  | some (context, .documentStart :: rest) => content? context rest
  | some (_, rest) => if rest = tokens then root? {} tokens else none

/-- The node of the one document that some tokens make. -/
def single? (tokens : List Token) : Option Node :=
  match document? tokens with
  | some (node, rest) =>
      if rest.all fun token => token = .documentEnd then some node else none
  | none => none

end RpcStubs.Data.Yaml
