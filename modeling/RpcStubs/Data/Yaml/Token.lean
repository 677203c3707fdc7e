namespace RpcStubs.Data.Yaml

/-!
# Tokens of YAML

The marks and scalars that a YAML text consists of. Where blocks start and end is marked by
tokens of their own.
-/

/-- A token. -/
inductive Token
  | version (major minor : Nat)
  | tagPrefix (handle expansion : String)
  | documentStart
  | documentEnd
  | blockList
  | blockMap
  | blockEnd
  | flowList
  | flowListEnd
  | flowMap
  | flowMapEnd
  | listItem
  | comma
  | key
  | value
  | reference (name : String)
  | anchor (name : String)
  | tag (handle suffix : String)
  | scalar (text : String) (isPlain : Bool)
deriving Repr, DecidableEq

end RpcStubs.Data.Yaml
