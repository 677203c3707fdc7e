namespace RpcStubs

/-!
# Operations

What is generated for one path, and what is added for a path that lists items in pages.
-/

/-- One operation: its names, its path, and the messages it exchanges. -/
structure Operation where
  methodName : String
  path : String
  constantName : String
  summary : String
  requestType : String
  responseType : String
deriving Repr, DecidableEq

/-- An operation whose response is one page of a list. -/
structure ListOperation extends Operation where
  iteratorName : String
  fetcherName : String
  itemType : String
  responseField : String
deriving Repr, DecidableEq

end RpcStubs
