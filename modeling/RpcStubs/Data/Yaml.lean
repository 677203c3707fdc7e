import RpcStubs.Data.Yaml.Layout
import RpcStubs.Data.Yaml.Tree
namespace RpcStubs.Data.Yaml

/-!
# YAML

Reading the one document of a YAML text as a data tree. Scalars carry their spelling.
-/

/-- The one document that a text holds. -/
def read? (text : String) : Option Node := do
  let tokens ← tokens? text.toList
  single? tokens

end RpcStubs.Data.Yaml
