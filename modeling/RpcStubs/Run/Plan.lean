import RpcStubs.Artifact.Render
import RpcStubs.Extraction
import RpcStubs.Listing
import RpcStubs.Source.Format
namespace RpcStubs

/-!
# Plans

Everything that a run will write, made before anything is written: the model of the document
and one draft per selected artifact, rendered and formatted.
-/

/-- A file that a run is about to write. -/
structure Draft where
  artifact : Artifact
  path : String
  content : String
deriving Repr, DecidableEq

/-- What a run will write, with the model from which it was made. -/
structure Plan where
  model : Model
  drafts : List Draft
deriving Repr, DecidableEq

namespace Plan

/-- The model of a document. -/
def modelOf (document : Document) (configuration : Configuration) (time : Instant) :
    Except Failure Model := do
  let operations ← document.operations
  return Model.build configuration operations (Listing.classify document operations) time

/-- The draft of one artifact. -/
def draft (formatter : Source.Formatter) (configuration : Configuration) (model : Model)
    (artifact : Artifact) : Except Failure Draft := do
  let path := artifact.target configuration
  let content ← formatter path (artifact.render model)
  return { artifact := artifact, path := path, content := content }

/-- The drafts of the selected artifacts, in the order of rendering. -/
def draftAll (formatter : Source.Formatter) (configuration : Configuration) (model : Model) :
    Except Failure (List Draft) :=
  (Artifact.selected model).mapM (draft formatter configuration model)

/-- The plan of a run. -/
def make (formatter : Source.Formatter) (document : Document) (configuration : Configuration)
    (time : Instant) : Except Failure Plan := do
  let model ← modelOf document configuration time
  let drafts ← draftAll formatter configuration model
  return { model := model, drafts := drafts }

end Plan

end RpcStubs
