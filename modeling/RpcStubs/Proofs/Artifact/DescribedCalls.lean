import RpcStubs.Proofs.Artifact.CallLines
import RpcStubs.Proofs.Extraction.Outcome
import RpcStubs.Proofs.Listing.Fetchers
import RpcStubs.Proofs.Model.Distinct
import RpcStubs.Proofs.Model.Fits
namespace RpcStubs

/-!
# Files that describe calls

The client, the server and the service of a model describe the same calls: what they say about
constants, methods and routes is the same in all of them, one call for each operation, in order.
-/

/-- Of the texts of an extracted operation, only the names of its messages can break a line. -/
theorem Operation.keepsLines_of_mem
    {document : Document}
    {operations : List Operation}
    (extracted : document.operations = .ok operations)
    {operation : Operation}
    (member : operation ∈ operations)
    (requestType : '\n' ∉ operation.requestType.toList)
    (responseType : '\n' ∉ operation.responseType.toList) :
    operation.KeepsLines := by
  obtain ⟨⟨route, parsed, named, constant⟩, ⟨call, summary⟩, _⟩ :=
    exists_of_mem_operations extracted member
  have methodName : '\n' ∉ operation.methodName.toList := by
    intro broken
    cases Route.isInertText_methodName parsed '\n' (named ▸ broken)
  have prefixed : operation.constantName = "RPC" ++ operation.methodName := by
    rw [constant, named]
    rfl
  refine ⟨methodName, (Route.isQuotable_path parsed).noBreak, ?_, ?_, ?_, requestType, responseType⟩
  · simpa [prefixed] using methodName
  · simp [prefixed]
  · rw [summary, Extraction.summaryOf]
    split
    · exact Summary.not_mem_ofText _
    · simp

namespace Model

open Artifact

variable (model : Model)

/-- The path that a route serves, which is that of its constant. -/
def routedPath? (routing : Routing) : Option String :=
  (model.pathConstants.find? fun constant => constant.name = routing.constant).map
    PathConstant.path

/-- The method of the interface that a route leads to, when it takes what the route makes. -/
def handler? (routing : Routing) : Option Signature :=
  (model.interfaceMethods.find? fun signature => signature.method = routing.method).filter
    fun signature => signature.request = routing.request ∧ signature.request = routing.made

/--
The files of a model describe the calls of some operations.

Routes are taken as the generated code takes them: a constant stands for its path, and a
method of the interface has the messages with which it is declared.  Where no name breaks a line,
the texts of the files have the lines of these constants, methods and routes and no others.
-/
structure DescribesCalls (operations : List Operation) : Prop where
  constants : model.pathConstants = operations.map Operation.pathConstant
  constantsDistinct : (model.pathConstants.map PathConstant.name).Nodup
  constantsRouted : model.routings.map Routing.constant = model.pathConstants.map PathConstant.name
  constantsCalled : model.calledConstants = model.pathConstants.map PathConstant.name
  pathsRouted :
    model.routings.map model.routedPath? = operations.map fun operation => some operation.path
  pathsDistinct : (model.routings.filterMap model.routedPath?).Nodup
  clientMethods : model.clientMethods = operations.map Operation.signature
  interfaceMethods : model.interfaceMethods = operations.map Operation.signature
  handlers : model.routings.map model.handler? = model.interfaceMethods.map some
  serviceMethods : model.serviceMethods = operations.map Operation.signature
  client : .client ∈ Artifact.selected model
  server : .server ∈ Artifact.selected model
  service : .service ∈ Artifact.selected model ↔ model.full = true
  written :
    ('\n' ∉ model.package.toList ∧ '\n' ∉ model.protoImport.toList ∧
      ∀ operation ∈ operations,
        '\n' ∉ operation.requestType.toList ∧ '\n' ∉ operation.responseType.toList) →
      model.WritesCalls

theorem map_routedPath?
    (distinct : (model.operations.map Operation.constantName).Nodup) :
    model.routings.map model.routedPath? =
      model.operations.map fun operation => some operation.path := by
  rw [routings_eq, List.map_map]
  refine List.map_congr_left fun operation member => ?_
  have found :
      (model.pathConstants.find? fun constant => constant.name = operation.pathConstant.name) =
        some operation.pathConstant := by
    rw [pathConstants_eq]
    refine find?_eq_some ?_ (List.mem_map_of_mem member)
    rw [List.map_map]
    exact distinct
  exact congrArg (Option.map PathConstant.path) found

theorem map_handler?
    (distinct : (model.operations.map Operation.methodName).Nodup) :
    model.routings.map model.handler? = model.interfaceMethods.map some := by
  rw [routings_eq, interfaceMethods_eq, List.map_map, List.map_map]
  refine List.map_congr_left fun operation member => ?_
  have found :
      (model.interfaceMethods.find? fun signature =>
          signature.method = operation.signature.method) =
        some operation.signature := by
    rw [interfaceMethods_eq]
    refine find?_eq_some ?_ (List.mem_map_of_mem member)
    rw [List.map_map]
    exact distinct
  rw [Function.comp_apply, Function.comp_apply, handler?]
  refine (congrArg (Option.filter _) found).trans ?_
  simp [Operation.signature, Operation.routing]

/--
Whatever the configuration and the list operations, the files that are generated for the
operations of a document describe the same calls.

There is one constant and one route for each operation, no constant and no path stands twice,
and client, interface, handler and service have one method for each operation with its request
and its response, all in the order of the operations.
-/
theorem build_describesCalls
    {document : Document}
    {operations : List Operation}
    (extracted : document.operations = .ok operations)
    (configuration : Configuration)
    (lists : List ListOperation)
    (time : Instant) :
    (build configuration operations lists time).DescribesCalls operations := by
  obtain ⟨_, kept⟩ := Extraction.operations_eq_ok_iff.mp extracted
  have pathsDistinct : (operations.map Operation.path).Nodup :=
    kept.paths_sublist.nodup document.paths.distinct
  let model := build configuration operations lists time
  have pathsRouted :
      model.routings.map model.routedPath? =
        operations.map fun operation => some operation.path :=
    map_routedPath? model kept.constantNames_nodup
  have routedPaths :
      model.routings.filterMap model.routedPath? = operations.map Operation.path := by
    have listed := congrArg (List.filterMap id) pathsRouted
    simpa [List.filterMap_map, Function.comp_def] using listed
  exact {
    constants := pathConstants_eq _
    constantsDistinct := by
      rw [pathConstants_eq, List.map_map]
      exact kept.constantNames_nodup
    constantsRouted := by
      rw [routings_eq, pathConstants_eq, List.map_map, List.map_map]
      rfl
    constantsCalled := by
      rw [calledConstants_eq, pathConstants_eq, List.map_map]
      rfl
    pathsRouted := pathsRouted
    pathsDistinct := routedPaths ▸ pathsDistinct
    clientMethods := clientMethods_eq _
    interfaceMethods := interfaceMethods_eq _
    handlers := map_handler? _ kept.methodNames_nodup
    serviceMethods := serviceMethods_eq _
    client := by
      simp [selected, all, isSelected, condition]
    server := by
      simp [selected, all, isSelected, condition]
    service := by
      simp [selected, all, isSelected, condition]
    written := fun ⟨package, protoImport, messages⟩ => KeepsLines.writesCalls {
      generatedAt := time.isInertText_render
      package := package
      protoImport := protoImport
      operations := fun operation member =>
        Operation.keepsLines_of_mem extracted member (messages operation member).1
          (messages operation member).2 }
  }

end Model

/-- Users and replies are listed by calls that all files describe alike. -/
theorem repliesDocument_describesCalls :
    ∃ operations,
      repliesDocument.operations = .ok operations ∧
        operations.map Operation.pathConstant =
          [⟨"RPCUsersList", "/v1/users.list"⟩, ⟨"RPCRepliesList", "/v1/replies.list"⟩] ∧
        (∀ operation ∈ operations,
          '\n' ∉ operation.requestType.toList ∧ '\n' ∉ operation.responseType.toList) ∧
        (Model.build { plainConfiguration with full := true } operations [] ⟨0, 0⟩).DescribesCalls
          operations := by
  obtain ⟨operations, extracted, constants, oneLine⟩ :
      ∃ operations,
        repliesDocument.operations = .ok operations ∧
          operations.map Operation.pathConstant =
            [⟨"RPCUsersList", "/v1/users.list"⟩, ⟨"RPCRepliesList", "/v1/replies.list"⟩] ∧
          ∀ operation ∈ operations,
            '\n' ∉ operation.requestType.toList ∧ '\n' ∉ operation.responseType.toList :=
    ⟨_, rfl, by decide +kernel, by decide +kernel⟩
  exact ⟨operations, extracted, constants, oneLine, Model.build_describesCalls extracted _ _ _⟩

end RpcStubs
