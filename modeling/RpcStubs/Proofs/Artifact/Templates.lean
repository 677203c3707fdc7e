import RpcStubs.Proofs.Artifact.Balance
namespace RpcStubs

open Source

/-!
# Balanced artifacts

Names of plain characters, import paths and RPC paths that fit into quotes, and summaries of
one line leave the brackets of every block balanced.  The lines of every source file are
therefore balanced, however many operations and list operations there are.
-/

/-- An operation whose names, path and summary fit into generated code. -/
structure Operation.FitsCode (operation : Operation) : Prop where
  methodName : IsInertText operation.methodName
  constantName : IsInertText operation.constantName
  path : Artifact.IsQuotable operation.path
  summary : '\n' ∉ operation.summary.toList
  requestType : IsInertText operation.requestType
  responseType : IsInertText operation.responseType

/-- A list operation whose names fit into generated code. -/
structure ListOperation.FitsCode (list : ListOperation) : Prop where
  methodName : IsInertText list.methodName
  requestType : IsInertText list.requestType
  iteratorName : IsInertText list.iteratorName
  fetcherName : IsInertText list.fetcherName
  itemType : IsInertText list.itemType
  responseField : IsInertText list.responseField

/-- A model all of whose names and texts fit into generated code. -/
structure Model.FitsCode (model : Model) : Prop where
  package : IsInertText model.package
  packageImport : Artifact.IsQuotable model.packageImport
  protoImport : Artifact.IsQuotable model.protoImport
  protoPackage : IsInertText model.protoPackage
  operations : ∀ operation ∈ model.operations, operation.FitsCode
  lists : ∀ list ∈ model.lists, list.FitsCode
  fetchers : ∀ fetcher ∈ model.fetchers,
    IsInertText fetcher.name ∧ IsInertText fetcher.itemType
  messages : ∀ message ∈ model.messages, IsInertText message

namespace Artifact

/-- A part without its name stands for the part with any name. -/
theorem Part.standsFor_name
    {name : String}
    (inert : IsInertText name) :
    (Part.text "").StandsFor (.text name) ∧
      (Part.message "").StandsFor (.message name) ∧
      (Part.declared "").StandsFor (.declared name) ∧
      (Part.constant "").StandsFor (.constant name) ∧
      (Part.method "").StandsFor (.method name) := by
  have package : IsInertText "pb." := by decide
  exact ⟨.of_isInert .empty inert, .of_isInert package (package.append inert),
    .of_isInert .empty inert, .of_isInert .empty inert, .of_isInert .empty inert⟩

/-- What is declared under a fixed beginning stands for any name after it. -/
theorem Part.standsFor_declared
    {name : String}
    (inert : IsInertText name) :
    (Part.declared "New").StandsFor (.declared ("New" ++ name)) ∧
      (Part.declared "Test").StandsFor (.declared ("Test" ++ name)) := by
  have new : IsInertText "New" := by decide
  have test : IsInertText "Test" := by decide
  exact ⟨.of_isInert new (new.append inert), .of_isInert test (test.append inert)⟩

/-! Samples. -/

/-- An operation whose empty names and marked texts stand for those of any other one. -/
def sampleOperation (summary : String) : Operation where
  methodName := ""
  path := quotedSample
  constantName := ""
  summary := summary
  requestType := ""
  responseType := ""

/-- A list operation whose empty names stand for those of any other one. -/
def sampleList : ListOperation where
  toOperation := sampleOperation ""
  iteratorName := ""
  fetcherName := ""
  itemType := ""
  responseField := ""

/-- A model whose empty names and marked texts stand for those of any other one. -/
def sampleModel (operations : List Operation) : Model where
  package := ""
  packageImport := quotedSample
  protoImport := quotedSample
  protoPackage := ""
  protoPath := ""
  protoRoot := ""
  modulePath := ""
  outputRelative := ""
  operations := operations
  lists := []
  fetchers := []
  messages := []
  generatedAt := ""
  full := true

@[simp] theorem commentSample_ne_empty : commentSample ≠ "" := by
  decide

/-! Blocks for one operation. -/

section Operation

variable {operation : Operation}

/-- What stands for the parts that an operation fills in. -/
theorem stands_of_fitsCode
    (fits : operation.FitsCode) :
    ((Part.method "").StandsFor (.method operation.methodName) ∧
      (Part.text "").StandsFor (.text operation.methodName) ∧
      (Part.declared "Test").StandsFor (.declared ("Test" ++ operation.methodName))) ∧
      ((Part.constant "").StandsFor (.constant operation.constantName) ∧
        (Part.declared "").StandsFor (.declared operation.constantName)) ∧
      ((Part.message "").StandsFor (.message operation.requestType) ∧
        (Part.message "").StandsFor (.message operation.responseType)) ∧
      (Part.path quotedSample).StandsFor (.path operation.path) ∧
      (Part.text quotedSample).StandsFor (.text operation.path) ∧
      (Part.text commentSample).StandsFor (.text operation.summary) := by
  have method := Part.standsFor_name fits.methodName
  have constant := Part.standsFor_name fits.constantName
  refine ⟨⟨method.2.2.2.2, method.1, (Part.standsFor_declared fits.methodName).2⟩,
    ⟨constant.2.2.2.1, constant.2.2.1⟩,
    ⟨(Part.standsFor_name fits.requestType).2.1, (Part.standsFor_name fits.responseType).2.1⟩,
    ?_, ?_, ?_⟩
  · exact .of_quotable rfl fits.path
  · exact .of_quotable rfl fits.path
  · exact .of_comment rfl fits.summary

theorem constantLine_leads
    (fits : operation.FitsCode) :
    Leads [] [constantLine operation] [] := by
  refine .of_sample [constantLine (sampleOperation "")] ?_ (by repeat constructor) rfl
  simp [StandFor, constantLine, sampleOperation, stands_of_fitsCode fits]

theorem clientMethod_leads
    (fits : operation.FitsCode) :
    Leads [] (clientMethod operation) [] := by
  by_cases quiet : operation.summary = ""
  · refine .of_sample (clientMethod (sampleOperation "")) ?_ (by repeat constructor) rfl
    simp [StandFor, clientMethod, clientMethodLine, summaryLines, sampleOperation, quiet,
      stands_of_fitsCode fits]
  · refine .of_sample (clientMethod (sampleOperation commentSample)) ?_ (by repeat constructor) rfl
    simp [StandFor, clientMethod, clientMethodLine, summaryLines, sampleOperation, quiet,
      stands_of_fitsCode fits]

theorem implementation_leads
    (fits : operation.FitsCode) :
    Leads [] (implementation operation) [] := by
  by_cases quiet : operation.summary = ""
  · refine .of_sample (implementation (sampleOperation "")) ?_ (by repeat constructor) rfl
    simp [StandFor, implementation, implementationLine, summaryLines, sampleOperation, quiet,
      stands_of_fitsCode fits]
  · refine .of_sample (implementation (sampleOperation commentSample)) ?_
      (by repeat constructor) rfl
    simp [StandFor, implementation, implementationLine, summaryLines, sampleOperation, quiet,
      stands_of_fitsCode fits]

theorem serviceMethodLine_leads
    (fits : operation.FitsCode) :
    Leads [] [serviceMethodLine operation] [] := by
  refine .of_sample [serviceMethodLine (sampleOperation "")] ?_ (by repeat constructor) rfl
  simp [StandFor, serviceMethodLine, sampleOperation, stands_of_fitsCode fits]

theorem routeLine_leads
    (fits : operation.FitsCode) :
    Leads [] [routeLine operation] [] := by
  refine .of_sample [routeLine (sampleOperation "")] ?_ (by repeat constructor) rfl
  simp [StandFor, routeLine, sampleOperation, stands_of_fitsCode fits]

theorem operationTest_leads
    (fits : operation.FitsCode) :
    Leads [] (operationTest operation) [] := by
  refine .of_sample (operationTest (sampleOperation "")) ?_ (by repeat constructor) rfl
  simp [StandFor, operationTest, sampleOperation, stands_of_fitsCode fits]

end Operation

/-! Blocks for one list operation, one page fetcher and one message. -/

section ListOperation

variable {list : ListOperation}

/-- What stands for the parts that a list operation fills in. -/
theorem stands_of_list
    (fits : list.FitsCode) :
    (Part.text "").StandsFor (.text list.methodName) ∧
      (Part.message "").StandsFor (.message list.requestType) ∧
      ((Part.text "").StandsFor (.text list.iteratorName) ∧
        (Part.declared "").StandsFor (.declared list.iteratorName) ∧
        (Part.declared "New").StandsFor (.declared ("New" ++ list.iteratorName))) ∧
      (Part.text "").StandsFor (.text list.fetcherName) ∧
      ((Part.text "").StandsFor (.text list.itemType) ∧
        (Part.message "").StandsFor (.message list.itemType)) ∧
      (Part.text "").StandsFor (.text list.responseField) := by
  have itemType := Part.standsFor_name fits.itemType
  have iteratorName := Part.standsFor_name fits.iteratorName
  exact ⟨(Part.standsFor_name fits.methodName).1, (Part.standsFor_name fits.requestType).2.1,
    ⟨iteratorName.1, iteratorName.2.2.1, (Part.standsFor_declared fits.iteratorName).1⟩,
    (Part.standsFor_name fits.fetcherName).1, ⟨itemType.1, itemType.2.1⟩,
    (Part.standsFor_name fits.responseField).1⟩

theorem iterator_leads
    (fits : list.FitsCode) :
    Leads [] (iterator list) [] := by
  unfold iterator
  refine .append [] (.append [] (.append [] ?type ?constructor) ?next) ?results
  case type =>
    refine .of_sample (iteratorType sampleList) ?_ (by repeat constructor) rfl
    simp [StandFor, iteratorType, sampleList, sampleOperation, stands_of_list fits]
  case constructor =>
    refine .of_sample (iteratorConstructor sampleList) ?_ (by repeat constructor) rfl
    simp [StandFor, iteratorConstructor, sampleList, sampleOperation, stands_of_list fits]
  case next =>
    refine .of_sample (iteratorNext sampleList) ?_ (by repeat constructor) rfl
    simp [StandFor, iteratorNext, sampleList, sampleOperation, stands_of_list fits]
  case results =>
    refine .of_sample (iteratorResults sampleList) ?_ (by repeat constructor) rfl
    simp [StandFor, iteratorResults, sampleList, sampleOperation, stands_of_list fits]

end ListOperation

theorem fetcherType_leads
    {fetcher : PageFetcher}
    (name : IsInertText fetcher.name)
    (itemType : IsInertText fetcher.itemType) :
    Leads [] (fetcherType fetcher) [] := by
  refine .of_sample (fetcherType ⟨"", ""⟩) ?_ (by repeat constructor) rfl
  simp [StandFor, fetcherType, Part.standsFor_name name, Part.standsFor_name itemType]

theorem messageDeclaration_leads
    {name : String}
    (inert : IsInertText name) :
    Leads [] (messageDeclaration name) [] := by
  refine .of_sample (messageDeclaration "") ?_ (by repeat constructor) rfl
  simp [StandFor, messageDeclaration, Part.standsFor_name inert]

/-! Whole files. -/

section Model

variable {model : Model}

/-- What stands for the parts that a model fills in itself. -/
theorem stands_of_model
    (fits : model.FitsCode) :
    (Part.text "").StandsFor (.text model.package) ∧
      (Part.text "").StandsFor (.text model.protoPackage) ∧
      (Part.text quotedSample).StandsFor (.text model.packageImport) ∧
      (Part.text quotedSample).StandsFor (.text model.protoImport) :=
  ⟨(Part.standsFor_name fits.package).1, (Part.standsFor_name fits.protoPackage).1,
    .of_quotable rfl fits.packageImport, .of_quotable rfl fits.protoImport⟩

theorem packageLine_leads
    (fits : model.FitsCode) :
    Leads [] [[.text "package ", .text model.package]] [] := by
  refine .of_sample [[.text "package ", .text ""]] ?_ (by repeat constructor) rfl
  simp [StandFor, stands_of_model fits]

theorem messageImport_leads
    (fits : model.FitsCode) :
    Leads [] (messageImport model) [] := by
  cases quiet : model.operations.isEmpty with
  | true =>
      simp only [messageImport, quiet, ↓reduceIte]
      exact .nil []
  | false =>
      refine .of_sample (messageImport (sampleModel [sampleOperation ""])) ?_
        (by repeat constructor) rfl
      simp [StandFor, messageImport, quiet, sampleModel, stands_of_model fits]

theorem constantBlock_leads
    (fits : model.FitsCode) :
    Leads [] (constantBlock model) [] := by
  unfold constantBlock
  split
  · exact .nil []
  · refine .append [.parenthesis]
      (.append [.parenthesis] (.of_spell (by repeat constructor) rfl) ?_)
      (.of_spell (by repeat constructor) rfl)
    exact .map fun operation member =>
      (constantLine_leads (fits.operations operation member)).within [.parenthesis]

theorem clientLines_lead
    (fits : model.FitsCode) :
    Leads [] (clientLines model) [] := by
  unfold clientLines
  refine .append [] (.append [] (.append []
    (.append [] (.append [] (.append [.parenthesis]
      (.append [.parenthesis] ?head ?imports) ?close) ?constants) ?type) ?error)
        ?call) ?methods
  case head => exact .cons (packageLine_leads fits) (.of_spell (by repeat constructor) rfl)
  case imports => exact (messageImport_leads fits).within [.parenthesis]
  case close => exact .of_spell (by repeat constructor) rfl
  case constants => exact constantBlock_leads fits
  case type => exact .of_spell (by repeat constructor) rfl
  case error => exact .of_spell (by repeat constructor) rfl
  case call => exact .of_spell (by repeat constructor) rfl
  case methods =>
    exact .flatMap fun operation member => clientMethod_leads (fits.operations operation member)

-- The block after the routes is the longest one that is read at once.
set_option maxRecDepth 1000 in
theorem serverLines_lead
    (fits : model.FitsCode) :
    Leads [] (serverLines model) [] := by
  unfold serverLines
  refine .append [] (.append [.brace] (.append [.brace]
    (.append [.brace] (.append [.brace]
      (.append [.parenthesis] (.append [.parenthesis] ?head ?imports)
        ?service) ?methods) ?handler) ?routes) ?close) ?handle
  case head => exact .cons (packageLine_leads fits) (.of_spell (by repeat constructor) rfl)
  case imports => exact (messageImport_leads fits).within [.parenthesis]
  case service => exact .of_spell (by repeat constructor) rfl
  case methods =>
    exact .map fun operation member =>
      (serviceMethodLine_leads (fits.operations operation member)).within [.brace]
  case handler => exact .of_spell (by repeat constructor) rfl
  case routes =>
    exact .map fun operation member =>
      (routeLine_leads (fits.operations operation member)).within [.brace]
  case close => exact .of_spell (by repeat constructor) rfl
  case handle => exact .of_spell (by repeat constructor) rfl

theorem paginationLines_lead
    (fits : model.FitsCode) :
    Leads [] (paginationLines model) [] := by
  unfold paginationLines
  refine .append [] (.append [] ?head ?fetchers) ?iterators
  case head =>
    refine .of_sample (paginationLines (sampleModel [])) ?_ (by repeat constructor) rfl
    simp [StandFor, paginationLines, sampleModel, stands_of_model fits]
  case fetchers =>
    exact .flatMap fun fetcher member =>
      fetcherType_leads (fits.fetchers fetcher member).1 (fits.fetchers fetcher member).2
  case iterators =>
    exact .flatMap fun list member => iterator_leads (fits.lists list member)

theorem protoLines_lead
    (fits : model.FitsCode) :
    Leads [] (protoLines model) [] := by
  unfold protoLines
  refine .append [] ?head ?messages
  case head =>
    refine .of_sample (protoLines (sampleModel [])) ?_ (by repeat constructor) rfl
    simp [StandFor, protoLines, sampleModel, stands_of_model fits]
  case messages =>
    exact .flatMap fun name member => messageDeclaration_leads (fits.messages name member)

theorem daemonLines_lead
    (fits : model.FitsCode) :
    Leads [] (daemonLines model) [] := by
  have count : (Part.text (Nat.repr 0)).StandsFor (.text model.operations.length.repr) :=
    .of_isInert (isInertText_repr 0) (isInertText_repr model.operations.length)
  refine .of_sample (daemonLines (sampleModel [])) ?_ (by repeat constructor) rfl
  simp [StandFor, daemonLines, sampleModel, stands_of_model fits, count]

theorem serviceImport_leads
    (fits : model.FitsCode) :
    Leads [] (serviceImport model) [] := by
  cases quiet : model.operations.isEmpty with
  | true =>
      simp only [serviceImport, quiet, ↓reduceIte]
      exact .nil []
  | false =>
      refine .of_sample (serviceImport (sampleModel [sampleOperation ""])) ?_
        (by repeat constructor) rfl
      simp [StandFor, serviceImport, quiet, sampleModel, stands_of_model fits]

theorem serviceLines_lead
    (fits : model.FitsCode) :
    Leads [] (serviceLines model) [] := by
  unfold serviceLines
  refine .append [] (.append [] (.append [] ?head
    ?imports) ?constructor) ?methods
  case head => exact packageLine_leads fits
  case imports => exact serviceImport_leads fits
  case constructor => exact .of_spell (by repeat constructor) rfl
  case methods =>
    exact .flatMap fun operation member => implementation_leads (fits.operations operation member)

theorem testImport_leads
    (fits : model.FitsCode) :
    Leads [] (testImport model) [] := by
  cases quiet : model.operations.isEmpty with
  | true =>
      simp only [testImport, quiet, ↓reduceIte]
      exact .of_spell (by repeat constructor) rfl
  | false =>
      refine .of_sample (testImport (sampleModel [sampleOperation ""])) ?_
        (by repeat constructor) rfl
      simp [StandFor, testImport, quiet, sampleModel, stands_of_model fits]

theorem serviceTestLines_lead
    (fits : model.FitsCode) :
    Leads [] (serviceTestLines model) [] := by
  unfold serviceTestLines
  refine .append [] (.append [] (.append [] ?head
    ?imports) ?constructor) ?tests
  case head => exact packageLine_leads fits
  case imports => exact testImport_leads fits
  case constructor => exact .of_spell (by repeat constructor) rfl
  case tests =>
    exact .flatMap fun operation member => operationTest_leads (fits.operations operation member)

/-- The lines of every source file of a model that fits are balanced. -/
theorem lines_lead
    (fits : model.FitsCode)
    {artifact : Artifact}
    (isSource : artifact.comment = .slashes) :
    Leads [] (artifact.lines model) [] := by
  cases artifact with
  | client =>
      exact clientLines_lead fits
  | server =>
      exact serverLines_lead fits
  | pagination =>
      exact paginationLines_lead fits
  | proto =>
      exact protoLines_lead fits
  | daemon =>
      exact daemonLines_lead fits
  | service =>
      exact serviceLines_lead fits
  | serviceTest =>
      exact serviceTestLines_lead fits
  | makefile | buf | bufGen =>
      cases isSource

end Model

end Artifact

end RpcStubs
