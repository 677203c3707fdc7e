import RpcStubs.Proofs.Artifact.Templates
import RpcStubs.Proofs.Document.PlainNames
import RpcStubs.Proofs.Listing.Fetchers
import RpcStubs.Proofs.Model.Distinct
import RpcStubs.Proofs.Route.Grammar
import RpcStubs.Proofs.Summary
namespace RpcStubs

open Text Source Artifact

/-!
# Models that fit into code

The model of a document that uses plain names fits into generated code: routes spell
identifiers and paths without quotes, summaries are one line, and everything else in the model
is a plain name or made from plain names.
-/

/-- Whether what a configuration puts into generated files fits there. -/
structure Configuration.FitsCode (configuration : Configuration) : Prop where
  package : ∃ reserved, Package.fault? configuration.package reserved = none
  packageImport : IsQuotable configuration.packageImport
  protoImport : IsQuotable configuration.protoImport
  protoPackage : IsPlainName configuration.protoPackage

/-! Characters of names. -/

theorem isInert_of_isNameCharacter
    {character : Char}
    (isName : isNameCharacter character = true) :
    isInert character = true :=
  isInert_of_isKind (by decide) isName

/-- A plain name means nothing to a check. -/
theorem IsPlainName.isInertText
    {name : String}
    (plain : IsPlainName name) :
    IsInertText name :=
  fun character member => isInert_of_isNameCharacter (plain character member)

theorem toNat_lt_of_isNameCharacter
    {character : Char}
    (isName : isNameCharacter character = true) :
    character.toNat < 128 := by
  simp only [isNameCharacter, Bool.or_eq_true, beq_iff_eq] at isName
  rcases isName with ((alphanum | rfl) | rfl) | rfl
  · exact toNat_lt_of_isAlphanum alphanum
  · decide
  · decide
  · decide

theorem isInert_of_mem_capital
    {character other : Char}
    (isName : isNameCharacter character = true)
    (member : other ∈ capital character) :
    isInert other = true := by
  have ascii := toNat_lt_of_isNameCharacter isName
  have inert :=
    of_ascii
      (fun character => isNameCharacter character = true → isInert character.toUpper = true)
      (by decide) ascii
  rw [capital_of_ascii ascii, List.mem_singleton] at member
  exact member ▸ inert isName

theorem isInert_of_mem_capitalized
    {name : List Char}
    {character : Char}
    (plain : ∀ other ∈ name, isNameCharacter other = true)
    (member : character ∈ capitalized name) :
    isInert character = true := by
  cases name with
  | nil =>
      cases member
  | cons first rest =>
      rw [capitalized, List.mem_append] at member
      rcases member with inCapital | inRest
      · exact isInert_of_mem_capital (plain first (by simp)) inCapital
      · exact isInert_of_isNameCharacter (plain character (by simp [inRest]))

/-! Routes. -/

namespace Route

theorem isNameCharacter_of_isIdentifier
    {segment : List Char}
    (identifier : isIdentifier segment = true) :
    ∀ character ∈ segment, isNameCharacter character = true := by
  cases segment with
  | nil =>
      simp
  | cons first rest =>
      simp only [isIdentifier, Bool.and_eq_true, List.all_eq_true, isSeparator] at identifier
      intro character member
      rcases List.mem_cons.mp member with rfl | later
      · simp [isNameCharacter, Char.isAlphanum, identifier.1]
      · have := identifier.2 character later
        simp only [isNameCharacter, Bool.or_eq_true] at this ⊢
        tauto

theorem isNameCharacter_of_isVersion
    {segment : List Char}
    (version : isVersion segment = true) :
    ∀ character ∈ segment, isNameCharacter character = true := by
  unfold isVersion at version
  split at version
  · rename_i digits
    simp only [Bool.and_eq_true, List.all_eq_true] at version
    intro character member
    rcases List.mem_cons.mp member with rfl | later
    · decide
    · simp [isNameCharacter, Char.isAlphanum, version.2 character later]
  · cases version

/-- The path of a route has name characters and slashes only. -/
theorem isNameCharacter_of_mem_path
    {path : String}
    {route : Route}
    (parsed : parse? path = some route) :
    ∀ character ∈ path.toList, isNameCharacter character = true ∨ character = '/' := by
  obtain ⟨wellFormed, rfl⟩ := parse?_eq_some_iff.mp parsed
  have version := isNameCharacter_of_isVersion (isVersion_iff.mpr wellFormed.version)
  have subject := isNameCharacter_of_isIdentifier (isIdentifier_iff.mpr wellFormed.subject)
  have method := isNameCharacter_of_isIdentifier (isIdentifier_iff.mpr wellFormed.method)
  intro character member
  rw [toList_path] at member
  simp only [List.mem_cons, List.mem_append] at member
  rcases member with slash | inVersion | slash | inSubject | point | inMethod
  · exact Or.inr slash
  · exact Or.inl (version character inVersion)
  · exact Or.inr slash
  · exact Or.inl (subject character inSubject)
  · exact Or.inl (point ▸ by decide)
  · exact Or.inl (method character inMethod)

theorem isQuotable_path
    {path : String}
    {route : Route}
    (parsed : parse? path = some route) :
    IsQuotable path := by
  have characters := isNameCharacter_of_mem_path parsed
  refine ⟨fun member => ?_, fun member => ?_, fun member => ?_⟩ <;>
    exact absurd (characters _ member) (by decide)

theorem isInert_of_mem_identifier
    {segment : List Char}
    {character : Char}
    (plain : ∀ other ∈ segment, isNameCharacter other = true)
    (member : character ∈ identifier segment) :
    isInert character = true := by
  obtain ⟨word, wordMember, inWord⟩ := List.mem_flatMap.mp member
  have isPiece := (List.mem_filter.mp wordMember).1
  refine isInert_of_mem_capitalized (fun other otherMember => ?_) inWord
  have free := free_of_mem_pieces isPiece other otherMember
  exact plain other ((mem_iff_mem_pieces _ free).mpr ⟨word, isPiece, otherMember⟩)

/-- The method of a route means nothing to a check. -/
theorem isInertText_methodName
    {path : String}
    {route : Route}
    (parsed : parse? path = some route) :
    IsInertText route.methodName := by
  obtain ⟨wellFormed, rfl⟩ := parse?_eq_some_iff.mp parsed
  have subject := isNameCharacter_of_isIdentifier (isIdentifier_iff.mpr wellFormed.subject)
  have method := isNameCharacter_of_isIdentifier (isIdentifier_iff.mpr wellFormed.method)
  intro character member
  simp only [methodName, String.toList_ofList, List.mem_append] at member
  rcases member with inSubject | inMethod
  · exact isInert_of_mem_identifier subject inSubject
  · exact isInert_of_mem_identifier method inMethod

end Route

/-! Summaries. -/

/-- A summary has no line break. -/
theorem Summary.not_mem_ofText
    (text : String) :
    '\n' ∉ (ofText text).toList := by
  rw [ofText, String.toList_ofList]
  intro broken
  exact absurd ((isOneLine_flatten text.toList).onlySpaces _ broken (by decide)) (by decide)

/-! Operations and list operations. -/

/-- An operation that is kept describes one of the declared paths. -/
theorem Extraction.Kept.exists_describes
    {document : Document}
    {entries : List Declared}
    {kept : List Operation}
    (keptSoFar : Kept document entries kept)
    {operation : Operation}
    (member : operation ∈ kept) :
    ∃ entry ∈ entries, ∃ route call,
      Candidate entry route call ∧ Describes document entry.1 route call operation := by
  induction keptSoFar with
  | start =>
      cases member
  | keep _ brought inductionHypothesis =>
      rcases List.mem_append.mp member with earlier | isLast
      · obtain ⟨entry, entryMember, described⟩ := inductionHypothesis earlier
        exact ⟨entry, List.mem_append_left _ entryMember, described⟩
      · obtain ⟨route, call, candidate, _, describes⟩ := brought
        rw [List.mem_singleton.mp isLast]
        exact ⟨_, by simp, route, call, candidate, describes⟩
  | pass _ _ inductionHypothesis =>
      obtain ⟨entry, entryMember, described⟩ := inductionHypothesis member
      exact ⟨entry, List.mem_append_left _ entryMember, described⟩

section Document

variable {document : Document} {operations : List Operation} {operation : Operation}

/-- The names of the messages of an operation are used by the document, and it answers. -/
theorem exists_of_mem_operations
    (extracted : document.operations = .ok operations)
    (member : operation ∈ operations) :
    (∃ route, Route.parse? operation.path = some route ∧
        operation.methodName = route.methodName ∧ operation.constantName = route.constantName) ∧
      (∃ call, operation.summary = Extraction.summaryOf call) ∧
      document.UsesName operation.requestType ∧
      ∃ target, document.Answers target ∧ Ref.nameOf target = operation.responseType := by
  obtain ⟨_, keptAll⟩ := Extraction.operations_eq_ok_iff.mp extracted
  obtain ⟨entry, entryMember, route, call, candidate, describes⟩ :=
    keptAll.exists_describes member
  refine ⟨⟨route, describes.path ▸ candidate.1, describes.methodName, describes.constantName⟩,
    ⟨call, describes.summary⟩, ?_, ?_⟩
  · obtain ⟨target, asks, ends⟩ := describes.request
    rw [← Ref.nameOf_eq_iff.mpr ends]
    exact .request ⟨entry, entryMember, route, call, candidate, asks⟩
  · obtain ⟨target, answers, ends⟩ := describes.response
    exact ⟨target, ⟨entry, entryMember, route, call, candidate, answers⟩,
      Ref.nameOf_eq_iff.mpr ends⟩

theorem Operation.fitsCode_of_mem
    (plain : document.UsesPlainNames)
    (extracted : document.operations = .ok operations)
    (member : operation ∈ operations) :
    operation.FitsCode := by
  obtain ⟨⟨route, parsed, methodName, constantName⟩, ⟨call, summary⟩, asks, target, answers,
    ends⟩ := exists_of_mem_operations extracted member
  have method := Route.isInertText_methodName parsed
  have constant : IsInertText "RPC" := by decide
  refine ⟨methodName ▸ method, ?_, Route.isQuotable_path parsed, ?_,
    (plain _ asks).isInertText, ?_⟩
  · rw [constantName, Route.constantName, Route.constantFor]
    exact constant.append method
  · rw [summary, Extraction.summaryOf]
    split
    · exact Summary.not_mem_ofText _
    · simp
  · rw [← ends]
    exact (plain _ (.response answers)).isInertText

/-- The page of a list operation names a property of a response, and its items. -/
theorem Listing.usesName_of_classify?
    {list : ListOperation}
    {target : String}
    (answers : document.Answers target)
    (ends : Ref.nameOf target = operation.responseType)
    (classified : classify? document operation = some list) :
    ∃ page,
      list = listOperation operation page ∧
        document.UsesName page.field ∧
        document.UsesName page.itemType := by
  unfold classify? at classified
  cases judged : judge document operation with
  | none report =>
      simp [judged] at classified
  | list found =>
      simp only [judged, Option.some.injEq] at classified
      subst classified
      unfold judge at judged
      repeat' split at judged
      all_goals simp only [Verdict.list.injEq, reduceCtorEq] at judged
      rename_i response declared _ page shown
      refine ⟨page, judged.symm, ?_⟩
      rw [← ends] at declared
      obtain ⟨property, member, held⟩ := List.exists_of_findSome?_eq_some shown
      unfold pageOf? at held
      split at held
      · cases held
      · rename_i schema resolved
        split at held
        · rename_i itemTarget items
          cases held
          exact ⟨.field answers declared member, .item answers declared member resolved items⟩
        · cases held

theorem ListOperation.fitsCode_of_mem
    (plain : document.UsesPlainNames)
    (extracted : document.operations = .ok operations)
    {list : ListOperation}
    (member : list ∈ Listing.classify document operations) :
    list.FitsCode := by
  obtain ⟨operation, operationMember, classified⟩ := List.mem_filterMap.mp member
  have fits := Operation.fitsCode_of_mem plain extracted operationMember
  obtain ⟨_, _, _, target, answers, ends⟩ := exists_of_mem_operations extracted operationMember
  obtain ⟨page, rfl, field, itemType⟩ :=
    Listing.usesName_of_classify? answers ends classified
  have iterator : IsInertText "Iter" := by decide
  have fetcher : IsInertText "PageFetcher" := by decide
  refine ⟨fits.methodName, fits.requestType, fits.methodName.append iterator, ?_,
    (plain _ itemType).isInertText, ?_⟩
  · refine IsInertText.append (fun character inName => ?_) fetcher
    rw [String.toList_ofList, Listing.withoutEnding] at inName
    split at inName
    · exact (plain _ itemType).isInertText character (List.mem_of_mem_take inName)
    · exact (plain _ itemType).isInertText character inName
  · intro character inField
    rw [Listing.listOperation, String.toList_ofList] at inField
    exact isInert_of_mem_capitalized (plain _ field) inField

end Document

/-! Packages. -/

namespace Package

theorem fault?_eq_none_iff
    {name reserved : String} :
    fault? name reserved = none ↔
      isBareIdentifier name.toList = true ∧ name ≠ reserved ∧ name ∉ keywords := by
  by_cases isEmpty : name = ""
  · subst isEmpty
    simp [fault?, isBareIdentifier]
  · rw [fault?, if_neg isEmpty]
    split_ifs with malformed isReserved isKeyword <;> simp_all

/-- Names of packages consist of letters, digits and underscores. -/
theorem isAlphanum_or_eq_underscore
    {text : List Char}
    (bare : isBareIdentifier text = true) :
    ∀ character ∈ text, character.isAlphanum = true ∨ character = '_' := by
  cases text with
  | nil =>
      cases bare
  | cons first rest =>
      simp only [isBareIdentifier, Bool.and_eq_true, Bool.or_eq_true, beq_iff_eq,
        List.all_eq_true] at bare
      intro character member
      rcases List.mem_cons.mp member with rfl | later
      · exact bare.1.imp_left fun alpha => by rw [Char.isAlphanum, alpha, Bool.true_or]
      · exact bare.2 character later

end Package

/-! Models. -/

theorem Configuration.FitsCode.isInertText_package
    {configuration : Configuration}
    (fits : configuration.FitsCode) :
    IsInertText configuration.package := by
  obtain ⟨reserved, accepted⟩ := fits.package
  intro character member
  apply isInert_of_isNameCharacter
  rcases Package.isAlphanum_or_eq_underscore (Package.fault?_eq_none_iff.mp accepted).1
    character member with alphanum | rfl
  · simp [isNameCharacter, alphanum]
  · rfl

/-- The model of a document that uses plain names fits into code. -/
theorem Model.build_fitsCode
    {document : Document}
    {configuration : Configuration}
    {operations : List Operation}
    (plain : document.UsesPlainNames)
    (fits : configuration.FitsCode)
    (extracted : document.operations = .ok operations)
    (time : Instant) :
    (Model.build configuration operations (Listing.classify document operations) time).FitsCode
    where
  package := fits.isInertText_package
  packageImport := fits.packageImport
  protoImport := fits.protoImport
  protoPackage := fits.protoPackage.isInertText
  operations := fun _ member => Operation.fitsCode_of_mem plain extracted member
  lists := fun _ member => ListOperation.fitsCode_of_mem plain extracted member
  fetchers := by
    intro fetcher member
    obtain ⟨list, listMember, rfl⟩ := List.mem_map.mp (mem_of_mem_distinctBy member)
    have listFits := ListOperation.fitsCode_of_mem plain extracted listMember
    exact ⟨listFits.fetcherName, listFits.itemType⟩
  messages := by
    intro message member
    obtain ⟨operation, operationMember, named⟩ :=
      List.mem_flatMap.mp (mem_of_mem_distinctBy member)
    have operationFits := Operation.fitsCode_of_mem plain extracted operationMember
    simp only [List.mem_cons, List.not_mem_nil, or_false] at named
    rcases named with rfl | rfl
    · exact operationFits.requestType
    · exact operationFits.responseType

end RpcStubs
