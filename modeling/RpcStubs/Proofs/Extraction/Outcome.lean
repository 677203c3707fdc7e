import RpcStubs.Proofs.Extraction.Kept
namespace RpcStubs.Extraction

/-!
# The outcome of extraction

Extraction walks the declared paths once.  It fails exactly when a path offends, with the
first one that does; otherwise it returns exactly the kept operations.
-/

/-- Lists stay clean as long as the path that follows does not offend. -/
theorem Clean.snoc
    {document : Document}
    {entries : List Declared}
    {entry : Declared}
    (clean : Clean document entries)
    (harmless : ∀ side, ¬OffendsAfter document entries entry side) :
    Clean document (entries ++ [entry]) := by
  intro earlier other later shape side offends
  rcases List.eq_nil_or_concat later with rfl | ⟨middle, last, rfl⟩
  · obtain ⟨rfl, same⟩ := List.append_inj' shape rfl
    cases same
    exact harmless side offends
  · have regrouped : entries ++ [entry] = (earlier ++ other :: middle) ++ [last] := by
      simp [shape]
    obtain ⟨rfl, _⟩ := List.append_inj' regrouped rfl
    exact clean earlier other middle rfl side offends

/-- What walking the rest of the declared paths comes to, after the given ones. -/
def Outcome (document : Document) (earlier rest : List Declared) :
    Except Failure (List Operation) → Prop
  | .ok operations =>
      Kept document (earlier ++ rest) operations ∧ Clean document (earlier ++ rest)
  | .error failure =>
      ∃ middle entry later side,
        rest = middle ++ entry :: later ∧
          failure = .inlineSchema entry.1 side ∧
          OffendsAfter document (earlier ++ middle) entry side ∧
          Clean document (earlier ++ middle)

/-- An outcome after one more path is an outcome before it. -/
theorem Outcome.cons
    {document : Document}
    {earlier rest : List Declared}
    {entry : Declared}
    {result : Except Failure (List Operation)}
    (outcome : Outcome document (earlier ++ [entry]) rest result) :
    Outcome document earlier (entry :: rest) result := by
  cases result with
  | ok operations =>
      simpa [Outcome] using outcome
  | error failure =>
      obtain ⟨middle, offender, later, side, shape, named, offends, clean⟩ := outcome
      refine ⟨entry :: middle, offender, later, side, by simp [shape], named, ?_, ?_⟩
      · simpa using offends
      · simpa using clean

theorem walk_cons_of_error
    {document : Document}
    {kept : List Operation}
    {entry : Declared}
    {rest : List Declared}
    {failure : Failure}
    (judged : judge document kept entry.1 entry.2 = .error failure) :
    walk document kept (entry :: rest) = ([], .error failure) := by
  obtain ⟨path, item⟩ := entry
  simp only [walk, judged]

theorem walk_cons_of_ok
    {document : Document}
    {kept : List Operation}
    {entry : Declared}
    {rest : List Declared}
    {report : Report}
    (judged : judge document kept entry.1 entry.2 = .ok report) :
    walk document kept (entry :: rest) =
      let later := walk document (kept ++ (operationOf? report).toList) rest
      (⟨entry.1, report⟩ :: later.1, later.2) := by
  obtain ⟨path, item⟩ := entry
  simp only [walk, judged]

/-- A path that is judged extends the kept operations by what its report brings. -/
theorem Kept.of_judge
    {document : Document}
    {entries : List Declared}
    {kept : List Operation}
    {entry : Declared}
    {report : Report}
    (keptSoFar : Kept document entries kept)
    (judged : judge document kept entry.1 entry.2 = .ok report) :
    Kept document (entries ++ [entry]) (kept ++ (operationOf? report).toList) := by
  cases report with
  | extracted operation =>
      exact .keep keptSoFar (judge_eq_extracted_iff.mp judged)
  | skipped _ | withoutOffset | withoutItems =>
      simp only [operationOf?, Option.toList_none, List.append_nil]
      refine .pass keptSoFar ?_
      intro operation brought
      rw [judge_eq_extracted_iff.mpr brought] at judged
      cases judged

/-- A path that is judged does not offend. -/
theorem not_offendsAfter_of_judge
    {document : Document}
    {entries : List Declared}
    {kept : List Operation}
    {entry : Declared}
    {report : Report}
    (keptSoFar : Kept document entries kept)
    (judged : judge document kept entry.1 entry.2 = .ok report)
    (side : Side) :
    ¬OffendsAfter document entries entry side := by
  rintro ⟨other, otherKept, offends⟩
  cases otherKept.unique keptSoFar
  rw [judge_eq_error_iff.mpr ⟨side, offends, rfl⟩] at judged
  cases judged

/-- Walking the rest of the paths follows the specification, from any clean start. -/
theorem walk_outcome
    {document : Document}
    {earlier : List Declared}
    {kept : List Operation}
    (rest : List Declared)
    (keptSoFar : Kept document earlier kept)
    (clean : Clean document earlier) :
    Outcome document earlier rest (walk document kept rest).2 := by
  induction rest generalizing earlier kept with
  | nil =>
      simpa [walk, Outcome] using And.intro keptSoFar clean
  | cons entry rest inductionHypothesis =>
      cases judged : judge document kept entry.1 entry.2 with
      | error failure =>
          obtain ⟨side, offends, named⟩ := judge_eq_error_iff.mp judged
          rw [walk_cons_of_error judged]
          refine ⟨[], entry, rest, side, rfl, named, ?_, ?_⟩
          · simpa using ⟨kept, keptSoFar, offends⟩
          · simpa using clean
      | ok report =>
          rw [walk_cons_of_ok judged]
          exact (inductionHypothesis (keptSoFar.of_judge judged)
            (clean.snoc (not_offendsAfter_of_judge keptSoFar judged))).cons

theorem clean_nil
    (document : Document) :
    Clean document [] := by
  intro earlier entry later shape
  simp at shape

/-- Extracting a document follows the specification. -/
theorem operations_outcome
    (document : Document) :
    Outcome document [] document.paths.entries document.operations :=
  walk_outcome document.paths.entries .start (clean_nil document)

/-- A path after clean ones stands no later than a path that offends. -/
theorem Clean.no_later
    {document : Document}
    {earlier offenders later others : List Declared}
    {entry offender : Declared}
    {side : Side}
    (shape : earlier ++ entry :: later = offenders ++ offender :: others)
    (clean : Clean document earlier)
    (offends : OffendsAfter document offenders offender side) :
    ∃ between, offenders = earlier ++ between := by
  rcases List.append_eq_append_iff.mp shape with
      ⟨between, offendersShape, _⟩ | ⟨between, earlierShape, rest⟩
  · exact ⟨between, offendersShape⟩
  · cases between with
    | nil =>
        exact ⟨[], by simpa using earlierShape.symm⟩
    | cons first between =>
        simp only [List.cons_append, List.cons.injEq] at rest
        obtain ⟨rfl, _⟩ := rest
        exact (clean offenders offender between earlierShape side offends).elim

/-- A path offends on one side at most. -/
theorem OffendsAfter.side_unique
    {document : Document}
    {earlier : List Declared}
    {entry : Declared}
    {first second : Side}
    (firstOffends : OffendsAfter document earlier entry first)
    (secondOffends : OffendsAfter document earlier entry second) :
    first = second := by
  obtain ⟨_, _, _, call, candidate, _, unnamed⟩ := firstOffends
  obtain ⟨_, _, _, other, otherCandidate, _, otherUnnamed⟩ := secondOffends
  obtain ⟨_, rfl⟩ := candidate.unique otherCandidate
  exact unnamed.unique otherUnnamed

/-- Only one path is the first that offends. -/
theorem FirstOffence.unique
    {document : Document}
    {firstPath secondPath : String}
    {firstSide secondSide : Side}
    (first : FirstOffence document firstPath firstSide)
    (second : FirstOffence document secondPath secondSide) :
    firstPath = secondPath ∧ firstSide = secondSide := by
  obtain ⟨earlier, item, later, shape, offends, clean⟩ := first
  obtain ⟨otherEarlier, otherItem, otherLater, otherShape, otherOffends, otherClean⟩ :=
    second
  have sameEntries := shape.symm.trans otherShape
  obtain ⟨between, ahead⟩ := clean.no_later sameEntries otherOffends
  obtain ⟨behind, back⟩ := otherClean.no_later sameEntries.symm offends
  have samePosition : otherEarlier = earlier := by
    have lengths := congrArg List.length back
    simp only [ahead, List.length_append] at lengths
    have empty : between = [] := List.eq_nil_of_length_eq_zero (by omega)
    simpa [empty] using ahead
  subst samePosition
  have sameRest := List.append_cancel_left sameEntries
  simp only [List.cons.injEq, Prod.mk.injEq] at sameRest
  obtain ⟨⟨rfl, rfl⟩, _⟩ := sameRest
  exact ⟨rfl, offends.side_unique otherOffends⟩

/-- Extraction fails exactly when a declared path offends, and names the first that does. -/
theorem operations_eq_error_iff
    {document : Document}
    {failure : Failure} :
    document.operations = .error failure ↔
      ∃ path side,
        failure = .inlineSchema path side ∧ FirstOffence document path side := by
  have outcome := operations_outcome document
  cases result : document.operations with
  | ok operations =>
      rw [result] at outcome
      obtain ⟨_, clean⟩ := outcome
      constructor
      · intro failed
        cases failed
      · rintro ⟨path, side, _, earlier, item, later, shape, offends, _⟩
        exact (clean earlier (path, item) later shape side offends).elim
  | error found =>
      rw [result] at outcome
      obtain ⟨middle, ⟨path, item⟩, later, side, shape, rfl, offends, clean⟩ := outcome
      have firstOffence : FirstOffence document path side :=
        ⟨middle, item, later, shape, offends, clean⟩
      constructor
      · intro failed
        cases failed
        exact ⟨path, side, rfl, firstOffence⟩
      · rintro ⟨otherPath, otherSide, rfl, other⟩
        obtain ⟨rfl, rfl⟩ := firstOffence.unique other
        rfl

/-- Extraction succeeds exactly when no declared path offends, with the kept operations. -/
theorem operations_eq_ok_iff
    {document : Document}
    {operations : List Operation} :
    document.operations = .ok operations ↔
      (∀ path side, ¬Offence document path side) ∧
        Kept document document.paths.entries operations := by
  have outcome := operations_outcome document
  cases result : document.operations with
  | ok found =>
      rw [result] at outcome
      obtain ⟨keptAll, clean⟩ := outcome
      constructor
      · intro same
        cases same
        refine ⟨?_, keptAll⟩
        rintro path side ⟨earlier, item, later, shape, offends⟩
        exact clean earlier (path, item) later shape side offends
      · rintro ⟨_, otherKept⟩
        rw [Kept.unique keptAll otherKept]
  | error failure =>
      rw [result] at outcome
      obtain ⟨middle, ⟨path, item⟩, later, side, shape, _, offends, _⟩ := outcome
      constructor
      · intro same
        cases same
      · rintro ⟨harmless, _⟩
        exact (harmless path side ⟨middle, item, later, shape, offends⟩).elim

/--
Extraction is its specification, on every document.

It fails exactly when some unshadowed candidate lacks the name of a schema, and then names the
first such path and the side; otherwise it returns exactly the unshadowed candidates whose two
schemas are references, in declared order and with pairwise different names.
-/
theorem operations_specified
    (document : Document) :
    (∀ failure,
        document.operations = .error failure ↔
          ∃ path side,
            failure = .inlineSchema path side ∧ FirstOffence document path side) ∧
      ((∃ failure, document.operations = .error failure) ↔
        ∃ path side, Offence document path side) ∧
      (∀ operations,
        document.operations = .ok operations ↔
          (∀ path side, ¬Offence document path side) ∧
            Kept document document.paths.entries operations) ∧
      ∀ operations,
        document.operations = .ok operations →
          (operations.map Operation.path).Sublist document.paths.names ∧
            (operations.map Operation.methodName).Nodup ∧
            (operations.map Operation.constantName).Nodup := by
  refine ⟨fun _ => operations_eq_error_iff, ?_, fun _ => operations_eq_ok_iff, ?_⟩
  · constructor
    · rintro ⟨failure, failed⟩
      obtain ⟨path, side, _, earlier, item, later, shape, offends, _⟩ :=
        operations_eq_error_iff.mp failed
      exact ⟨path, side, earlier, item, later, shape, offends⟩
    · rintro ⟨path, side, offence⟩
      cases result : document.operations with
      | ok operations =>
          exact ((operations_eq_ok_iff.mp result).1 path side offence).elim
      | error failure =>
          exact ⟨failure, rfl⟩
  · intro operations extracted
    obtain ⟨_, keptAll⟩ := operations_eq_ok_iff.mp extracted
    exact ⟨keptAll.paths_sublist, keptAll.methodNames_nodup, keptAll.constantNames_nodup⟩

end RpcStubs.Extraction
