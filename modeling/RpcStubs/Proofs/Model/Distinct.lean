import RpcStubs.Model
namespace RpcStubs

/-!
# Keeping the first of each key

`distinctBy` keeps of a list the first element of every key.  No key is left out, and no key
stands twice, so an element is found by its key alone.
-/

variable {α β : Type} [DecidableEq β]

theorem mem_of_mem_distinctBy
    {key : α → β}
    {element : α}
    {elements : List α}
    (member : element ∈ distinctBy key elements) :
    element ∈ elements := by
  induction elements with
  | nil =>
      simp [distinctBy] at member
  | cons first rest inductionHypothesis =>
      rcases List.mem_cons.mp member with rfl | later
      · simp
      · exact List.mem_cons_of_mem _ (inductionHypothesis (List.mem_filter.mp later).1)

/-- The kept elements have pairwise different keys. -/
theorem map_distinctBy_nodup
    (key : α → β)
    (elements : List α) :
    ((distinctBy key elements).map key).Nodup := by
  induction elements with
  | nil =>
      exact List.nodup_nil
  | cons first rest inductionHypothesis =>
      rw [distinctBy, List.map_cons, List.nodup_cons]
      constructor
      · intro member
        obtain ⟨other, kept, same⟩ := List.mem_map.mp member
        simpa [same] using (List.mem_filter.mp kept).2
      · exact inductionHypothesis.sublist (List.filter_sublist.map key)

/-- Every key is kept. -/
theorem exists_mem_distinctBy
    (key : α → β)
    {element : α}
    {elements : List α}
    (member : element ∈ elements) :
    ∃ first ∈ distinctBy key elements, key first = key element := by
  induction elements with
  | nil =>
      simp at member
  | cons first rest inductionHypothesis =>
      by_cases same : key first = key element
      · exact ⟨first, by simp [distinctBy], same⟩
      · have inRest : element ∈ rest := by
          rcases List.mem_cons.mp member with rfl | inRest
          · exact (same rfl).elim
          · exact inRest
        obtain ⟨other, kept, otherKey⟩ := inductionHypothesis inRest
        refine ⟨other, ?_, otherKey⟩
        have differs : key other ≠ key first := by
          rw [otherKey]
          exact Ne.symm same
        simp [distinctBy, kept, differs]

/-- The keys that are kept are the keys that there are. -/
theorem mem_map_distinctBy_iff
    {key : α → β}
    {elements : List α}
    {wanted : β} :
    wanted ∈ (distinctBy key elements).map key ↔ wanted ∈ elements.map key := by
  simp only [List.mem_map]
  constructor
  · rintro ⟨element, kept, same⟩
    exact ⟨element, mem_of_mem_distinctBy kept, same⟩
  · rintro ⟨element, member, rfl⟩
    obtain ⟨first, kept, same⟩ := exists_mem_distinctBy key member
    exact ⟨first, kept, same⟩

/-- Elements keep the order in which their keys first stand. -/
theorem distinctBy_pairwise
    (key : α → β)
    (elements : List α) :
    (distinctBy key elements).Pairwise fun earlier later =>
      (elements.map key).idxOf (key earlier) < (elements.map key).idxOf (key later) := by
  induction elements with
  | nil =>
      exact List.Pairwise.nil
  | cons first rest inductionHypothesis =>
      have further {other : α}
          (kept : other ∈ (distinctBy key rest).filter fun other => key other ≠ key first) :
          (key first :: rest.map key).idxOf (key other) =
            (rest.map key).idxOf (key other) + 1 := by
        have differs : key other ≠ key first := by
          simpa using (List.mem_filter.mp kept).2
        rw [List.idxOf_cons, beq_false_of_ne differs.symm, cond_false]
      rw [distinctBy, List.map_cons, List.pairwise_cons]
      constructor
      · intro other kept
        rw [List.idxOf_cons_self, further kept]
        omega
      · refine (inductionHypothesis.filter _).imp_of_mem ?_
        intro earlier later earlierKept laterKept ordered
        rw [further earlierKept, further laterKept]
        omega

/-- Of what is appended, the elements are kept whose keys are new. -/
theorem distinctBy_append
    (key : α → β)
    (first second : List α) :
    distinctBy key (first ++ second) =
      distinctBy key first ++
        (distinctBy key second).filter fun other => key other ∉ (distinctBy key first).map key := by
  simp only [mem_map_distinctBy_iff]
  induction first with
  | nil =>
      rw [List.filter_eq_self.mpr (by simp)]
      rfl
  | cons start rest inductionHypothesis =>
      rw [List.cons_append, distinctBy, distinctBy, inductionHypothesis, List.filter_append,
        List.filter_filter, List.cons_append]
      simp [List.mem_cons, not_or]

/-- Where no key stands twice, a key filters out the one element that has it. -/
theorem filter_eq_singleton
    {key : α → β}
    {elements : List α}
    (noDuplicates : (elements.map key).Nodup)
    {element : α}
    (member : element ∈ elements) :
    (elements.filter fun other => key other = key element) = [element] := by
  induction elements with
  | nil =>
      simp at member
  | cons first rest inductionHypothesis =>
      obtain ⟨firstFresh, restDistinct⟩ := List.nodup_cons.mp noDuplicates
      rcases List.mem_cons.mp member with rfl | inRest
      · have others : (rest.filter fun other => key other = key element) = [] := by
          rw [List.filter_eq_nil_iff]
          intro other otherMember same
          exact firstFresh (List.mem_map.mpr ⟨other, otherMember, by simpa using same⟩)
        simp [others]
      · have differs : key first ≠ key element := by
          intro same
          exact firstFresh (List.mem_map.mpr ⟨element, inRest, same.symm⟩)
        simpa [differs] using inductionHypothesis restDistinct inRest

/-- Where no key stands twice, an element is found by its key. -/
theorem find?_eq_some
    {key : α → β}
    {elements : List α}
    (noDuplicates : (elements.map key).Nodup)
    {element : α}
    (member : element ∈ elements) :
    (elements.find? fun other => key other = key element) = some element := by
  rw [← List.head?_filter, filter_eq_singleton noDuplicates member]
  rfl

end RpcStubs
