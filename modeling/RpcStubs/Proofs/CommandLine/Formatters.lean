import RpcStubs.CommandLine.Program
namespace RpcStubs

/-!
# What formatters report

The formatters of a run fail to render and in no other way; above all, none of them reports
a failed write.
-/

namespace Source

/-- Normal layout fails only where it finds the brackets unbalanced. -/
theorem normal_eq_error
    {path source : String}
    {failure : Failure}
    (failed : normal path source = .error failure) :
    ∃ message, failure = .render path message := by
  simp only [normal] at failed
  split at failed
  · split at failed
    · cases failed
    · cases failed
      exact ⟨_, rfl⟩
  · cases failed

/-- A program that only fails to render makes a formatter that only fails to render. -/
theorem external_eq_error
    {program : Filter}
    (renders : ∀ source failure,
      program source = .error failure → ∃ place message, failure = .render place message)
    {path source : String}
    {failure : Failure}
    (failed : external program path source = .error failure) :
    ∃ place message, failure = .render place message := by
  unfold external at failed
  split at failed
  · split at failed
    · rename_i reported
      cases failed
      exact renders source _ reported
    · split at failed
      · cases failed
      · cases failed
        exact ⟨_, _, rfl⟩
  · cases failed

/-- A chain fails where one of its formatters does. -/
theorem chain_eq_error
    {formatters : List Formatter}
    {path source : String}
    {failure : Failure}
    (failed : chain formatters path source = .error failure) :
    ∃ formatter ∈ formatters, ∃ text, formatter path text = .error failure := by
  unfold chain at failed
  induction formatters generalizing source with
  | nil =>
      cases failed
  | cons formatter others inductionHypothesis =>
      rw [List.foldlM_cons] at failed
      cases formatted : formatter path source with
      | error cause =>
          rw [formatted] at failed
          cases failed
          exact ⟨formatter, by simp, source, formatted⟩
      | ok text =>
          rw [formatted] at failed
          obtain ⟨other, member, later, reported⟩ := inductionHypothesis failed
          exact ⟨other, List.mem_cons_of_mem _ member, later, reported⟩

end Source

/-- The formatters of a run only fail to render. -/
theorem CommandLine.formatterOf_eq_error
    {options : Options}
    {path source : String}
    {failure : Failure}
    (failed : formatterOf options path source = .error failure) :
    ∃ place message, failure = .render place message := by
  unfold formatterOf at failed
  split at failed
  · obtain ⟨formatter, member, text, reported⟩ := Source.chain_eq_error failed
    simp only [List.mem_cons, List.not_mem_nil, or_false] at member
    rcases member with rfl | rfl
    · exact ⟨path, Source.normal_eq_error reported⟩
    · refine Source.external_eq_error ?_ reported
      intro input cause missing
      cases missing
      exact ⟨_, _, rfl⟩
  · exact ⟨path, Source.normal_eq_error failed⟩

end RpcStubs
