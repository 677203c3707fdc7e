import RpcStubs.Proofs.Text.Joined
import RpcStubs.Proofs.Text.Letters
import RpcStubs.Route
namespace RpcStubs

open Text

/-!
# The grammar of routes

Which texts are the paths of routes, said by the characters of their parts.  Reading a path and
writing the path of a route are inverse to each other: nothing of a path is lost, and the parts
of a route are read back as they are.
-/

namespace Route

/-- A version is the letter `v` and one or more digits. -/
def SpellsVersion (segment : List Char) : Prop :=
  ∃ digits, segment = 'v' :: digits ∧ digits ≠ [] ∧ ∀ digit ∈ digits, IsDigit digit

/-- A subject or a method is a letter, followed by letters, digits, hyphens and underscores. -/
def SpellsName (segment : List Char) : Prop :=
  ∃ first rest,
    segment = first :: rest ∧
      IsLetter first ∧
      ∀ character ∈ rest,
        IsLetter character ∨ IsDigit character ∨ character = '-' ∨ character = '_'

/-- The parts of a route are a version, a subject and a method. -/
structure IsWellFormed (route : Route) : Prop where
  version : SpellsVersion route.version.toList
  subject : SpellsName route.subject.toList
  method : SpellsName route.method.toList

variable {segment : List Char}

theorem isVersion_iff :
    isVersion segment = true ↔ SpellsVersion segment := by
  constructor
  · intro spelled
    unfold isVersion at spelled
    split at spelled
    · rename_i digits
      simp only [Bool.and_eq_true, Bool.not_eq_true', List.isEmpty_eq_false_iff,
        List.all_eq_true] at spelled
      exact ⟨digits, rfl, spelled.1, fun digit member => isDigit_iff.mp (spelled.2 digit member)⟩
    · cases spelled
  · rintro ⟨digits, rfl, nonempty, areDigits⟩
    simp only [isVersion, Bool.and_eq_true, Bool.not_eq_true', List.isEmpty_eq_false_iff,
      List.all_eq_true]
    exact ⟨nonempty, fun digit member => isDigit_iff.mpr (areDigits digit member)⟩

theorem isIdentifier_iff :
    isIdentifier segment = true ↔ SpellsName segment := by
  cases segment with
  | nil =>
      simp [isIdentifier, SpellsName]
  | cons first rest =>
      simp only [isIdentifier, SpellsName, Bool.and_eq_true, List.all_eq_true, Bool.or_eq_true,
        isSeparator, beq_iff_eq, isAlpha_iff, isAlphanum_iff, List.cons.injEq, or_assoc]
      constructor
      · rintro ⟨isFirst, others⟩
        exact ⟨first, rest, ⟨rfl, rfl⟩, isFirst, others⟩
      · rintro ⟨_, _, ⟨rfl, rfl⟩, isFirst, others⟩
        exact ⟨isFirst, others⟩

/-- A version has no slash in it. -/
theorem SpellsVersion.noSlash
    (version : SpellsVersion segment) :
    '/' ∉ segment := by
  obtain ⟨digits, rfl, _, areDigits⟩ := version
  intro member
  rcases List.mem_cons.mp member with isFirst | later
  · exact absurd isFirst (by decide)
  · exact absurd (isDigit_iff.mpr (areDigits _ later)) (by decide)

/-- A subject or a method has no point in it. -/
theorem SpellsName.noPoint
    (name : SpellsName segment) :
    '.' ∉ segment := by
  obtain ⟨first, rest, rfl, isFirst, others⟩ := name
  intro member
  rcases List.mem_cons.mp member with rfl | later
  · exact absurd (isAlpha_iff.mpr isFirst) (by decide)
  · rcases others _ later with letter | digit | hyphen | underscore
    · exact absurd (isAlpha_iff.mpr letter) (by decide)
    · exact absurd (isDigit_iff.mpr digit) (by decide)
    · exact absurd hyphen (by decide)
    · exact absurd underscore (by decide)

theorem toList_path
    (route : Route) :
    route.path.toList =
      '/' :: (route.version.toList ++
        '/' :: (route.subject.toList ++ '.' :: route.method.toList)) := by
  simp [path]

/-- A path is read as a route exactly when it is the path of that route. -/
theorem parse?_eq_some_iff
    {text : String}
    {route : Route} :
    parse? text = some route ↔ route.IsWellFormed ∧ route.path = text := by
  constructor
  · intro parsed
    unfold parse? at parsed
    split at parsed
    · rename_i rest shape
      split at parsed
      · rename_i version call cut
        split at parsed
        · rename_i subject method two
          split at parsed
          · rename_i spelled
            cases parsed
            simp only [Bool.and_eq_true, isVersion_iff, isIdentifier_iff] at spelled
            refine ⟨⟨?_, ?_, ?_⟩, ?_⟩
            · simpa using spelled.1.1
            · simpa using spelled.1.2
            · simpa using spelled.2
            · apply String.toList_inj.mp
              rw [toList_path, shape, eq_of_cutFirst_eq_some cut,
                (pieces_eq_pair_iff.mp two).1]
              simp
          · cases parsed
        · cases parsed
      · cases parsed
    · cases parsed
  · rintro ⟨wellFormed, rfl⟩
    have two := pieces_eq_pair_iff.mpr
      ⟨rfl, wellFormed.subject.noPoint, wellFormed.method.noPoint⟩
    unfold parse?
    simp only [toList_path, cutFirst_append wellFormed.version.noSlash, two,
      isVersion_iff.mpr wellFormed.version, isIdentifier_iff.mpr wellFormed.subject,
      isIdentifier_iff.mpr wellFormed.method, Bool.and_self, if_true, String.ofList_toList]

theorem parse_eq_ok_iff
    {text : String}
    {route : Route} :
    parse text = .ok route ↔ route.IsWellFormed ∧ route.path = text := by
  rw [← parse?_eq_some_iff]
  unfold parse
  cases parse? text <;> simp

theorem parse_eq_error_iff
    {text : String}
    {failure : Failure} :
    parse text = .error failure ↔
      failure = .route text ∧ ¬∃ route : Route, route.IsWellFormed ∧ route.path = text := by
  simp only [← parse?_eq_some_iff]
  unfold parse
  cases parse? text <;> simp [eq_comm]

theorem isWellFormed_iff
    {route : Route} :
    route.IsWellFormed ↔
      isVersion route.version.toList = true ∧
        isIdentifier route.subject.toList = true ∧
        isIdentifier route.method.toList = true := by
  rw [isVersion_iff, isIdentifier_iff, isIdentifier_iff]
  constructor
  · rintro ⟨version, subject, method⟩
    exact ⟨version, subject, method⟩
  · rintro ⟨version, subject, method⟩
    exact ⟨version, subject, method⟩

/--
Reading a path is exact.

A path is read as a route exactly when the parts of the route follow the grammar and make up the
path, so that nothing is lost and every route of such parts is read back from its path.  Any
other text fails with a failure that names it.  The predicates that reading tests its segments
with say what the grammar says.
-/
theorem parse_exact :
    (∀ text route, parse text = .ok route ↔ route.IsWellFormed ∧ route.path = text) ∧
      (∀ text failure,
        parse text = .error failure ↔
          failure = .route text ∧ ¬∃ route : Route, route.IsWellFormed ∧ route.path = text) ∧
      ∀ route : Route,
        route.IsWellFormed ↔
          isVersion route.version.toList = true ∧
            isIdentifier route.subject.toList = true ∧
            isIdentifier route.method.toList = true :=
  ⟨fun _ _ => parse_eq_ok_iff, fun _ _ => parse_eq_error_iff, fun _ => isWellFormed_iff⟩

/-- No further slash or point, and a letter in front. -/
example :
    ["/v1/user-groups.add_member", "/v1/users/create", "/v1/users.create.now",
        "/v1/_users.get"].map (fun text => (parse text).isOk) =
      [true, false, false, false] := by
  decide

end Route

end RpcStubs
