import RpcStubs.Files.Tree
import RpcStubs.Proofs.Text.Pieces
namespace RpcStubs.Files.Path

open Text

/-!
# The names along a path

An absolute path without `..` leads from the top along the names among its pieces.  Joining
appends names, and the paths above a path have fewer of the same names.
-/

/-- The pieces that say where to go: all but the idle ones. -/
def steps (pieces : List String) : List String :=
  pieces.filter fun piece => !isIdle piece

/-- The names along a path. -/
def names (path : String) : List String :=
  steps (piecesOf path)

/-- A path that leads from the top and never back up. -/
structure IsStraight (path : String) : Prop where
  absolute : isAbsolute path = true
  noUp : ".." ∉ piecesOf path

theorem IsStraight.ne_empty
    {path : String}
    (straight : IsStraight path) :
    path ≠ "" := by
  rintro rfl
  cases straight.absolute

/-- A text that can be the name of a file: not empty, no dots with a meaning, no slash. -/
structure IsName (name : String) : Prop where
  notIdle : isIdle name = false
  notUp : name ≠ ".."
  noSlash : '/' ∉ name.toList

instance (name : String) : Decidable (IsName name) :=
  decidable_of_iff (isIdle name = false ∧ name ≠ ".." ∧ '/' ∉ name.toList)
    ⟨fun ⟨notIdle, notUp, noSlash⟩ => ⟨notIdle, notUp, noSlash⟩,
      fun isName => ⟨isName.notIdle, isName.notUp, isName.noSlash⟩⟩

@[simp] theorem steps_nil : steps [] = [] := rfl

@[simp] theorem steps_append
    (first second : List String) :
    steps (first ++ second) = steps first ++ steps second := by
  simp [steps]

theorem steps_cons_of_idle
    {piece : String}
    (idle : isIdle piece = true)
    (rest : List String) :
    steps (piece :: rest) = steps rest := by
  simp [steps, idle]

theorem steps_cons_of_not_idle
    {piece : String}
    (step : isIdle piece = false)
    (rest : List String) :
    steps (piece :: rest) = piece :: steps rest := by
  simp [steps, step]

/-- Names are their own steps. -/
theorem steps_of_names
    {pieces : List String}
    (allNames : ∀ piece ∈ pieces, IsName piece) :
    steps pieces = pieces := by
  rw [steps, List.filter_eq_self]
  intro piece member
  simp [(allNames piece member).notIdle]

theorem isAbsolute_iff
    {path : String} :
    isAbsolute path = true ↔ ∃ rest, path = "/" ++ rest := by
  have slash : "/".toList = ['/'] := rfl
  rw [isAbsolute, slash, List.isPrefixOf_iff_prefix]
  constructor
  · rintro ⟨rest, shape⟩
    refine ⟨String.ofList rest, ?_⟩
    apply String.toList_inj.mp
    simp [← shape]
  · rintro ⟨rest, rfl⟩
    exact ⟨rest.toList, by simp⟩

/-- The pieces of an absolute path are those of the text after the first slash. -/
theorem piecesOf_absolute
    (rest : String) :
    piecesOf ("/" ++ rest) = segments '/' rest := by
  have absolute : isAbsolute ("/" ++ rest) = true := isAbsolute_iff.mpr ⟨rest, rfl⟩
  simp [piecesOf, absolute]

theorem piecesOf_relative
    {path : String}
    (relative : isAbsolute path = false) :
    piecesOf path = segments '/' path := by
  simp [piecesOf, relative]

theorem noSlash_of_mem_piecesOf
    {path piece : String}
    (member : piece ∈ piecesOf path) :
    '/' ∉ piece.toList := by
  unfold piecesOf at member
  split at member
  · exact not_mem_of_mem_segments member
  · exact not_mem_of_mem_segments member

/-- What stands along a straight path are names. -/
theorem IsStraight.isName_of_mem_names
    {path name : String}
    (straight : IsStraight path)
    (member : name ∈ names path) :
    IsName name := by
  obtain ⟨inPieces, step⟩ := List.mem_filter.mp member
  exact {
    notIdle := by simpa using step
    notUp := by
      rintro rfl
      exact straight.noUp inPieces
    noSlash := noSlash_of_mem_piecesOf inPieces
  }

/-- The text of pieces after the top has these pieces. -/
theorem piecesOf_unwind
    {reversed : List String}
    (nonempty : reversed ≠ [])
    (free : ∀ piece ∈ reversed, '/' ∉ piece.toList) :
    piecesOf (unwind true reversed) = reversed.reverse := by
  simp only [unwind, ↓reduceIte, piecesOf_absolute]
  exact segments_join (by simpa using nonempty) (by simpa using free)

/-- A path along names from the top is straight, and has these names. -/
theorem names_pathOf
    {path : List String}
    (allNames : ∀ name ∈ path, IsName name) :
    IsStraight (Tree.pathOf path) ∧ names (Tree.pathOf path) = path := by
  have absolute : isAbsolute (Tree.pathOf path) = true :=
    isAbsolute_iff.mpr ⟨_, rfl⟩
  cases path with
  | nil =>
      exact ⟨⟨absolute, by decide⟩, by decide⟩
  | cons first rest =>
      have shape : piecesOf (Tree.pathOf (first :: rest)) = first :: rest := by
        rw [Tree.pathOf, piecesOf_absolute]
        exact segments_join (by simp) fun name member => (allNames name member).noSlash
      refine ⟨⟨absolute, ?_⟩, ?_⟩
      · rw [shape]
        intro member
        exact (allNames _ member).notUp rfl
      · rw [names, shape, steps_of_names allNames]

/-- One list of names leads to a place strictly above the place of another one. -/
def Above (upper lower : List String) : Prop :=
  ∃ name rest, lower = upper ++ name :: rest

theorem Above.trans
    {first second third : List String}
    (firstAbove : Above first second)
    (secondAbove : Above second third) :
    Above first third := by
  obtain ⟨name, rest, rfl⟩ := firstAbove
  obtain ⟨other, later, rfl⟩ := secondAbove
  exact ⟨name, rest ++ other :: later, by simp⟩

theorem dropIdle_eq_dropWhile
    (reversed : List String) :
    dropIdle true reversed = reversed.dropWhile isIdle := by
  fun_induction dropIdle true reversed with
  | case1 =>
      rfl
  | case2 first idle =>
      have isOne : isIdle first = true := by
        simpa [isIdle] using idle
      simp [isOne]
  | case3 first busy =>
      have isNone : isIdle first = false := by
        simpa [isIdle] using busy
      simp [isNone]
  | case4 piece earlier _ idle inductionHypothesis =>
      simp [idle, inductionHypothesis]
  | case5 piece earlier _ busy =>
      simp [busy]

/-- Idle pieces at the end of a path can be left out. -/
theorem steps_reverse_dropWhile
    {drops : String → Bool}
    (onlyIdle : ∀ piece, drops piece = true → isIdle piece = true)
    (reversed : List String) :
    steps (reversed.dropWhile drops).reverse = steps reversed.reverse := by
  induction reversed with
  | nil =>
      rfl
  | cons piece earlier inductionHypothesis =>
      cases dropped : drops piece with
      | true =>
          rw [List.dropWhile_cons_of_pos dropped, inductionHypothesis, List.reverse_cons,
            steps_append, steps_cons_of_idle (onlyIdle piece dropped), steps_nil,
            List.append_nil]
      | false =>
          simp [dropped]

/-- A path above a straight one is cut off before one of its steps. -/
theorem exists_of_mem_chain
    {reversed : List String}
    {parent : String}
    (member : parent ∈ chain true reversed) :
    ∃ later piece earlier,
      reversed = later ++ piece :: earlier ∧
        isIdle piece = false ∧
        parent = unwind true (earlier.dropWhile isIdle) := by
  induction reversed with
  | nil =>
      simp [chain] at member
  | cons piece earlier inductionHypothesis =>
      have further (inEarlier : parent ∈ chain true earlier) :
          ∃ later other before,
            piece :: earlier = later ++ other :: before ∧
              isIdle other = false ∧
              parent = unwind true (before.dropWhile isIdle) := by
        obtain ⟨later, other, before, shape, step, cut⟩ := inductionHypothesis inEarlier
        exact ⟨piece :: later, other, before, by simp [shape], step, cut⟩
      cases idle : isIdle piece with
      | true =>
          simp only [chain, idle, Bool.not_true, Bool.and_false, Bool.false_and,
            Bool.not_false, Bool.and_self, ↓reduceIte] at member
          exact further member
      | false =>
          simp only [chain, idle, Bool.false_and, Bool.false_eq_true, ↓reduceIte,
            List.mem_cons] at member
          rcases member with same | inEarlier
          · exact ⟨[], piece, earlier, rfl, idle, by
              rw [same, dropIdle_eq_dropWhile]⟩
          · exact further inEarlier

/-- The paths above a straight path are straight, and lead strictly above it. -/
theorem IsStraight.of_mem_parents
    {path parent : String}
    (straight : IsStraight path)
    (member : parent ∈ parents path) :
    IsStraight parent ∧ Above (names parent) (names path) := by
  rw [parents, straight.absolute] at member
  obtain ⟨later, piece, earlier, shape, step, rfl⟩ := exists_of_mem_chain member
  have whole : piecesOf path = earlier.reverse ++ piece :: later.reverse := by
    rw [← (piecesOf path).reverse_reverse, shape]
    simp
  have kept {other : String} (otherMember : other ∈ earlier.dropWhile isIdle) :
      other ∈ piecesOf path := by
    rw [whole]
    simp [(List.dropWhile_suffix isIdle).subset otherMember]
  have absolute : isAbsolute (unwind true (earlier.dropWhile isIdle)) = true :=
    isAbsolute_iff.mpr ⟨_, rfl⟩
  have stepsWhole :
      names path = steps earlier.reverse ++ piece :: steps later.reverse := by
    rw [names, whole, steps_append, steps_cons_of_not_idle step]
  by_cases empty : earlier.dropWhile isIdle = []
  · have noSteps : steps earlier.reverse = [] := by
      rw [← steps_reverse_dropWhile fun _ => id, empty]
      rfl
    rw [empty] at absolute ⊢
    rw [stepsWhole, noSteps]
    exact ⟨⟨absolute, by decide⟩, piece, steps later.reverse, by
      rw [show names (unwind true []) = [] by decide]⟩
  · have piecesShape :=
      piecesOf_unwind empty fun other otherMember =>
        noSlash_of_mem_piecesOf (kept otherMember)
    refine ⟨⟨absolute, ?_⟩, piece, steps later.reverse, ?_⟩
    · rw [piecesShape, List.mem_reverse]
      exact fun up => straight.noUp (kept up)
    · rw [stepsWhole, names, piecesShape, steps_reverse_dropWhile fun _ => id]

/-- What is joined to an absolute path is absolute. -/
theorem isAbsolute_join
    {base : String}
    (absolute : isAbsolute base = true)
    (path : String) :
    isAbsolute (join base path) = true := by
  obtain ⟨rest, rfl⟩ := isAbsolute_iff.mp absolute
  unfold join
  split
  · rename_i given
    rcases Bool.or_eq_true_iff.mp given with pathAbsolute | empty
    · exact pathAbsolute
    · simpa using congrArg String.toList (of_decide_eq_true empty)
  · split
    · exact isAbsolute_iff.mpr ⟨rest ++ path, String.append_assoc⟩
    · exact isAbsolute_iff.mpr ⟨rest ++ "/" ++ path, by simp [String.append_assoc]⟩

theorem isAbsolute_append
    {base : String}
    (nonempty : base ≠ "")
    (tail : String) :
    isAbsolute (base ++ tail) = isAbsolute base := by
  rw [isAbsolute, isAbsolute, String.toList_append]
  cases shape : base.toList with
  | nil =>
      exact (nonempty (String.toList_inj.mp shape)).elim
  | cons first rest =>
      rfl

/-- Pieces are cut from the text after a slash at the start, also when the text goes on. -/
theorem exists_text
    {base : String}
    (nonempty : base ≠ "") :
    ∃ text,
      (∀ tail, piecesOf (base ++ tail) = segments '/' (text ++ tail)) ∧
        (text = "" ∧ base = "/" ∨
          text ≠ "" ∧ text.toList.getLast? = base.toList.getLast?) := by
  cases absolute : isAbsolute base with
  | true =>
      obtain ⟨rest, rfl⟩ := isAbsolute_iff.mp absolute
      refine ⟨rest, fun tail => ?_, ?_⟩
      · rw [String.append_assoc, piecesOf_absolute]
      · by_cases top : rest = ""
        · exact Or.inl ⟨top, by simp [top]⟩
        · refine Or.inr ⟨top, ?_⟩
          cases shape : rest.toList with
          | nil =>
              exact (top (String.toList_inj.mp shape)).elim
          | cons first later =>
              simp [shape, List.getLast?_cons]
  | false =>
      refine ⟨base, fun tail => ?_, Or.inr ⟨nonempty, rfl⟩⟩
      exact piecesOf_relative ((isAbsolute_append nonempty tail).trans absolute)

/-- A text that ends in a slash is cut there, and an empty piece comes last. -/
theorem segments_of_slashed
    {text : String}
    (slashed : text.toList.getLast? = some '/') :
    ∃ inner,
      segments '/' text = inner ++ [""] ∧
        ∀ tail, segments '/' (text ++ tail) = inner ++ segments '/' tail := by
  obtain ⟨front, shape⟩ := List.getLast?_eq_some_iff.mp slashed
  have cut : text = String.ofList front ++ String.singleton '/' :=
    String.toList_inj.mp (by simp [shape])
  have cutThere (tail : String) :
      segments '/' (text ++ tail) =
        segments '/' (String.ofList front) ++ segments '/' tail := by
    rw [cut]
    exact segments_append '/' (String.ofList front) tail
  have lastPiece : segments '/' "" = [""] := by decide
  exact ⟨segments '/' (String.ofList front), by simpa [lastPiece] using cutThere "", cutThere⟩

theorem join_ne_empty
    {base path : String}
    (nonempty : base ≠ "" ∨ path ≠ "") :
    join base path ≠ "" := by
  unfold join
  split
  · rename_i given
    rintro rfl
    rcases Bool.or_eq_true_iff.mp given with absolute | empty
    · cases absolute
    · exact (nonempty.resolve_right fun other => other rfl) (of_decide_eq_true empty)
  · split
    · rename_i other _
      intro empty
      have baseEmpty := (String.append_eq_empty_iff.mp empty).1
      simp [baseEmpty] at other
    · simp

/-- Joining a path and a relative one puts the pieces of the second at the end. -/
theorem piecesOf_join
    {base path : String}
    (nonempty : base ≠ "")
    (relative : isAbsolute path = false) :
    isAbsolute (join base path) = isAbsolute base ∧
      ∃ inner,
        piecesOf (join base path) = inner ++ piecesOf path ∧
          (∀ piece ∈ inner, piece ∈ piecesOf base) ∧
          steps inner = names base := by
  obtain ⟨text, pieces, ending⟩ := exists_text nonempty
  have basePieces : piecesOf base = segments '/' text := by
    simpa using pieces ""
  simp only [join, relative, nonempty, Bool.false_or, decide_false, Bool.false_eq_true,
    ↓reduceIte]
  rw [names, basePieces, piecesOf_relative relative]
  split
  · rename_i slashed
    refine ⟨isAbsolute_append nonempty path, ?_⟩
    rw [pieces]
    rcases ending with ⟨rfl, _⟩ | ⟨_, last⟩
    · exact ⟨[], by simp, by simp, by decide⟩
    · obtain ⟨inner, whole, cutThere⟩ := segments_of_slashed (last.trans slashed)
      refine ⟨inner, cutThere path, fun piece member => ?_, ?_⟩
      · rw [whole]
        exact List.mem_append_left _ member
      · rw [whole, steps_append]
        simp [steps, isIdle]
  · rw [String.append_assoc]
    refine ⟨isAbsolute_append nonempty _, segments '/' text, ?_, fun _ => id, rfl⟩
    rw [pieces, ← String.append_assoc]
    exact segments_append '/' text path

theorem IsName.relative
    {name : String}
    (isName : IsName name) :
    isAbsolute name = false := by
  rw [Bool.eq_false_iff]
  intro absolute
  obtain ⟨rest, rfl⟩ := isAbsolute_iff.mp absolute
  exact isName.noSlash (by simp)

/-- A name is the only piece of itself. -/
theorem IsName.piecesOf_eq
    {name : String}
    (isName : IsName name) :
    piecesOf name = [name] := by
  rw [piecesOf_relative isName.relative, segments_of_not_mem isName.noSlash]

/-- The pieces of a name that is joined to a base stand behind pieces that the base makes. -/
theorem exists_piecesOf_join
    (base : String) :
    ∃ inner,
      ∀ name, IsName name →
        isAbsolute (join base name) = isAbsolute base ∧
          piecesOf (join base name) = inner ++ [name] := by
  by_cases empty : base = ""
  · subst empty
    refine ⟨[], fun name isName => ?_⟩
    have joined : join "" name = name := by
      simp [join]
    rw [joined, isName.relative, isName.piecesOf_eq]
    exact ⟨rfl, rfl⟩
  · obtain ⟨text, pieces, ending⟩ := exists_text empty
    by_cases slashed : base.toList.getLast? = some '/'
    · have cut :
          ∃ inner, ∀ tail, segments '/' (text ++ tail) = inner ++ segments '/' tail := by
        rcases ending with ⟨rfl, _⟩ | ⟨_, last⟩
        · exact ⟨[], by simp⟩
        · obtain ⟨inner, _, cutThere⟩ := segments_of_slashed (last.trans slashed)
          exact ⟨inner, cutThere⟩
      obtain ⟨inner, cutThere⟩ := cut
      refine ⟨inner, fun name isName => ?_⟩
      simp only [join, isName.relative, empty, slashed, Bool.false_or, decide_false,
        Bool.false_eq_true, ↓reduceIte]
      rw [pieces, cutThere, segments_of_not_mem isName.noSlash]
      exact ⟨isAbsolute_append empty name, rfl⟩
    · refine ⟨segments '/' text, fun name isName => ?_⟩
      simp only [join, isName.relative, empty, slashed, Bool.false_or, decide_false,
        Bool.false_eq_true, ↓reduceIte]
      rw [String.append_assoc, isAbsolute_append empty, pieces, ← String.append_assoc]
      refine ⟨rfl, ?_⟩
      rw [← segments_of_not_mem isName.noSlash]
      exact segments_append '/' text name

/-- Names below one base have the same parent. -/
theorem parent?_join_congr
    {first second : String}
    (firstName : IsName first)
    (secondName : IsName second)
    (base : String) :
    parent? (join base first) = parent? (join base second) := by
  obtain ⟨inner, shape⟩ := exists_piecesOf_join base
  have isParent {name : String} (isName : IsName name) :
      parent? (join base name) =
        some (unwind (isAbsolute base) (dropIdle (isAbsolute base) inner.reverse)) := by
    obtain ⟨starts, pieces⟩ := shape name isName
    rw [parent?, parents, pieces, starts, List.reverse_append, List.reverse_singleton,
      List.singleton_append, chain, if_neg (by simp [isName.notIdle])]
    rfl
  rw [isParent firstName, isParent secondName]

/-- Joining a straight path and a relative one without `..` appends the names. -/
theorem IsStraight.join
    {base path : String}
    (straight : IsStraight base)
    (relative : isAbsolute path = false)
    (noUp : ".." ∉ piecesOf path) :
    IsStraight (join base path) ∧
      names (Path.join base path) = names base ++ names path := by
  obtain ⟨absolute, inner, shape, fromBase, innerSteps⟩ :=
    piecesOf_join straight.ne_empty relative
  refine ⟨⟨absolute.trans straight.absolute, ?_⟩, ?_⟩
  · rw [shape, List.mem_append]
    rintro (up | up)
    · exact straight.noUp (fromBase _ up)
    · exact noUp up
  · rw [names, shape, steps_append, innerSteps]
    rfl

end RpcStubs.Files.Path
