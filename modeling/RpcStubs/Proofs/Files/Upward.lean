import RpcStubs.Proofs.Files.Sound
namespace RpcStubs.Files

open Files.Path

/-!
# Searching upward

A search upward follows the text of a path: it looks into the directory that the path names
and into those of its parents, as far as there are any in the text.  For a path that leads
along names to a directory, these are the directories from there up to the one where the path
starts, and none above that one.
-/

/-- The innermost of nested directories that holds something; names are given last one first. -/
def nearest? (holds : List String → Bool) : List String → Option (List String)
  | [] => if holds [] then some [] else none
  | name :: earlier =>
      if holds (earlier.reverse ++ [name]) then
        some (earlier.reverse ++ [name])
      else
        nearest? holds earlier

theorem nearest?_eq_none_iff
    {holds : List String → Bool}
    {reversed : List String} :
    nearest? holds reversed = none ↔
      ∀ directory, directory <+: reversed.reverse → holds directory = false := by
  induction reversed with
  | nil =>
      simp [nearest?]
  | cons name earlier inductionHypothesis =>
      simp only [nearest?, List.reverse_cons, List.prefix_concat_iff]
      split
      · rename_i held
        refine iff_of_false (by simp) fun none => ?_
        rw [none _ (.inl rfl)] at held
        cases held
      · rename_i other
        rw [inductionHypothesis]
        constructor
        · rintro none directory (rfl | further)
          · simpa using other
          · exact none directory further
        · exact fun none directory further => none directory (.inr further)

theorem holds_of_nearest?
    {holds : List String → Bool}
    {reversed found : List String}
    (isNearest : nearest? holds reversed = some found) :
    found <+: reversed.reverse ∧ holds found = true := by
  induction reversed with
  | nil =>
      simp only [nearest?, Option.ite_none_right_eq_some, Option.some.injEq] at isNearest
      obtain ⟨held, rfl⟩ := isNearest
      exact ⟨List.nil_prefix, held⟩
  | cons name earlier inductionHypothesis =>
      rw [nearest?] at isNearest
      rw [List.reverse_cons]
      split at isNearest
      · rename_i held
        rw [← Option.some.inj isNearest]
        exact ⟨List.prefix_refl _, held⟩
      · obtain ⟨isAbove, held⟩ := inductionHypothesis isNearest
        exact ⟨isAbove.trans (List.prefix_append _ _), held⟩

/-- What is nearest below a directory is nearest also when the search can go further up. -/
theorem nearest?_append
    {holds : List String → Bool}
    {base reversed found : List String}
    (isNearest : nearest? (fun directory => holds (base ++ directory)) reversed = some found) :
    nearest? holds (reversed ++ base.reverse) = some (base ++ found) := by
  induction reversed with
  | nil =>
      simp only [nearest?, List.append_nil, Option.ite_none_right_eq_some,
        Option.some.injEq] at isNearest
      obtain ⟨held, rfl⟩ := isNearest
      rw [List.nil_append, List.append_nil]
      rcases List.eq_nil_or_concat base with rfl | ⟨upper, name, rfl⟩
      · simp [nearest?, held]
      · rw [List.concat_eq_append] at held ⊢
        simp [nearest?, held]
  | cons name earlier inductionHypothesis =>
      simp only [nearest?, List.cons_append, List.reverse_append, List.reverse_reverse]
        at isNearest ⊢
      rw [List.append_assoc]
      -- Both searches look into the same directory first.
      split at isNearest
      · rename_i held
        rw [if_pos held, Option.some.inj isNearest]
      · rename_i other
        rw [if_neg other]
        exact inductionHypothesis isNearest

namespace Path

/-- Without idle pieces at the end, the steps are the same. -/
theorem steps_dropIdle
    (absolute : Bool)
    (reversed : List String) :
    steps (dropIdle absolute reversed).reverse = steps reversed.reverse := by
  fun_induction dropIdle absolute reversed with
  | case1 =>
      rfl
  | case2 first idle =>
      have isOne : isIdle first = true := by
        rcases Bool.or_eq_true_iff.mp idle with empty | dotted
        · simpa [isIdle] using Or.inl (of_decide_eq_true empty)
        · simpa [isIdle] using Or.inr (of_decide_eq_true (Bool.and_eq_true_iff.mp dotted).2)
      simp [steps, isOne]
  | case3 =>
      rfl
  | case4 piece earlier _ idle inductionHypothesis =>
      rw [inductionHypothesis, List.reverse_cons, steps_append, steps_cons_of_idle idle]
      simp
  | case5 =>
      rfl

theorem dropIdle_suffix
    (absolute : Bool)
    (reversed : List String) :
    dropIdle absolute reversed <:+ reversed := by
  fun_induction dropIdle absolute reversed with
  | case1 | case3 | case5 =>
      exact List.suffix_refl _
  | case2 first =>
      exact List.nil_suffix
  | case4 piece earlier _ _ inductionHypothesis =>
      exact inductionHypothesis.trans (List.suffix_cons piece earlier)

/-- A path starts at the top exactly when its first piece between slashes is empty. -/
theorem isAbsolute_join_of_cons
    {first : String}
    (nonempty : first ≠ "")
    (free : '/' ∉ first.toList)
    (rest : List String) :
    isAbsolute (Text.join "/" (first :: rest)) = false := by
  have relative : isAbsolute first = false := by
    rw [Bool.eq_false_iff]
    intro absolute
    obtain ⟨tail, rfl⟩ := isAbsolute_iff.mp absolute
    simp at free
  cases rest with
  | nil =>
      exact relative
  | cons next others =>
      rw [Text.join, String.append_assoc, isAbsolute_append nonempty, relative]

/-- The text of a parent leads where its pieces lead. -/
theorem unwind_dropIdle
    {absolute : Bool}
    {reversed : List String}
    (free : ∀ piece ∈ reversed, '/' ∉ piece.toList)
    (noUp : ".." ∉ reversed)
    (named : absolute = false → reversed.getLast? ≠ some "") :
    isAbsolute (unwind absolute (dropIdle absolute reversed)) = absolute ∧
      ".." ∉ piecesOf (unwind absolute (dropIdle absolute reversed)) ∧
      names (unwind absolute (dropIdle absolute reversed)) = steps reversed.reverse := by
  rw [← steps_dropIdle absolute reversed]
  obtain ⟨dropped, whole⟩ := dropIdle_suffix absolute reversed
  generalize dropIdle absolute reversed = kept at whole ⊢
  have keptFree : ∀ piece ∈ kept, '/' ∉ piece.toList :=
    fun piece member => free piece (by simp [← whole, member])
  have keptNoUp : ".." ∉ kept := fun up => noUp (by simp [← whole, up])
  rcases List.eq_nil_or_concat kept with rfl | ⟨later, first, shape⟩
  · cases absolute <;> decide
  · rw [List.concat_eq_append] at shape
    subst shape
    suffices isAbsolute (unwind absolute (later ++ [first])) = absolute ∧
        piecesOf (unwind absolute (later ++ [first])) = (later ++ [first]).reverse by
      obtain ⟨starts, pieces⟩ := this
      refine ⟨starts, ?_, by rw [names, pieces]⟩
      rw [pieces, List.mem_reverse]
      exact keptNoUp
    cases absolute with
    | true =>
        exact ⟨isAbsolute_iff.mpr ⟨_, rfl⟩, piecesOf_unwind (by simp) keptFree⟩
    | false =>
        have nonempty : first ≠ "" := by
          rintro rfl
          exact named rfl (by simp [← whole])
        have relative : isAbsolute (unwind false (later ++ [first])) = false := by
          simpa [unwind] using
            isAbsolute_join_of_cons nonempty (keptFree first (by simp)) later.reverse
        have text : unwind false (later ++ [first]) =
            Text.join "/" (later ++ [first]).reverse := by
          simp [unwind]
        refine ⟨relative, ?_⟩
        rw [piecesOf_relative relative, text]
        exact Text.segments_join (by simp) fun piece member =>
          keptFree piece (List.mem_reverse.mp member)

theorem steps_reverse
    (pieces : List String) :
    steps pieces.reverse = (steps pieces).reverse :=
  List.filter_reverse

/-- The first piece of a path that does not start at the top is not empty. -/
theorem head?_piecesOf
    {path : String}
    (nonempty : path ≠ "")
    (relative : isAbsolute path = false) :
    (piecesOf path).head? ≠ some "" := by
  rw [piecesOf_relative relative, Text.segments]
  cases shape : path.toList with
  | nil =>
      exact (nonempty (String.toList_inj.mp shape)).elim
  | cons first rest =>
      have noSlash : (first == '/') = false := by
        rw [beq_eq_false_iff_ne]
        rintro rfl
        simp [isAbsolute, shape] at relative
      obtain ⟨piece, others, _, cut⟩ :=
        @Text.exists_pieces_cons (· == '/') first noSlash rest
      rw [cut]
      intro empty
      have noText := congrArg String.toList (Option.some.inj empty)
      simp at noText

/-- The parent of a file in a directory leads to that directory. -/
theorem exists_parent_of_join
    {base name : String}
    (nonempty : base ≠ "")
    (noUp : ".." ∉ piecesOf base)
    (isName : IsName name) :
    ∃ parent,
      parent? (join base name) = some parent ∧
        isAbsolute parent = isAbsolute base ∧
        ".." ∉ piecesOf parent ∧
        names parent = names base := by
  obtain ⟨sameStart, inner, shape, fromBase, innerSteps⟩ :=
    piecesOf_join nonempty isName.relative
  have whole : piecesOf (join base name) = inner ++ [name] := by
    rw [shape, isName.piecesOf_eq]
  have innerNamed (joinedRelative : isAbsolute base = false) :
      inner.reverse.getLast? ≠ some "" := by
    have first := head?_piecesOf (join_ne_empty (.inl nonempty))
      (sameStart.trans joinedRelative)
    rw [whole] at first
    rw [List.getLast?_reverse]
    cases inner with
    | nil =>
        simp
    | cons piece others =>
        exact first
  obtain ⟨parentStarts, parentNoUp, parentNames⟩ :=
    unwind_dropIdle
      (fun piece member =>
        noSlash_of_mem_piecesOf (fromBase piece (List.mem_reverse.mp member)))
      (fun up => noUp (fromBase _ (List.mem_reverse.mp up))) innerNamed
  refine ⟨_, ?_, parentStarts, parentNoUp, ?_⟩
  · rw [parent?, parents, whole, sameStart, List.reverse_append, List.reverse_singleton,
      List.singleton_append, chain, if_neg (by simp [isName.notIdle])]
    rfl
  · rw [parentNames, List.reverse_reverse, innerSteps]

end Path

namespace Tree

/-- Whether a directory, given by its names, holds a file of a name. -/
def holdsFile (tree : Tree) (name : String) (directory : List String) : Bool :=
  tree.isFile (join (pathOf directory) name)

variable {tree : Tree} {name : String}

theorem isFile_congr
    {first second : String}
    (same : tree.look first = tree.look second) :
    tree.isFile first = tree.isFile second := by
  rw [isFile, isFile, same]

theorem firstFile_cons
    (path : String)
    (others : List String) :
    firstFile (m := ReaderM Tree) (path :: others) tree =
      if tree.isFile path then some path else firstFile (m := ReaderM Tree) others tree := by
  rw [firstFile, bind_reading]
  change (if tree.isFile path = true then _ else _ : ReaderM Tree (Option String)) tree = _
  split <;> rfl

/-- Among a path and its parents, the first file is that of the nearest directory. -/
theorem IsSound.look_firstFile
    (sound : tree.IsSound)
    (named : name ≠ "")
    {absolute : Bool}
    {origin : List String}
    (starts : ∀ path, isAbsolute path = absolute → tree.start path = { names := origin })
    {reversed : List String}
    (free : ∀ piece ∈ reversed, '/' ∉ piece.toList)
    (noUp : ".." ∉ reversed)
    (firstNamed : absolute = false → reversed.getLast? ≠ some "")
    (directory : tree.entry? (origin ++ steps reversed.reverse) = some .directory)
    {head : String}
    (headStarts : isAbsolute head = absolute)
    (headNoUp : ".." ∉ piecesOf head)
    (headNames : names head = steps reversed.reverse) :
    (firstFile (m := ReaderM Tree)
        ((head :: chain absolute reversed).map fun directory => join directory name)
        tree).map tree.look =
      (nearest? (fun below => tree.holdsFile name (origin ++ below)) (steps reversed)).map
        fun below => tree.look (join (pathOf (origin ++ below)) name) := by
  induction reversed generalizing head with
  | nil =>
      have headLook :=
        sound.look_join_congr headNoUp (by rw [starts head headStarts])
          (by rw [starts head headStarts, headNames]) directory (.inr named)
      have headHolds : tree.isFile (join head name) = tree.holdsFile name (origin ++ []) :=
        isFile_congr headLook
      simp only [chain, List.map_cons, List.map_nil, firstFile_cons, headHolds, steps_nil,
        nearest?]
      split
      · exact congrArg some headLook
      · rfl
  | cons piece earlier inductionHypothesis =>
      have earlierFree : ∀ other ∈ earlier, '/' ∉ other.toList :=
        fun other member => free other (List.mem_cons_of_mem _ member)
      simp only [List.mem_cons, not_or] at noUp
      have earlierNamed (relative : absolute = false) : earlier.getLast? ≠ some "" := by
        cases earlier with
        | nil =>
            simp
        | cons next others =>
            simpa [List.getLast?_cons_cons] using firstNamed relative
      have headLook :=
        sound.look_join_congr headNoUp (by rw [starts head headStarts])
          (by rw [starts head headStarts, headNames]) directory (.inr named)
      have headHolds :
          tree.isFile (join head name) =
            tree.holdsFile name (origin ++ steps (piece :: earlier).reverse) :=
        isFile_congr headLook
      obtain ⟨parentStarts, parentNoUp, parentNames⟩ :=
        unwind_dropIdle earlierFree noUp.2 earlierNamed
      cases idle : isIdle piece with
      | true =>
          have sameSteps : steps (piece :: earlier).reverse = steps earlier.reverse := by
            rw [steps_reverse, steps_cons_of_idle idle, steps_reverse]
          rw [sameSteps] at directory headNames headHolds headLook
          rw [steps_cons_of_idle idle]
          by_cases leading : (earlier.isEmpty && !absolute && decide (piece = ".")) = true
          · -- A dot at the start has the workplace above it, which it names itself.
            simp only [Bool.and_eq_true, List.isEmpty_iff, Bool.not_eq_true',
              decide_eq_true_eq] at leading
            obtain ⟨⟨rfl, rfl⟩, rfl⟩ := leading
            have fromParent :=
              inductionHypothesis earlierFree noUp.2 earlierNamed directory parentStarts
                parentNoUp parentNames
            change (firstFile (m := ReaderM Tree) (join head name :: [join "" name])
              tree).map tree.look = _
            rw [firstFile_cons, headHolds]
            split
            · rename_i held
              rw [steps_nil, nearest?, if_pos (by simpa using held)]
              exact congrArg some headLook
            · exact fromParent
          · rw [chain, if_pos (by simp [idle, leading])]
            exact inductionHypothesis earlierFree noUp.2 earlierNamed directory headStarts
              headNoUp headNames
      | false =>
          have allSteps :
              steps (piece :: earlier).reverse = (steps earlier).reverse ++ [piece] := by
            rw [steps_reverse, steps_cons_of_not_idle idle, List.reverse_cons]
          rw [allSteps] at directory headHolds headLook
          have parentDirectory : tree.entry? (origin ++ steps earlier.reverse) =
              some .directory := by
            rw [steps_reverse]
            exact sound.closed _ piece .directory (by simpa using directory)
          have fromParent :=
            inductionHypothesis earlierFree noUp.2 earlierNamed parentDirectory parentStarts
              parentNoUp parentNames
          rw [chain, if_neg (by simp [idle]), steps_cons_of_not_idle idle, nearest?,
            List.map_cons, firstFile_cons, headHolds]
          split
          · exact congrArg some headLook
          · exact fromParent

/-- A search upward finds the file of the nearest directory, down from where its path starts. -/
theorem IsSound.look_findUpward
    (sound : tree.IsSound)
    (named : name ≠ "")
    {path : String}
    (nonempty : path ≠ "")
    (noUp : ".." ∉ piecesOf path)
    (kept : (tree.start path).lost = 0)
    (directory : tree.entry? ((tree.start path).names ++ names path) = some .directory) :
    (findUpward (m := ReaderM Tree) path name tree).map tree.look =
      (nearest? (fun below => tree.holdsFile name ((tree.start path).names ++ below))
        (names path).reverse).map
        fun below => tree.look (join (pathOf ((tree.start path).names ++ below)) name) := by
  have starts (other : String) (same : isAbsolute other = isAbsolute path) :
      tree.start other = { names := (tree.start path).names } := by
    rw [← kept]
    unfold start
    rw [same]
  rw [findUpward, ancestors, parents, names, ← steps_reverse]
  apply sound.look_firstFile named starts
  · intro piece member
    exact noSlash_of_mem_piecesOf (List.mem_reverse.mp member)
  · simpa using noUp
  · intro relative
    rw [List.getLast?_reverse]
    exact head?_piecesOf nonempty relative
  · rwa [List.reverse_reverse]
  · rfl
  · exact noUp
  · rw [List.reverse_reverse]
    rfl

theorem findUpward_of_isFile
    {start : String}
    (held : tree.isFile (join start name) = true) :
    findUpward (m := ReaderM Tree) start name tree = some (join start name) := by
  rw [findUpward, ancestors, List.map_cons, firstFile_cons, if_pos held]

/-- From a single dot only the working directory is searched. -/
theorem IsSound.findUpward_here
    (sound : tree.IsSound)
    (named : name ≠ "")
    (kept : tree.workplace.lost = 0)
    {path : String}
    (found : findUpward (m := ReaderM Tree) "." name tree = some path) :
    path = join "." name ∧ tree.isFile path = true := by
  have here (start : String) (relative : tree.start start = tree.workplace)
      (noNames : names start = []) :
      (tree.start start).lost = 0 ∧
        (tree.start start).names ++ names start = tree.workplace.names := by
    rw [relative, noNames, List.append_nil]
    exact ⟨kept, rfl⟩
  obtain ⟨dotKept, dotLeads⟩ := here "." rfl (by decide)
  obtain ⟨emptyKept, emptyLeads⟩ := here "" rfl (by decide)
  have same : tree.look (join "" name) = tree.look (join "." name) := by
    rw [sound.look_join_congr (by decide) emptyKept emptyLeads (sound.anchored kept) (.inr named),
      sound.look_join_congr (by decide) dotKept dotLeads (sound.anchored kept) (.inr named)]
  have candidates : ancestors "." = [".", ""] := by decide
  rw [findUpward, candidates, List.map_cons, List.map_cons, firstFile_cons, firstFile_cons,
    isFile_congr same] at found
  split at found
  · rename_i held
    rw [← Option.some.inj found]
    exact ⟨rfl, held⟩
  · cases found

theorem IsSound.look_of_leads
    (sound : tree.IsSound)
    {path : String}
    (nonempty : path ≠ "")
    (noUp : ".." ∉ piecesOf path)
    (kept : (tree.start path).lost = 0)
    (directory : tree.entry? ((tree.start path).names ++ names path) = some .directory) :
    tree.look path =
      .ok ({ names := (tree.start path).names ++ names path }, .directory) := by
  have start : tree.start path = { names := (tree.start path).names } := by
    rw [← kept]
  have along := sound.walk_along true linkLimit [] noUp directory
  rw [List.append_nil, ← start] at along
  rw [look, if_neg nonempty, along]
  rfl

/-- The canonical path of what a path leads to along names leads along them from the top. -/
theorem IsSound.canonical_of_leads
    (sound : tree.IsSound)
    {path shown : String}
    (nonempty : path ≠ "")
    (noUp : ".." ∉ piecesOf path)
    (directory : tree.entry? ((tree.start path).names ++ names path) = some .directory)
    (canonical : tree.canonical path = .ok shown) :
    IsStraight shown ∧ names shown = (tree.start path).names ++ names path := by
  have looked := sound.look_of_leads nonempty noUp (kept_of_canonical canonical) directory
  obtain ⟨straight, _, _, shownLook⟩ :=
    sound.canonical_directory (by rw [isDirectory, looked]) canonical
  have samePlace := (Prod.mk.inj (Except.ok.inj (shownLook.symm.trans looked))).1
  exact ⟨straight, (Place.mk.inj samePlace).1⟩

/-- In a plain tree, every directory without `..` in its path is led to along names. -/
theorem IsPlain.leads_of_isDirectory
    (plain : tree.IsPlain)
    {path : String}
    (noUp : ".." ∉ piecesOf path)
    (kept : (tree.start path).lost = 0)
    (isDirectory : tree.isDirectory path = true) :
    tree.entry? ((tree.start path).names ++ names path) = some .directory := by
  have start : tree.start path = { names := (tree.start path).names } := by
    rw [← kept]
  unfold Tree.isDirectory look at isDirectory
  by_cases empty : path = ""
  · simp [empty] at isDirectory
  · rw [if_neg empty, start] at isDirectory
    cases walked : tree.walk true linkLimit { names := (tree.start path).names }
        (piecesOf path) with
    | error fault =>
        simp [walked] at isDirectory
    | ok spot =>
        rcases plain.walk_eq_ok noUp (plain.isSound.directory_start kept) walked with
          ⟨entry, rfl, stands, _⟩ | ⟨_, _, _, rfl, _⟩
        · cases entry with
          | directory =>
              exact stands
          | file | link =>
              simp [walked] at isDirectory
        · simp [walked] at isDirectory

/-- A path and its canonical path have the same file nearest, or another one is further up. -/
theorem IsSound.findUpward_canonical_iff
    (sound : tree.IsSound)
    (named : name ≠ "")
    {path shown : String}
    (nonempty : path ≠ "")
    (noUp : ".." ∉ piecesOf path)
    (directory : tree.entry? ((tree.start path).names ++ names path) = some .directory)
    (canonical : tree.canonical path = .ok shown) :
    (findUpward (m := ReaderM Tree) path name tree).map tree.look =
        (findUpward (m := ReaderM Tree) shown name tree).map tree.look ↔
      (∃ below, below <+: names path ∧
        tree.holdsFile name ((tree.start path).names ++ below) = true) ∨
        ∀ upper, Above upper (tree.start path).names → tree.holdsFile name upper = false := by
  have kept := kept_of_canonical canonical
  obtain ⟨straight, shownNames⟩ := sound.canonical_of_leads nonempty noUp directory canonical
  have fromTop : tree.start shown = { names := [] } := start_of_straight straight
  rw [sound.look_findUpward named nonempty noUp kept directory,
    sound.look_findUpward named straight.ne_empty straight.noUp (by rw [fromTop])
      (by rw [fromTop, List.nil_append, shownNames, directory])]
  simp only [fromTop, List.nil_append, shownNames, List.reverse_append]
  generalize (tree.start path).names = origin
  cases nearest : nearest? (fun below => tree.holdsFile name (origin ++ below))
      (names path).reverse with
  | some found =>
      obtain ⟨isBelow, held⟩ := holds_of_nearest? nearest
      rw [List.reverse_reverse] at isBelow
      rw [nearest?_append nearest]
      exact iff_of_true rfl (.inl ⟨found, isBelow, held⟩)
  | none =>
      have missing := nearest?_eq_none_iff.mp nearest
      rw [List.reverse_reverse] at missing
      have notBelow : ¬∃ below, below <+: names path ∧
          tree.holdsFile name (origin ++ below) = true := by
        rintro ⟨below, isBelow, held⟩
        rw [missing below isBelow] at held
        cases held
      rw [or_iff_right notBelow, Option.map_none, eq_comm, Option.map_eq_none_iff,
        nearest?_eq_none_iff, List.reverse_append, List.reverse_reverse, List.reverse_reverse]
      constructor
      · rintro noneHolds upper ⟨next, rest, rfl⟩
        exact noneHolds upper (by simp)
      · -- A directory above the output directory is above the start, or is not above it.
        intro noneAbove upper isUpper
        rcases List.prefix_or_prefix_of_prefix isUpper (List.prefix_append origin (names path))
          with ⟨rest, rfl⟩ | ⟨below, rfl⟩
        · cases rest with
          | nil =>
              simpa using missing [] List.nil_prefix
          | cons next others =>
              exact noneAbove upper ⟨next, others, rfl⟩
        · exact missing below ((List.prefix_append_right_inj origin).mp isUpper)

end Tree

end RpcStubs.Files
