import RpcStubs.Proofs.Files.Effects
namespace RpcStubs.Files.Tree

open Files.Path

/-!
# Walks in sound trees

In a sound tree links may lead anywhere, but what a walk finds stands where the walk ends, and
the names of a directory lead to it without links.  So a canonical path leads to what the path
leads to.
-/

variable {tree : Tree}

/-- A walk along the names of a directory arrives at it and goes on from there. -/
theorem IsSound.walk_along
    (sound : tree.IsSound)
    (followsLast : Bool)
    (budget : Nat)
    {pieces here : List String}
    (rest : List String)
    (noUp : ".." ∉ pieces)
    (directory : tree.entry? (here ++ steps pieces) = some .directory) :
    tree.walk followsLast budget { names := here } (pieces ++ rest) =
      tree.walk followsLast budget { names := here ++ steps pieces } rest := by
  obtain ⟨jump, shape⟩ := tree.exists_walkFrom followsLast budget
  rw [shape]
  clear shape
  induction pieces generalizing here with
  | nil =>
      simp
  | cons piece later inductionHypothesis =>
      simp only [List.mem_cons, not_or] at noUp
      obtain ⟨notUp, laterNoUp⟩ := noUp
      cases idle : isIdle piece with
      | true =>
          rw [steps_cons_of_idle idle] at directory ⊢
          rw [List.cons_append, walkFrom, if_pos idle]
          exact inductionHypothesis laterNoUp directory
      | false =>
          have placed : here ++ steps (piece :: later) = here ++ [piece] ++ steps later := by
            rw [steps_cons_of_not_idle idle]
            simp
          rw [placed] at directory ⊢
          have below : tree.entry? (here ++ [piece]) = some .directory := by
            cases more : steps later with
            | nil =>
                simpa [more] using directory
            | cons next others =>
                exact sound.directory_above (more ▸ directory)
          rw [List.cons_append, walkFrom_name tree followsLast jump idle (Ne.symm notUp), below]
          exact inductionHypothesis laterNoUp directory

theorem IsSound.directory_up
    (sound : tree.IsSound)
    {place : Place}
    (kept : place.lost = 0)
    (directory : tree.entry? place.names = some .directory) :
    place.up.lost = 0 ∧ tree.entry? place.up.names = some .directory := by
  rw [Place.up, if_pos kept]
  refine ⟨kept, ?_⟩
  rcases List.eq_nil_or_concat place.names with top | ⟨upper, name, shape⟩
  · simp [top]
  · rw [List.concat_eq_append] at shape
    simp only [shape, List.dropLast_concat]
    exact sound.closed upper name .directory (shape ▸ directory)

/-- What a walk finds stands under the names at which it ends. -/
theorem IsSound.stands_of_walk
    (sound : tree.IsSound)
    {followsLast : Bool}
    {budget : Nat}
    {pieces : List String}
    {here place : Place}
    {entry : Entry}
    (kept : here.lost = 0)
    (directory : tree.entry? here.names = some .directory)
    (walked : tree.walk followsLast budget here pieces = .ok (.found place entry)) :
    place.lost = 0 ∧ tree.entry? place.names = some entry := by
  -- The budget falls at every link; between links the walk goes along the pieces.
  have along (jump : Place → List String → Except Fault Spot)
      (jumps : ∀ origin others, origin.lost = 0 →
        tree.entry? origin.names = some .directory →
        jump origin others = .ok (.found place entry) →
        place.lost = 0 ∧ tree.entry? place.names = some entry)
      (pieces : List String) (here : Place)
      (kept : here.lost = 0)
      (directory : tree.entry? here.names = some .directory)
      (walked : tree.walkFrom followsLast jump here pieces = .ok (.found place entry)) :
      place.lost = 0 ∧ tree.entry? place.names = some entry := by
    induction pieces generalizing here with
    | nil =>
        cases walked
        exact ⟨kept, directory⟩
    | cons piece rest inductionHypothesis =>
        rw [walkFrom] at walked
        split at walked
        · exact inductionHypothesis here kept directory walked
        · split at walked
          · obtain ⟨upKept, upDirectory⟩ := sound.directory_up kept directory
            exact inductionHypothesis here.up upKept upDirectory walked
          · split at walked
            · cases walked
            · simp only at walked
              split at walked
              · split at walked
                · cases walked
                · cases walked
              · rename_i below
                exact inductionHypothesis { names := here.names ++ [piece] } rfl below walked
              · rename_i content found
                split at walked
                · cases walked
                  exact ⟨rfl, found⟩
                · cases walked
              · rename_i target found
                split at walked
                · cases walked
                  exact ⟨rfl, found⟩
                · split at walked
                  · exact jumps _ _ rfl tree.entry?_nil walked
                  · exact jumps _ _ kept directory walked
  induction budget generalizing here pieces with
  | zero =>
      exact along _ (fun _ _ _ _ impossible => by cases impossible) pieces here kept directory
        walked
  | succ budget inductionHypothesis =>
      exact along _ (fun _ _ => inductionHypothesis) pieces here kept directory walked

/-- The place from which a path starts is a directory, unless it is removed. -/
theorem IsSound.directory_start
    (sound : tree.IsSound)
    {path : String}
    (kept : (tree.start path).lost = 0) :
    tree.entry? (tree.start path).names = some .directory := by
  unfold start at kept ⊢
  split
  · exact tree.entry?_nil
  · rename_i relative
    exact sound.anchored (by simpa [relative] using kept)

theorem IsSound.stands_of_look
    (sound : tree.IsSound)
    {path : String}
    {place : Place}
    {entry : Entry}
    (kept : (tree.start path).lost = 0)
    (looked : tree.look path = .ok (place, entry)) :
    place.lost = 0 ∧ tree.entry? place.names = some entry := by
  unfold look at looked
  split at looked
  · cases looked
  · split at looked
    · cases looked
    · cases looked
    · rename_i found stands walked
      cases looked
      exact sound.stands_of_walk kept (sound.directory_start kept) walked

/-- A straight path along the names of a directory leads to it. -/
theorem IsSound.look_directory
    (sound : tree.IsSound)
    {path : String}
    (straight : IsStraight path)
    (directory : tree.entry? (names path) = some .directory) :
    tree.look path = .ok ({ names := names path }, .directory) := by
  have walked : tree.walk true linkLimit { names := [] } (piecesOf path) =
      .ok (.found { names := names path } .directory) := by
    have fromTop : tree.entry? ([] ++ steps (piecesOf path)) = some .directory := directory
    have along := sound.walk_along true linkLimit [] straight.noUp fromTop
    rw [List.append_nil] at along
    rw [along]
    rfl
  rw [look, if_neg straight.ne_empty, start_of_straight straight, walked]

/-- A path along the names of a directory is its own canonical path. -/
theorem IsSound.canonical_of_straight
    (sound : tree.IsSound)
    {path : String}
    (straight : IsStraight path)
    (shown : pathOf (names path) = path)
    (directory : tree.entry? (names path) = some .directory) :
    tree.canonical path = .ok path := by
  rw [Tree.canonical, straight.absolute, sound.look_directory straight directory]
  exact congrArg Except.ok shown

/-- A path with a canonical one does not start in a directory that is removed. -/
theorem kept_of_canonical
    {path shown : String}
    (canonical : tree.canonical path = .ok shown) :
    (tree.start path).lost = 0 := by
  unfold start
  split
  · rfl
  · rename_i relative
    unfold Tree.canonical at canonical
    split at canonical
    · cases canonical
    · rename_i anchored
      simpa [relative] using anchored

/-- The canonical path of a directory leads along names to where the path leads. -/
theorem IsSound.canonical_directory
    (sound : tree.IsSound)
    {path shown : String}
    (isDirectory : tree.isDirectory path = true)
    (canonical : tree.canonical path = .ok shown) :
    IsStraight shown ∧
      pathOf (names shown) = shown ∧
      tree.entry? (names shown) = some .directory ∧
      tree.look path = .ok ({ names := names shown }, .directory) := by
  have kept := kept_of_canonical canonical
  unfold Tree.isDirectory at isDirectory
  split at isDirectory
  · rename_i place looked
    obtain ⟨placeKept, stands⟩ := sound.stands_of_look kept looked
    unfold Tree.canonical at canonical
    split at canonical
    · cases canonical
    · rw [looked] at canonical
      cases canonical
      obtain ⟨straight, sameNames⟩ := names_pathOf (sound.named _ _ stands)
      have samePlace : place = { names := place.names } := by
        rw [← placeKept]
      rw [sameNames, ← samePlace]
      exact ⟨straight, rfl, stands, looked⟩
  · cases isDirectory

/-- A path below a base leads on from the directory to which the base leads along names. -/
theorem IsSound.walk_join
    (sound : tree.IsSound)
    {base path : String}
    (noUp : ".." ∉ piecesOf base)
    (kept : (tree.start base).lost = 0)
    (directory : tree.entry? ((tree.start base).names ++ names base) = some .directory)
    (relative : isAbsolute path = false) :
    tree.walk true linkLimit (tree.start (join base path)) (piecesOf (join base path)) =
      tree.walk true linkLimit { names := (tree.start base).names ++ names base }
        (piecesOf path) := by
  by_cases empty : base = ""
  · subst empty
    have joined : join "" path = path := by simp [join]
    have fromHere : tree.start path = tree.start "" := by
      rw [start, relative]
      rfl
    rw [joined, fromHere, show names "" = [] by decide, List.append_nil, ← kept]
  · obtain ⟨absolute, inner, shape, fromBase, innerSteps⟩ := piecesOf_join empty relative
    have sameStart : tree.start (join base path) = { names := (tree.start base).names } := by
      rw [← kept]
      unfold start
      rw [absolute]
    have innerNoUp : ".." ∉ inner := fun up => noUp (fromBase _ up)
    rw [← innerSteps] at directory ⊢
    rw [sameStart, shape, sound.walk_along true linkLimit (piecesOf path) innerNoUp directory]

/-- Below two paths that lead along names to one directory, a path names the same. -/
theorem IsSound.look_join_congr
    (sound : tree.IsSound)
    {base path : String}
    {directory : List String}
    (noUp : ".." ∉ piecesOf base)
    (kept : (tree.start base).lost = 0)
    (leads : (tree.start base).names ++ names base = directory)
    (isDirectory : tree.entry? directory = some .directory)
    (nonempty : base ≠ "" ∨ path ≠ "") :
    tree.look (join base path) = tree.look (join (pathOf directory) path) := by
  cases absolute : isAbsolute path with
  | true =>
      simp [join, absolute]
  | false =>
      obtain ⟨straight, sameNames⟩ := names_pathOf (sound.named _ _ isDirectory)
      have fromTop : tree.start (pathOf directory) = { names := [] } :=
        start_of_straight straight
      have baseWalk := sound.walk_join noUp kept (leads ▸ isDirectory) absolute
      have topWalk := sound.walk_join straight.noUp (by rw [fromTop])
        (by simpa [fromTop, sameNames] using isDirectory) absolute
      rw [leads] at baseWalk
      rw [fromTop, sameNames, List.nil_append] at topWalk
      rw [look, look, if_neg (join_ne_empty nonempty),
        if_neg (join_ne_empty (.inl straight.ne_empty)), baseWalk, topWalk]

end RpcStubs.Files.Tree
