import RpcStubs.Proofs.Files.Plain
namespace RpcStubs.Files

open Files.Path

/-!
# Trees without links

In a tree without links a walk sees only which names hold files and which hold directories.
What a path names in such a tree it also names in every tree that extends it, where files may
have other content and there may be more of them.  This holds for every path, also for one
that leads up again.
-/

/-- Two entries are both directories, or both files. -/
inductive Entry.SameKind : Entry → Entry → Prop
  | directory :
      SameKind .directory .directory
  | file (content other : ByteArray) :
      SameKind (.file content) (.file other)

namespace Entry.SameKind

theorem of_not_link
    {entry : Entry}
    (noLink : ∀ target, entry ≠ .link target) :
    entry.SameKind entry := by
  cases entry with
  | file content =>
      exact .file content content
  | directory =>
      exact .directory
  | link target =>
      exact (noLink target rfl).elim

theorem trans
    {first second third : Entry}
    (same : first.SameKind second)
    (others : second.SameKind third) :
    first.SameKind third := by
  cases same with
  | directory =>
      exact others
  | file content =>
      cases others with
      | file _ other =>
          exact .file content other

end Entry.SameKind

namespace Tree

/-- No symbolic link is in the tree. -/
def LinkFree (tree : Tree) : Prop :=
  ∀ names target, tree.entry? names ≠ some (.link target)

/-- Where pieces of a path lead from a directory, as long as there are no links on the way. -/
inductive Leads (tree : Tree) : Place → List String → Spot → Prop
  | arrive {here : Place} :
      Leads tree here [] (.found here .directory)
  | idle {here : Place} {piece : String} {rest : List String} {spot : Spot} :
      isIdle piece = true →
      Leads tree here rest spot →
      Leads tree here (piece :: rest) spot
  | up {here : Place} {rest : List String} {spot : Spot} :
      Leads tree here.up rest spot →
      Leads tree here (".." :: rest) spot
  | down {here : Place} {piece : String} {rest : List String} {spot : Spot} :
      here.lost = 0 →
      isIdle piece = false →
      piece ≠ ".." →
      tree.entry? (here.names ++ [piece]) = some .directory →
      Leads tree { names := here.names ++ [piece] } rest spot →
      Leads tree here (piece :: rest) spot
  | file {here : Place} {piece : String} {content : ByteArray} :
      here.lost = 0 →
      isIdle piece = false →
      piece ≠ ".." →
      tree.entry? (here.names ++ [piece]) = some (.file content) →
      Leads tree here [piece] (.found { names := here.names ++ [piece] } (.file content))
  | miss {here : Place} {piece : String} :
      here.lost = 0 →
      isIdle piece = false →
      piece ≠ ".." →
      tree.entry? (here.names ++ [piece]) = none →
      Leads tree here [piece] (.absent here.names piece)

/-- One tree has everything that another one has, maybe with other content, and no links. -/
structure Extends (before after : Tree) : Prop where
  linkFree : after.LinkFree
  workplace : after.workplace = before.workplace
  kept : ∀ names entry,
    before.entry? names = some entry →
      ∃ other, after.entry? names = some other ∧ entry.SameKind other

variable {tree before after : Tree} {path : String} {here place : Place}
  {pieces : List String} {spot : Spot} {entry : Entry}

theorem Leads.walkFrom
    (leads : tree.Leads here pieces spot)
    (followsLast : Bool)
    (jump : Place → List String → Except Fault Spot) :
    tree.walkFrom followsLast jump here pieces = .ok spot := by
  induction leads with
  | arrive =>
      rfl
  | idle isIdle _ inductionHypothesis =>
      rw [Tree.walkFrom, if_pos isIdle, inductionHypothesis]
  | up _ inductionHypothesis =>
      rw [Tree.walkFrom, if_neg (by decide), if_pos rfl, inductionHypothesis]
  | down kept step notUp stands _ inductionHypothesis =>
      rw [Tree.walkFrom, if_neg (by simp [step]), if_neg notUp, if_neg (by simp [kept])]
      simp only [stands]
      exact inductionHypothesis
  | file kept step notUp stands =>
      rw [Tree.walkFrom, if_neg (by simp [step]), if_neg notUp, if_neg (by simp [kept])]
      simp only [stands, ↓reduceIte]
  | miss kept step notUp missing =>
      rw [Tree.walkFrom, if_neg (by simp [step]), if_neg notUp, if_neg (by simp [kept])]
      simp only [missing, ↓reduceIte]

theorem LinkFree.leads_of_walkFrom
    (linkFree : tree.LinkFree)
    {followsLast : Bool}
    {jump : Place → List String → Except Fault Spot}
    (walked : tree.walkFrom followsLast jump here pieces = .ok spot) :
    tree.Leads here pieces spot := by
  induction pieces generalizing here with
  | nil =>
      cases walked
      exact .arrive
  | cons piece rest inductionHypothesis =>
      rw [walkFrom] at walked
      split at walked
      · rename_i isIdle
        exact .idle isIdle (inductionHypothesis walked)
      · rename_i busy
        have step : isIdle piece = false := by
          simpa using busy
        split at walked
        · rename_i isUp
          exact isUp ▸ .up (inductionHypothesis walked)
        · rename_i notUp
          split at walked
          · cases walked
          · rename_i there
            have kept : here.lost = 0 := by
              simpa using there
            simp only at walked
            split at walked
            · rename_i missing
              split at walked
              · rename_i last
                cases walked
                exact last ▸ .miss kept step notUp missing
              · cases walked
            · rename_i stands
              exact .down kept step notUp stands (inductionHypothesis walked)
            · rename_i content stands
              split at walked
              · rename_i last
                cases walked
                exact last ▸ .file kept step notUp stands
              · cases walked
            · rename_i target stands
              exact (linkFree _ _ stands).elim

/-- A walk in a tree without links ends where the pieces lead, however it treats links. -/
theorem LinkFree.walk_eq_ok_iff
    (linkFree : tree.LinkFree)
    (followsLast : Bool)
    (budget : Nat) :
    tree.walk followsLast budget here pieces = .ok spot ↔ tree.Leads here pieces spot := by
  obtain ⟨jump, shape⟩ := tree.exists_walkFrom followsLast budget
  rw [shape]
  exact ⟨linkFree.leads_of_walkFrom, fun leads => leads.walkFrom followsLast jump⟩

/-- A path names what its pieces lead to. -/
theorem LinkFree.look_eq_ok_iff
    (linkFree : tree.LinkFree) :
    tree.look path = .ok (place, entry) ↔
      path ≠ "" ∧ tree.Leads (tree.start path) (piecesOf path) (.found place entry) := by
  rw [look, ← linkFree.walk_eq_ok_iff true linkLimit]
  by_cases empty : path = ""
  · simp [empty]
  · rw [if_neg empty]
    simp only [ne_eq, empty, not_false_eq_true, true_and]
    split
    · rename_i walked
      simp [walked]
    · rename_i walked
      simp [walked]
    · rename_i walked
      simp [walked]

namespace Leads

/-- Where a name is missed, nothing stands. -/
theorem missing
    {directory : List String}
    {name : String}
    (leads : tree.Leads here pieces (.absent directory name)) :
    tree.entry? (directory ++ [name]) = none := by
  generalize isMiss : Spot.absent directory name = spot at leads
  induction leads with
  | arrive | file =>
      cases isMiss
  | idle _ _ inductionHypothesis | up _ inductionHypothesis
  | down _ _ _ _ _ inductionHypothesis =>
      exact inductionHypothesis isMiss
  | miss _ _ _ missing =>
      cases isMiss
      exact missing

/-- A file that is found stands under some names. -/
theorem stands
    {content : ByteArray}
    (leads : tree.Leads here pieces (.found place (.file content))) :
    ∃ names, place = { names := names } ∧ tree.entry? names = some (.file content) := by
  generalize isFile : Spot.found place (.file content) = spot at leads
  induction leads with
  | arrive | miss =>
      cases isFile
  | idle _ _ inductionHypothesis | up _ inductionHypothesis
  | down _ _ _ _ _ inductionHypothesis =>
      exact inductionHypothesis isFile
  | file _ _ _ stands =>
      cases isFile
      exact ⟨_, rfl, stands⟩

/-- Idle pieces behind lead to the same directory. -/
theorem append_idle
    {idles : List String}
    (allIdle : ∀ piece ∈ idles, isIdle piece = true)
    (leads : tree.Leads here pieces (.found place .directory)) :
    tree.Leads here (pieces ++ idles) (.found place .directory) := by
  generalize isDirectory : Spot.found place .directory = spot at leads ⊢
  induction leads with
  | @arrive here =>
      rw [List.nil_append]
      induction idles with
      | nil =>
          exact .arrive
      | cons piece rest inductionHypothesis =>
          exact .idle (allIdle piece (by simp))
            (inductionHypothesis fun other member => allIdle other (by simp [member]))
  | idle isIdle _ inductionHypothesis =>
      exact .idle isIdle (inductionHypothesis isDirectory)
  | up _ inductionHypothesis =>
      exact .up (inductionHypothesis isDirectory)
  | down kept step notUp stands _ inductionHypothesis =>
      exact .down kept step notUp stands (inductionHypothesis isDirectory)
  | file | miss =>
      cases isDirectory

/-- A directory that is found along idle pieces at the end is found without them. -/
theorem of_append_idle
    {idles : List String}
    (allIdle : ∀ piece ∈ idles, isIdle piece = true)
    (leads : tree.Leads here (pieces ++ idles) (.found place .directory)) :
    tree.Leads here pieces (.found place .directory) := by
  have idleFirst {first : String} {rest : List String}
      (others : ∀ piece ∈ first :: rest, isIdle piece = true) :
      isIdle first ≠ false := by
    simp [others first (by simp)]
  generalize whole : pieces ++ idles = all at leads
  generalize isDirectory : Spot.found place .directory = spot at leads ⊢
  induction leads generalizing pieces idles with
  | arrive =>
      obtain ⟨rfl, _⟩ := List.append_eq_nil_iff.mp whole
      exact .arrive
  | idle isIdle _ inductionHypothesis =>
      rcases List.append_eq_cons_iff.mp whole with ⟨rfl, rfl⟩ | ⟨later, rfl, rfl⟩
      · exact inductionHypothesis (fun other member => allIdle other (by simp [member]))
          (List.nil_append _) isDirectory
      · exact .idle isIdle (inductionHypothesis allIdle rfl isDirectory)
  | up _ inductionHypothesis =>
      rcases List.append_eq_cons_iff.mp whole with ⟨_, rfl⟩ | ⟨later, rfl, rfl⟩
      · exact (idleFirst allIdle (by decide)).elim
      · exact .up (inductionHypothesis allIdle rfl isDirectory)
  | down kept step notUp stands _ inductionHypothesis =>
      rcases List.append_eq_cons_iff.mp whole with ⟨_, rfl⟩ | ⟨later, rfl, rfl⟩
      · exact (idleFirst allIdle step).elim
      · exact .down kept step notUp stands (inductionHypothesis allIdle rfl isDirectory)
  | file | miss =>
      cases isDirectory

end Leads

namespace Extends

theorem refl
    (linkFree : tree.LinkFree) :
    tree.Extends tree where
  linkFree := linkFree
  workplace := rfl
  kept names entry stands :=
    ⟨entry, stands, .of_not_link fun target same => linkFree names target (same ▸ stands)⟩

theorem trans
    {first second third : Tree}
    (earlier : first.Extends second)
    (later : second.Extends third) :
    first.Extends third where
  linkFree := later.linkFree
  workplace := later.workplace.trans earlier.workplace
  kept names entry stands := by
    obtain ⟨other, there, same⟩ := earlier.kept names entry stands
    obtain ⟨last, stillThere, others⟩ := later.kept names other there
    exact ⟨last, stillThere, same.trans others⟩

theorem start_eq
    (extended : before.Extends after)
    (path : String) :
    after.start path = before.start path := by
  rw [start, start, extended.workplace]

/-- What extends a tree has a directory wherever the tree has one. -/
theorem directory
    (extended : before.Extends after)
    {names : List String}
    (stands : before.entry? names = some .directory) :
    after.entry? names = some .directory := by
  obtain ⟨other, there, same⟩ := extended.kept names .directory stands
  cases same
  exact there

/-- Pieces that lead to something lead to the same place in what extends the tree. -/
theorem leads
    (extended : before.Extends after)
    (leads : before.Leads here pieces (.found place entry)) :
    ∃ other, after.Leads here pieces (.found place other) ∧ entry.SameKind other := by
  generalize isFound : Spot.found place entry = spot at leads
  induction leads with
  | arrive =>
      cases isFound
      exact ⟨.directory, .arrive, .directory⟩
  | idle isIdle _ inductionHypothesis =>
      obtain ⟨other, leads, same⟩ := inductionHypothesis isFound
      exact ⟨other, .idle isIdle leads, same⟩
  | up _ inductionHypothesis =>
      obtain ⟨other, leads, same⟩ := inductionHypothesis isFound
      exact ⟨other, .up leads, same⟩
  | down kept step notUp stands _ inductionHypothesis =>
      obtain ⟨other, leads, same⟩ := inductionHypothesis isFound
      exact ⟨other, .down kept step notUp (extended.directory stands) leads, same⟩
  | file kept step notUp stands =>
      cases isFound
      obtain ⟨_, there, same⟩ := extended.kept _ _ stands
      cases same with
      | file _ content =>
          exact ⟨.file content, .file kept step notUp there, .file _ _⟩
  | miss =>
      cases isFound

/-- Pieces that miss a name lead to what stands there in what extends the tree. -/
theorem leads_to_missed
    (extended : before.Extends after)
    {directory : List String}
    {name : String}
    (leads : before.Leads here pieces (.absent directory name))
    (stands : after.entry? (directory ++ [name]) = some entry) :
    after.Leads here pieces (.found { names := directory ++ [name] } entry) := by
  generalize isMiss : Spot.absent directory name = spot at leads
  induction leads with
  | arrive | file =>
      cases isMiss
  | idle isIdle _ inductionHypothesis =>
      exact .idle isIdle (inductionHypothesis isMiss)
  | up _ inductionHypothesis =>
      exact .up (inductionHypothesis isMiss)
  | down kept step notUp there _ inductionHypothesis =>
      exact .down kept step notUp (extended.directory there) (inductionHypothesis isMiss)
  | miss kept step notUp _ =>
      cases isMiss
      cases entry with
      | file content =>
          exact .file kept step notUp stands
      | directory =>
          exact .down kept step notUp stands .arrive
      | link target =>
          exact (extended.linkFree _ _ stands).elim

/-- What a path names it also names, at the same place, in what extends the tree. -/
theorem look
    (extended : before.Extends after)
    (linkFree : before.LinkFree)
    (looked : before.look path = .ok (place, entry)) :
    ∃ other, after.look path = .ok (place, other) ∧ entry.SameKind other := by
  obtain ⟨nonempty, leads⟩ := linkFree.look_eq_ok_iff.mp looked
  obtain ⟨other, leadsAfter, same⟩ := extended.leads leads
  refine ⟨other, extended.linkFree.look_eq_ok_iff.mpr ⟨nonempty, ?_⟩, same⟩
  rwa [extended.start_eq]

theorem isPresent
    (extended : before.Extends after)
    (linkFree : before.LinkFree)
    (present : before.isPresent path = true) :
    after.isPresent path = true := by
  unfold Tree.isPresent at present ⊢
  split at present
  · rename_i looked
    obtain ⟨other, there, _⟩ := extended.look linkFree looked
    rw [there]
  · cases present

theorem isDirectory
    (extended : before.Extends after)
    (linkFree : before.LinkFree)
    (directory : before.isDirectory path = true) :
    after.isDirectory path = true := by
  unfold Tree.isDirectory at directory ⊢
  split at directory
  · rename_i looked
    obtain ⟨other, there, same⟩ := extended.look linkFree looked
    cases same
    rw [there]
  · cases directory

end Extends

end Tree

end RpcStubs.Files
