import RpcStubs.Proofs.Files.Effects
import RpcStubs.Proofs.Files.LinkFree
namespace RpcStubs.Files.Tree

open Files.Path

/-!
# Changes in trees without links

What making directories and writing a file do through any path, as long as there are no links:
directories are only added, a written file stands where the path leads from then on, and where
everything is there already, the same steps can be taken again.
-/

variable {tree before after : Tree} {path : String}

/-- What stands under some names is what is listed there. -/
theorem entry?_of_ne_nil
    {names : List String}
    (nonempty : names ≠ []) :
    tree.entry? names = tree.entries.get? names :=
  if_neg nonempty

theorem get?_place
    (tree : Tree)
    (names : List String)
    (entry : Entry)
    (other : List String) :
    (tree.place names entry).entries.get? other =
      if other = names then some entry else tree.entries.get? other :=
  tree.entries.get?_declare names entry other

/-- No link comes into a tree when something else is put there. -/
theorem LinkFree.place
    (linkFree : tree.LinkFree)
    {names : List String}
    {entry : Entry}
    (nonempty : names ≠ [])
    (noLink : ∀ target, entry ≠ .link target) :
    (tree.place names entry).LinkFree := by
  intro others target stands
  rw [tree.entry?_place nonempty] at stands
  split at stands
  · exact noLink target (Option.some.inj stands)
  · exact linkFree others target stands

/-- One tree has everything that another one lists, with the same content, and no links. -/
structure Adds (before after : Tree) : Prop where
  linkFree : after.LinkFree
  workplace : after.workplace = before.workplace
  kept : ∀ names entry,
    before.entries.get? names = some entry → after.entries.get? names = some entry

namespace Adds

theorem refl
    (linkFree : tree.LinkFree) :
    tree.Adds tree :=
  ⟨linkFree, rfl, fun _ _ => id⟩

theorem trans
    {first second third : Tree}
    (earlier : first.Adds second)
    (later : second.Adds third) :
    first.Adds third where
  linkFree := later.linkFree
  workplace := later.workplace.trans earlier.workplace
  kept names entry stands := later.kept names entry (earlier.kept names entry stands)

theorem extended
    (adds : before.Adds after)
    (linkFree : before.LinkFree) :
    before.Extends after where
  linkFree := adds.linkFree
  workplace := adds.workplace
  kept names entry stands := by
    refine ⟨entry, ?_, .of_not_link fun target same => linkFree names target (same ▸ stands)⟩
    by_cases top : names = []
    · rwa [top] at stands ⊢
    · rw [entry?_of_ne_nil top] at stands ⊢
      exact adds.kept names entry stands

theorem of_place
    (linkFree : tree.LinkFree)
    {names : List String}
    {entry : Entry}
    (missing : tree.entry? names = none)
    (noLink : ∀ target, entry ≠ .link target) :
    tree.Adds (tree.place names entry) := by
  have nonempty : names ≠ [] := by
    rintro rfl
    simp at missing
  refine ⟨linkFree.place nonempty noLink, rfl, fun others other stands => ?_⟩
  rw [get?_place, if_neg, stands]
  rintro rfl
  rw [entry?_of_ne_nil nonempty, stands] at missing
  cases missing

end Adds

/-- Empty pieces stand for no component. -/
theorem isIdle_of_mem_replicate
    (count : Nat) :
    ∀ piece ∈ List.replicate count "", isIdle piece = true := by
  intro piece member
  rw [List.eq_of_mem_replicate member]
  rfl

/-- A directory that is made is added, and the path names it. -/
theorem LinkFree.makeDirectory_eq_ok
    (linkFree : tree.LinkFree)
    {made : Tree}
    (isMade : tree.makeDirectory path = .ok made) :
    tree.Adds made ∧ made.isDirectory path = true := by
  rw [makeDirectory] at isMade
  split at isMade
  · cases isMade
  · rename_i nonempty
    split at isMade
    · cases isMade
    · cases isMade
    · rename_i directory name walked
      cases isMade
      have leads := (linkFree.walk_eq_ok_iff _ _).mp walked
      have adds : tree.Adds (tree.place (directory ++ [name]) .directory) :=
        .of_place linkFree leads.missing (by rintro target ⟨⟩)
      refine ⟨adds, ?_⟩
      have stands : entry? (tree.place (directory ++ [name]) .directory)
          (directory ++ [name]) = some .directory := by
        rw [tree.entry?_place (by simp), if_pos rfl]
      have extended := adds.extended linkFree
      obtain ⟨count, shape⟩ := exists_withoutTail (piecesOf path)
      have leadsThere :=
        (extended.leads_to_missed leads stands).append_idle (isIdle_of_mem_replicate count)
      rw [← shape, ← extended.start_eq] at leadsThere
      rw [Tree.isDirectory, adds.linkFree.look_eq_ok_iff.mpr ⟨nonempty, leadsThere⟩]

/-- A directory that is there is not made again. -/
theorem LinkFree.makeDirectory_of_isDirectory
    (linkFree : tree.LinkFree)
    (isDirectory : tree.isDirectory path = true) :
    tree.makeDirectory path = .error .present := by
  unfold Tree.isDirectory at isDirectory
  split at isDirectory
  · rename_i place looked
    obtain ⟨nonempty, leads⟩ := linkFree.look_eq_ok_iff.mp looked
    obtain ⟨count, shape⟩ := exists_withoutTail (piecesOf path)
    rw [shape] at leads
    rw [makeDirectory, if_neg nonempty,
      (linkFree.walk_eq_ok_iff false linkLimit).mpr
        (leads.of_append_idle (isIdle_of_mem_replicate count))]
  · cases isDirectory

/-- Making a chain of directories, also one that fails, only adds directories. -/
theorem LinkFree.makeChain_adds
    (linkFree : tree.LinkFree)
    (paths : List String) :
    tree.Adds (tree.makeChain paths).2 := by
  induction paths with
  | nil =>
      exact .refl linkFree
  | cons path above inductionHypothesis =>
      rw [makeChain]
      split
      · exact .refl linkFree
      · split
        · rename_i made isMade
          exact (linkFree.makeDirectory_eq_ok isMade).1
        · split
          · rename_i fault made chained
            exact chained ▸ inductionHypothesis
          · rename_i made chained
            rw [chained] at inductionHypothesis
            split
            · rename_i finished isFinished
              exact inductionHypothesis.trans
                (inductionHypothesis.linkFree.makeDirectory_eq_ok isFinished).1
            · split
              · exact inductionHypothesis
              · exact inductionHypothesis
        · split
          · exact .refl linkFree
          · exact .refl linkFree

/-- When a chain of directories is made, its first path names a directory. -/
theorem LinkFree.makeChain_eq_ok
    (linkFree : tree.LinkFree)
    {above : List String}
    {made : Tree}
    (isMade : tree.makeChain (path :: above) = (.ok (), made)) :
    path = "" ∨ made.isDirectory path = true := by
  have added := linkFree.makeChain_adds above
  rw [makeChain] at isMade
  split at isMade
  · rename_i empty
    exact Or.inl empty
  · refine Or.inr ?_
    split at isMade
    · rename_i directory
      cases isMade
      exact (linkFree.makeDirectory_eq_ok directory).2
    · split at isMade
      · cases isMade
      · rename_i chained
        rw [chained] at added
        split at isMade
        · rename_i directory
          cases isMade
          exact (added.linkFree.makeDirectory_eq_ok directory).2
        · split at isMade
          · rename_i there
            cases isMade
            exact there
          · cases isMade
    · split at isMade
      · rename_i there
        cases isMade
        exact there
      · cases isMade

/-- A directory that is there is a chain of directories already. -/
theorem LinkFree.makeChain_of_isDirectory
    (linkFree : tree.LinkFree)
    (there : path = "" ∨ tree.isDirectory path = true)
    (above : List String) :
    tree.makeChain (path :: above) = (.ok (), tree) := by
  rw [makeChain]
  split
  · rfl
  · rename_i nonempty
    have isDirectory := there.resolve_left nonempty
    rw [linkFree.makeDirectory_of_isDirectory isDirectory]
    simp only [isDirectory, ↓reduceIte]

/-- The directory above a path is there, as far as the path names one. -/
def HasRoom (tree : Tree) (path : String) : Prop :=
  ∀ parent, parent? path = some parent → parent = "" ∨ tree.isDirectory parent = true

theorem HasRoom.mono
    (linkFree : before.LinkFree)
    (extended : before.Extends after)
    (room : before.HasRoom path) :
    after.HasRoom path :=
  fun parent isParent => (room parent isParent).imp_right (extended.isDirectory linkFree)

/-- A tree is extended when a file replaces a file. -/
theorem Extends.of_replace
    (linkFree : tree.LinkFree)
    {names : List String}
    {old : ByteArray}
    (stands : tree.entry? names = some (.file old))
    (content : ByteArray) :
    names ≠ [] ∧ tree.Extends (tree.place names (.file content)) := by
  have nonempty : names ≠ [] := by
    rintro rfl
    simp at stands
  refine ⟨nonempty, linkFree.place nonempty nofun, rfl, fun others entry there => ?_⟩
  rw [tree.entry?_place nonempty]
  split
  · rename_i same
    rw [same, stands] at there
    cases there
    exact ⟨_, rfl, .file old content⟩
  · exact ⟨entry, there, .of_not_link fun target same => linkFree others target (same ▸ there)⟩

/-- A file that is written stands where the path leads from then on. -/
theorem LinkFree.writeFile_eq_ok
    (linkFree : tree.LinkFree)
    {content : ByteArray}
    {written : Tree}
    (isWritten : tree.writeFile path content = .ok written) :
    endsInDirectory (piecesOf path) = false ∧
      tree.Extends written ∧
      ∃ names,
        names ≠ [] ∧
          written = tree.place names (.file content) ∧
          written.look path = .ok ({ names := names }, .file content) ∧
          (tree.isPresent path = false → tree.entry? names = none) := by
  simp only [writeFile] at isWritten
  split at isWritten
  · cases isWritten
  · rename_i nonempty
    cases ends : endsInDirectory (piecesOf path) with
    | true =>
        rw [ends, if_pos rfl] at isWritten
        split at isWritten
        · cases isWritten
        · cases isWritten
    | false =>
        simp only [ends, Bool.false_eq_true, ↓reduceIte] at isWritten
        refine ⟨rfl, ?_⟩
        split at isWritten
        · cases isWritten
        · rename_i place old walked
          cases isWritten
          have leads := (linkFree.walk_eq_ok_iff _ _).mp walked
          obtain ⟨names, rfl, stands⟩ := leads.stands
          obtain ⟨notTop, extended⟩ := Extends.of_replace linkFree stands content
          refine ⟨extended, names, notTop, rfl, ?_, fun absent => ?_⟩
          · obtain ⟨_, leadsThere, same⟩ := extended.leads leads
            cases same with
            | file _ found =>
                obtain ⟨_, samePlace, there⟩ := leadsThere.stands
                cases samePlace
                rw [tree.entry?_place notTop, if_pos rfl] at there
                cases there
                rw [← extended.start_eq] at leadsThere
                exact extended.linkFree.look_eq_ok_iff.mpr ⟨nonempty, leadsThere⟩
          · rw [Tree.isPresent, linkFree.look_eq_ok_iff.mpr ⟨nonempty, leads⟩] at absent
            cases absent
        · cases isWritten
        · rename_i directory name walked
          cases isWritten
          have leads := (linkFree.walk_eq_ok_iff _ _).mp walked
          have adds : tree.Adds (tree.place (directory ++ [name]) (.file content)) :=
            .of_place linkFree leads.missing (by rintro target ⟨⟩)
          have extended := adds.extended linkFree
          refine ⟨extended, directory ++ [name], by simp, rfl, ?_, fun _ => leads.missing⟩
          have stands : entry? (tree.place (directory ++ [name]) (.file content))
              (directory ++ [name]) = some (.file content) := by
            rw [tree.entry?_place (by simp), if_pos rfl]
          have leadsThere := extended.leads_to_missed leads stands
          rw [← extended.start_eq] at leadsThere
          exact adds.linkFree.look_eq_ok_iff.mpr ⟨nonempty, leadsThere⟩

/-- A file that a path names is written again where it is. -/
theorem LinkFree.writeFile_of_look
    (linkFree : tree.LinkFree)
    {names : List String}
    {old : ByteArray}
    (ends : endsInDirectory (piecesOf path) = false)
    (looked : tree.look path = .ok ({ names := names }, .file old))
    (content : ByteArray) :
    tree.writeFile path content = .ok (tree.place names (.file content)) := by
  obtain ⟨nonempty, leads⟩ := linkFree.look_eq_ok_iff.mp looked
  simp only [writeFile, if_neg nonempty, ends, Bool.false_eq_true, ↓reduceIte,
    (linkFree.walk_eq_ok_iff true linkLimit).mpr leads]

end RpcStubs.Files.Tree
