import RpcStubs.Proofs.Files.Names
namespace RpcStubs.Files.Path

/-!
# Components of paths

The components of a path are its names, after the top when it is absolute; the file name is
the last of them.
-/

theorem filterMap_component?
    {pieces : List String}
    (noUp : ".." ∉ pieces) :
    pieces.filterMap component? = (steps pieces).map .name := by
  induction pieces with
  | nil =>
      rfl
  | cons piece rest inductionHypothesis =>
      simp only [List.mem_cons, not_or] at noUp
      obtain ⟨notUp, restNoUp⟩ := noUp
      have restComponents := inductionHypothesis restNoUp
      cases idle : isIdle piece with
      | true =>
          rw [steps_cons_of_idle idle, ← restComponents]
          simp [component?, idle]
      | false =>
          rw [steps_cons_of_not_idle idle, List.map_cons, ← restComponents]
          simp [component?, idle, Ne.symm notUp]

theorem components_of_straight
    {path : String}
    (straight : IsStraight path) :
    components path = .top :: (names path).map .name := by
  simp only [components, straight.absolute, ↓reduceIte, filterMap_component? straight.noUp]
  rfl

/-- A piece that leads up is among the components. -/
theorem up_mem_components
    {path : String}
    (up : ".." ∈ piecesOf path) :
    .up ∈ components path := by
  have inner : Component.up ∈ (piecesOf path).filterMap component? :=
    List.mem_filterMap.mpr ⟨"..", up, by decide⟩
  unfold components
  split
  · exact List.mem_cons_of_mem _ inner
  · split
    · exact List.mem_cons_of_mem _ inner
    · exact inner

/-- The characters of the name that a component is. -/
def Component.characters : Component → List Char
  | .name text => text.toList
  | .top | .here | .up => []

/-- A path that leads from where one stands into directories, along names only. -/
structure IsInner (path : String) : Prop where
  relative : isAbsolute path = false
  noUp : ".." ∉ piecesOf path
  components : components path = (names path).map .name

/-- The file name of a path along names is the last of them. -/
theorem IsInner.fileName?_eq
    {path : String}
    (inner : IsInner path) :
    fileName? path = (names path).getLast? := by
  rw [fileName?, inner.components, List.getLast?_map]
  cases (names path).getLast? <;> rfl

theorem extension?_congr
    {first second : String}
    (same : fileName? first = fileName? second) :
    extension? first = extension? second := by
  rw [extension?, extension?, same]

/-- A path whose last piece is a name has it as its file name. -/
theorem fileName?_of_piecesOf
    {path last : String}
    (inner : List String)
    (shape : piecesOf path = inner ++ [last])
    (named : component? last = some (.name last)) :
    fileName? path = some last := by
  have ending : ((piecesOf path).filterMap component?).getLast? = some (.name last) := by
    rw [shape, List.filterMap_append]
    simp [named]
  have anyStart (front : Component) :
      (front :: (piecesOf path).filterMap component?).getLast? = some (.name last) := by
    rw [List.getLast?_cons, ending]
    rfl
  have isLast : (components path).getLast? = some (.name last) := by
    unfold components
    dsimp only
    split
    · exact anyStart .top
    · split
      · exact anyStart .here
      · exact ending
  rw [fileName?, isLast]

/-- A name below any path is the file name there. -/
theorem fileName?_join
    (base : String)
    {name : String}
    (single : piecesOf name = [name])
    (relative : isAbsolute name = false)
    (named : component? name = some (.name name)) :
    fileName? (join base name) = some name := by
  by_cases empty : base = ""
  · have isPath : join base name = name := by
      simp [join, empty]
    rw [isPath]
    exact fileName?_of_piecesOf [] single named
  · obtain ⟨_, inner, shape, _⟩ := piecesOf_join empty relative
    rw [single] at shape
    exact fileName?_of_piecesOf inner shape named

/-- A path with only names among its components leads along them. -/
theorem isInner_of_components
    {path : String}
    (onlyNames : ∀ component ∈ components path, ∃ text, component = .name text) :
    IsInner path := by
  have noUp : ".." ∉ piecesOf path := by
    intro up
    obtain ⟨text, impossible⟩ := onlyNames .up (up_mem_components up)
    cases impossible
  cases absolute : isAbsolute path with
  | true =>
      obtain ⟨text, impossible⟩ := onlyNames .top (by simp [components, absolute])
      cases impossible
  | false =>
      refine ⟨absolute, noUp, ?_⟩
      by_cases here : (piecesOf path).head? = some "."
      · obtain ⟨text, impossible⟩ := onlyNames .here (by simp [components, absolute, here])
        cases impossible
      · simp only [components, absolute, here, Bool.false_eq_true, ↓reduceIte,
          filterMap_component? noUp]
        rfl

/-- A path adds something only to a base that its components start with. -/
theorem components_prefix_of_remainder?
    {base path rest : String}
    (found : remainder? base path = some rest) :
    components base <+: components path := by
  simp only [remainder?] at found
  split at found
  · rename_i shared
    exact List.isPrefixOf_iff_prefix.mp shared
  · cases found

/-- An absolute base to which a straight path adds something is straight. -/
theorem IsStraight.of_remainder?
    {base path rest : String}
    (straight : IsStraight path)
    (absolute : isAbsolute base = true)
    (found : remainder? base path = some rest) :
    IsStraight base := by
  refine ⟨absolute, fun up => ?_⟩
  have above : Component.up ∈ components path :=
    (components_prefix_of_remainder? found).subset (up_mem_components up)
  rw [components_of_straight straight] at above
  simp at above

/-- The file name of a path that is joined to a straight one stands last among the names. -/
theorem IsStraight.join_inner
    {base path : String}
    (straight : IsStraight base)
    (inner : IsInner path)
    {last : String}
    (named : fileName? path = some last) :
    IsStraight (Path.join base path) ∧
      (names (Path.join base path)).getLast? = some last := by
  obtain ⟨joined, shape⟩ := straight.join inner.relative inner.noUp
  rw [inner.fileName?_eq] at named
  refine ⟨joined, ?_⟩
  rw [shape, List.getLast?_append, named]
  rfl

end RpcStubs.Files.Path
