import Registrar.Proofs.Disk.Change

/-!
Normal forms and places. An absolute path that leads somewhere leads to the names of its normal form,
so absolute paths with the same normal form never lead to different places.
-/

namespace Registrar

/-- Pieces without separators are the split of their join. -/
theorem Text.splitOn_join {c : Char} {pieces : List Text} (some_ : pieces ≠ [])
    (whole : ∀ p ∈ pieces, c ∉ p) : splitOn (· == c) (join [c] pieces) = pieces := by
  have alone : ∀ p ∈ pieces, splitOn (· == c) p = [p] := by
    intro p member
    refine splitOn_eq_singleton fun x inside => ?_
    rw [beq_eq_false_iff_ne]
    rintro rfl
    exact whole p member inside
  induction pieces with
  | nil => exact absurd rfl some_
  | cons p rest ih =>
    obtain ⟨first, later⟩ := List.forall_mem_cons.mp alone
    cases rest with
    | nil => simpa [join] using first
    | cons q rest =>
      have split : join [c] (p :: q :: rest) = p ++ c :: join [c] (q :: rest) := by
        simp [join, List.intercalate_cons_cons]
      have pieces : splitOn (· == c) (p ++ c :: join [c] (q :: rest)) =
          splitOn (· == c) p ++ splitOn (· == c) (join [c] (q :: rest)) :=
        splitOn_append_cons (by simp) _ _
      rw [split, pieces, first,
        ih (by simp) (fun p member => whole p (by simp [member])) later]
      rfl

namespace Path

/-- The steps of a path lead through names that entries can have. -/
theorem isEntryName_of_mem_namesOf {p : Path} : ∀ n ∈ namesOf p.components, IsEntryName n := by
  have steps : ∀ steps : List Component, (∀ n, Component.name n ∈ steps → IsEntryName n) →
      ∀ names : List String, (∀ n ∈ names, IsEntryName n) →
        ∀ n ∈ steps.foldl Path.follow names, IsEntryName n := by
    intro steps proper
    induction steps with
    | nil => exact fun names known => known
    | cons step rest ih =>
      intro names known
      refine ih (fun n member => proper n (List.mem_cons_of_mem _ member)) _ ?_
      cases step with
      | top => simp [Path.follow]
      | here => exact known
      | up => exact fun n member => known n (List.dropLast_subset _ member)
      | name m =>
        intro n member
        rcases List.mem_append.mp member with member | member
        · exact known n member
        · rw [List.mem_singleton.mp member]
          exact proper m (by simp)
  have named : ∀ n, Component.name n ∈ p.pieces.filterMap component? → IsEntryName n := by
    intro n member
    obtain ⟨piece, inside, step⟩ := List.mem_filterMap.mp member
    refine Disk.isEntryName_of_component? (fun slash => ?_) step
    simpa using Text.not_mem_of_mem_splitOn inside '/' slash
  refine steps _ (fun n member => ?_) [] (by simp)
  rw [components] at member
  split at member
  · simpa using named n (by simpa using member)
  · split at member
    · exact named n (by simpa using member)
    · exact named n member

theorem components_of_isAbsolute {p : Path} (absolute : p.isAbsolute = true) :
    p.components = .top :: p.pieces.filterMap component? := by
  rw [components, if_pos absolute]

/-- A piece is idle, a step upward or a name. -/
theorem component?_cases (piece : Text) : component? piece = none ∨ component? piece = some .up ∨
    ∃ n, component? piece = some (.name n) := by
  rw [component?]
  split
  · exact .inl rfl
  · split
    · exact .inr (.inl rfl)
    · exact .inr (.inr ⟨_, rfl⟩)

/-- The first step is the top for absolute paths only. -/
theorem isAbsolute_of_head? {p : Path} (top : p.components.head? = some .top) :
    p.isAbsolute = true := by
  by_contra relative
  rw [components, if_neg relative] at top
  split at top
  · simp at top
  · obtain ⟨piece, _, step⟩ := List.mem_filterMap.mp (List.mem_of_mem_head? top)
    rcases component?_cases piece with kind | kind | ⟨n, kind⟩ <;> simp [kind] at step

theorem isAbsolute_ofNames {names : List String} (proper : ∀ n ∈ names, IsEntryName n)
    (absolute : Bool) : (ofNames absolute names).isAbsolute = absolute := by
  cases absolute with
  | true => simp [ofNames, ofPieces, isAbsolute]
  | false =>
    cases names with
    | nil => simp [ofNames, ofPieces, isAbsolute, Text.join]
    | cons n rest =>
      obtain ⟨x, letters, letters_eq⟩ := List.exists_cons_of_ne_nil (proper n (by simp)).ne_nil
      have other : x ≠ '/' := by
        rintro rfl
        exact (proper n (by simp)).whole (by simp [letters_eq])
      have head : (Text.join ['/'] ((n :: rest).map String.toList)).head? = some x := by
        cases rest <;> simp [Text.join, List.intercalate, letters_eq]
      rw [ofNames, ofPieces, isAbsolute]
      simp only [Bool.false_eq_true, if_false, List.nil_append, String.toList_ofList, head]
      simpa using other

theorem pieces_ofNames {names : List String} (some_ : names ≠ [])
    (proper : ∀ n ∈ names, IsEntryName n) {absolute : Bool} :
    (ofNames absolute names).pieces = names.map String.toList := by
  have whole : ∀ piece ∈ names.map String.toList, '/' ∉ piece := by
    intro piece member
    obtain ⟨n, inside, rfl⟩ := List.mem_map.mp member
    exact (proper n inside).whole
  have split := Text.splitOn_join (by simpa using some_) whole
  rw [pieces, isAbsolute_ofNames proper]
  cases absolute <;> simpa [ofNames, ofPieces] using split

/-- Names that entries can have are read as they are. -/
theorem filterMap_names {names : List String} (proper : ∀ n ∈ names, IsEntryName n) :
    (names.map String.toList).filterMap component? = names.map .name := by
  rw [List.filterMap_map, ← List.filterMap_eq_map']
  exact List.filterMap_congr fun n member => (proper n member).step

/-- The steps of a path of names are the names, behind the top if it begins there. -/
theorem components_ofNames_append {names : List String} (proper : ∀ n ∈ names, IsEntryName n)
    (absolute : Bool) : (ofNames absolute names).components =
      (if absolute then [.top] else []) ++ names.map .name := by
  cases names with
  | nil => cases absolute <;> rfl
  | cons n rest =>
    have split : (ofNames absolute (n :: rest)).pieces = (n :: rest).map String.toList :=
      pieces_ofNames (List.cons_ne_nil n rest) proper
    have dot : ((n :: rest).map String.toList).head? ≠ some ['.'] := by
      intro same
      have idle := (proper n (by simp)).not_idle
      rw [Option.some.inj same] at idle
      simp [isIdle] at idle
    rw [components, isAbsolute_ofNames proper, split, filterMap_names proper,
      if_neg (fun same => dot (eq_of_beq same))]
    cases absolute <;> rfl

theorem components_ofNames {names : List String} (proper : ∀ n ∈ names, IsEntryName n) :
    (ofNames true names).components = .top :: names.map .name :=
  components_ofNames_append proper true

/-- Absolute paths with the same normal form have the same names. -/
theorem namesOf_eq_of_same {p q : Path} (absolute : p.isAbsolute = true)
    (same : p.normal.same q.normal = true) :
    q.isAbsolute = true ∧ namesOf p.components = namesOf q.components := by
  have steps := eq_of_beq same
  rw [normal, absolute, components_ofNames isEntryName_of_mem_namesOf] at steps
  have absolute' : q.isAbsolute = true := by
    have top := isAbsolute_of_head? (by rw [← steps]; rfl : q.normal.components.head? = some .top)
    rwa [normal, isAbsolute_ofNames isEntryName_of_mem_namesOf] at top
  rw [normal, absolute', components_ofNames isEntryName_of_mem_namesOf] at steps
  refine ⟨absolute', ?_⟩
  have names := (List.cons.inj steps).2
  exact List.map_injective_iff.mpr (fun a b same => by simpa using same) names

end Path

namespace Disk

variable {d : Disk} {p q : Path} {names names' : List String}

/-- Pieces that lead somewhere lead to the names of their steps. -/
theorem names_of_follow {here : List String} {pieces : List Text}
    (followed : follow d.top here pieces = .ok names) :
    names = (pieces.filterMap Path.component?).foldl Path.follow here := by
  induction pieces generalizing here with
  | nil => exact (Except.ok.inj followed).symm
  | cons piece rest ih =>
    rw [follow] at followed
    split at followed
    · rw [List.filterMap_cons]
      rcases Path.component?_cases piece with step | step | ⟨n, step⟩
      · simp only [step] at followed
        rw [ih followed, step]
      · simp only [step] at followed
        rw [ih followed, step]
        rfl
      · simp only [step] at followed
        rw [ih followed, step]
        rfl
    · simp at followed
    · simp at followed

/-- An absolute path leads to the names of its steps. -/
theorem names_of_locate (absolute : p.isAbsolute = true) (led : d.locate p = .ok names) :
    names = Path.namesOf p.components := by
  obtain ⟨here, started, followed⟩ := locate_eq_ok_iff.mp led
  obtain rfl : here = [] := by
    rw [start, if_pos absolute] at started
    exact (Except.ok.inj started).symm
  rw [names_of_follow followed, Path.components_of_isAbsolute absolute]
  rfl

/-- Paths with the same normal form lead to the same place if the first is absolute. -/
theorem eq_of_same_normal (absolute : p.isAbsolute = true) (same : p.normal.same q.normal = true)
    (led : d.locate p = .ok names) (led' : d.locate q = .ok names') : names = names' := by
  obtain ⟨absolute', steps⟩ := Path.namesOf_eq_of_same absolute same
  rw [names_of_locate absolute led, names_of_locate absolute' led', steps]

end Disk
end Registrar
