import Registrar.Proofs.Disk.Normal

/-!
Paths as programs of a machine whose state is the names so far. The top clears the names, a step upward
takes the last one off if there is one, and a name is put behind them. A path that is read from another
one runs on where that one has stopped, whatever slashes and dots are written between them; so the
normal form, which stops at the same names, can stand in for it.
-/

namespace Registrar.Path

variable {p q : Path} {names : List String}

/-! ### Written steps -/

/-- The steps of a text, with no account of where it begins. -/
def written (t : Text) : List Component := (Text.splitOn (· == '/') t).filterMap component?

/-- A slash separates steps and is none. -/
theorem written_append (s t : Text) : written (s ++ '/' :: t) = written s ++ written t := by
  rw [written, Text.splitOn_append_cons (by simp), List.filterMap_append]
  rfl

/-- The slash at the top makes a piece that says nothing. -/
theorem filterMap_pieces (p : Path) : p.pieces.filterMap component? = written p.text.toList := by
  rw [pieces]
  split
  · next absolute =>
    obtain ⟨rest, text⟩ : ∃ rest, p.text.toList = '/' :: rest :=
      List.head?_eq_some_iff.mp (by simpa [isAbsolute] using absolute)
    rw [text]
    exact (written_append [] rest).symm
  · rfl

/-- A path begins at the top if either of the two that it is joined from does. -/
theorem isAbsolute_join (p q : Path) : (p.join q).isAbsolute = (p.isAbsolute || q.isAbsolute) := by
  rw [join]
  by_cases absolute : q.isAbsolute = true
  · simp [absolute]
  rw [Bool.eq_false_iff.mpr absolute, Bool.false_or, Bool.or_false]
  by_cases empty : p.text.isEmpty = true
  · rw [if_pos empty, Bool.eq_false_iff.mpr absolute, isAbsolute, String.isEmpty_iff.mp empty]
    rfl
  · obtain ⟨c, rest, text⟩ : ∃ c rest, p.text.toList = c :: rest :=
      List.exists_cons_of_ne_nil fun same => empty (by simpa using same)
    rw [if_neg empty]
    split <;> simp [isAbsolute, text]

/-- Behind a path come the steps of one that does not begin at the top. -/
theorem filterMap_pieces_join (relative : q.isAbsolute = false) :
    (p.join q).pieces.filterMap component? =
      p.pieces.filterMap component? ++ q.pieces.filterMap component? := by
  rw [filterMap_pieces, filterMap_pieces, filterMap_pieces, join, relative, Bool.false_or]
  by_cases empty : p.text.isEmpty = true
  · rw [if_pos empty, String.isEmpty_iff.mp empty]
    rfl
  rw [if_neg empty]
  by_cases slash : p.text.toList.getLast? = some '/'
  · -- The slash that is there already does the work of the one that would be written.
    obtain ⟨front, text⟩ := List.getLast?_eq_some_iff.mp slash
    rw [if_pos (by simp [slash]), String.toList_append, text, List.append_assoc, List.singleton_append,
      written_append, written_append]
    simp [written, Text.splitOn, component?, isIdle]
  · rw [if_neg (by simpa using slash), String.toList_append, String.toList_append, List.append_assoc]
    exact written_append _ _

/-- The steps of a text that is read from a folder come behind those of the folder. -/
theorem components_join {t : Text} (absolute : p.isAbsolute = true) (relative : t.head? ≠ some '/') :
    (p.join ⟨String.ofList t⟩).components =
      p.components ++ (Text.splitOn (· == '/') t).filterMap component? := by
  have relative : (⟨String.ofList t⟩ : Path).isAbsolute = false := by simpa [isAbsolute] using relative
  have top : (p.join ⟨String.ofList t⟩).isAbsolute = true := by
    rw [isAbsolute_join, absolute, Bool.true_or]
  rw [components_of_isAbsolute top, components_of_isAbsolute absolute, filterMap_pieces_join relative,
    filterMap_pieces ⟨String.ofList t⟩, String.toList_ofList]
  rfl

/-! ### Runs -/

/-- A path that begins at the top leads to the same names from everywhere. -/
theorem foldl_follow_components (p : Path) (names : List String) : p.components.foldl follow names =
    (p.pieces.filterMap component?).foldl follow (if p.isAbsolute then [] else names) := by
  rw [components]
  split
  · rfl
  · split <;> rfl

/-- A path that is read from another one runs on from the names to which that one leads. -/
theorem namesOf_join (p q : Path) :
    namesOf (p.join q).components = q.components.foldl follow (namesOf p.components) := by
  by_cases absolute : q.isAbsolute = true
  · have whole : p.join q = q := by rw [join, absolute, Bool.true_or, if_pos rfl]
    rw [whole, namesOf, foldl_follow_components, foldl_follow_components, if_pos absolute, if_pos absolute]
  · have relative : q.isAbsolute = false := Bool.eq_false_iff.mpr absolute
    rw [foldl_follow_components q, if_neg absolute, namesOf, namesOf, foldl_follow_components,
      foldl_follow_components, isAbsolute_join, relative, Bool.or_false, filterMap_pieces_join relative,
      List.foldl_append]

theorem foldl_follow_names (here : List String) :
    (names.map Component.name).foldl follow here = here ++ names := by
  induction names generalizing here with
  | nil => simp
  | cons n rest ih =>
    rw [List.map_cons, List.foldl_cons, ih]
    simp [follow]

/-! ### Normal forms -/

theorem isAbsolute_normal (p : Path) : p.normal.isAbsolute = p.isAbsolute :=
  isAbsolute_ofNames isEntryName_of_mem_namesOf _

/-- The steps of a normal form are the names to which the path leads, behind the top if it begins there. -/
theorem components_normal (p : Path) : p.normal.components =
    (if p.isAbsolute then [.top] else []) ++ (namesOf p.components).map .name :=
  components_ofNames_append isEntryName_of_mem_namesOf _

/-- The normal form leads where the path leads. -/
theorem namesOf_normal (p : Path) : namesOf p.normal.components = namesOf p.components := by
  rw [components_normal, namesOf_append]
  cases p.isAbsolute <;> exact foldl_follow_names []

theorem not_mem_components_normal (p : Path) :
    .here ∉ p.normal.components ∧ .up ∉ p.normal.components := by
  rw [components_normal]
  cases p.isAbsolute <;> simp

theorem normal_normal (p : Path) : p.normal.normal = p.normal := by
  rw [normal, isAbsolute_normal, namesOf_normal, normal]

/-- What a path is read from counts by its normal form alone. -/
theorem normal_join (p q : Path) : (p.normal.join q).normal = (p.join q).normal := by
  calc (p.normal.join q).normal
    _ = ofNames (p.isAbsolute || q.isAbsolute) (q.components.foldl follow (namesOf p.components)) := by
      rw [normal, isAbsolute_join, isAbsolute_normal, namesOf_join, namesOf_normal]
    _ = (p.join q).normal := by rw [← isAbsolute_join, ← namesOf_join, normal]

theorem normal_ofNames (proper : ∀ n ∈ names, IsEntryName n) :
    (ofNames true names).normal = ofNames true names := by
  have steps : namesOf (.top :: names.map .name) = names := foldl_follow_names []
  rw [normal, isAbsolute_ofNames proper, components_ofNames proper, steps]

end Registrar.Path
