import Mathlib.Data.List.TakeWhile
import Registrar.Proofs.Specifier.Decoded

/-!
Specifiers that are read from the importing file's folder. Who reads the program takes a specifier for
relative if its first step is a dot or two; the encoder looks at the first character alone. A way that
leads upward passes both tests, and one that leads down passes the first unless it starts at a hidden name.
-/

namespace Registrar

namespace Text

variable {s t p : Text}

/-- What stands before the first slash. -/
def leading (t : Text) : Text := t.takeWhile (· != '/')

/-- The first step is a name that begins with a dot. -/
def Hidden (t : Text) : Prop := t.head? = some '.' ∧ leading t ≠ ['.'] ∧ leading t ≠ ['.', '.']

instance (t : Text) : Decidable (Hidden t) := inferInstanceAs (Decidable (_ ∧ _))

theorem leading_isPrefix (front : s <+: t) : leading s <+: leading t := by
  obtain ⟨rest, rfl⟩ := front
  rw [leading, leading, List.takeWhile_append]
  split
  · exact (List.takeWhile_prefix _).trans (List.prefix_append ..)
  · exact List.prefix_refl _

theorem leading_join (whole : '/' ∉ p) (rest : List Text) : leading (join ['/'] (p :: rest)) = p := by
  have front : ∀ c ∈ p, (c != '/') = true := fun c member => by
    simpa using fun slash : c = '/' => whole (slash ▸ member)
  cases rest with
  | nil => simpa [leading, join] using List.takeWhile_eq_self_iff.mpr front
  | cons q rest =>
    rw [leading, join, List.intercalate_cons_cons, List.append_assoc, List.takeWhile_append_of_pos front]
    simp

end Text

namespace Specifier

open Path Text

variable {importer file : Path} {extension : String} {dir names : List String}

/-- The first step of the specifier is a dot or two. -/
def IsRelative (specifier : String) : Prop :=
  leading specifier.toList = ['.'] ∨ leading specifier.toList = ['.', '.']

instance (specifier : String) : Decidable (IsRelative specifier) :=
  inferInstanceAs (Decidable (_ ∨ _))

/-- What the encoder makes of a stem is relative unless the stem starts at a hidden name. -/
theorem isRelative_headed (stem : Text) :
    IsRelative (String.ofList (if stem.head? == some '.' then stem else '.' :: '/' :: stem)) ↔
      ¬stem.Hidden := by
  rw [IsRelative, String.toList_ofList, Hidden]
  split
  · next dot =>
    rw [eq_of_beq dot]
    tauto
  · next other =>
    have named : stem.head? ≠ some '.' := by simpa using other
    simp [leading, named]

/-- What is left of a way upward is a dot, two of them, or nothing. -/
theorem not_hidden_of_prefix {stem : Text} {rest : List Text}
    (front : stem <+: join ['/'] (['.', '.'] :: rest)) : ¬stem.Hidden := by
  rintro ⟨dot, one, two⟩
  have short := leading_isPrefix front
  rw [leading_join (by simp)] at short
  obtain ⟨tail, rfl⟩ : ∃ tail, stem = '.' :: tail := ⟨stem.tail, (List.cons_head?_tail dot).symm⟩
  have head : leading ('.' :: tail) = '.' :: leading tail := by simp [leading]
  rw [head] at short one two
  rw [List.cons_prefix_cons] at short
  rcases List.prefix_cons_iff.mp short.2 with none_ | ⟨_, same, none_⟩
  · simp [none_] at one
  · simp [same, List.prefix_nil.mp none_] at two

/-! ### Ways down -/

theorem dropExtension_isPrefix (extension : String) (t : Text) : dropExtension extension t <+: t := by
  rw [dropExtension, dropBack?]
  split
  · exact List.take_prefix ..
  · exact List.prefix_refl _

theorem common_append (steps rest : List Component) : common steps (steps ++ rest) = steps.length := by
  induction steps with
  | nil => cases rest <;> rfl
  | cons step steps ih => rw [List.cons_append, common, if_pos rfl, ih, List.length_cons]

/-- The pieces of the way to what lies in the folder are its names from there. -/
theorem wayPieces_append (inner : List String) :
    wayPieces dir (dir ++ inner) (common (dir.map .name) ((dir ++ inner).map .name)) =
      inner.map String.toList := by
  rw [List.map_append, common_append, List.length_map, wayPieces, Nat.sub_self, List.drop_left]
  rfl

/-- The way to what does not lie in the folder begins with a step upward. -/
theorem exists_wayPieces (outside : ¬dir <+: names) : ∃ rest,
    wayPieces dir names (common (dir.map .name) (names.map .name)) = ['.', '.'] :: rest := by
  obtain ⟨inDir, -⟩ := common_le (dir.map .name) (names.map .name)
  have shared := take_common (dir.map .name) (names.map .name)
  generalize common (dir.map .name) (names.map .name) = k at inDir shared
  rw [List.length_map] at inDir
  have less : k ≠ dir.length := by
    rintro rfl
    rw [← List.map_take, ← List.map_take, List.take_length] at shared
    refine outside (List.prefix_iff_eq_take.mpr ?_)
    exact List.map_injective_iff.mpr (fun a b same => by simpa using same) shared
  obtain ⟨count, count_eq⟩ := Nat.exists_eq_succ_of_ne_zero (n := dir.length - k) (by omega)
  exact ⟨List.replicate count ['.', '.'] ++ (names.drop k).map String.toList, by
    rw [wayPieces, count_eq, List.replicate_succ, List.cons_append]⟩

/-- Only the names count for the way. -/
theorem way_eq {folder : Path} (down : folder.Descends) (down' : file.Descends) :
    way folder file = join ['/'] (wayPieces (namesOf folder.components) (namesOf file.components)
      (common ((namesOf folder.components).map .name) ((namesOf file.components).map .name))) := by
  have steps : ∀ {p : Path}, p.Descends →
      named p = named (ofNames true (namesOf p.components)) := fun {p} down => by
    rw [named, named, components_ofNames isEntryName_of_mem_namesOf, ← down.components_eq]
  rw [← way_ofNames isEntryName_of_mem_namesOf isEntryName_of_mem_namesOf, way, way, steps down,
    steps down']

/-! ### What is relative -/

/-- Between absolute paths that lead downward, a relative specifier is one for its reader as well, unless
the file lies in the importing file's folder and what is left of its names there is hidden. -/
theorem isRelative_relative_iff (down : importer.Descends) (down' : file.Descends) :
    IsRelative (relative extension importer file) ↔ ∀ inner,
      namesOf file.components =
        namesOf (importer.parent?.getD ⟨"/"⟩).components ++ inner →
      ¬(dropExtension extension (join ['/'] (inner.map String.toList))).Hidden := by
  have folder_down : (importer.parent?.getD ⟨"/"⟩).Descends := by
    cases parent : importer.parent? with
    | none => decide
    | some folder => exact (down.exists_of_parent? parent).1
  rw [relative]
  generalize importer.parent?.getD ⟨"/"⟩ = folder at folder_down ⊢
  rw [isRelative_headed, way_eq folder_down down']
  by_cases inside : namesOf folder.components <+: namesOf file.components
  · obtain ⟨inner, names⟩ := inside
    rw [← names, wayPieces_append]
    refine ⟨fun shown inner' same => ?_, fun shown => shown inner rfl⟩
    rwa [← List.append_cancel_left same]
  · obtain ⟨rest, pieces⟩ := exists_wayPieces inside
    rw [pieces]
    refine ⟨fun _ inner names => absurd ⟨inner, names.symm⟩ inside, fun _ => ?_⟩
    exact not_hidden_of_prefix (dropExtension_isPrefix ..)

/-- A module of a hidden folder is named by a package from beside the folder, and relatively from a
folder beside it. -/
theorem isRelative_relative_hidden :
    let file : Path := ⟨"/w/.hidden/x.ts"⟩
    file.Descends ∧ (⟨"/w/a.ts"⟩ : Path).Descends ∧ (⟨"/w/b/a.ts"⟩ : Path).Descends ∧
      relative ".ts" ⟨"/w/a.ts"⟩ file = ".hidden/x" ∧
      ¬IsRelative (relative ".ts" ⟨"/w/a.ts"⟩ file) ∧
      IsRelative (relative ".ts" ⟨"/w/b/a.ts"⟩ file) := by
  intro file
  have down : file.Descends := by decide +kernel
  have beside : (⟨"/w/a.ts"⟩ : Path).Descends := by decide +kernel
  have below : (⟨"/w/b/a.ts"⟩ : Path).Descends := by decide +kernel
  refine ⟨down, beside, below, by decide +kernel, fun shown => ?_, ?_⟩
  · exact (isRelative_relative_iff beside down).mp shown [".hidden", "x.ts"] (by decide +kernel)
      (by decide +kernel)
  · refine (isRelative_relative_iff below down).mpr fun inner names => ?_
    have here : namesOf ((⟨"/w/b/a.ts"⟩ : Path).parent?.getD ⟨"/"⟩).components = ["w", "b"] := by
      decide +kernel
    have there : namesOf file.components = ["w", ".hidden", "x.ts"] := by decide +kernel
    simp [here, there] at names

end Specifier
end Registrar
