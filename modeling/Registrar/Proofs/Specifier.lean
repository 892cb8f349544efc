import Mathlib.Data.List.Chain
import Registrar.Specifier

/-!
Relative specifiers. A specifier that leads from one file to another is made of names and steps
upward with single slashes between them, so it never holds two slashes side by side.
-/

namespace Registrar

namespace Text

variable {s t : Text}

/-- No two slashes stand side by side. -/
def SingleSlashed (t : Text) : Prop := t.IsChain fun a b => ¬(a = '/' ∧ b = '/')

theorem SingleSlashed.avoids (h : SingleSlashed t) : ¬['/', '/'] <:+: t := by
  intro inside
  simpa using List.IsChain.infix h inside

theorem singleSlashed_of_not_mem (absent : '/' ∉ t) : SingleSlashed t := by
  induction t with
  | nil => exact .nil
  | cons c rest ih =>
    refine (ih fun member => absent (by simp [member])).cons ?_
    rintro d _ ⟨rfl, _⟩
    simp at absent

/-- A name behind a slash holds no second one. -/
theorem singleSlashed_cons (absent : '/' ∉ t) : SingleSlashed ('/' :: t) := by
  refine (singleSlashed_of_not_mem absent).cons ?_
  rintro c head ⟨_, rfl⟩
  exact absent (List.mem_of_mem_head? head)

/-- Texts without slashes are joined by single ones. -/
theorem singleSlashed_join {pieces : List Text} (whole : ∀ p ∈ pieces, p ≠ [] ∧ '/' ∉ p) :
    SingleSlashed ('/' :: join ['/'] pieces) := by
  induction pieces with
  | nil => exact .singleton _
  | cons p rest ih =>
    obtain ⟨some_, absent⟩ := whole p (by simp)
    have here := singleSlashed_cons absent
    cases rest with
    | nil => simpa [join] using here
    | cons q rest =>
      have later := ih fun p member => whole p (by simp [member])
      have split : '/' :: join ['/'] (p :: q :: rest) =
          ('/' :: p) ++ ('/' :: join ['/'] (q :: rest)) := by
        simp [join, List.intercalate_cons_cons]
      rw [split]
      refine List.IsChain.append here later ?_
      rintro c last d _ ⟨rfl, _⟩
      rw [List.getLast?_cons_of_ne_nil some_] at last
      exact absent (List.mem_of_getLast? last)

/-- The pieces of a split hold no separators. -/
theorem not_mem_of_mem_splitOn {isSeparator : Char → Bool} {p : Text}
    (member : p ∈ splitOn isSeparator t) : ∀ c ∈ p, isSeparator c = false := by
  induction t generalizing p with
  | nil =>
    simp only [splitOn, List.mem_singleton] at member
    simp [member]
  | cons c rest ih =>
    rw [splitOn] at member
    cases pieces : splitOn isSeparator rest with
    | nil => exact absurd pieces (splitOn_ne_nil _ _)
    | cons q others =>
      rw [pieces] at ih member
      by_cases separator : isSeparator c = true
      · simp only [separator, if_true] at member
        rcases List.mem_cons.mp member with rfl | member
        · simp
        · exact ih member
      · simp only [separator, Bool.false_eq_true, if_false] at member
        rcases List.mem_cons.mp member with rfl | member
        · intro d inside
          rcases List.mem_cons.mp inside with rfl | inside
          · simpa using separator
          · exact ih (by simp) d inside
        · exact ih (by simp [member])

end Text

namespace Specifier

open Path

/-- The text of a step other than the top has no slash. -/
theorem stepText_of_component? {piece : Text} {step : Component} (absent : '/' ∉ piece)
    (read : Path.component? piece = some step) :
    stepText step ≠ [] ∧ '/' ∉ stepText step ∧ step ≠ .here := by
  rw [Path.component?] at read
  split at read
  · simp at read
  · next busy =>
    split at read
    · obtain rfl := Option.some.inj read
      simp [stepText]
    · obtain rfl := Option.some.inj read
      simp only [isIdle, Bool.or_eq_true, not_or] at busy
      simp only [stepText, String.toList_ofList]
      exact ⟨by simpa using busy.1, absent, by simp⟩

/-- The steps of a path behind the top are names and steps upward. -/
theorem exists_named (p : Path) : ∃ steps,
    named p = (if p.isAbsolute then [.top] else []) ++ steps ∧
      ∀ step ∈ steps, stepText step ≠ [] ∧ '/' ∉ stepText step := by
  have known : ∀ step ∈ p.pieces.filterMap component?,
      stepText step ≠ [] ∧ '/' ∉ stepText step ∧ step ≠ .here := by
    intro step member
    obtain ⟨piece, inside, read⟩ := List.mem_filterMap.mp member
    refine stepText_of_component? (fun slash => ?_) read
    simpa using Text.not_mem_of_mem_splitOn inside '/' slash
  have kept : (p.pieces.filterMap component?).filter (· != .here) =
      p.pieces.filterMap component? :=
    List.filter_eq_self.mpr fun step member => by simpa using (known step member).2.2
  refine ⟨p.pieces.filterMap component?, ?_, fun step member =>
    ⟨(known step member).1, (known step member).2.1⟩⟩
  rw [named, components]
  by_cases absolute : p.isAbsolute = true
  · simp [absolute, kept]
  · rw [if_neg absolute, if_neg absolute]
    split <;> simp [kept]

theorem isAbsolute_parent? {p q : Path} (absolute : p.isAbsolute = true)
    (parent : p.parent? = some q) : q.isAbsolute = true := by
  rw [parent?] at parent
  split at parent
  · simp at parent
  · obtain rfl := Option.some.inj parent
    rw [absolute, ofPieces, isAbsolute]
    simp

/-- The way from an absolute folder holds single slashes. -/
theorem singleSlashed_way {folder : Path} (absolute : folder.isAbsolute = true) (file : Path) :
    Text.SingleSlashed ('/' :: way folder file) := by
  obtain ⟨steps, steps_eq, _⟩ := exists_named folder
  obtain ⟨target, target_eq, whole⟩ := exists_named file
  refine Text.singleSlashed_join fun piece member => ?_
  rcases List.mem_append.mp member with member | member
  · rw [List.eq_of_mem_replicate member]
    simp
  · obtain ⟨step, inside, rfl⟩ := List.mem_map.mp member
    refine whole step ?_
    rw [steps_eq, target_eq, absolute] at inside
    cases top : file.isAbsolute with
    | true =>
      -- Both begin at the top, which is shared.
      simp only [top, if_true, List.singleton_append, common] at inside
      exact List.mem_of_mem_drop inside
    | false =>
      simp only [top, Bool.false_eq_true, if_false, List.nil_append] at inside
      exact List.mem_of_mem_drop inside

/-- A relative specifier from an absolute file holds single slashes. -/
theorem singleSlashed_relative {importer : Path} (absolute : importer.isAbsolute = true)
    (extension : String) (file : Path) :
    Text.SingleSlashed (relative extension importer file).toList := by
  have folder : (importer.parent?.getD ⟨"/"⟩).isAbsolute = true := by
    cases parent : importer.parent? with
    | none => rfl
    | some q => exact isAbsolute_parent? absolute parent
  have slashed := singleSlashed_way folder file
  rw [relative, String.toList_ofList]
  generalize way (importer.parent?.getD ⟨"/"⟩) file = t at slashed
  have shorter : Text.SingleSlashed ('/' :: dropExtension extension t) := by
    have front : dropExtension extension t <+: t := by
      rw [dropExtension, Text.dropBack?]
      split
      · exact List.take_prefix ..
      · exact List.prefix_refl _
    exact List.IsChain.prefix slashed ((List.prefix_cons_inj _).mpr front)
  split
  · exact shorter.tail
  · exact shorter.cons (by simp)

theorem relative_ne_nil (extension : String) (importer file : Path) :
    (relative extension importer file).toList ≠ [] := by
  rw [relative, String.toList_ofList]
  intro none_
  split at none_
  · next head =>
    rw [none_] at head
    simp at head
  · simp at none_

end Specifier
end Registrar
