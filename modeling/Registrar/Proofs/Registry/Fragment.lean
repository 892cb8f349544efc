import Registrar.Proofs.Registry.Reading
import Registrar.Proofs.Text.Word

/-!
What is found in a generated line. An import of one name and a private field are found as a whole wherever
they begin a line, each with what it says and the bytes that it takes.
-/

namespace Registrar

open Recognition Pattern

namespace Recognition

theorem isBlank_of_isNamePart {c : Char} (part : isNamePart c = true) : Letter.isBlank c = false := by
  by_contra blank
  rw [Bool.not_eq_false] at blank
  simp only [isNamePart, Bool.or_eq_true, beq_iff_eq] at part
  rcases part with word | rfl
  · simp [Letter.isWord_eq_false_of_isBlank blank] at word
  · exact absurd blank (by decide)

end Recognition

namespace Part

variable {front back : Text}

/-! ### Imports -/

/-- An import of one name that begins at byte `start`. -/
def importAt (start : Nat) (typed : Bool) (name specifier : String) : Import where
  default? := none
  bindings := [⟨name, name, name⟩]
  specifier
  span := ⟨start, start + (importText typed name.toList specifier.toList).size⟩
  bindingsSpan := some ⟨start + (importLead typed).size,
    start + (importLead typed).size + (braced name.toList).size⟩

/-- A name is imported under itself. -/
theorem binding_eq {name : String} (proper : isIdentifier name.toList = true) :
    Zones.binding name.toList = ⟨name, name, name⟩ := by
  have spaced : ' ' ∉ name.toList := not_mem_of_isIdentifier proper (by decide)
  have noType : Text.dropFront? name.toList "type ".toList = none := by
    refine Text.dropFront?_eq_none ?_
    rintro ⟨rest, split⟩
    exact spaced (by simp [← split])
  have noOther : Text.cut? " as ".toList name.toList = none := by
    refine Text.cut?_eq_none ?_
    rintro ⟨front, rest, split⟩
    exact spaced (by simp [← split])
  have kept : ((Text.dropFront? name.toList "type ".toList).map Text.trim).getD name.toList =
      name.toList := by rw [noType]; rfl
  unfold Zones.binding
  simp only [kept, noOther, String.ofList_toList]

/-- Between the braces stands one name. -/
theorem bindings_braced {name : String} (proper : isIdentifier name.toList = true) :
    Zones.bindings (braced name.toList) = [⟨name, name, name⟩] := by
  have comma : ',' ∉ name.toList := not_mem_of_isIdentifier proper (by decide)
  have whole : Text.splitOn (· == ',') (braced name.toList) = [braced name.toList] := by
    refine Text.splitOn_eq_singleton fun c member => ?_
    simp only [braced, List.cons_append, List.mem_cons, List.mem_append, List.not_mem_nil,
      or_false] at member
    rcases member with rfl | member | rfl
    · rfl
    · exact beq_eq_false_iff_ne.mpr fun same => comma (same ▸ member)
    · rfl
  have some_ := ne_nil_of_isIdentifier proper
  have trimmed : Text.trim ([' '] ++ name.toList ++ [' ']) = name.toList := by
    refine Text.trim_append some_ ?_ ?_ ?_
    · simp [Letter.isBlank]
    · exact fun c member => isBlank_of_isNamePart (all_of_isIdentifier proper c member)
    · simp [Letter.isBlank]
  rw [List.singleton_append] at trimmed
  rw [Zones.bindings, whole]
  simp only [List.map_cons, List.map_nil, braced, trimmed]
  simp [some_, binding_eq proper]

/-- An import of one name is found as a whole. -/
theorem exists_scan_importText {name specifier : String} (typed : Bool) (at_ : Text.AtLine front)
    (proper : isIdentifier name.toList = true) (some_ : specifier.toList ≠ [])
    (unquoted : ∀ c ∈ specifier.toList, isQuote c = false) :
    ∃ ms, Scan importStatement
        (.between front (importText typed name.toList specifier.toList ++ back)) ms
        (.between (front ++ importText typed name.toList specifier.toList) back) ∧
      ms.filterMap Zones.import? = [importAt front.size typed name specifier] := by
  obtain ⟨a, b, takes, named, place, given⟩ :=
    exists_takes_importText front back typed at_.startsLine proper some_ unquoted
  refine ⟨_, scan_hit (by simp [importText]) takes, ?_⟩
  have import_eq : Zones.import? ⟨.between front (importText typed name.toList specifier.toList ++
      back), .between (front ++ importText typed name.toList specifier.toList) back,
      [("specifier", b), ("named", a)]⟩ = some (importAt front.size typed name specifier) := by
    simp [Zones.import?, Match.textOf?, Match.spanOf?, List.lookup_cons, Match.span, Cursor.spanTo,
      named.upTo, named.offset, given.upTo, place, importAt, bindings_braced proper]
  simp [import_eq]

/-! ### Fields -/

theorem trim_name {name : Text} (proper : isIdentifier name = true) : Text.trim name = name := by
  have trimmed : Text.trim ([] ++ name ++ []) = name :=
    Text.trim_append (ne_nil_of_isIdentifier proper) (by simp)
      (fun c member => isBlank_of_isNamePart (all_of_isIdentifier proper c member)) (by simp)
  simpa using trimmed

theorem exists_scan_fieldText (front back : Text) {name type : String} (at_ : Text.AtLine front)
    (proper : isIdentifier name.toList = true) (properType : isIdentifier type.toList = true) :
    ∃ ms, Scan fieldDeclaration (.between front (fieldText false name.toList type.toList ++ back))
        ms (.between (front ++ fieldText false name.toList type.toList) back) ∧
      ms.map Zones.field = [⟨name, type, false, front.size,
        front.size + (fieldText false name.toList type.toList).size⟩] := by
  obtain ⟨a, b, takes, named, typed⟩ :=
    exists_takes_fieldText front back at_.startsLine proper properType
  refine ⟨_, scan_hit (by simp [fieldText, fieldTail]) takes, ?_⟩
  simp [Zones.field, Match.textOf?, List.lookup_cons, Match.span, Cursor.spanTo, named.upTo, typed.upTo,
    trim_name properType]

end Part
end Registrar
