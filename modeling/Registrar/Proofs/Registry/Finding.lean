import Registrar.Proofs.Registry.Template

/-!
What the patterns find in the parts of a generated registry. Every pattern is followed through one
part after another: a part that is an import, a field or a method is found once, with the bytes that
it takes, and all other parts are passed over.
-/

namespace Registrar

open Recognition Pattern

/-! ### Lines -/

theorem Line.mem_text {l : Line} {c : Char} (h : c ∈ l.text) (other : c ≠ ' ') :
    c ∈ l.code.toList := by
  rcases List.mem_append.mp h with member | member
  · obtain ⟨piece, inside, member⟩ := List.mem_flatten.mp member
    rw [List.eq_of_mem_replicate inside] at member
    simp [Source.indent, other] at member
  · exact member

namespace Frame.Plain

variable {f : Frame}

theorem plainName (plain : f.Plain) : isPlainName f.name.toList = true :=
  isPlainName_of_isClassName plain.name

theorem setterName (plain : f.Plain) : isPlainName f.setterName.toList = true := by
  have front : isPlainName "set".toList = true := by simp [isPlainName, isPlain]
  have raised : (String.ofList (Letter.raiseFirst f.config.contextField.toList)).toList =
      Letter.raiseFirst f.config.contextField.toList := String.toList_ofList
  rw [Frame.setterName, String.toList_append, raised]
  exact isPlainName_append front (all_raiseFirst plain.field)

/-- Plain names are identifiers. -/
theorem written (plain : f.Plain) : f.Written where
  name := isIdentifier_of_isPlainName plain.plainName
  type := isIdentifier_of_isPlainName plain.type
  field := isIdentifier_of_isPlainName plain.field
  module_ := plain.module_
  unquoted := plain.unquoted
  unspaced := plain.unspaced

theorem fieldOf (plain : f.Plain) {className : String}
    (h : isClassName className.toList = true) : isPlainName (f.fieldOf className).toList = true :=
  Naming.isPlainName_field h plain.fieldPrefix

end Frame.Plain

namespace Part

variable {f : Frame} {p : Part} {front back : Text}

/-- The names in a part are without a character that no name has. -/
structure Without (f : Frame) (d : Char) (p : Part) : Prop where
  name : d ∉ f.name.toList
  type : d ∉ f.config.contextType.toList
  field : d ∉ f.config.contextField.toList
  setter : d ∉ f.setterName.toList
  helper : ∀ c, p = helperField c ∨ p = helperAccessor c ∨ p = helperExport c ∨
    (∃ s, p = helperImport ⟨c, s⟩) →
    d ∉ c.toList ∧ d ∉ (f.fieldOf c).toList ∧ d ∉ (Naming.accessor c).toList

theorem without (plain : f.Plain) (sound : p.IsSound) {d : Char} (other : isPlain d = false) :
    p.Without f d where
  name := not_mem_of_isPlainName plain.plainName other
  type := not_mem_of_isPlainName plain.type other
  field := not_mem_of_isPlainName plain.field other
  setter := not_mem_of_isPlainName plain.setterName other
  helper := by
    intro c is_c
    have named : isClassName c.toList = true := by
      rcases is_c with rfl | rfl | rfl | ⟨s, rfl⟩
      · exact sound
      · exact sound
      · exact sound
      · exact sound.1
    exact ⟨not_mem_of_isPlainName (isPlainName_of_isClassName named) other,
      not_mem_of_isPlainName (plain.fieldOf named) other,
      not_mem_of_isPlainName (Naming.isPlainName_accessor named) other⟩

/-- A line that is no import and not the remark holds neither line feeds nor slashes. -/
theorem not_mem_text_of_keyword (plain : f.Plain) (sound : p.IsSound)
    (noImport : p.keyword ≠ some "import") (noMark : p ≠ mark) {d : Char}
    (is_d : d = '\n' ∨ d = '/') : ∀ l ∈ p.lines f, d ∉ l.text := by
  intro l member inside
  have other : isPlain d = false := by
    rcases is_d with rfl | rfl <;> rfl
  have inside := Line.mem_text inside (by rcases is_d with rfl | rfl <;> decide)
  obtain ⟨name, type, field, setter, helper⟩ := without plain sound other
  cases p with
  | contextImport | helperImport l' => simp [keyword] at noImport
  | mark => exact absurd rfl noMark
  | helperField c | helperAccessor c | helperExport c =>
    obtain ⟨className, fieldName, accessor⟩ := helper c (by simp)
    simp only [lines, List.mem_cons, List.not_mem_nil, or_false] at member
    revert inside
    rcases member with rfl | rfl | rfl | rfl | rfl | rfl | rfl <;> rcases is_d with rfl | rfl <;>
      simp [name, type, field, className, fieldName, accessor]
  | _ =>
    simp only [lines, List.mem_cons, List.not_mem_nil, or_false] at member
    revert inside
    rcases member with rfl | rfl | rfl | rfl | rfl | rfl <;> rcases is_d with rfl | rfl <;>
      simp [name, type, field, setter]

/-- A line holds no line feed. -/
theorem not_mem_text (plain : f.Plain) (sound : p.IsSound) : ∀ l ∈ p.lines f, '\n' ∉ l.text := by
  by_cases noImport : p.keyword = some "import"
  · intro l member inside
    have inside := Line.mem_text inside (by decide)
    obtain ⟨_, type, _, _, helper⟩ := without plain sound (d := '\n') rfl
    have module_ : '\n' ∉ f.config.contextModule.toList := by
      intro member
      have blank := plain.unspaced _ member
      simp [Letter.isBlank] at blank
    cases p with
    | contextImport =>
      obtain rfl := List.mem_singleton.mp member
      simp [type, module_] at inside
    | helperImport l' =>
      obtain rfl := List.mem_singleton.mp member
      have className := (helper l'.className (.inr (.inr (.inr ⟨_, rfl⟩)))).1
      simp [className, sound.2.whole] at inside
    | _ => simp [keyword] at noImport
  · by_cases noMark : p = mark
    · subst noMark
      intro l member
      obtain rfl := List.mem_singleton.mp member
      simp [Line.text, Source.accessorMark, Source.indent]
    · exact not_mem_text_of_keyword plain sound noImport noMark (.inl rfl)

/-! ### Parts that are passed over -/

/-- None of the lines begins with the word. -/
def Lacks (f : Frame) (w : String) (p : Part) : Prop :=
  ∀ l ∈ p.lines f, ¬w.toList <+: l.code.toList.dropWhile isGap

/-- A part none of whose lines begins with the first word of a pattern is passed over. -/
theorem Lacks.scan {w : String} {q : Pattern} (lacks : p.Lacks f w) (plain : f.Plain)
    (sound : p.IsSound) (start : ∀ x, w.toList.head? = some x → isGap x = false)
    (some_ : w.toList ≠ []) (whole : '\n' ∉ w.toList) :
    Scan (next lineStart (next gap (next (word w) q))) (.between front (p.text f ++ back)) []
      (.between (front ++ p.text f) back) := by
  refine (anchored_lineStart _).scan_lines ?_ ?_
  · intro line member
    obtain ⟨l, inside, rfl⟩ := List.mem_map.mp member
    exact not_mem_text plain sound l inside
  · intro line member front back
    obtain ⟨l, inside, rfl⟩ := List.mem_map.mp member
    exact refuses_keyword start some_ whole (by rw [l.dropWhile_text]; exact lacks l inside)

/-- The words that the patterns begin with. -/
def keywords : List String := ["import", "private", "public", "export"]

/-- A name of a class begins with a capital, so with none of the words. -/
theorem not_keyword_prefix {w : String} {name rest : Text} (is_w : w ∈ keywords)
    (named : isClassName name = true) : ¬w.toList <+: (name ++ rest).dropWhile isGap := by
  obtain ⟨x, name, rfl, capital, _⟩ := isClassName_iff.mp named
  have mark : isGap x = false :=
    isGap_of_isPlain (isPlain_of_isAlphanum (isAlphanum_of_isUpper capital))
  intro begins
  rw [List.cons_append, List.dropWhile_cons_of_neg (by simp [mark])] at begins
  simp only [keywords, List.mem_cons, List.not_mem_nil, or_false] at is_w
  rcases is_w with rfl | rfl | rfl | rfl
  all_goals
    obtain rfl := (List.cons_prefix_cons.mp begins).1
    exact absurd capital (by decide)

/-- No line but the first one of a part begins with a word that a pattern begins with. -/
theorem lacks_tail {w : String} (plain : f.Plain) (is_w : w ∈ keywords) (p : Part) :
    ∀ l ∈ (p.lines f).tail, ¬w.toList <+: l.code.toList.dropWhile isGap := by
  intro l member
  have named : ∀ rest, ¬w.toList <+: (f.name.toList ++ rest).dropWhile isGap :=
    fun rest => not_keyword_prefix is_w plain.name
  simp only [keywords, List.mem_cons, List.not_mem_nil, or_false] at is_w
  cases p with
  | instanceMethod =>
    simp only [lines, List.tail_cons, List.mem_cons, List.not_mem_nil, or_false] at member
    rcases member with rfl | rfl | rfl | rfl | rfl
    case inr.inl =>
      have line := named (".instance = new ".toList ++ f.name.toList ++ "();".toList)
      simp only [String.toList_append, List.append_assoc] at line ⊢
      exact line
    all_goals
      rcases is_w with rfl | rfl | rfl | rfl <;> simp [isGap]
  | setter | helperAccessor c =>
    simp only [lines, List.tail_cons, List.mem_cons, List.not_mem_nil, or_false] at member
    rcases member with rfl | rfl | rfl | rfl | rfl | rfl <;>
      rcases is_w with rfl | rfl | rfl | rfl <;> simp [isGap]
  | _ => simp [lines] at member

/-- A part that begins with another word lacks the word. -/
theorem lacks {w : String} (plain : f.Plain) (is_w : w ∈ keywords) (other : p.keyword ≠ some w) :
    p.Lacks f w := by
  have later := lacks_tail plain is_w p
  simp only [keywords, List.mem_cons, List.not_mem_nil, or_false] at is_w
  intro l member
  cases list : p.lines f with
  | nil => simp [list] at member
  | cons first rest =>
    rw [list] at member later
    rcases List.mem_cons.mp member with rfl | member
    · cases p <;> simp only [lines, List.cons.injEq] at list <;> obtain ⟨rfl, _⟩ := list <;>
        rcases is_w with rfl | rfl | rfl | rfl <;> simp [isGap, keyword, Source.accessorMark] at other ⊢
    · exact later l member

/-! ### Imports -/

theorem text_helperImport_eq (l : Listing) :
    (helperImport l).text f = importText false l.className.toList l.specifier.toList := by
  unfold importText importLead
  simp [text, lines, Line.text, typeWord, braced]

/-- What the pattern of imports finds in a part. -/
theorem exists_scan_import (plain : f.Plain) (sound : p.IsSound) (at_ : Text.AtLine front) :
    ∃ ms, Scan importStatement (.between front (p.text f ++ back)) ms
        (.between (front ++ p.text f) back) ∧
      ms.filterMap Zones.import? = (p.import? f front.size).toList := by
  cases p with
  | helperImport l =>
    rw [text_helperImport_eq]
    exact exists_scan_importText false at_
      (isIdentifier_of_isPlainName (isPlainName_of_isClassName sound.1)) sound.2.some_
      sound.2.unquoted
  | helperField | helperAccessor | helperExport =>
    refine ⟨[], ?_, rfl⟩
    exact (lacks plain (by simp [keywords]) (by simp [keyword])).scan plain sound (by simp [isGap])
      (by simp) (by simp)
  | _ => exact exists_scan_ownImport plain.written rfl at_

/-! ### Fields -/

theorem text_helperField_eq (className : String) : (helperField className).text f =
    fieldText false (f.fieldOf className).toList className.toList := by
  unfold fieldText
  simp [text, lines, Line.text, fieldTail]

/-- What the pattern of fields finds in a part. -/
theorem exists_scan_field (plain : f.Plain) (sound : p.IsSound) (at_ : Text.AtLine front) :
    ∃ ms, Scan fieldDeclaration (.between front (p.text f ++ back)) ms
        (.between (front ++ p.text f) back) ∧
      ms.map Zones.field = (p.field? f front.size).toList := by
  cases p with
  | helperField c =>
    have found := exists_scan_fieldText front back at_ (isIdentifier_of_isPlainName (plain.fieldOf sound))
      (isIdentifier_of_isPlainName (isPlainName_of_isClassName sound))
    rwa [← text_helperField_eq] at found
  | helperImport | helperAccessor | helperExport =>
    refine ⟨[], ?_, rfl⟩
    exact (lacks plain (by simp [keywords]) (by simp [keyword])).scan plain sound (by simp [isGap])
      (by simp) (by simp)
  | _ => exact exists_scan_ownField plain.written rfl at_

/-! ### Methods -/

theorem exists_scan_helperAccessor {className : String} (plain : f.Plain)
    (named : isClassName className.toList = true) (at_ : Text.AtLine front) :
    ∃ ms, Scan accessorSignature (.between front ((helperAccessor className).text f ++ back)) ms
        (.between (front ++ (helperAccessor className).text f) back) ∧
      ms.filterMap (Zones.accessor? (front ++ (helperAccessor className).text f ++ back)) =
        ((helperAccessor className).accessor? f front.size).toList := by
  have names : AccessorNames f.config (Naming.accessor className) (f.fieldOf className) className :=
    { accessor := isIdentifier_of_isPlainName (Naming.isPlainName_accessor named)
      field := isIdentifier_of_isPlainName (plain.fieldOf named)
      className := isIdentifier_of_isPlainName (isPlainName_of_isClassName named)
      type := plain.written.type
      context := plain.written.field }
  have text_eq := text_helperAccessor (f := f) className
  obtain ⟨ms, scan, found⟩ := names.exists_scan_accessorBlock at_ ('\n' :: back)
  generalize (Source.accessorBlock f.config (Naming.accessor className) (f.fieldOf className)
    className).toList = block at scan found text_eq
  have behind : Scan accessorSignature (.between (front ++ block) ([] ++ '\n' :: back)) []
      (.between (front ++ block ++ [] ++ ['\n']) back) :=
    (anchored_lineStart _).scan_line (by simp) (refuses_keyword (by simp [isGap]) (by simp) (by simp)
      (by simp))
  refine ⟨ms, ?_, ?_⟩
  · have both := scan.trans behind
    rw [text_eq]
    simpa using both
  · have whole : front ++ (helperAccessor className).text f ++ back = front ++ block ++ '\n' :: back := by
      simp [text_eq]
    rw [whole, found, accessor?, text_eq, size_append_feed]
    rfl

/-- What the pattern of methods finds in a part. -/
theorem exists_scan_accessor (plain : f.Plain) (sound : p.IsSound) (at_ : Text.AtLine front) :
    ∃ ms, Scan accessorSignature (.between front (p.text f ++ back)) ms
        (.between (front ++ p.text f) back) ∧
      ms.filterMap (Zones.accessor? (front ++ p.text f ++ back)) =
        (p.accessor? f front.size).toList := by
  cases p with
  | helperAccessor c => exact exists_scan_helperAccessor plain sound at_
  | helperImport | helperField | helperExport =>
    refine ⟨[], ?_, rfl⟩
    exact (lacks plain (by simp [keywords]) (by simp [keyword])).scan plain sound (by simp [isGap])
      (by simp) (by simp)
  | _ => exact exists_scan_ownAccessor plain.written rfl at_

theorem isRead_of_isSound (plain : f.Plain) (sound : p.IsSound) : p.IsRead f where
  imports _ _ := exists_scan_import plain sound
  fields _ _ := exists_scan_field plain sound
  accessors _ _ := exists_scan_accessor plain sound

/-! ### Exports -/

/-- What follows the words of an exported constant, the line feed included. -/
def exported? (f : Frame) : Part → Option Text
  | ownExport => some ('g' :: 'e' :: 't' :: f.name.toList ++
      (" = (): " ++ f.name ++ " => " ++ f.name ++ ".getInstance();\n").toList)
  | helperExport className => some ((Naming.accessor className).toList ++
      (" = (" ++ f.config.contextField ++ "?: " ++ f.config.contextType ++ "): " ++ className ++
        " => " ++ f.name ++ ".getInstance()." ++ Naming.accessor className ++ "(" ++
        f.config.contextField ++ ");\n").toList)
  | _ => none

/-- Whether a part is the export of an accessor. -/
def isExportOf (f : Frame) (accessor : String) (p : Part) : Bool :=
  (p.exported? f).any (exportsAs accessor.toList)

theorem text_of_exported? {rest : Text} (is_export : p.exported? f = some rest) :
    p.text f = "export".toList ++ (' ' :: ("const".toList ++ ' ' :: rest)) := by
  cases p with
  | ownExport | helperExport c =>
    obtain rfl := Option.some.inj is_export
    simp [text, lines, Line.text]
  | _ => simp [exported?] at is_export

theorem refuses_exportOf_opening (accessor : String) (front back : Text) :
    (exportOf accessor).Refuses front ("export".toList ++ (' ' :: ("class".toList ++ back))) := by
  refine Refuses.place_next (refuses_literal_next fun rest split => ?_)
  obtain rfl := List.append_cancel_left split
  refine refuses_space_next (by simp [isGap]) ?_
  exact (refuses_literal (by simp)).next_left

end Part
end Registrar
