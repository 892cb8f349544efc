import Registrar.Proofs.Registry.Zoned
import Registrar.Registry.Anchor

/-!
Places in a text that is put together from parts: where its class is declared, where the remark
stands that marks the place of accessors, and the anchors at which new parts go in.
-/

namespace Registrar

open Recognition Pattern

namespace Part

variable {f : Frame} {p : Part} {parts before_ after_ : List Part} {front back : Text}

/-! ### The remark -/

/-- An import without a piece in its specifier is without it. -/
theorem not_infix_import {name specifier piece : Text} (typed : Bool)
    (plain : isPlainName name = true) (quote : '\'' ∉ piece) (slash : '/' ∈ piece)
    (absent : ¬piece <:+: specifier) :
    ¬piece <:+: importLead typed ++ braced name ++ ['\x7d', ' '] ++ "from".toList ++ [' '] ++
      '\'' :: (specifier ++ '\'' :: [';']) := by
  have noSlash : '/' ∉ name := not_mem_of_isPlainName plain rfl
  intro inside
  rcases Text.infix_append_cons quote inside with inside | inside
  · have member := List.IsInfix.mem slash inside
    unfold importLead at member
    cases typed <;> simp [typeWord, braced, noSlash] at member
  · rcases Text.infix_append_cons quote inside with inside | inside
    · exact absent inside
    · simpa using List.IsInfix.mem slash inside

theorem slash_mem_mark : '/' ∈ Source.accessorMark.toList := by simp [Source.accessorMark]

theorem quote_not_mem_mark : '\'' ∉ Source.accessorMark.toList := by simp [Source.accessorMark]

/-- Only the remark holds the remark. -/
theorem not_mark_infix (plain : f.Plain) (sound : p.IsSound) (other : p ≠ mark) :
    ∀ l ∈ p.lines f, ¬Source.accessorMark.toList <:+: l.text := by
  intro l member
  by_cases is_import : p.keyword = some "import"
  · cases p with
    | contextImport =>
      have unmarked : ¬Source.accessorMark.toList <:+: f.config.contextModule.toList := by
        have space : ' ' ∈ Source.accessorMark.toList := by simp [Source.accessorMark]
        intro inside
        have blank := plain.unspaced _ (List.IsInfix.mem space inside)
        simp [Letter.isBlank] at blank
      have absent := not_infix_import true plain.type quote_not_mem_mark slash_mem_mark unmarked
      generalize Source.accessorMark.toList = piece at absent
      obtain rfl := List.mem_singleton.mp member
      unfold importLead at absent
      simpa [Line.text, typeWord, braced] using absent
    | helperImport l' =>
      have absent := not_infix_import false (isPlainName_of_isClassName sound.1) quote_not_mem_mark
        slash_mem_mark sound.2.unmarked
      generalize Source.accessorMark.toList = piece at absent
      obtain rfl := List.mem_singleton.mp member
      unfold importLead at absent
      simpa [Line.text, typeWord, braced] using absent
    | _ => simp [keyword] at is_import
  · intro inside
    exact not_mem_text_of_keyword plain sound is_import other (.inr rfl) l member
      (List.IsInfix.mem slash_mem_mark inside)

/-- The remark is found in the part that it is. -/
theorem find?_mark (after_ : List Part) (plain : f.Plain) (sound : ∀ p ∈ before_, p.IsSound) (first : mark ∉ before_) :
    Text.find? (textOf f (before_ ++ mark :: after_)) Source.accessorMark.toList =
      some (Text.size (textOf f before_ ++ Source.indent.toList)) := by
  have absent : ∀ line ∈ linesOf f before_, ¬Source.accessorMark.toList <:+: line := by
    intro line member
    obtain ⟨p, inside, member⟩ := List.mem_flatMap.mp member
    obtain ⟨l, known, rfl⟩ := List.mem_map.mp member
    exact not_mark_infix plain (sound p inside) (fun same => first (same ▸ inside)) l known
  have line : mark.text f ++ textOf f after_ =
      ' ' :: ' ' :: ' ' :: ' ' :: (Source.accessorMark.toList ++ '\n' :: textOf f after_) := by
    simp [text, lines, Line.text, Source.indent]
  have here : Text.cut? Source.accessorMark.toList (mark.text f ++ textOf f after_) =
      some (Source.indent.toList, '\n' :: textOf f after_) := by
    have other : ∀ rest, ¬Source.accessorMark.toList <+: ' ' :: rest := by
      simp [Source.accessorMark]
    rw [line, Text.cut?_cons_of_not_begins (other _), Text.cut?_cons_of_not_begins (other _),
      Text.cut?_cons_of_not_begins (other _), Text.cut?_cons_of_not_begins (other _),
      Text.cut?_append (by simp [Source.accessorMark])]
    simp [Source.indent]
  rw [Text.find?, textOf_append, textOf_cons, textOf_eq_ofLines before_,
    Text.cut?_ofLines (by simp [Source.accessorMark]) (by simp [Source.accessorMark]) absent, here]
  rfl

theorem indent_whole : '\n' ∉ Source.indent.toList := by simp [Source.indent]

/-- Accessors go before the remark. -/
theorem accessorsOf_textOf (plain : f.Plain) (sound : ∀ p ∈ before_, p.IsSound)
    (first : mark ∉ before_) :
    Anchors.accessorsOf (textOf f (before_ ++ mark :: after_)) =
      ⟨(textOf f before_).size, true⟩ := by
  have place := find?_mark after_ plain sound first
  have line := Text.lineStart_between (Source.accessorMark.toList ++ '\n' :: textOf f after_)
    (atLine_textOf (f := f) before_) indent_whole
  have text_eq : textOf f before_ ++ Source.indent.toList ++
      (Source.accessorMark.toList ++ '\n' :: textOf f after_) =
        textOf f (before_ ++ mark :: after_) := by
    simp [text, lines, Line.text]
  rw [text_eq] at line
  rw [Anchors.accessorsOf, place]
  simp only [line]

/-! ### The class -/

/-- Another letter, or a gap, begins no word of a class declaration. -/
theorem refuses_classWords {x : Char} (front back : Text) (other : x ∉ ['e', 'd', 'a', 'c']) :
    (next (optional (next (word "export") space)) (next (optional (next (word "default") space))
      (next (optional (next (word "abstract") space)) (next (word "class") (next space
        (group "name" name)))))).Refuses front (x :: back) := by
  have differs : ∀ w ∈ ["export", "default", "abstract", "class"],
      (word w).Refuses front (x :: back) := by
    intro w member
    simp only [List.mem_cons, List.not_mem_nil, or_false, not_or, ← ne_eq] at other member
    refine refuses_literal fun begins => ?_
    rcases member with rfl | rfl | rfl | rfl <;> simp [other.1.symm, other.2.1.symm,
      other.2.2.1.symm, other.2.2.2.symm] at begins
  have noExport := differs "export" (by simp)
  have noDefault := differs "default" (by simp)
  have noAbstract := differs "abstract" (by simp)
  have noClass := differs "class" (by simp)
  refine noExport.next_left.optional_next ?_
  refine noDefault.next_left.optional_next ?_
  exact noAbstract.next_left.optional_next noClass.next_left

/-- A line that declares no class, for the letter that it begins with. -/
structure DeclaresNothing (line : Text) : Prop where
  whole : '\n' ∉ line
  other : ∀ x, (line.dropWhile isGap).head? = some x → x ∉ ['e', 'd', 'a', 'c']

theorem DeclaresNothing.refuses {line : Text} (nothing : DeclaresNothing line) (front back : Text) :
    classDeclaration.Refuses front (line ++ '\n' :: back) := by
  refine Refuses.place_next (refuses_many_next fun taken rest split all => ?_)
  have dropped := congrArg (List.dropWhile isGap) split
  rw [dropWhile_isGap_line, List.dropWhile_append_of_pos all] at dropped
  cases rest with
  | nil => simp at dropped
  | cons x rest =>
    refine refuses_classWords _ rest ?_
    by_cases gapped : isGap x = true
    · simp only [isGap, Bool.or_eq_true, beq_iff_eq] at gapped
      rcases gapped with rfl | rfl <;> decide
    · rw [List.dropWhile_cons_of_neg gapped] at dropped
      cases line_eq : line.dropWhile isGap with
      | nil =>
        rw [line_eq] at dropped
        rw [← (List.cons.inj dropped).1]
        decide
      | cons y line' =>
        rw [line_eq] at dropped
        exact nothing.other x (by rw [line_eq, ← (List.cons.inj dropped).1]; rfl)

/-- Lines that declare no class are passed over. -/
theorem scan_classDeclaration {lines : List Text} (nothing : ∀ line ∈ lines, DeclaresNothing line) :
    Scan classDeclaration (.between front (Text.ofLines lines ++ back)) []
      (.between (front ++ Text.ofLines lines) back) :=
  (anchored_lineStart _).scan_lines (fun line member => (nothing line member).whole)
    fun line member => (nothing line member).refuses

/-- The line that opens a class declares it. -/
theorem exists_takes_opening (back : Text) (named : isIdentifier f.name.toList = true)
    (at_ : Text.AtLine front) :
    ∃ a, classDeclaration.Takes front ("export".toList ++ [' '] ++ "class".toList ++ [' '] ++
        f.name.toList) (' ' :: '\x7b' :: '\n' :: back) [] [("name", a)] ∧
      Encloses a f.name.toList := by
  have chain : ∃ a, classDeclaration.Takes front ([] ++ ([] ++ (("export".toList ++ [' ']) ++
      ([] ++ ([] ++ ("class".toList ++ ([' '] ++ f.name.toList)))))))
      (' ' :: '\x7b' :: '\n' :: back) [] [("name", a)] ∧ Encloses a f.name.toList := by
    apply Exists.intro
    refine ⟨?_, ?_⟩
    · apply (takes_lineStart (at_.startsLine _)).next
      apply (takes_no_gap (by simp [isGap])).next
      apply ((takes_word "export").next (takes_space (by simp [isGap]))).optional.next
      apply (refuses_literal (by simp)).next_left.optional.next
      apply (refuses_literal (by simp)).next_left.optional.next
      apply (takes_word "class").next
      apply (takes_space (isGap_head_eq_false named _)).next
      exact (takes_name named (by simp; rfl)).group
    · exact ⟨_, _, rfl⟩
  obtain ⟨a, takes, named⟩ := chain
  exact ⟨a, by simpa using takes, named⟩

/-- The class of a registry is the first one that is opened. -/
theorem className?_of_opening {lines : List Text} (nothing : ∀ line ∈ lines, DeclaresNothing line)
    (named : isIdentifier f.name.toList = true) (back : Text) :
    className? (Text.ofLines lines ++ (opening.text f ++ back)) = some f.name := by
  have at_ : Text.AtLine (Text.ofLines lines) := by
    rcases List.eq_nil_or_concat lines with rfl | ⟨others, last, rfl⟩
    · exact Text.atLine_nil
    · exact .inr ⟨Text.ofLines others ++ last, by simp⟩
  obtain ⟨⟨start, stop⟩, takes, enclosed⟩ := exists_takes_opening back named at_
  have scan := @scan_classDeclaration [] (opening.text f ++ back) lines nothing
  have line : opening.text f ++ back = "export".toList ++ [' '] ++ "class".toList ++ [' '] ++
      f.name.toList ++ ' ' :: '\x7b' :: '\n' :: back := by
    simp [text, Part.lines, Line.text]
  rw [line, List.nil_append] at scan
  have read : start.upTo stop = f.name.toList := enclosed.upTo
  rw [line, className?, scan.find?_eq takes.matchAt?, Option.bind_some, Match.textOf?,
    List.lookup_cons_self]
  simp only [Option.map_some, read, String.ofList_toList]

/-- Imports and blank lines declare no class. -/
theorem declaresNothing_of_head (whole : ∀ l ∈ p.lines f, '\n' ∉ l.text)
    (head : p.keyword = some "import" ∨ p = blank) : ∀ l ∈ p.lines f, DeclaresNothing l.text := by
  intro l member
  refine ⟨whole l member, ?_⟩
  rw [l.dropWhile_text]
  cases p with
  | contextImport | helperImport l' =>
    obtain rfl := List.mem_singleton.mp member
    simp [isGap]
  | blank =>
    obtain rfl := List.mem_singleton.mp member
    simp
  | _ => simp [keyword] at head

/-- The class of a registry is the one that it opens. -/
theorem className?_textOf (named : isIdentifier f.name.toList = true)
    (whole : ∀ p ∈ before_, ∀ l ∈ p.lines f, '\n' ∉ l.text)
    (head : ∀ p ∈ before_, p.keyword = some "import" ∨ p = blank) (back : Text) :
    className? (textOf f before_ ++ (opening.text f ++ back)) = some f.name := by
  rw [textOf_eq_ofLines]
  refine className?_of_opening (fun line member => ?_) named back
  obtain ⟨p, inside, member⟩ := List.mem_flatMap.mp member
  obtain ⟨l, known, rfl⟩ := List.mem_map.mp member
  exact declaresNothing_of_head (whole p inside) (head p inside) l known

end Part
end Registrar
