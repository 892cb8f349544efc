import Registrar.Proofs.Registry.Interwoven

/-!
What the lines of new entries declare. Read line by line, they declare no class and no export, close no brace
at the start of a line and hold no remark, and a field is declared by the lines for fields only; the line of an
export declares an export.
-/

namespace Registrar

open Recognition Pattern

namespace Text.Linewise

variable {α β : Type} {content : Text → List α} {text : β → Text} {l : List β}
  (linewise : Linewise content)
include linewise

theorem feed : content ['\n'] = [] := by
  have ended := linewise.ended []
  rwa [List.nil_append, linewise.nil] at ended

theorem feeds {d : Text} (blank : IsFeeds d) : content d = [] := by
  induction d with
  | nil => exact linewise.nil
  | cons c d ih =>
    obtain rfl := blank c (by simp)
    show content (['\n'] ++ d) = []
    rw [linewise.append (x := ['\n']) (.inr ⟨[], rfl⟩), linewise.feed, List.nil_append,
      ih fun c member => blank c (by simp [member])]

theorem flatMap_eq (whole : ∀ b ∈ l, (text b).AtLine) :
    content (l.flatMap text) = l.flatMap fun b => content (text b) := by
  induction l with
  | nil => exact linewise.nil
  | cons b l ih =>
    obtain ⟨here, whole⟩ := List.forall_mem_cons.mp whole
    rw [List.flatMap_cons, List.flatMap_cons, linewise.append here, ih whole]

theorem ofLines_eq (lines : List Text) :
    content (ofLines lines) = lines.flatMap fun line => content (line ++ ['\n']) :=
  linewise.flatMap_eq fun _ _ => atLine_concat _

end Text.Linewise

namespace Pattern

theorem findAll_eq_nil_of_passed {p : Pattern} {x : Text} (moves_ : p.moves = true)
    (passed : Scan p (.between [] x) [] (.between x [])) : p.findAll x = [] :=
  passed.findAll_eq (matchAt?_eq_none_of_moves moves_)

end Pattern

theorem Zones.fieldContents_of_passed {d : Text}
    (passed : Scan fieldDeclaration (.between [] d) [] (.between d [])) : fieldContents d = [] := by
  show ((fieldDeclaration.findAll d).map field).map Field.content = []
  rw [findAll_eq_nil_of_passed rfl passed]
  rfl

/-! ### Lines of one kind -/

namespace OnlyZone

variable {word : String} {d : Text} (only : OnlyZone word d)
include only

theorem classNames_eq_nil : classNames d = [] := by
  obtain ⟨lines, rfl, silent⟩ := only
  have scan := @Part.scan_classDeclaration [] [] lines silent.nothing
  rw [List.append_nil, List.nil_append] at scan
  rw [classNames, findAll_eq_nil_of_passed rfl scan, List.map_nil]

theorem exportsOf_eq_nil (accessor : String) : exportsOf accessor d = [] := by
  have scan := only.scan_exportOf accessor [] []
  rw [List.append_nil, List.nil_append] at scan
  rw [exportsOf, findAll_eq_nil_of_passed rfl scan, List.map_nil]

theorem fieldContents_eq_nil (other : word ≠ "private") : Zones.fieldContents d = [] := by
  have scan : Scan fieldDeclaration (.between [] (d ++ [])) [] (.between ([] ++ d) []) :=
    only.scan (by simp [zoneWords]) other.symm [] []
  rw [List.append_nil, List.nil_append] at scan
  exact Zones.fieldContents_of_passed scan

theorem findAll_accessorSignature (other : word ≠ "public") : accessorSignature.findAll d = [] := by
  have scan : Scan accessorSignature (.between [] (d ++ [])) [] (.between ([] ++ d) []) :=
    only.scan (by simp [zoneWords]) other.symm [] []
  rw [List.append_nil, List.nil_append] at scan
  exact findAll_eq_nil_of_passed rfl scan

end OnlyZone

/-! ### Braces and remarks -/

namespace Recognition

variable {line : Text} {lines : List Text}

/-- A line that begins with another character closes no brace at its start. -/
theorem closings_line (whole : '\n' ∉ line) (other : line.head? ≠ some '\x7d') :
    closings (line ++ ['\n']) = [] := by
  have anchored : closingBrace.Anchored := anchored_lineStart _
  have refused : closingBrace.Refuses [] (line ++ ['\n']) := by
    refine Refuses.place_next (refuses_one fun x head => ?_)
    cases line with
    | nil =>
      obtain rfl : '\n' = x := by simpa using head
      rfl
    | cons c line =>
      obtain rfl : c = x := by simpa using head
      simpa using other
  have scan : Scan closingBrace (.between [] (line ++ ['\n'])) [] _ := anchored.scan_line whole refused
  rw [closings, findAll_eq_nil_of_passed rfl (by simpa using scan), List.map_nil]

theorem closings_ofLines (quiet : ∀ line ∈ lines, '\n' ∉ line ∧ line.head? ≠ some '\x7d') :
    closings (Text.ofLines lines) = [] := by
  rw [linewise_closings.ofLines_eq, List.flatMap_eq_nil_iff]
  exact fun line member => closings_line (quiet line member).1 (quiet line member).2

end Recognition

namespace Entry

/-- What a slot is given for an entry, without blank lines. -/
def piece (config : Config) (e : Entry) : Slot → Text
  | .imports => (Source.importLine e.className e.specifier).toList
  | .fields => (Source.fieldLine e.field e.className).toList
  | .accessors => (Source.accessorBlock config e.accessor e.field e.className).toList

theorem atLine_piece (config : Config) (e : Entry) (s : Slot) : Text.AtLine (e.piece config s) := by
  cases s with
  | imports => exact Source.atLine_importLine _ _
  | fields => exact Source.atLine_fieldLine _ _
  | accessors => exact Source.atLine_accessorBlock _ _ _ _

namespace Proper

variable {config : Config} {e : Entry} (proper : e.Proper config)
include proper

theorem onlyZone_piece (s : Slot) : ∃ word, OnlyZone word (e.piece config s) ∧
    (s ≠ .fields → word ≠ "private") ∧ (s ≠ .accessors → word ≠ "public") := by
  cases s with
  | imports => exact ⟨_, proper.onlyZone_importLine, by simp, by simp⟩
  | fields => exact ⟨_, proper.onlyZone_fieldLine, by simp, by simp⟩
  | accessors => exact ⟨_, proper.onlyZone_accessorBlock, by simp, by simp⟩

theorem classNames_piece (s : Slot) : classNames (e.piece config s) = [] := by
  obtain ⟨word, only, -⟩ := proper.onlyZone_piece s
  exact only.classNames_eq_nil

theorem exportsOf_piece (accessor : String) (s : Slot) : exportsOf accessor (e.piece config s) = [] := by
  obtain ⟨word, only, -⟩ := proper.onlyZone_piece s
  exact only.exportsOf_eq_nil accessor

theorem fieldContents_piece (s : Slot) :
    Zones.fieldContents (e.piece config s) = if s = .fields then [e.fieldContent] else [] := by
  split
  · next same =>
    subst same
    show Zones.fieldContents (Source.fieldLine e.field e.className).toList = _
    rw [Zones.fieldContents, Source.zones_fieldLine proper.names.field proper.names.className]
    rfl
  · next other =>
    obtain ⟨word, only, apart, -⟩ := proper.onlyZone_piece s
    exact only.fieldContents_eq_nil (apart other)

theorem closings_piece (s : Slot) : closings (e.piece config s) = [] := by
  have line_ : ∀ {t line : Text} {word}, t = Text.ofLines [line] → Source.Silent word [line] →
      t.head? ≠ some '\x7d' → closings t = [] := by
    rintro _ line word rfl silent other
    refine closings_ofLines fun l member => ⟨(silent.nothing l member).whole, ?_⟩
    obtain rfl := List.mem_singleton.mp member
    intro first
    obtain ⟨rest, rfl⟩ := List.head?_eq_some_iff.mp first
    exact other rfl
  cases s with
  | imports =>
    obtain ⟨line, text, silent⟩ := Source.exists_line_import proper.names.className proper.whole
    refine line_ text silent ?_
    simp only [piece]
    unfold Source.importLine
    simp
  | fields =>
    obtain ⟨line, text, silent⟩ := Source.exists_line_field proper.names.field proper.names.className
    refine line_ text silent ?_
    simp only [piece]
    unfold Source.fieldLine
    simp [Source.indent]
  | accessors =>
    rw [piece, Part.toList_accessorBlock]
    refine closings_ofLines fun line member =>
      ⟨((Source.silent_accessor proper.names).nothing line member).whole, ?_⟩
    obtain ⟨l, inside, rfl⟩ := List.mem_map.mp member
    simp only [Part.accessorBody, Part.accessorOpening, List.mem_cons, List.not_mem_nil, or_false] at inside
    rcases inside with rfl | rfl | rfl | rfl | rfl | rfl <;> simp [Source.indent]

/-- Only the specifier of an entry can hold the remark. -/
theorem markedLines_piece (unmarked : ¬Source.accessorMark.toList <:+: e.specifier.toList) (s : Slot) :
    Text.markedLines (e.piece config s) = [] := by
  rw [Text.markedLines_eq_nil_iff]
  obtain ⟨accessor_, field_, className_, type_, context_⟩ := proper.names.not_mem (d := '/') rfl
  cases s with
  | imports =>
    -- The remark has no quotation mark, so it would be in the specifier or beside it.
    have line : (Source.importLine e.className e.specifier).toList = ("import \x7b " ++ e.className ++
        " \x7d from ").toList ++ '\'' :: (e.specifier.toList ++ '\'' :: ";\n".toList) := by
      unfold Source.importLine
      simp
    intro inside
    rw [piece, line] at inside
    rcases Text.infix_append_cons Part.quote_not_mem_mark inside with inside | inside
    · simpa [className_] using List.IsInfix.mem Part.slash_mem_mark inside
    · rcases Text.infix_append_cons Part.quote_not_mem_mark inside with inside | inside
      · exact unmarked inside
      · simpa using List.IsInfix.mem Part.slash_mem_mark inside
  | fields =>
    intro inside
    have member := List.IsInfix.mem Part.slash_mem_mark inside
    simp only [piece] at member
    unfold Source.fieldLine at member
    simp [Source.indent, field_, className_] at member
  | accessors =>
    intro inside
    have member := List.IsInfix.mem Part.slash_mem_mark inside
    simp only [piece] at member
    unfold Source.accessorBlock at member
    simp [Source.indent, field_, className_, accessor_, type_, context_] at member

end Proper
end Entry

/-! ### Lines of exports -/

namespace Pattern

variable {p q r : Pattern} {front back : Text}

/-- A part that need not be there is refused with what follows it, if that is refused with it and without. -/
theorem Refuses.with_optional (present : (next p q).Refuses front back) (absent : q.Refuses front back) :
    (next (Pattern.optional p) q).Refuses front back := by
  refine refuses_next fun g e member => ?_
  rw [Pattern.optional, ends, List.mem_append] at member
  rcases member with member | member
  · exact List.flatMap_eq_nil_iff.mp (present g) e member
  · obtain rfl := List.mem_singleton.mp member
    exact absent g

theorem Refuses.next_assoc (refuses : (next p (next q r)).Refuses front back) :
    (next (next p q) r).Refuses front back := by
  intro g
  have none_ := refuses g
  simp only [ends, List.flatMap_assoc] at none_ ⊢
  exact none_

end Pattern

namespace Recognition

/-- The line of an exported constant declares no class. -/
theorem refuses_classDeclaration_constant (accessor : String) (tail front back : Text) :
    classDeclaration.Refuses front (Source.constantLine accessor tail ++ back) := by
  have line : Source.constantLine accessor tail ++ back = "export".toList ++ (' ' ::
      ("const".toList ++ (' ' :: (accessor.toList ++ ' ' :: tail) ++ back))) := by
    simp [Source.constantLine]
  have later : ∀ (f t : Text), (∀ w ∈ ["default", "abstract", "class"], ¬w.toList <+: t) →
      (next (Pattern.optional (next (word "default") space))
        (next (Pattern.optional (next (word "abstract") space))
        (next (word "class") (next space (group "name" name))))).Refuses f t := by
    intro f t differs
    have differs : ∀ w ∈ ["default", "abstract", "class"], (literal w.toList).Refuses f t :=
      fun w member => refuses_literal (differs w member)
    refine (differs "default" (by simp)).next_left.optional_next ?_
    refine (differs "abstract" (by simp)).next_left.optional_next ?_
    exact (differs "class" (by simp)).next_left
  rw [line]
  refine Refuses.place_next (refuses_no_gap_next (by simp [isGap]) (Refuses.with_optional ?_ ?_))
  · refine Refuses.next_assoc (refuses_literal_next fun rest split => ?_)
    obtain rfl := List.append_cancel_left split
    exact refuses_space_next (by simp [isGap]) (later _ _ (by simp))
  · exact later _ _ (by simp)

end Recognition

namespace Host

/-- The name of the registry's class can stand in the line of an export. -/
structure Spellable (h : Host) : Prop where
  whole : '\n' ∉ h.className.toList
  unclosed : '\x7d' ∉ h.className.toList
  slashless : '/' ∉ h.className.toList
  unquoted : ∀ c ∈ h.className.toList, isQuote c = false

instance (h : Host) : Decidable h.Spellable :=
  decidable_of_iff ('\n' ∉ h.className.toList ∧ '\x7d' ∉ h.className.toList ∧ '/' ∉ h.className.toList ∧
      h.className.toList.any isQuote = false)
    ⟨fun ⟨w, c, s, u⟩ => ⟨w, c, s, by simpa using u⟩, fun ⟨w, c, s, u⟩ => ⟨w, c, s, by simpa using u⟩⟩

variable {h : Host} {e : Entry} {entries : List Entry}

theorem atLine_exportLine (h : Host) (e : Entry) : (h.exportLine e).AtLine :=
  Source.atLine_exportLine _ _ _ _

section
variable (proper : e.Proper h.config)
include proper

/-- A sign that is no part of names is in the line of an export only if the line of every export has it. -/
theorem not_mem_exportLine {c : Char} (registry : c ∉ h.className.toList) (other : isNamePart c = false)
    (foreign : c ∉ "export const  = (?: ):  => .getInstance().();\n".toList) : c ∉ h.exportLine e := by
  obtain ⟨accessor_, -, className_, type_, context_⟩ := proper.names.not_mem (d := c) other
  unfold exportLine Source.exportLine
  simp only [String.toList_append, List.mem_append, not_or]
  simp at foreign
  simp [accessor_, className_, type_, context_, registry, foreign]

variable (spellable : h.Spellable)
include spellable

theorem classNames_exportLine : classNames (h.exportLine e) = [] := by
  obtain ⟨tail, line, whole⟩ := exists_exportLine proper spellable.whole
  have anchored : classDeclaration.Anchored := anchored_lineStart _
  have scan : Scan classDeclaration (.between [] (Source.constantLine e.accessor tail ++ ['\n'])) [] _ :=
    anchored.scan_line whole (refuses_classDeclaration_constant e.accessor tail [] ['\n'])
  rw [line, classNames, findAll_eq_nil_of_passed rfl (by simpa using scan), List.map_nil]

theorem scan_exportLine_keyworded {w : String} {q : Pattern} (known : w ∈ zoneWords) (front back : Text) :
    Scan (keyworded w q) (.between front (h.exportLine e ++ back)) []
      (.between (front ++ h.exportLine e) back) := by
  obtain ⟨tail, line, whole⟩ := exists_exportLine proper spellable.whole
  have passes : Passes w (Source.constantLine e.accessor tail) := by
    refine ⟨whole, fun x _ => ?_⟩
    simp only [zoneWords, List.mem_cons, List.not_mem_nil, or_false] at known
    rcases known with rfl | rfl | rfl <;> simp [Source.constantLine, isGap]
  have scan : Scan (keyworded w q) (.between front (Text.ofLines [Source.constantLine e.accessor tail] ++
      back)) [] (.between (front ++ Text.ofLines [Source.constantLine e.accessor tail]) back) :=
    scan_keyworded known (by simpa using passes)
  rw [line]
  simpa using scan

theorem fieldContents_exportLine : Zones.fieldContents (h.exportLine e) = [] := by
  have scan : Scan fieldDeclaration (.between [] (h.exportLine e ++ [])) []
      (.between ([] ++ h.exportLine e) []) :=
    scan_exportLine_keyworded proper spellable (by simp [zoneWords]) [] []
  rw [List.append_nil, List.nil_append] at scan
  exact Zones.fieldContents_of_passed scan

theorem closings_exportLine : closings (h.exportLine e) = [] := by
  obtain ⟨tail, line, whole⟩ := exists_exportLine proper spellable.whole
  rw [line]
  exact closings_line whole (by simp [Source.constantLine])

theorem markedLines_exportLine : Text.markedLines (h.exportLine e) = [] := by
  rw [Text.markedLines_eq_nil_iff]
  intro inside
  have member := List.IsInfix.mem Part.slash_mem_mark inside
  exact not_mem_exportLine proper spellable.slashless rfl (by simp) member

/-- The line of an export declares the export of the entry and no other one. -/
theorem exportsOf_exportLine (words : ∀ c ∈ e.accessor.toList, Letter.isWord c = true) {sought : String}
    (named : isIdentifier sought.toList = true) :
    exportsOf sought (h.exportLine e) ≠ [] ↔ e.accessor = sought := by
  obtain ⟨tail, line, whole⟩ := exists_exportLine proper spellable.whole
  have some_ := ne_nil_of_isIdentifier proper.names.accessor
  have whole : '\n' ∉ tail := by
    intro member
    exact whole (by simp [Source.constantLine, member])
  rw [← exportSpan?_isSome_iff, line]
  constructor
  · intro found
    by_contra other
    rw [Source.exportSpan?_other some_ words whole named (Ne.symm other)] at found
    cases found
  · rintro rfl
    rw [Source.exportSpan?_own some_ words whole]
    rfl

end

/-! ### Blocks -/

/-- A block is made of the lines of the entries and of line feeds. -/
theorem exists_block (h : Host) (entries : List Entry) (s : Slot) : ∃ front before_ after_ back,
    Text.IsFeeds front ∧ Text.IsFeeds before_ ∧ Text.IsFeeds after_ ∧ Text.IsFeeds back ∧
      h.block entries s =
        front ++ ((entries.flatMap fun e => before_ ++ (e.piece h.config s ++ after_)) ++ back) := by
  have feeds := Text.isFeeds_breakBefore h.text
  have margin : ∀ holds : Bool, Text.IsFeeds (if holds then ['\n'] else []) := by
    intro holds
    split
    · exact Text.isFeeds_feed
    · exact Text.isFeeds_nil
  cases s with
  | imports =>
    refine ⟨_, [], [], _, feeds (h.place .imports), Text.isFeeds_nil, Text.isFeeds_nil,
      margin h.zones.imports.isEmpty, ?_⟩
    show h.importBlock _ entries = _
    simp [importBlock, Entry.piece, place]
  | fields =>
    let anchor := Anchors.fieldsOf h.text (Zones.ofText h.text) h.config.contextField
    refine ⟨_, [], [], [], (feeds anchor.offset).append (margin anchor.separated), Text.isFeeds_nil,
      Text.isFeeds_nil, Text.isFeeds_nil, ?_⟩
    show h.fieldBlock anchor entries = _
    simp [fieldBlock, Entry.piece]
  | accessors =>
    let anchor := Anchors.accessorsOf h.text
    refine ⟨_, _, _, [], feeds anchor.offset, margin !anchor.atMark, margin anchor.atMark,
      Text.isFeeds_nil, ?_⟩
    show h.accessorBlock anchor entries = _
    rw [accessorBlock]
    cases anchor.atMark <;> simp [Entry.piece]

section
variable {α : Type} {content : Text → List α} (linewise : Text.Linewise content)
include linewise

/-- What is read off a block is read off the lines of the entries. -/
theorem content_block (h : Host) (entries : List Entry) (s : Slot) :
    content (h.block entries s) = entries.flatMap fun e => content (e.piece h.config s) := by
  obtain ⟨front, before_, after_, back, feeds, feeds₁, feeds₂, feeds₃, block⟩ := h.exists_block entries s
  have line : ∀ e : Entry, Text.AtLine (before_ ++ (e.piece h.config s ++ after_)) := fun e =>
    feeds₁.atLine.append ((e.atLine_piece h.config s).append feeds₂.atLine)
  have each : ∀ e ∈ entries, content (before_ ++ (e.piece h.config s ++ after_)) =
      content (e.piece h.config s) := by
    intro e _
    rw [linewise.append feeds₁.atLine, linewise.append (e.atLine_piece h.config s), linewise.feeds feeds₁,
      linewise.feeds feeds₂, List.nil_append, List.append_nil]
  rw [block, linewise.append feeds.atLine, linewise.append (Text.atLine_flatMap line entries),
    linewise.feeds feeds, linewise.feeds feeds₃, List.nil_append, List.append_nil,
    linewise.flatMap_eq fun e _ => line e]
  exact List.flatMap_congr each

/-- What is read off the end of a text is read off what was there and off the lines of the exports. -/
theorem content_exportBlock {front rest : Text} (text : h.text = front ++ rest) (whole : front.AtLine)
    (entries : List Entry) : content (rest ++ h.exportBlock entries) =
      content rest ++ entries.flatMap fun e => content (h.exportLine e) := by
  have break_ : h.text.breakBefore h.text.size = rest.breakBefore rest.size := by
    rw [text, Text.breakBefore_append whole]
  rw [exportBlock, break_, linewise.breakBefore]
  congr 1
  exact linewise.flatMap_eq fun e _ => h.atLine_exportLine e

end

end Host
end Registrar
