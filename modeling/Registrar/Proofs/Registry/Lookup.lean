import Registrar.Proofs.Pattern.Found
import Registrar.Proofs.Registry.Reading

/-!
Looking up an export. It is on the first line that begins with `export`, `const` and the name, if a word
ends behind that; the words of the pattern are not the identifiers of the language, and only where no
dollar sign stands at the end of the name or behind it does the line export that very name.
-/

namespace Registrar

open Pattern

namespace Pattern

variable {p : Pattern} {m : Match} {t front back : Text}

/-- What is found from a place on is at the first place with a match. -/
theorem findFrom?_eq_some_iff : p.findFrom? (.between front back) = some m ↔
    ∃ middle rest, back = middle ++ rest ∧ p.matchAt? (.between (front ++ middle) rest) = some m ∧
      ∀ middle' rest', back = middle' ++ rest' → middle'.length < middle.length →
        p.matchAt? (.between (front ++ middle') rest') = none := by
  induction back generalizing front with
  | nil =>
    have only : p.findFrom? (.between front []) = p.matchAt? (.between front []) := by
      cases here : p.matchAt? (.between front []) with
      | some found => exact findFrom?_of_found here
      | none => exact findFrom?_at_end here
    rw [only]
    constructor
    · exact fun here => ⟨[], [], rfl, by simpa using here, fun _ _ _ shorter => by simp at shorter⟩
    · rintro ⟨middle, rest, split, at_, -⟩
      obtain ⟨rfl, rfl⟩ := List.append_eq_nil_iff.mp split.symm
      simpa using at_
  | cons x back ih =>
    cases here : p.matchAt? (.between front (x :: back)) with
    | some found =>
      rw [findFrom?_of_found here]
      constructor
      · rintro ⟨⟩
        exact ⟨[], x :: back, rfl, by simpa using here, fun _ _ _ shorter => by simp at shorter⟩
      · rintro ⟨middle, rest, split, at_, first⟩
        cases middle with
        | nil =>
          obtain rfl : x :: back = rest := split
          rw [← here]
          simpa using at_
        | cons y middle =>
          have none_ := first [] (x :: back) rfl (by simp)
          rw [List.append_nil, here] at none_
          contradiction
    | none =>
      rw [findFrom?_of_refused here, ih]
      constructor
      · rintro ⟨middle, rest, rfl, at_, first⟩
        refine ⟨x :: middle, rest, rfl, by simpa using at_, fun middle' rest' split shorter => ?_⟩
        cases middle' with
        | nil =>
          obtain rfl : x :: (middle ++ rest) = rest' := split
          simpa using here
        | cons y middle' =>
          obtain ⟨rfl, tail⟩ := List.cons.inj split
          simpa using first middle' rest' tail (by simpa using shorter)
      · rintro ⟨middle, rest, split, at_, first⟩
        cases middle with
        | nil =>
          obtain rfl : x :: back = rest := split
          rw [List.append_nil, here] at at_
          contradiction
        | cons y middle =>
          obtain ⟨rfl, tail⟩ := List.cons.inj split
          refine ⟨middle, rest, tail, by simpa using at_, fun middle' rest' tail' shorter => ?_⟩
          simpa using first (x :: middle') rest' (by simp [tail']) (by simpa using shorter)

/-- The leftmost match is at the first place of the text with one. -/
theorem find?_eq_some_iff : p.find? t = some m ↔
    ∃ front back, t = front ++ back ∧ p.matchAt? (.between front back) = some m ∧
      ∀ front' back', t = front' ++ back' → front'.length < front.length →
        p.matchAt? (.between front' back') = none := by
  rw [find?, Cursor.start_eq_between, findFrom?_eq_some_iff]
  simp only [List.nil_append]

end Pattern

namespace Text

/-- The characters before the first line feed. -/
def line (t : Text) : Text := t.takeWhile (· != '\n')

/-- A line of a text, without its line feed, and what stands before it. -/
def HasLine (t front line : Text) : Prop :=
  front.AtLine ∧ ∃ back, t = front ++ back ∧ back.line = line

/-- The first line of a text with a property. -/
def FirstLine (t : Text) (holds : Text → Prop) (front line : Text) : Prop :=
  t.HasLine front line ∧ holds line ∧
    ∀ front' line', t.HasLine front' line' → holds line' → front.length ≤ front'.length

variable {t front line piece back : Text} {holds holds' : Text → Prop}

/-- What goes before a line feed is in the line. -/
theorem line_append (whole : '\n' ∉ piece) (back : Text) : (piece ++ back).line = piece ++ back.line := by
  refine List.takeWhile_append_of_pos fun c member => ?_
  simp only [bne_iff_ne, ne_eq]
  rintro rfl
  exact whole member

theorem line_append_dropWhile (back : Text) : back.line ++ back.dropWhile (· != '\n') = back :=
  List.takeWhile_append_dropWhile

/-- A property of the next character is one of the rest of the line if no line feed has it. -/
theorem head?_any_line {accepts : Char → Bool} (feed : accepts '\n' = false) (back : Text) :
    back.line.head?.any accepts = back.head?.any accepts := by
  cases back with
  | nil => rfl
  | cons x back =>
    by_cases other : x = '\n'
    · simp [line, other, feed]
    · simp [line, other]

/-- If some line has a property then one of them is the first. -/
theorem exists_firstLine (here : t.HasLine front line) (has : holds line) :
    ∃ front line, t.FirstLine holds front line := by
  induction length : front.length using Nat.strongRecOn generalizing front line with
  | ind n ih =>
    by_cases first : ∀ front' line', t.HasLine front' line' → holds line' →
        front.length ≤ front'.length
    · exact ⟨front, line, here, has, first⟩
    · push Not at first
      obtain ⟨front', line', here', has', shorter⟩ := first
      exact ih front'.length (by omega) here' has' rfl

theorem firstLine_congr (same : ∀ front line, t.HasLine front line → (holds line ↔ holds' line)) :
    t.FirstLine holds front line ↔ t.FirstLine holds' front line := by
  unfold FirstLine
  constructor
  · rintro ⟨here, has, first⟩
    exact ⟨here, (same _ _ here).mp has, fun f l here' has' => first f l here' ((same _ _ here').mpr has')⟩
  · rintro ⟨here, has, first⟩
    exact ⟨here, (same _ _ here).mpr has, fun f l here' has' => first f l here' ((same _ _ here').mp has')⟩

end Text

namespace Recognition

variable {t front back name rest : Text} {w : String} {g : Groups}

/-- What follows a word and the gap behind it. -/
def behind? (w : String) (t : Text) : Option Text :=
  (Text.dropFront? t w.toList).bind fun rest =>
    if rest.head?.any isGap then some (rest.dropWhile isGap) else none

/-- What follows the words of an exported constant on a line that begins with them. -/
def exported? (line : Text) : Option Text := (behind? "export" line).bind (behind? "const")

/-- The name of the constant that a line exports, up to the first character that is of no name. -/
def exportedName? (line : Text) : Option Text := (exported? line).map (·.takeWhile isNamePart)

theorem behind?_eq_some_iff : behind? w t = some rest ↔ ∃ gap, t = w.toList ++ (gap ++ rest) ∧ gap ≠ [] ∧
    (∀ c ∈ gap, isGap c = true) ∧ ∀ c, rest.head? = some c → isGap c = false := by
  constructor
  · intro read
    obtain ⟨more, begins, taken⟩ := Option.bind_eq_some_iff.mp read
    obtain rfl := Text.eq_append_of_dropFront? begins
    by_cases gapped : more.head?.any isGap = true
    · obtain rfl : more.dropWhile isGap = rest := by simpa [gapped] using taken
      refine ⟨more.takeWhile isGap, by rw [List.takeWhile_append_dropWhile], ?_,
        List.all_eq_true.mp List.all_takeWhile, fun c head => ?_⟩
      · cases more with
        | nil => simp at gapped
        | cons x more =>
          have first : isGap x = true := by simpa using gapped
          simp [first]
      · have stop := List.head?_dropWhile_not isGap more
        rw [head] at stop
        simpa using stop
    · simp [gapped] at taken
  · rintro ⟨gap, rfl, some_, gaps, stop⟩
    have gapped : (gap ++ rest).head?.any isGap = true := by
      cases gap with
      | nil => exact absurd rfl some_
      | cons x gap => simp [gaps x (by simp)]
    have dropped : (gap ++ rest).dropWhile isGap = rest := by
      rw [List.dropWhile_append_of_pos gaps]
      cases rest with
      | nil => rfl
      | cons x rest => simp [stop x rfl]
    rw [behind?, Text.dropFront?_append, Option.bind_some, if_pos gapped, dropped]

/-- The words of an exported constant and the gaps behind them. -/
def IsLead (lead : Text) : Prop :=
  ∃ gap gap', lead = "export".toList ++ (gap ++ ("const".toList ++ gap')) ∧ gap ≠ [] ∧ gap' ≠ [] ∧
    (∀ c ∈ gap, isGap c = true) ∧ ∀ c ∈ gap', isGap c = true

theorem exported?_eq_some_iff : exported? t = some rest ↔
    ∃ lead, IsLead lead ∧ t = lead ++ rest ∧ ∀ c, rest.head? = some c → isGap c = false := by
  simp only [exported?, Option.bind_eq_some_iff, behind?_eq_some_iff]
  constructor
  · rintro ⟨-, ⟨gap, rfl, some_, gaps, -⟩, gap', rfl, some_', gaps', stop⟩
    exact ⟨_, ⟨gap, gap', rfl, some_, some_', gaps, gaps'⟩, by simp, stop⟩
  · rintro ⟨-, ⟨gap, gap', rfl, some_, some_', gaps, gaps'⟩, rfl, stop⟩
    exact ⟨"const".toList ++ (gap' ++ rest), ⟨gap, by simp, some_, gaps, by simp [isGap]⟩, gap', rfl, some_',
      gaps', stop⟩

theorem IsLead.not_mem_feed {lead : Text} (is_lead : IsLead lead) : '\n' ∉ lead := by
  obtain ⟨gap, gap', rfl, -, -, gaps, gaps'⟩ := is_lead
  have feed : isGap '\n' = false := rfl
  have free : ∀ piece : Text, (∀ c ∈ piece, isGap c = true) → '\n' ∉ piece := by
    intro piece all member
    rw [all _ member] at feed
    contradiction
  simp [free gap gaps, free gap' gaps']

/-! ### The pattern -/

/-- The name of an exported constant is followed by the end of a word. -/
theorem exists_of_mem_ends_exportOf {a : String} {e : Cursor × Groups}
    (member : e ∈ (exportOf a).ends (.between front back) g) :
    ∃ lead rest, IsLead lead ∧ back = lead ++ (a.toList ++ rest) ∧
      (Cursor.between (front ++ lead ++ a.toList) rest).splitsWord = true := by
  simp only [exportOf, mem_ends_all_cons] at member
  obtain ⟨_, atStart, _, isExport, _, first, _, isConst, _, second, _, isName, _, atEnd, -⟩ := member
  rw [lineStart, ends] at atStart
  split at atStart
  · obtain rfl := List.mem_singleton.mp atStart
    obtain ⟨rest, rfl, rfl⟩ := mem_ends_literal isExport
    obtain ⟨gap, rest, rfl, some_, gaps, rfl⟩ := mem_ends_space first
    obtain ⟨rest, rfl, rfl⟩ := mem_ends_literal isConst
    obtain ⟨gap', rest, rfl, some_', gaps', rfl⟩ := mem_ends_space second
    obtain ⟨rest, rfl, rfl⟩ := mem_ends_literal isName
    refine ⟨_, rest, ⟨gap, gap', rfl, some_, some_', gaps, gaps'⟩, by simp, ?_⟩
    rw [ends] at atEnd
    split at atEnd
    · next ended => simpa using ended
    · simp at atEnd
  · simp at atStart

/-- An exported constant is taken up to the end of its name, however wide the gaps are. -/
theorem takes_exportOf_lead {a : String} {lead : Text} (named : isIdentifier a.toList = true)
    (start : ∀ back, (Cursor.between front back).startsLine = true) (is_lead : IsLead lead)
    (split : (Cursor.between (front ++ lead ++ a.toList) rest).splitsWord = true) :
    (exportOf a).Takes front (lead ++ a.toList) rest [] [] := by
  obtain ⟨gap, gap', rfl, some_, some_', gaps, gaps'⟩ := is_lead
  have chain : (exportOf a).Takes front ([] ++ ("export".toList ++ (gap ++
      ("const".toList ++ (gap' ++ (a.toList ++ [])))))) rest [] [] := by
    refine (takes_lineStart (start _)).next ?_
    refine (takes_word "export").next ?_
    refine (takes_atLeastOnce some_ gaps (by simp [isGap])).next ?_
    refine (takes_word "const").next ?_
    refine (takes_atLeastOnce some_' gaps' ?_).next ?_
    · simpa using isGap_head_eq_false named rest
    · exact (takes_word a).next (takes_place (by simpa using split))
  simpa using chain

/-- Whether a word ends behind a name does not hang on what stands before that. -/
theorem splitsWord_append_name (named : isIdentifier name = true) (front rest : Text) :
    (Cursor.between (front ++ name) rest).splitsWord = (Cursor.between (' ' :: name) rest).splitsWord := by
  refine splitsWord_congr ?_ rfl
  have some_ := ne_nil_of_isIdentifier named
  rw [List.getLast?_append_of_ne_nil _ some_, ← List.singleton_append,
    List.getLast?_append_of_ne_nil _ some_]

theorem splitsWord_line (front rest : Text) :
    (Cursor.between front rest.line).splitsWord = (Cursor.between front rest).splitsWord := by
  have same : rest.line.head?.any Letter.isWord = rest.head?.any Letter.isWord :=
    Text.head?_any_line rfl rest
  simp only [Cursor.splitsWord, Cursor.beforeWord, Cursor.between_rest, same, Cursor.afterWord,
    Cursor.between_previous]

theorem exportsAs_eq_true_iff : exportsAs name t = true ↔
    ∃ rest, t = name ++ rest ∧ (Cursor.between (' ' :: name) rest).splitsWord = true := by
  constructor
  · intro exports
    rw [exportsAs] at exports
    split at exports
    · next rest begins => exact ⟨rest, Text.eq_append_of_dropFront? begins, exports⟩
    · simp at exports
  · rintro ⟨rest, rfl, ended⟩
    rw [exportsAs, Text.dropFront?_append]
    exact ended

/-- Where a line begins, the pattern finds what the line exports if a word ends behind the name. -/
theorem isSome_matchAt?_exportOf {a : String} (named : isIdentifier a.toList = true)
    (start : ∀ back, (Cursor.between front back).startsLine = true) :
    ((exportOf a).matchAt? (.between front back)).isSome = (exported? back.line).any (exportsAs a.toList) := by
  have feed : '\n' ∉ a.toList := not_mem_of_isIdentifier named (by decide)
  rw [Bool.eq_iff_iff, Option.any_eq_true]
  constructor
  · intro found
    obtain ⟨m, found⟩ := Option.isSome_iff_exists.mp found
    rw [matchAt?_eq] at found
    obtain ⟨e, first, -⟩ := Option.map_eq_some_iff.mp found
    obtain ⟨lead, rest, is_lead, rfl, ended⟩ := exists_of_mem_ends_exportOf (List.mem_of_head? first)
    rw [Text.line_append is_lead.not_mem_feed, Text.line_append feed]
    refine ⟨a.toList ++ rest.line, ?_, exportsAs_eq_true_iff.mpr ⟨rest.line, rfl, ?_⟩⟩
    · exact exported?_eq_some_iff.mpr ⟨lead, is_lead, rfl, isGap_head_eq_false named _⟩
    · rwa [splitsWord_line, ← splitsWord_append_name named]
  · rintro ⟨rest, is_exported, ended⟩
    obtain ⟨lead, is_lead, whole, -⟩ := exported?_eq_some_iff.mp is_exported
    obtain ⟨rest, rfl, ended⟩ := exportsAs_eq_true_iff.mp ended
    have split : back = lead ++ a.toList ++ (rest ++ back.dropWhile (· != '\n')) := by
      have both := Text.line_append_dropWhile back
      rw [whole] at both
      simpa using both.symm
    -- The rest of the line is the line of what follows the name.
    have rest_eq : (rest ++ back.dropWhile (· != '\n')).line = rest := by
      have line_ := congrArg Text.line split
      rw [whole, List.append_assoc, Text.line_append is_lead.not_mem_feed, Text.line_append feed] at line_
      exact (List.append_cancel_left (List.append_cancel_left line_)).symm
    rw [split, (takes_exportOf_lead named start is_lead ?_).matchAt?]
    · rfl
    · rwa [splitsWord_append_name named, ← splitsWord_line, rest_eq]

theorem exportedName?_eq_some_iff (named : isIdentifier name = true) : exportedName? t = some name ↔
    ∃ rest, exported? t = some (name ++ rest) ∧ rest.head?.any isNamePart = false := by
  rw [exportedName?, Option.map_eq_some_iff]
  constructor
  · rintro ⟨whole, is_exported, taken⟩
    refine ⟨whole.dropWhile isNamePart, by rw [← taken, List.takeWhile_append_dropWhile]; exact is_exported, ?_⟩
    have stop := List.head?_dropWhile_not isNamePart whole
    cases head : (whole.dropWhile isNamePart).head? with
    | none => rfl
    | some x =>
      rw [head] at stop
      simpa using stop
  · rintro ⟨rest, is_exported, stop⟩
    refine ⟨_, is_exported, ?_⟩
    rw [List.takeWhile_append_of_pos (all_of_isIdentifier named)]
    cases rest with
    | nil => simp
    | cons x rest =>
      have other : isNamePart x = false := by simpa using stop
      simp [other]

/-- With a dollar sign on both sides or on neither, a word ends behind a name where the name does. -/
theorem splitsWord_name (named : isIdentifier name = true)
    (unmarked : name.getLast? = some '$' ↔ rest.head? = some '$') :
    (Cursor.between (' ' :: name) rest).splitsWord = !rest.head?.any isNamePart := by
  have some_ := ne_nil_of_isIdentifier named
  have last : (' ' :: name).getLast? = some (name.getLast some_) := by
    rw [← List.singleton_append, List.getLast?_append_of_ne_nil _ some_, List.getLast?_eq_some_getLast]
  have part := all_of_isIdentifier named _ (List.getLast_mem some_)
  rw [List.getLast?_eq_some_getLast some_, Option.some.injEq] at unmarked
  simp only [Cursor.splitsWord, Cursor.afterWord, Cursor.beforeWord, Cursor.between_previous,
    Cursor.between_rest, last, Option.any_some]
  by_cases dollar : name.getLast some_ = '$'
  · have word_ : Letter.isWord '$' = false := rfl
    have part_ : isNamePart '$' = true := rfl
    rw [dollar, unmarked.mp dollar]
    simp [word_, part_]
  · have word_ : Letter.isWord (name.getLast some_) = true := by simpa [isNamePart, dollar] using part
    have same : rest.head?.any Letter.isWord = rest.head?.any isNamePart := by
      cases rest with
      | nil => rfl
      | cons x rest =>
        have other : x ≠ '$' := fun is_dollar => dollar (unmarked.mpr (by simp [is_dollar]))
        simp [isNamePart, other]
    rw [word_, same, Bool.true_bne]

end Recognition

/-! ### The lookup -/

section
open Recognition

variable {t : Text} {a : String} {s : Span}

/-- The export of an accessor is on the first line that exports its name and ends a word behind it. -/
theorem exportSpan?_eq_some_iff (named : isIdentifier a.toList = true) : exportSpan? t a = some s ↔
    ∃ front line, t.FirstLine (fun line => (exported? line).any (exportsAs a.toList) = true) front line ∧
      s = ⟨front.size, t.lineEnd front.size⟩ := by
  have found_iff : ∀ {front back}, ((exportOf a).matchAt? (.between front back)).isSome ↔
      front.AtLine ∧ (exported? back.line).any (exportsAs a.toList) = true := by
    intro front back
    by_cases lines : front.AtLine
    · rw [isSome_matchAt?_exportOf named lines.startsLine]
      simp [lines]
    · have inside : (Cursor.between front back).startsLine = false := by
        rwa [Bool.eq_false_iff, ne_eq, Cursor.startsLine_between_iff]
      have anchored : (exportOf a).Anchored := anchored_lineStart _
      rw [(anchored _ _ inside).matchAt?]
      simp [lines]
  rw [exportSpan?, Option.map_eq_some_iff]
  constructor
  · rintro ⟨m, found, rfl⟩
    obtain ⟨front, back, rfl, here, first⟩ := find?_eq_some_iff.mp found
    obtain ⟨lines, exports⟩ := found_iff.mp (Option.isSome_iff_exists.mpr ⟨m, here⟩)
    refine ⟨front, back.line, ⟨⟨lines, back, rfl, rfl⟩, exports, ?_⟩, ?_⟩
    · rintro front' _ ⟨lines', back', split, rfl⟩ exports'
      by_contra shorter
      have none_ := first front' back' split (by omega)
      have some_ := found_iff.mpr ⟨lines', exports'⟩
      rw [none_] at some_
      contradiction
    · rw [(matchAt?_some here).1, Cursor.between_offset]
  · rintro ⟨front, _, ⟨⟨lines, back, rfl, rfl⟩, exports, first⟩, rfl⟩
    obtain ⟨m, here⟩ := Option.isSome_iff_exists.mp (found_iff.mpr ⟨lines, exports⟩)
    refine ⟨m, find?_eq_some_iff.mpr ⟨front, back, rfl, here, ?_⟩, ?_⟩
    · intro front' back' split shorter
      by_contra some_
      obtain ⟨lines', exports'⟩ := found_iff.mp (Option.isSome_iff_ne_none.mpr some_)
      have := first front' _ ⟨lines', back', split, rfl⟩ exports'
      omega
    · rw [(matchAt?_some here).1, Cursor.between_offset]

/-- Where a dollar sign stands at the end of the name and behind it or at neither place, the export of an
accessor is on the first line that exports this very name. -/
theorem exportSpan?_name (named : isIdentifier a.toList = true)
    (unmarked : ∀ front line rest, t.HasLine front line → exported? line = some (a.toList ++ rest) →
      (a.toList.getLast? = some '$' ↔ rest.head? = some '$')) :
    ((exportSpan? t a).isSome ↔ ∃ front line, t.HasLine front line ∧ exportedName? line = some a.toList) ∧
      ∀ s, exportSpan? t a = some s ↔
        ∃ front line, t.FirstLine (fun line => exportedName? line = some a.toList) front line ∧
          s = ⟨front.size, t.lineEnd front.size⟩ := by
  have same : ∀ front line, t.HasLine front line →
      ((exported? line).any (exportsAs a.toList) = true ↔ exportedName? line = some a.toList) := by
    intro front line here
    rw [exportedName?_eq_some_iff named, Option.any_eq_true]
    constructor
    · rintro ⟨_, is_exported, exports⟩
      obtain ⟨rest, rfl, ended⟩ := exportsAs_eq_true_iff.mp exports
      rw [splitsWord_name named (unmarked front line rest here is_exported)] at ended
      exact ⟨rest, is_exported, by simpa using ended⟩
    · rintro ⟨rest, is_exported, stop⟩
      refine ⟨_, is_exported, exportsAs_eq_true_iff.mpr ⟨rest, rfl, ?_⟩⟩
      rw [splitsWord_name named (unmarked front line rest here is_exported), stop, Bool.not_false]
  have spans : ∀ s, exportSpan? t a = some s ↔
      ∃ front line, t.FirstLine (fun line => exportedName? line = some a.toList) front line ∧
        s = ⟨front.size, t.lineEnd front.size⟩ := by
    intro s
    simp only [exportSpan?_eq_some_iff named, Text.firstLine_congr same]
  refine ⟨?_, spans⟩
  rw [Option.isSome_iff_exists]
  constructor
  · rintro ⟨s, found⟩
    obtain ⟨front, line, ⟨here, exports, -⟩, -⟩ := (spans s).mp found
    exact ⟨front, line, here, exports⟩
  · rintro ⟨front, line, here, exports⟩
    obtain ⟨front, line, first⟩ : ∃ front line,
        t.FirstLine (fun line => exportedName? line = some a.toList) front line :=
      Text.exists_firstLine here exports
    exact ⟨_, (spans _).mpr ⟨front, line, first, rfl⟩⟩

/-- A text in which a longer name is exported before the name that is looked for. -/
def longerFirst : Text := "export const getLoginPage = 1;\nexport const getLogin = 2;\n".toList

theorem not_mem_of_exported? {front line rest : Text} {c : Char} (free : c ∉ t) (here : t.HasLine front line)
    (is_exported : exported? line = some rest) : c ∉ rest := by
  obtain ⟨-, back, rfl, rfl⟩ := here
  obtain ⟨lead, -, whole, -⟩ := exported?_eq_some_iff.mp is_exported
  have inside : ∀ d ∈ rest, d ∈ back := fun d member =>
    (List.takeWhile_sublist _).subset (show d ∈ back.line by simp [whole, member])
  exact fun member => free (by simp [inside c member])

theorem exportSpan?_name_longer : isIdentifier "getLogin".toList = true ∧ '$' ∉ longerFirst ∧
    (exportSpan? longerFirst "getLogin").isSome := by
  have named : isIdentifier "getLogin".toList = true := by decide
  have free : '$' ∉ longerFirst := by decide
  refine ⟨named, free, (exportSpan?_name named fun front line rest here is_exported => ?_).1.mpr ?_⟩
  · have free := not_mem_of_exported? free here is_exported
    exact ⟨fun last => by simp at last, fun next_ => absurd (by simp [List.mem_of_head? next_]) free⟩
  · exact ⟨"export const getLoginPage = 1;\n".toList, "export const getLogin = 2;".toList,
      ⟨.inr ⟨"export const getLoginPage = 1;".toList, by decide⟩, "export const getLogin = 2;\n".toList,
        by decide, by decide⟩, by decide⟩

end

end Registrar
