import Registrar.Proofs.Pattern.Scan
import Registrar.Text.Line

/-!
Finding a piece in a text, and the lines around a place. A piece without line feeds lies within one
line, so lines that do not hold it are passed over one after another.
-/

namespace Registrar.Text

variable {front line piece rest t back : Text}

/-! ### Finding -/

theorem dropFront?_append (piece rest : Text) : dropFront? (piece ++ rest) piece = some rest := by
  have front : (piece ++ rest).beginsWith piece = true :=
    List.isPrefixOf_iff_prefix.mpr (List.prefix_append ..)
  simp [dropFront?, front]

theorem dropFront?_eq_none (h : ¬piece <+: t) : dropFront? t piece = none := by
  have not_front : t.beginsWith piece = false := by
    rw [beginsWith, Bool.eq_false_iff, ne_eq, List.isPrefixOf_iff_prefix]
    exact h
  simp [dropFront?, not_front]

theorem eq_append_of_dropFront? {piece t rest : Text} (begins : dropFront? t piece = some rest) :
    t = piece ++ rest := by
  rw [dropFront?] at begins
  split at begins
  · next here =>
    obtain ⟨rest', rfl⟩ := List.isPrefixOf_iff_prefix.mp here
    obtain rfl := Option.some.inj begins
    rw [List.drop_left]
  · simp at begins

theorem eq_append_of_cut? {piece t front back : Text} (cut : cut? piece t = some (front, back)) :
    t = front ++ piece ++ back := by
  induction t generalizing front with
  | nil =>
    rw [cut?] at cut
    split at cut
    · next empty =>
      obtain ⟨rfl, rfl⟩ := Prod.mk.inj (Option.some.inj cut)
      simpa using empty
    · simp at cut
  | cons c rest ih =>
    rw [cut?] at cut
    split at cut
    · next tail begins =>
      obtain ⟨rfl, rfl⟩ := Prod.mk.inj (Option.some.inj cut)
      exact eq_append_of_dropFront? begins
    · obtain ⟨⟨front', back'⟩, found, same⟩ := Option.map_eq_some_iff.mp cut
      obtain ⟨rfl, rfl⟩ := Prod.mk.inj same
      rw [ih found]
      simp

/-- A piece at the front is found there. -/
theorem cut?_append (some_ : piece ≠ []) (rest : Text) :
    cut? piece (piece ++ rest) = some ([], rest) := by
  cases piece with
  | nil => exact absurd rfl some_
  | cons x piece =>
    have found := dropFront?_append (x :: piece) rest
    rw [List.cons_append] at found ⊢
    rw [cut?, found]

theorem cut?_cons_of_not_begins {c : Char} (h : ¬piece <+: c :: rest) :
    cut? piece (c :: rest) = (cut? piece rest).map fun cut => (c :: cut.1, cut.2) := by
  rw [cut?, dropFront?_eq_none h]

/-- A piece that does not occur is not found. -/
theorem cut?_eq_none (absent : ¬piece <:+: t) : cut? piece t = none := by
  induction t with
  | nil =>
    cases piece with
    | nil => exact absurd (List.infix_refl []) absent
    | cons x piece => rfl
  | cons c rest ih =>
    have other : ¬piece <+: c :: rest := fun h => absent h.isInfix
    have later := ih fun h => absent (h.trans (List.suffix_cons c rest).isInfix)
    rw [cut?_cons_of_not_begins other, later]
    rfl

/-- A piece without a character that a text does not begin with is not begun with further on. -/
theorem prefix_line_iff {c : Char} (whole : c ∉ piece) :
    piece <+: line ++ c :: back ↔ piece <+: line := by
  refine ⟨fun ⟨rest, split⟩ => ?_, fun h => h.trans (List.prefix_append ..)⟩
  rcases List.append_eq_append_iff.mp split with ⟨more, line_eq, _⟩ | ⟨more, piece_eq, rest_eq⟩
  · exact ⟨more, line_eq.symm⟩
  · cases more with
    | nil => exact ⟨[], by simpa using piece_eq⟩
    | cons x more =>
      obtain rfl : c = x := (List.cons.inj rest_eq).1
      exact absurd (by simp [piece_eq]) whole

/-- A line that does not hold the piece is passed over. -/
theorem cut?_line (some_ : piece ≠ []) (whole : '\n' ∉ piece) (absent : ¬piece <:+: line) :
    cut? piece (line ++ '\n' :: back) =
      (cut? piece back).map fun cut => (line ++ '\n' :: cut.1, cut.2) := by
  induction line with
  | nil =>
    have other : ¬piece <+: '\n' :: back := by
      intro h
      have empty : piece <+: [] := (prefix_line_iff whole).mp h
      exact some_ (List.prefix_nil.mp empty)
    simpa using cut?_cons_of_not_begins other
  | cons c line ih =>
    have other : ¬piece <+: c :: (line ++ '\n' :: back) := by
      intro h
      have inside : piece <+: c :: line := (prefix_line_iff whole).mp h
      exact absent inside.isInfix
    have later := ih fun h => absent (h.trans (List.suffix_cons c line).isInfix)
    rw [List.cons_append, cut?_cons_of_not_begins other, later, Option.map_map]
    rfl

/-- Lines that do not hold the piece are passed over. -/
theorem cut?_ofLines {lines : List Text} (some_ : piece ≠ []) (whole : '\n' ∉ piece)
    (absent : ∀ line ∈ lines, ¬piece <:+: line) :
    cut? piece (ofLines lines ++ back) =
      (cut? piece back).map fun cut => (ofLines lines ++ cut.1, cut.2) := by
  induction lines with
  | nil => simp
  | cons line lines ih =>
    have later := ih fun other member => absent other (by simp [member])
    rw [ofLines_cons, List.append_assoc, List.cons_append,
      cut?_line some_ whole (absent line (by simp)), later, Option.map_map]
    simp [Function.comp_def]

/-- A piece without a character lies on one side of it. -/
theorem infix_append_cons {c : Char} (other : c ∉ piece) (inside : piece <:+: front ++ c :: back) :
    piece <:+: front ∨ piece <:+: back := by
  have behind : piece <+: c :: back → piece = [] := by
    intro h
    rcases List.prefix_cons_iff.mp h with none_ | ⟨t, rfl, _⟩
    · exact none_
    · simp at other
  rcases List.infix_append_iff.mp inside with inside | inside | ⟨s, t, rfl, first, second⟩
  · exact .inl inside
  · rcases List.infix_cons_iff.mp inside with inside | inside
    · exact .inl (by simp [behind inside])
    · exact .inr inside
  · refine .inl ?_
    rcases List.prefix_cons_iff.mp second with rfl | ⟨t, rfl, _⟩
    · simpa using first.isInfix
    · simp at other

/-! ### Splitting and trimming -/

/-- Without a separator there is one piece. -/
theorem splitOn_eq_singleton {isSeparator : Char → Bool}
    (none_ : ∀ c ∈ t, isSeparator c = false) : splitOn isSeparator t = [t] := by
  induction t with
  | nil => rfl
  | cons c rest ih =>
    have later := ih fun d member => none_ d (by simp [member])
    simp [splitOn, later, none_ c (by simp)]

/-- White space around a text without any is what trimming takes. -/
theorem trim_append (some_ : t ≠ []) (before_ : ∀ c ∈ front, Letter.isBlank c = true)
    (inside : ∀ c ∈ t, Letter.isBlank c = false) (after_ : ∀ c ∈ back, Letter.isBlank c = true) :
    trim (front ++ t ++ back) = t := by
  have first : trimFront (front ++ t ++ back) = t ++ back := by
    rw [trimFront, List.append_assoc, List.dropWhile_append_of_pos before_]
    cases t with
    | nil => exact absurd rfl some_
    | cons x t =>
      rw [List.cons_append, List.dropWhile_cons_of_neg (by simp [inside x (by simp)])]
  have last : ∀ c ∈ back.reverse, Letter.isBlank c = true := by
    intro c member
    exact after_ c (by simpa using member)
  rw [trim, first, trimBack, List.reverse_append, List.dropWhile_append_of_pos last]
  cases list : t.reverse with
  | nil => exact absurd (List.reverse_eq_nil_iff.mp list) some_
  | cons y rest =>
    have member : y ∈ t := by
      rw [← List.mem_reverse, list]
      simp
    rw [List.dropWhile_cons_of_neg (by simp [inside y member]), ← list, List.reverse_reverse]

/-! ### Lines -/

theorem firstLine_line (whole : '\n' ∉ line) : firstLine (line ++ '\n' :: back) = line ++ ['\n'] := by
  induction line with
  | nil => simp [firstLine]
  | cons c line ih =>
    have other : c ≠ '\n' := fun same => whole (by simp [same])
    simp [firstLine, other, ih fun member => whole (by simp [member])]

/-- The end of the line in which a place lies. -/
theorem lineEnd_between (front back : Text) (whole : '\n' ∉ line) :
    lineEnd (front ++ (line ++ '\n' :: back)) (size front) = size (front ++ line ++ ['\n']) := by
  rw [lineEnd, after_size_append, firstLine_line whole]
  simp only [size_append, Nat.add_assoc]

/-- Either nothing stands before a place, or a line feed. -/
def AtLine (front : Text) : Prop := front = [] ∨ ∃ t, front = t ++ ['\n']

theorem atLine_nil : AtLine [] := .inl rfl

theorem AtLine.append (first : AtLine front) (second : AtLine t) : AtLine (front ++ t) := by
  rcases second with rfl | ⟨t, rfl⟩
  · simpa using first
  · exact .inr ⟨front ++ t, by simp⟩

theorem AtLine.startsLine (h : AtLine front) (back : Text) :
    (Cursor.between front back).startsLine = true :=
  Cursor.startsLine_between_iff.mpr h

/-- The start of the line in which a place lies. -/
theorem lineStart_between (back : Text) (h : AtLine front) (whole : '\n' ∉ line) :
    lineStart (front ++ line ++ back) (size (front ++ line)) = size front := by
  have passed : ∀ c ∈ line.reverse, (c != '\n') = true := by
    intro c member
    simp only [bne_iff_ne, ne_eq]
    rintro rfl
    exact whole (by simpa using member)
  have stopped : front.reverse.dropWhile (· != '\n') = front.reverse := by
    rcases h with rfl | ⟨t, rfl⟩ <;> simp
  rw [lineStart, before_size_append, List.reverse_append, List.dropWhile_append_of_pos passed,
    stopped, List.reverse_reverse]

/-- No line feed is needed where a line starts. -/
theorem breakBefore_between (h : AtLine front) (back : Text) :
    breakBefore (front ++ back) (size front) = [] := by
  rw [breakBefore, before_size_append]
  rcases h with rfl | ⟨t, rfl⟩
  · simp
  · simp [finishesWith]

/-- The blank line at a place is skipped. -/
theorem skipBlankLine_between (front back : Text) :
    skipBlankLine (front ++ '\n' :: back) (size front) = size (front ++ ['\n']) := by
  have next : lineEnd (front ++ '\n' :: back) (size front) = size (front ++ ['\n']) := by
    have blank := lineEnd_between front back (List.not_mem_nil (a := '\n'))
    simpa using blank
  have moved : size front < size (front ++ ['\n']) := by
    rw [size_append]
    exact Nat.lt_add_of_pos_right (by decide)
  have width : size (front ++ ['\n']) - size front = size ['\n'] := by
    rw [size_append]
    omega
  have blank : isBlank (slice ⟨size front, size (front ++ ['\n'])⟩ (front ++ '\n' :: back)) = true := by
    rw [slice, after_size_append, width]
    have cut := before_size_append ['\n'] back
    rw [List.singleton_append] at cut
    rw [cut]
    rfl
  rw [skipBlankLine, next]
  exact if_pos (by rw [blank, Bool.and_true, decide_eq_true moved])

end Registrar.Text
