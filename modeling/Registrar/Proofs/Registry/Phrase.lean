import Registrar.Proofs.Naming
import Registrar.Proofs.Text.Search

/-!
The phrases of generated lines: gaps, words and names, what the patterns take of them and where they
refuse. A line whose first word is not the one that a pattern begins with is refused as a whole.
-/

namespace Registrar.Recognition

open Pattern

variable {front back t : Text} {g g' : Groups} {q : Pattern}

/-! ### Taking -/

theorem takes_lineStart (start : (Cursor.between front back).startsLine = true) :
    lineStart.Takes front [] back g g := takes_place start

theorem takes_gap (all : ∀ x ∈ t, isGap x = true)
    (stop : ∀ x, back.head? = some x → isGap x = false) : gap.Takes front t back g g :=
  takes_many all stop

/-- Where no gap is, none is taken. -/
theorem takes_no_gap (stop : ∀ x, back.head? = some x → isGap x = false) :
    gap.Takes front [] back g g :=
  takes_gap (by simp) stop

theorem isGap_of_isPlain {c : Char} (h : isPlain c = true) : isGap c = false := by
  have space := ne_of_isPlain h (d := ' ') rfl
  have tab := ne_of_isPlain h (d := '\t') rfl
  simp [isGap, space, tab]

theorem takes_space (stop : ∀ x, back.head? = some x → isGap x = false) :
    space.Takes front [' '] back g g :=
  takes_atLeastOnce (by simp) (by simp [isGap]) stop

theorem takes_word (s : String) : (word s).Takes front s.toList back g g := takes_literal _

theorem takes_lineEnding : lineEnding.Takes front ['\n'] back g g := by
  have noReturn : (char '\r').Refuses front ('\n' :: back) := refuses_one (by simp)
  exact noReturn.optional.next takes_char.optional

/-- What is taken of a gap is one character of it at least. -/
theorem mem_ends_space {e : Cursor × Groups} (member : e ∈ space.ends (.between front back) g) :
    ∃ gaps rest, back = gaps ++ rest ∧ gaps ≠ [] ∧ (∀ c ∈ gaps, isGap c = true) ∧
      e = (.between (front ++ gaps) rest, g) := by
  obtain ⟨first, started, later⟩ := List.mem_flatMap.mp member
  cases back with
  | nil => simp [ends] at started
  | cons x back =>
    rw [ends_one_cons] at started
    split at started
    · next gapped =>
      obtain rfl := List.mem_singleton.mp started
      obtain ⟨taken, rest, rfl, all, rfl⟩ := mem_ends_many_one later
      exact ⟨x :: taken, rest, rfl, by simp, by simpa [gapped] using all, by simp⟩
    · simp at started

/-! ### Refusing -/

theorem refuses_no_gap_next (stop : ∀ x, back.head? = some x → isGap x = false)
    (h : q.Refuses front back) : (next gap q).Refuses front back := by
  refine refuses_many_next fun taken rest split all => ?_
  cases taken with
  | nil =>
    rw [List.nil_append] at split
    simpa [split] using h
  | cons x taken =>
    have gapped := all x (by simp)
    have plain := stop x (by simp [split])
    rw [gapped] at plain
    contradiction

theorem refuses_no_space (stop : ∀ x, back.head? = some x → isGap x = false) :
    space.Refuses front back :=
  (refuses_one stop).next_left

theorem refuses_space_next (stop : ∀ x, back.head? = some x → isGap x = false)
    (h : q.Refuses (front ++ [' ']) back) : (next space q).Refuses front (' ' :: back) := by
  refine refuses_next fun g e member => ?_
  obtain ⟨first, started, later⟩ := List.mem_flatMap.mp member
  rw [ends_one_cons] at started
  obtain rfl := List.mem_singleton.mp started
  obtain ⟨taken, rest, rfl, all, rfl⟩ := mem_ends_many_one later
  cases taken with
  | nil => simpa using h g
  | cons x taken =>
    have gapped := all x (by simp)
    rw [stop x rfl] at gapped
    contradiction

/-- A word with space behind it is not the front of a longer name. -/
theorem refuses_word_space (front back : Text) {w : String} {x : Char}
    (gapless : ∀ c ∈ t, isGap c = false) (mark : isGap x = false) (other : x ∉ w.toList) :
    (next (word w) space).Refuses front (t ++ x :: back) := by
  refine refuses_literal_next fun rest split => refuses_no_space fun y head => ?_
  rcases List.append_eq_append_iff.mp split with ⟨more, w_eq, back_eq⟩ | ⟨more, t_eq, rest_eq⟩
  · cases more with
    | nil =>
      rw [List.nil_append] at back_eq
      obtain rfl : x = y := by simpa [← back_eq] using head
      exact mark
    | cons z more =>
      obtain rfl : x = z := (List.cons.inj back_eq).1
      exact absurd (by simp [w_eq]) other
  · cases more with
    | nil =>
      obtain rfl : x = y := by simpa [rest_eq] using head
      exact mark
    | cons z more =>
      obtain rfl : z = y := by simpa [rest_eq] using head
      exact gapless z (by simp [t_eq])

/-- Everything hangs on what follows the characters of a name. -/
theorem refuses_name_next {label : String}
    (h : ∀ taken rest, back = taken ++ rest → taken ≠ [] → (∀ x ∈ taken, isNamePart x = true) →
      q.Refuses (front ++ taken) rest) :
    (next (group label name) q).Refuses front back := by
  refine refuses_next fun g e member => ?_
  obtain ⟨inner, inside, rfl⟩ := List.mem_map.mp member
  obtain ⟨first, started, later⟩ := List.mem_flatMap.mp inside
  cases back with
  | nil => simp [ends] at started
  | cons x back =>
    rw [ends_one_cons] at started
    split at started
    · next accepted =>
      obtain rfl := List.mem_singleton.mp started
      obtain ⟨taken, rest, rfl, all, rfl⟩ := mem_ends_many_one later
      have startPart : isNamePart x = true := by
        simp only [isNameStart, Bool.or_eq_true, beq_iff_eq] at accepted
        rcases accepted with (letter | rfl) | rfl
        · exact isNamePart_of_isPlain (isPlain_of_isAlphanum (by simp [Char.isAlphanum, letter]))
        · rfl
        · rfl
      have refused := h (x :: taken) rest rfl (by simp) (by simpa [startPart] using all)
      simpa using refused _
    · simp at started

/-- What begins with the start of a line is looked for there only. -/
theorem anchored_lineStart (q : Pattern) : (next lineStart q).Anchored := by
  intro front back inside
  exact (refuses_place inside).next_left

/-- A line with another first word is refused. -/
theorem refuses_keyword {w : String} {line : Text}
    (start : ∀ x, w.toList.head? = some x → isGap x = false) (some_ : w.toList ≠ [])
    (whole : '\n' ∉ w.toList) (other : ¬w.toList <+: line.dropWhile isGap) :
    (next lineStart (next gap (next (word w) q))).Refuses front (line ++ '\n' :: back) := by
  refine Refuses.place_next (refuses_many_next fun taken rest split all => ?_)
  refine refuses_literal_next fun rest' rest_eq => ?_
  have dropped : (line ++ '\n' :: back).dropWhile isGap = rest := by
    rw [split, List.dropWhile_append_of_pos all, rest_eq]
    cases list : w.toList with
    | nil => exact absurd list some_
    | cons x w' => simp [start x (by simp [list])]
  have line_dropped : (line ++ '\n' :: back).dropWhile isGap =
      line.dropWhile isGap ++ '\n' :: back := by
    rw [List.dropWhile_append]
    split
    · next gone =>
      have feed : isGap '\n' = false := rfl
      simp [List.isEmpty_iff.mp gone, feed]
    · rfl
  exact absurd ((Text.prefix_line_iff whole).mp ⟨rest', by rw [← rest_eq, ← dropped, line_dropped]⟩) other

/-- At the end of a text no line begins. -/
theorem refuses_keyword_nil {w : String} (some_ : w.toList ≠ []) :
    (next lineStart (next gap (next (word w) q))).Refuses front [] := by
  refine Refuses.place_next (refuses_many_next fun taken rest split _ => ?_)
  refine refuses_literal_next fun rest' rest_eq => ?_
  have none_ : w.toList = [] := by
    have all := List.nil_eq_append_iff.mp split
    rw [rest_eq] at all
    exact (List.append_eq_nil_iff.mp all.2).1
  exact absurd none_ some_

/-- Gaps that end where a word begins are the margin before it. -/
theorem margin_unique {margin taken rest rest' : Text} {x : Char} (split : margin ++ x :: rest = taken ++ rest')
    (gaps : ∀ c ∈ margin, isGap c = true) (taken_gaps : ∀ c ∈ taken, isGap c = true)
    (mark : isGap x = false) (stop : ∀ y, rest'.head? = some y → isGap y = false) :
    taken = margin ∧ rest' = x :: rest := by
  have first : (margin ++ x :: rest).dropWhile isGap = x :: rest := by
    rw [List.dropWhile_append_of_pos gaps]
    simp [mark]
  have second : (taken ++ rest').dropWhile isGap = rest' := by
    rw [List.dropWhile_append_of_pos taken_gaps]
    cases rest' with
    | nil => rfl
    | cons y rest' => simp [stop y rfl]
  have rest_eq : rest' = x :: rest := by rw [← second, ← split, first]
  subst rest_eq
  exact ⟨(List.append_cancel_right split).symm, rfl⟩

/-- Behind the first word of a line everything hangs on what follows. -/
theorem refuses_after_keyword {w : String} {margin : Text}
    (gaps : ∀ c ∈ margin, isGap c = true) (start : ∀ x, w.toList.head? = some x → isGap x = false)
    (some_ : w.toList ≠ []) (h : q.Refuses (front ++ margin ++ w.toList) back) :
    (next lineStart (next gap (next (word w) q))).Refuses front (margin ++ w.toList ++ back) := by
  refine Refuses.place_next (refuses_many_next fun taken rest split all => ?_)
  refine refuses_literal_next fun rest' rest_eq => ?_
  cases list : w.toList with
  | nil => exact absurd list some_
  | cons x w' =>
    have mark := start x (by simp [list])
    rw [list] at split rest_eq h
    rw [List.append_assoc, List.cons_append] at split
    obtain ⟨rfl, rest_eq'⟩ := margin_unique split gaps all mark (by simp [rest_eq, mark])
    obtain rfl : back = rest' := by simpa [rest_eq] using rest_eq'.symm
    exact h

/-- A part of a longer text that has only characters of names ends before one that has not. -/
theorem exists_of_nameParts {s taken rest : Text} {y : Char} (split : s ++ y :: back = taken ++ rest)
    (all : ∀ c ∈ taken, isNamePart c = true) (mark : isNamePart y = false) :
    ∃ s', s = taken ++ s' ∧ rest = s' ++ y :: back := by
  rcases List.append_eq_append_iff.mp split with ⟨more, taken_eq, back_eq⟩ | ⟨more, s_eq, rest_eq⟩
  · cases more with
    | nil => exact ⟨[], by simpa using taken_eq.symm, by simpa using back_eq.symm⟩
    | cons z more =>
      obtain rfl : y = z := (List.cons.inj back_eq).1
      have inside := all y (by simp [taken_eq])
      rw [mark] at inside
      contradiction
  · exact ⟨more, s_eq, rest_eq⟩

end Registrar.Recognition
