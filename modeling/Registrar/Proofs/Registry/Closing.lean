import Registrar.Proofs.Registry.Finding
import Registrar.Registry.Removal

/-!
Runs of blank lines. What `Removal.closeUp` does with a text is told line by line, and for a text of
parts part by part: behind a line one blank line may stay, at the top of the text two.
-/

namespace Registrar

open Recognition Pattern

/-! ### Line by line -/

namespace Text

/-- The lines of which at most `n` blank ones stay at the front, and one behind every other line. -/
def closed : Nat → List Text → List Text
  | _, [] => []
  | 0, [] :: rest => closed 0 rest
  | n + 1, [] :: rest => [] :: closed n rest
  | _, line :: rest => line :: closed 1 rest

/-- A line with something in it besides gaps. -/
def Solid (line : Text) : Prop :=
  ∃ margin x rest, line = margin ++ x :: rest ∧ (∀ c ∈ margin, isGap c = true) ∧
    isGap x = false ∧ x ≠ '\n'

/-- The first line, if there is any, is solid. -/
def Starts (lines : List Text) : Prop := ∀ line ∈ lines.head?, Solid line

variable {line : Text} {lines rest : List Text} {front back : Text}

theorem Solid.ne_nil (h : Solid line) : line ≠ [] := by
  obtain ⟨margin, x, rest, rfl, _⟩ := h
  simp

theorem closed_cons_solid (h : line ≠ []) (n : Nat) :
    closed n (line :: rest) = line :: closed 1 rest := by
  cases line with
  | nil => exact absurd rfl h
  | cons x line => cases n <;> rfl

theorem closed_append_solid {front : List Text} (some_ : front ≠ [])
    (solid : ∀ line ∈ front, line ≠ []) (n : Nat) (rest : List Text) :
    closed n (front ++ rest) = front ++ closed 1 rest := by
  induction front generalizing n with
  | nil => exact absurd rfl some_
  | cons line front ih =>
    rw [List.cons_append, closed_cons_solid (solid line (by simp))]
    cases front with
    | nil => rfl
    | cons other front =>
      rw [ih (by simp) (fun line member => solid line (by simp [member]))]
      rfl

theorem closed_replicate (n k : Nat) (rest : List Text) :
    closed n (List.replicate k [] ++ rest) =
      List.replicate (min n k) [] ++ closed (n - k) rest := by
  induction k generalizing n with
  | zero => simp
  | succ k ih =>
    cases n with
    | zero => simpa [List.replicate_succ, closed] using ih 0
    | succ n => simp [List.replicate_succ, closed, ih, Nat.succ_min_succ]

/-- Lines begin with blank ones, and then comes a solid one if any. -/
theorem exists_blanks (lines : List Text) (all : ∀ line ∈ lines, line = [] ∨ Solid line) :
    ∃ k rest, lines = List.replicate k [] ++ rest ∧ Starts rest := by
  induction lines with
  | nil => exact ⟨0, [], rfl, by simp [Starts]⟩
  | cons line lines ih =>
    obtain ⟨k, rest, rfl, starts⟩ := ih fun other member => all other (by simp [member])
    rcases all line (by simp) with rfl | solid
    · exact ⟨k + 1, rest, rfl, starts⟩
    · refine ⟨0, line :: (List.replicate k [] ++ rest), rfl, ?_⟩
      simpa [Starts] using solid

end Text

/-! ### The pattern of blank lines -/

namespace Recognition

variable {front back : Text} {g : Groups} {q : Pattern} {lines : List Text}

/-- A blank line with its ending. -/
def blankLine : Pattern := next gap (Pattern.char '\n')

theorem takes_blankLine : blankLine.Takes front ['\n'] back g g :=
  (takes_no_gap (by simp [isGap])).next takes_char

/-- Lines that start with a solid one do not start with a blank one. -/
theorem refuses_blankLine (starts : Text.Starts lines) :
    blankLine.Refuses front (Text.ofLines lines) := by
  refine refuses_many_next fun taken rest split gaps => refuses_one fun y head => ?_
  cases lines with
  | nil =>
    have none_ := List.nil_eq_append_iff.mp split
    simp [none_.2] at head
  | cons line lines =>
    obtain ⟨margin, x, more, rfl, margin_gaps, mark, other⟩ := starts line rfl
    rw [Text.ofLines_cons, List.append_assoc, List.cons_append] at split
    rw [beq_eq_false_iff_ne]
    rintro rfl
    rcases List.append_eq_append_iff.mp split with ⟨late, taken_eq, rest_eq⟩ |
      ⟨late, margin_eq, rest_eq⟩
    · cases late with
      | nil =>
        rw [List.nil_append] at rest_eq
        exact other (by simpa [← rest_eq] using head)
      | cons z late =>
        obtain rfl : x = z := (List.cons.inj rest_eq).1
        have gapped := gaps x (by simp [taken_eq])
        rw [mark] at gapped
        contradiction
    · cases late with
      | nil => exact other (by simpa [rest_eq] using head)
      | cons z late =>
        obtain rfl : z = '\n' := by simpa [rest_eq] using head
        have gapped := margin_gaps '\n' (by simp [margin_eq])
        simp [isGap] at gapped

/-- Behind a blank line everything hangs on what follows. -/
theorem refuses_blankLine_next (h : q.Refuses (front ++ ['\n']) back) :
    (next blankLine q).Refuses front ('\n' :: back) := by
  refine refuses_next fun g e member => ?_
  obtain ⟨middle, gapped, ended⟩ := List.mem_flatMap.mp member
  obtain ⟨taken, rest, split, gaps, rfl⟩ := mem_ends_many_one gapped
  cases taken with
  | nil =>
    rw [List.nil_append] at split
    rw [← split, ends_char_cons, List.append_nil] at ended
    obtain rfl := List.mem_singleton.mp ended
    exact h g
  | cons z taken =>
    obtain rfl : '\n' = z := (List.cons.inj split).1
    have gapped := gaps '\n' (by simp)
    simp [isGap] at gapped

/-- A line feed that is not at the end of its line's blank lines is no match. -/
theorem refuses_blankRun_of_ne {x : Char} (other : x ≠ '\n') :
    blankRun.Refuses front (x :: back) :=
  Refuses.next_left (refuses_one (by simpa using other))

/-- In front of a solid line a line feed is no match. -/
theorem refuses_blankRun (starts : Text.Starts lines) :
    blankRun.Refuses front ('\n' :: Text.ofLines lines) := by
  refine refuses_one_next fun x rest split _ => ?_
  obtain rfl := (List.cons.inj split).2
  exact (refuses_blankLine starts).next_left

/-- With one blank line behind it a line feed is no match. -/
theorem refuses_blankRun_blank (starts : Text.Starts lines) :
    blankRun.Refuses front ('\n' :: '\n' :: Text.ofLines lines) := by
  refine refuses_one_next fun x rest split _ => ?_
  obtain rfl := (List.cons.inj split).2
  exact refuses_blankLine_next (refuses_blankLine starts).next_left

/-- With two blank lines behind it a line feed is taken with all that follow. -/
theorem takes_blankRun (front : Text) (starts : Text.Starts lines) (k : Nat) :
    blankRun.Takes front ('\n' :: List.replicate (k + 2) '\n') (Text.ofLines lines) g g := by
  have chain : blankRun.Takes front
      (['\n'] ++ (['\n'] ++ (['\n'] ++ (List.replicate k ['\n']).flatten))) (Text.ofLines lines) g
      g := by
    refine takes_char.next ?_
    refine takes_blankLine.next ?_
    refine takes_blankLine.next ?_
    exact takes_many_times (by simp) (fun _ _ _ => takes_blankLine)
      (fun _ => refuses_blankLine starts) k
  simpa [List.replicate_succ, List.flatten_replicate_singleton] using chain

end Recognition

/-! ### Closing up -/

namespace Text

variable {front back : Text} {line : Text} {lines : List Text}

/-- Nothing is replaced in a line. -/
theorem rewrites_line (whole : '\n' ∉ line) (front back : Text) :
    Rewrites blankRun ['\n', '\n'] (.between front (line ++ back)) line
      (.between (front ++ line) back) := by
  induction line generalizing front with
  | nil => simpa using .stay _
  | cons x line ih =>
    have later := ih (fun member => whole (by simp [member])) (front ++ [x])
    refine .skip (refuses_blankRun_of_ne ?_).matchAt? ?_
    · rintro rfl
      simp at whole
    · simpa using later

theorem ofLines_replicate (k : Nat) (lines : List Text) :
    ofLines (List.replicate k [] ++ lines) = List.replicate k '\n' ++ ofLines lines := by
  induction k with
  | zero => rfl
  | succ k ih => simp [List.replicate_succ, ih]

/-- Behind a line feed the blank lines close up to one. The walk goes from one solid line to the
next. -/
theorem rewrites_lines (n : Nat) (lines : List Text) (short : lines.length ≤ n)
    (all : ∀ line ∈ lines, line = [] ∨ Solid line) (whole : ∀ line ∈ lines, '\n' ∉ line)
    (front : Text) :
    Rewrites blankRun ['\n', '\n'] (.between front ('\n' :: ofLines lines))
      ('\n' :: ofLines (closed 1 lines)) (.between (front ++ '\n' :: ofLines lines) []) := by
  induction n generalizing lines front with
  | zero =>
    obtain rfl := List.length_eq_zero_iff.mp (Nat.le_zero.mp short)
    have starts : Starts [] := by simp [Starts]
    refine .skip (refuses_blankRun starts).matchAt? ?_
    simpa [closed] using .stay _
  | succ n ih =>
    obtain ⟨k, rest, rfl, starts⟩ := exists_blanks lines all
    have solid : ∀ front m, Rewrites blankRun ['\n', '\n'] (.between front (ofLines rest))
        (ofLines (closed m rest)) (.between (front ++ ofLines rest) []) := by
      intro front m
      cases rest with
      | nil => simpa [closed] using .stay _
      | cons line rest =>
        have later := ih rest (by simp at short; omega)
          (fun other member => all other (by simp [member]))
          (fun other member => whole other (by simp [member])) (front ++ line)
        have here := rewrites_line (whole line (by simp)) front ('\n' :: ofLines rest)
        have both := here.trans later
        rw [closed_cons_solid (starts line rfl).ne_nil]
        simpa using both
    rw [closed_replicate, ofLines_replicate, ofLines_replicate]
    match k with
    | 0 =>
      refine .skip (refuses_blankRun starts).matchAt? ?_
      simpa using solid (front ++ ['\n']) 1
    | 1 =>
      refine .skip (refuses_blankRun_blank starts).matchAt? ?_
      refine .skip (refuses_blankRun starts).matchAt? ?_
      simpa using solid (front ++ ['\n'] ++ ['\n']) 0
    | k + 2 =>
      have takes := takes_blankRun front (g := []) starts k
      have later := solid (front ++ '\n' :: List.replicate (k + 2) '\n') 0
      have moved := offset_lt_append front (ofLines rest) (ofLines rest)
        ('\n' :: List.replicate (k + 2) '\n') (by simp)
      have hit : Rewrites blankRun ['\n', '\n'] _ _ _ := .hit takes.matchAt? moved later
      simpa using hit

/-- Closing up a text leaves one blank line behind a line, and two at the top. -/
theorem closeUp_ofLines (all : ∀ line ∈ lines, line = [] ∨ Solid line)
    (whole : ∀ line ∈ lines, '\n' ∉ line) :
    Removal.closeUp (ofLines lines) = ofLines (closed 2 lines) := by
  have walk : Rewrites blankRun ['\n', '\n'] (.between [] (ofLines lines))
      (ofLines (closed 2 lines)) (.between (ofLines lines) []) := by
    cases lines with
    | nil => exact .stay _
    | cons line rest =>
      have later := rewrites_lines _ rest (Nat.le_refl _)
        (fun other member => all other (by simp [member]))
        (fun other member => whole other (by simp [member]))
      rcases all line (by simp) with rfl | solid
      · simpa [closed] using later []
      · have here := rewrites_line (whole line (by simp)) [] ('\n' :: ofLines rest)
        have both := here.trans (later line)
        rw [closed_cons_solid solid.ne_nil]
        simpa using both
  exact walk.replaceAll_eq (Refuses.next_left (refuses_one (by simp))).matchAt?

end Text

/-! ### Part by part -/

/-- A line whose code begins with a character that is no gap is solid. -/
theorem Line.solid_text {l : Line}
    (code : ∃ x, l.code.toList.head? = some x ∧ isGap x = false ∧ x ≠ '\n') :
    Text.Solid l.text := by
  obtain ⟨x, head, mark, other⟩ := code
  obtain ⟨rest, code_eq⟩ := exists_cons_of_head? head
  refine ⟨(List.replicate l.depth Source.indent.toList).flatten, x, rest, ?_, ?_, mark, other⟩
  · rw [Line.text, code_eq]
  · intro c member
    obtain ⟨piece, inside, member⟩ := List.mem_flatten.mp member
    rw [List.eq_of_mem_replicate inside] at member
    exact isGap_of_mem_indent c member

namespace Part

variable {f : Frame} {p : Part} {parts rest : List Part}

/-- How many blank lines may stay behind a part; a method has its own. -/
def room : Part → Nat
  | setter | helperAccessor _ => 0
  | _ => 1

/-- The parts of which at most `n` blank lines stay at the front, and behind every other part as
many as there is room for. -/
def closed (n : Nat) : List Part → List Part
  | [] => []
  | p :: rest =>
    if p = blank then (if n = 0 then closed 0 rest else blank :: closed (n - 1) rest)
    else p :: closed p.room rest

@[simp] theorem closed_nil (n : Nat) : closed n [] = [] := rfl

@[simp] theorem closed_cons_blank_zero (rest : List Part) :
    closed 0 (blank :: rest) = closed 0 rest := by
  simp [closed]

@[simp] theorem closed_cons_blank_succ (n : Nat) (rest : List Part) :
    closed (n + 1) (blank :: rest) = blank :: closed n rest := by
  simp [closed]

theorem closed_cons (other : p ≠ blank) (n : Nat) (rest : List Part) :
    closed n (p :: rest) = p :: closed p.room rest := by
  rw [closed, if_neg other]

theorem closed_replicate (n k : Nat) (rest : List Part) :
    closed n (List.replicate k blank ++ rest) =
      List.replicate (min n k) blank ++ closed (n - k) rest := by
  induction k generalizing n with
  | zero => simp
  | succ k ih =>
    cases n with
    | zero => simpa [List.replicate_succ] using ih 0
    | succ n => simp [List.replicate_succ, ih, Nat.succ_min_succ]

/-- What stands before a part that is no blank line closes up on its own. -/
theorem closed_append_cons (other : p ≠ blank) (n : Nat) (front back : List Part) :
    closed n (front ++ p :: back) = closed n front ++ p :: closed p.room back := by
  induction front generalizing n with
  | nil => exact closed_cons other n back
  | cons q front ih =>
    by_cases is_blank : q = blank
    · subst is_blank
      cases n <;> simp [ih]
    · simp [closed_cons is_blank, ih]

theorem closed_of_ne_blank (other : ∀ p ∈ parts, p ≠ blank) (n : Nat) : closed n parts = parts := by
  induction parts generalizing n with
  | nil => rfl
  | cons p rest ih =>
    rw [closed_cons (other p (by simp)), ih fun q member => other q (by simp [member])]

/-- Behind parts that have room for it one blank line may stay. -/
theorem closed_append_replicate (parts : List Part) (some_ : parts ≠ []) (other : ∀ p ∈ parts, p ≠ blank ∧ p.room = 1)
    (n k : Nat) : closed n (parts ++ List.replicate k blank) =
      parts ++ List.replicate (min 1 k) blank := by
  induction parts generalizing n with
  | nil => exact absurd rfl some_
  | cons p rest ih =>
    rw [List.cons_append, closed_cons (other p (by simp)).1, (other p (by simp)).2]
    cases rest with
    | nil => simpa using closed_replicate 1 k []
    | cons q rest =>
      rw [ih (by simp) fun q member => other q (by simp [member])]
      rfl

/-- The lines of a part without the blank one behind a method. -/
def solidLines (f : Frame) (p : Part) : List Line :=
  (p.lines f).take ((p.lines f).length - (1 - p.room))

theorem map_text_lines (p : Part) : (p.lines f).map Line.text =
    (p.solidLines f).map Line.text ++ List.replicate (1 - p.room) [] := by
  cases p <;> rfl

/-- The lines of a part that is no blank line are solid. -/
theorem solid_solidLines (plain : f.Plain) (other : p ≠ blank) :
    ∀ l ∈ p.solidLines f, Text.Solid l.text := by
  intro l member
  obtain ⟨x, name, name_eq, _⟩ := exists_of_isPlainName plain.plainName
  have letter := all_of_isPlainName plain.plainName x (by simp [name_eq])
  have space : x ≠ ' ' := ne_of_isPlain letter rfl
  have tab : x ≠ '\t' := ne_of_isPlain letter rfl
  have noFeed : x ≠ '\n' := ne_of_isPlain letter rfl
  refine Line.solid_text ?_
  cases p with
  | blank => exact absurd rfl other
  | mark =>
    obtain rfl := List.mem_singleton.mp member
    simp [Source.accessorMark, isGap]
  | _ =>
    simp only [solidLines, lines, room, List.length_cons, List.length_nil, List.take_succ_cons,
      List.take_zero, List.mem_cons, List.not_mem_nil, or_false, Nat.reduceAdd, Nat.reduceSub]
      at member
    rcases member with rfl | rfl | rfl | rfl | rfl | rfl <;> simp [isGap, name_eq, space, tab, noFeed]

theorem room_le_one (p : Part) : p.room ≤ 1 := by
  cases p <;> simp [room]

theorem solidLines_ne_nil (p : Part) : p.solidLines f ≠ [] := by
  cases p <;> simp [solidLines, lines, room]

/-- Closing up parts closes up their lines. -/
theorem closed_linesOf (plain : f.Plain) (n : Nat) (parts : List Part) :
    Text.closed n (linesOf f parts) = linesOf f (closed n parts) := by
  induction parts generalizing n with
  | nil => cases n <;> rfl
  | cons p rest ih =>
    by_cases is_blank : p = blank
    · subst is_blank
      have lines_eq : linesOf f (blank :: rest) = [] :: linesOf f rest := rfl
      cases n with
      | zero => rw [lines_eq, Text.closed, ih 0, closed_cons_blank_zero]
      | succ n =>
        rw [lines_eq, Text.closed, ih n, closed_cons_blank_succ]
        rfl
    · have lines_eq : linesOf f (p :: rest) = (p.solidLines f).map Line.text ++
          (List.replicate (1 - p.room) [] ++ linesOf f rest) := by
        rw [linesOf_cons, map_text_lines, List.append_assoc]
      have solid : ∀ line ∈ (p.solidLines f).map Line.text, line ≠ [] := by
        intro line member
        obtain ⟨l, inside, rfl⟩ := List.mem_map.mp member
        exact (solid_solidLines plain is_blank l inside).ne_nil
      have one := room_le_one p
      have kept : min 1 (1 - p.room) = 1 - p.room := by omega
      have left : 1 - (1 - p.room) = p.room := by omega
      rw [lines_eq, Text.closed_append_solid (by simpa using solidLines_ne_nil p) solid,
        Text.closed_replicate, kept, left, ih, closed_cons is_blank, linesOf_cons, map_text_lines,
        List.append_assoc]

/-- Closing up a text of parts closes up the parts. -/
theorem closeUp_textOf (plain : f.Plain) (sound : ∀ p ∈ parts, p.IsSound) :
    Removal.closeUp (textOf f parts) = textOf f (closed 2 parts) := by
  have lines : ∀ line ∈ linesOf f parts, (line = [] ∨ Text.Solid line) ∧ '\n' ∉ line := by
    intro line member
    obtain ⟨p, inside, member⟩ := List.mem_flatMap.mp member
    refine ⟨?_, ?_⟩
    · by_cases is_blank : p = blank
      · subst is_blank
        exact .inl (List.mem_singleton.mp member)
      · rw [map_text_lines] at member
        rcases List.mem_append.mp member with member | member
        · obtain ⟨l, known, rfl⟩ := List.mem_map.mp member
          exact .inr (solid_solidLines plain is_blank l known)
        · exact .inl (List.eq_of_mem_replicate member)
    · obtain ⟨l, known, rfl⟩ := List.mem_map.mp member
      exact not_mem_text plain (sound p inside) l known
  rw [textOf_eq_ofLines, textOf_eq_ofLines, Text.closeUp_ofLines (fun line member =>
    (lines line member).1) (fun line member => (lines line member).2), closed_linesOf plain]

end Part

namespace Layout

/-- A layout closes up behind its imports and among its fields. -/
theorem closed_parts (head fields : List Part) {methods exports : List Part}
    (all : ∀ p ∈ methods, p.isMethod = true) (all' : ∀ p ∈ exports, p.isExport = true) :
    Part.closed 2 (parts ⟨head, fields, methods, exports⟩) =
      parts ⟨Part.closed 2 head, Part.closed 1 fields, methods, exports⟩ := by
  have method : ∀ p ∈ methods, p ≠ .blank := by
    rintro p member rfl
    simpa [Part.isMethod] using all _ member
  have export_ : ∀ p ∈ exports, p ≠ .blank := by
    rintro p member rfl
    simpa [Part.isExport] using all' _ member
  have split : parts ⟨head, fields, methods, exports⟩ =
      head ++ .opening :: .instanceField :: (fields ++
        .constructor :: .blank :: .instanceMethod :: .blank :: (methods ++
          .mark :: .closing :: .blank :: exports)) := by
    simp [parts]
  rw [split, Part.closed_append_cons (by simp), Part.closed_cons (by simp),
    Part.closed_append_cons (by simp)]
  simp [parts, Part.room, Part.closed_cons, Part.closed_append_cons,
    Part.closed_of_ne_blank method, Part.closed_of_ne_blank export_]

end Layout
end Registrar
