import Registrar.Proofs.Pattern.Reached
import Registrar.Proofs.Pattern.Settled
import Registrar.Proofs.Registry.Phrase
import Registrar.Proofs.Text.Insertion

/-!
Patterns and lines. What stays on a line is settled in a text of whole lines: fields, classes, exports
and closing braces. A signature may run on over lines in its parentheses, so signatures are settled
where every parenthesis that opens has one behind it that closes.
-/

namespace Registrar

open Pattern

namespace Pattern

theorem startsLine_of_edge {c c' : Cursor} (same : Cursor.edge c.previous = Cursor.edge c'.previous) :
    c.startsLine = c'.startsLine := by
  have starts : ∀ c : Cursor, c.startsLine = (Cursor.edge c.previous).isNone := by
    intro c
    rw [Cursor.startsLine]
    rcases c.previous with _ | x
    · rfl
    · by_cases feed : x = '\n'
      · subst feed
        rfl
      · simp [Cursor.edge, feed]
  rw [starts, starts, same]

theorem splitsWord_of_edge {c c' : Cursor} (same : Cursor.edge c.previous = Cursor.edge c'.previous)
    (same' : Cursor.edge c.rest.head? = Cursor.edge c'.rest.head?) :
    c.splitsWord = c'.splitsWord := by
  have any : ∀ side : Option Char, side.any Letter.isWord = (Cursor.edge side).any Letter.isWord := by
    rintro (_ | x)
    · rfl
    · by_cases feed : x = '\n'
      · subst feed
        decide
      · simp [Cursor.edge, feed]
  simp only [Cursor.splitsWord, Cursor.afterWord, Cursor.beforeWord]
  rw [any c.previous, any c.rest.head?, same, same', ← any, ← any]

end Pattern

namespace Recognition

variable {bars : Char → Bool} {f f' b y y' : Text}

@[simp] theorem avoids_lineStart : lineStart.Avoids bars :=
  fun _ _ same _ => startsLine_of_edge same

@[simp] theorem avoids_splitsWord : (place Cursor.splitsWord).Avoids bars :=
  fun _ _ same same' => splitsWord_of_edge same same'

@[simp] theorem avoids_gap : gap.Avoids bars ↔ ∀ x, bars x = true → isGap x = false := Iff.rfl

@[simp] theorem avoids_space : space.Avoids bars ↔ ∀ x, bars x = true → isGap x = false := by
  simp [space, Avoids]

@[simp] theorem avoids_word {s : String} : (word s).Avoids bars ↔ ∀ c ∈ s.toList, bars c = false :=
  avoids_literal

@[simp] theorem avoids_name : name.Avoids bars ↔
    (∀ x, bars x = true → isNameStart x = false) ∧ ∀ x, bars x = true → isNamePart x = false :=
  Iff.rfl

/-- A line ending is seen where a line ends. -/
theorem echoes_lineEnding (feed : '\n' ∈ b) : lineEnding.Echoes f f' b y y' := by
  have some_ : ∀ {t : Text}, '\n' ∈ t → t ≠ [] := fun member none_ => by simp [none_] at member
  refine Echoes.next (echoes_one (some_ feed)).optional fun taken rest split reached => ?_
  refine (echoes_one ?_).optional
  have free : ∀ x ∈ taken, (x == '\n') = false := reached.avoided (by simp)
  rw [split] at feed
  rcases List.mem_append.mp feed with member | member
  · simpa using free _ member
  · exact some_ member

end Recognition

/-! ### Texts of whole lines -/

namespace Text

variable {a b x : Text}

/-- A text of whole lines ends in a line feed. -/
theorem AtLine.feed_mem (whole : AtLine (a ++ b)) (some_ : b ≠ []) : '\n' ∈ b := by
  rcases whole.of_append some_ with none_ | ⟨u, rfl⟩
  · exact absurd none_ some_
  · simp

theorem AtLine.edge_eq (whole : AtLine x) : Cursor.edge x.getLast? = none := by
  rcases whole with rfl | ⟨u, rfl⟩
  · rfl
  · simp [Cursor.edge]

/-- Every character of one kind has one of another kind behind it. -/
def Shut (opening closing : Char) (t : Text) : Prop :=
  ∀ a b, t = a ++ opening :: b → closing ∈ b

end Text

namespace Pattern

variable {p : Pattern} {x : Text}

/-- A line ends in the text, or where the next one begins. -/
def LineSeen (b y : Text) : Prop := '\n' ∈ b ∨ Rim (· == '\n') [] y

/-- A pattern that stays on a line echoes where its end is seen. -/
theorem echoes_seen {f f' b y : Text} (avoids : p.Avoids (· == '\n'))
    (sides : Cursor.edge f.getLast? = Cursor.edge f'.getLast?) (seen : LineSeen b y) :
    p.Echoes f f' b [] y := by
  rcases seen with feed | rim
  · exact echoes_bar avoids sides feed rfl
  · exact echoes_rim avoids sides rim

theorem echoes_of_refuses {f f' b y y' : Text} (here : p.Refuses f (b ++ y))
    (there : p.Refuses f' (b ++ y')) : p.Echoes f f' b y y' := by
  intro g g' _
  rw [here, there]
  exact .nil

/-- A pattern that stays on a line is settled in whole lines. -/
theorem settles_lines (moves_ : p.moves = true) (avoids : p.Avoids (· == '\n'))
    (whole : Text.AtLine x) : p.Settles (fun _ => True) [] x := by
  refine settles_of_holds moves_ (fun a b split some_ f y side _ => ?_) trivial
  rw [split] at whole
  exact echoes_bar avoids (edge_front side a) (whole.feed_mem some_) rfl

end Pattern

namespace Recognition

open Text

variable {x : Text}

/-- A text is cut in one way at its first character of a class. -/
theorem cut_eq {t t' r r' : Text} {c c' : Char} {bars : Char → Bool} (split : t ++ c :: r = t' ++ c' :: r')
    (free : ∀ x ∈ t, bars x = false) (bar : bars c = true) (free' : ∀ x ∈ t', bars x = false)
    (bar' : bars c' = true) : t = t' ∧ c = c' ∧ r = r' := by
  induction t generalizing t' with
  | nil =>
    cases t' with
    | nil => simpa using split
    | cons x t' =>
      obtain ⟨rfl, _⟩ := List.cons.inj split
      simp [free' c (by simp)] at bar
  | cons x t ih =>
    cases t' with
    | nil =>
      obtain ⟨rfl, _⟩ := List.cons.inj split
      simp [free x (by simp)] at bar'
    | cons y t' =>
      rw [List.cons_append, List.cons_append, List.cons.injEq] at split
      obtain ⟨rfl, split⟩ := split
      obtain ⟨same, rest⟩ := ih split (fun z member => free z (List.mem_cons_of_mem _ member))
        (fun z member => free' z (List.mem_cons_of_mem _ member))
      exact ⟨by rw [same], rest⟩

/-- Up to its line ending a field stays on its line. -/
theorem exists_declaration_pieces : ∃ ps, fieldDeclaration = all (ps ++ [lineEnding]) ∧
    (all ps).Avoids (· == '\n') := by
  refine ⟨[_, _, _, _, _, _, _, _, _, _, _, _, _, _, _, _, _], rfl, ?_⟩
  simp [Avoids]
  decide

theorem settles_fieldDeclaration (whole : Text.AtLine x) :
    fieldDeclaration.Settles (fun _ => True) [] x := by
  obtain ⟨ps, parts, avoids⟩ := exists_declaration_pieces
  refine settles_of_holds rfl (fun a b split some_ f y side _ => ?_) trivial
  rw [split] at whole
  have feed := whole.feed_mem some_
  rw [parts]
  refine (echoes_bar avoids (edge_front side a) feed rfl).all_append fun taken rest split reached => ?_
  refine echoes_lineEnding ?_
  have free := reached.avoided avoids
  rw [split] at feed
  rcases List.mem_append.mp feed with member | member
  · simpa using free _ member
  · exact member

/-- What follows the parameters of a method: what it returns, and the brace of its body. -/
def signatureEnding : List Pattern := [gap,
  Pattern.optional (all [char ':', gap, group "returns" (atLeastOnce (one isTypePart))]), gap]

/-- The pieces of a signature: up to the parenthesis that opens, what stands in it, and what follows. -/
theorem exists_signature_pieces : ∃ front inner, accessorSignature =
      all ((front ++ [char '(']) ++ (inner ++ ([char ')'] ++ (signatureEnding ++ [char '\x7b'])))) ∧
    (all (front ++ [char '('])).Avoids (· == '\n') ∧ (all inner).Avoids (· == ')') := by
  refine ⟨[_, _, _, _, _, _], [_, _], rfl, ?_, ?_⟩
  · simp [Avoids]
    decide
  · simp [Avoids]
    decide

/-- What follows the parameters of a method stays on their line and has no sign of assignment. -/
theorem avoids_signatureEnding {c : Char} (bar : c = '\n' ∨ c = '=') :
    (all (signatureEnding ++ [char '\x7b'])).Avoids (· == c) := by
  rcases bar with rfl | rfl
  · simp [signatureEnding, Avoids]
    decide
  · simp [signatureEnding, Avoids]
    decide

/-- The text closes a parenthesis, but not one of a method: a sign of assignment stands before any brace. -/
def Assigns (y : Text) : Prop :=
  ∃ u v w, y = u ++ ')' :: (v ++ '=' :: w) ∧ ')' ∉ u ∧ '\x7b' ∉ v

/-- No parameters are closed where no parenthesis is, or one behind which something is assigned. -/
theorem refuses_parameters {inner : List Pattern} (within : (all inner).Avoids (· == ')')) {b y f : Text}
    (free : ')' ∉ b) (behind : y = [] ∨ Assigns y) :
    (all (inner ++ ([char ')'] ++ (signatureEnding ++ [char '\x7b'])))).Refuses f (b ++ y) := by
  intro g
  refine List.eq_nil_iff_forall_not_mem.mpr fun e member => ?_
  obtain ⟨taken, rest, split, at_⟩ := mem_ends member
  obtain ⟨_, h⟩ := e
  dsimp only at at_
  subst at_
  rw [split] at member
  obtain ⟨inside, taken, rfl, reached, closing⟩ := Reaches.exists_of_all_append ⟨g, h, member⟩
  obtain ⟨closed, taken, rfl, closing, ending⟩ := closing.exists_of_all_append
  obtain rfl := Reaches.eq_of_char closing
  have barred := reached.avoided within
  rcases behind with rfl | ⟨u, v, w, rfl, free', unbraced⟩
  · rw [List.append_nil] at split
    exact free (by simp [split])
  · -- The parenthesis is the one of the text behind, and the sign of assignment comes before the brace.
    have split : b ++ u ++ ')' :: (v ++ '=' :: w) = inside ++ ')' :: (taken ++ rest) := by
      simpa using split
    have free : ∀ c ∈ b ++ u, (c == ')') = false := by
      intro c member
      rw [beq_eq_false_iff_ne]
      rintro rfl
      rcases List.mem_append.mp member with member | member
      · exact free member
      · exact free' member
    obtain ⟨-, -, split⟩ := cut_eq split free rfl barred rfl
    have unassigned := ending.avoided (avoids_signatureEnding (.inr rfl))
    obtain ⟨t, t', rfl, -, brace⟩ := ending.exists_of_all_append
    obtain rfl := Reaches.eq_of_char brace
    rcases List.append_eq_append_iff.mp split with ⟨z, taken_eq, rest_eq⟩ | ⟨z, rfl, -⟩
    · cases z with
      | nil =>
        rw [List.append_nil] at taken_eq
        exact unbraced (by simp [← taken_eq])
      | cons c z =>
        obtain ⟨rfl, -⟩ := List.cons.inj rest_eq
        simpa using unassigned '=' (by simp [taken_eq])
    · exact unbraced (by simp)

/-- Signatures are seen alike where lines end and parentheses are closed. -/
theorem echoes_accessorSignature {f f' b y : Text} (sides : Cursor.edge f.getLast? = Cursor.edge f'.getLast?)
    (seen : LineSeen b y) (closed : ∀ t r, b = t ++ '(' :: r → ')' ∈ r ∨ Assigns y)
    (later : ∀ t r, b = t ++ ')' :: r → LineSeen r y) : accessorSignature.Echoes f f' b [] y := by
  obtain ⟨front, inner, parts, before_, within⟩ := exists_signature_pieces
  rw [parts]
  refine (echoes_seen before_ sides seen).all_append ?_
  rintro taken rest rfl opened
  obtain ⟨t, t', rfl, -, opening⟩ := opened.exists_of_all_append
  obtain rfl := Reaches.eq_of_char opening
  have sides := edge_append sides (t ++ ['('])
  by_cases closing : ')' ∈ rest
  · refine (echoes_bar within sides closing rfl).all_append ?_
    rintro inside rest rfl reached
    have free := reached.avoided within
    have closing' : ')' ∈ rest := by
      rcases List.mem_append.mp closing with member | member
      · simpa using free _ member
      · exact member
    have shutting : (all [char ')']).Echoes (f ++ (t ++ ['(']) ++ inside) (f' ++ (t ++ ['(']) ++ inside)
        rest [] y := echoes_one (List.ne_nil_of_mem closing')
    refine shutting.all_append ?_
    rintro closing rest rfl reached
    obtain rfl := Reaches.eq_of_char reached
    exact echoes_seen (avoids_signatureEnding (.inl rfl)) (edge_append (edge_append sides inside) [')'])
      (later (t ++ ['('] ++ inside) rest (by simp))
  · have assigns := (closed t rest (by simp)).resolve_left closing
    exact echoes_of_refuses (refuses_parameters within closing (.inl rfl))
      (refuses_parameters within closing (.inr assigns))

/-- Signatures are settled in whole lines in which every parenthesis is closed. -/
theorem settles_accessorSignature (whole : Text.AtLine x) (shut : Text.Shut '(' ')' x) :
    accessorSignature.Settles (fun _ => True) [] x := by
  refine settles_of_holds rfl (fun a b split some_ f y side _ => ?_) trivial
  subst split
  refine echoes_accessorSignature (edge_front side a) (.inl (whole.feed_mem some_)) ?_ ?_
  · rintro t r rfl
    exact .inl (shut (a ++ t) r (by simp))
  · rintro t r rfl
    have whole : AtLine ((a ++ t ++ [')']) ++ r) := by simpa using whole
    refine .inl (whole.feed_mem ?_)
    rintro rfl
    have last := AtLine.feed_mem (a := a ++ t) (b := [')']) (by simpa using whole) (by simp)
    simp at last

end Recognition

end Registrar
