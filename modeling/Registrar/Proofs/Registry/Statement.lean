import Registrar.Proofs.Registry.Lined
import Registrar.Proofs.Registry.Reading

/-!
The pieces of an import. An import that the pattern takes is cut in one way only: the words before its
braces, what stands in them, the word before the specifier and the specifier in its quotation marks.
Which pieces stand at a place does not hang on what follows the last quotation mark.
-/

namespace Registrar

open Pattern

namespace Recognition

/-! ### The parts of the pattern -/

/-- What stands in an import before the braces. -/
def importFront : List Pattern := [
  lineStart, gap, word "import", space, Pattern.optional (next (word "type") space),
  Pattern.optional (all [group "default" name, gap, Pattern.optional (char ','), gap])]

/-- The braces of an import with the names in them. -/
def importBraces : List Pattern :=
  [char '\x7b', group "named" (many true (one (· != '\x7d'))), char '\x7d']

/-- The word before the specifier. -/
def importLink : List Pattern := [gap, word "from", space]

/-- An import up to the first quotation mark of its specifier. -/
def importOpening : Pattern :=
  next (all importFront)
    (next (Pattern.optional (all importBraces)) (next (all importLink) (one isQuote)))

/-- The specifier behind its first quotation mark. -/
def importSource : Pattern :=
  next (group "specifier" (atLeastOnce (one fun c => !isQuote c))) (one isQuote)

/-- What may follow the last quotation mark. -/
def importEnding : Pattern := all [gap, Pattern.optional (char ';'), gap, lineEnding]

theorem ends_importStatement (c : Cursor) (g : Groups) : importStatement.ends c g =
    (next (next importOpening importSource) importEnding).ends c g := by
  have parts : importStatement = all (importFront ++ ([Pattern.optional (all importBraces)] ++
    (importLink ++ [one isQuote, group "specifier" (atLeastOnce (one fun c => !isQuote c)),
      one isQuote, gap, Pattern.optional (char ';'), gap, lineEnding]))) := rfl
  rw [parts]
  simp only [ends_all_append, ends, importOpening, importSource, importEnding, List.flatMap_assoc, all]

/-- A sign that neither the words of an import nor the gaps between them have. -/
def isMark (c : Char) : Bool := isQuote c || c == '\x7b' || c == '\x7d' || c == '\n'

theorem of_isMark {c : Char} (mark : isMark c = true) :
    isGap c = false ∧ isNameStart c = false ∧ isNamePart c = false := by
  simp only [isMark, isQuote, Bool.or_eq_true, beq_iff_eq] at mark
  rcases mark with (((rfl | rfl) | rfl) | rfl) | rfl <;> decide

theorem isMark_of_isQuote {c : Char} (quote : isQuote c = true) : isMark c = true := by
  simp [isMark, quote]

theorem avoids_importFront : (all importFront).Avoids isMark := by
  have gapless : ∀ x, isMark x = true → isGap x = false := fun x mark => (of_isMark mark).1
  have start : ∀ x, isMark x = true → isNameStart x = false := fun x mark => (of_isMark mark).2.1
  have part : ∀ x, isMark x = true → isNamePart x = false := fun x mark => (of_isMark mark).2.2
  simp only [importFront, avoids_all, List.forall_mem_cons, avoids_lineStart, avoids_gap, avoids_space,
    avoids_word, avoids_optional, avoids_next, avoids_group, avoids_name, avoids_char]
  refine ⟨trivial, gapless, by simp [isMark, isQuote], gapless, ⟨by simp [isMark, isQuote], gapless⟩,
    ⟨⟨start, part⟩, gapless, by simp [isMark, isQuote], gapless, by simp⟩, by simp⟩

theorem looksBack_importFront : (all importFront).LooksBack := by
  have start : lineStart.LooksBack := fun _ _ same => startsLine_of_edge same
  simp [importFront, start, gap, space, name, word]

/-- The word before a specifier with the gaps around it. -/
def IsLink (t : Text) : Prop := ∃ before_ after_, t = before_ ++ ("from".toList ++ after_) ∧
  (∀ c ∈ before_, isGap c = true) ∧ (∀ c ∈ after_, isGap c = true) ∧ after_ ≠ []

/-- The pieces of an import up to the first quotation mark of its specifier. -/
inductive Opening where
  /-- Words alone. -/
  | plain (words : Text) (quote : Char)
  /-- Words before braces and behind them. -/
  | braced (lead inner link : Text) (quote : Char)

namespace Opening

/-- The characters of the pieces. -/
def text : Opening → Text
  | plain words quote => words ++ [quote]
  | braced lead inner link quote => lead ++ '\x7b' :: (inner ++ '\x7d' :: (link ++ [quote]))

/-- The pieces stand behind a text. -/
def Stands (front : Text) : Opening → Prop
  | plain words quote => isQuote quote = true ∧ ∃ lead link, words = lead ++ link ∧
      (all importFront).Reaches front lead [] ∧ IsLink link
  | braced lead inner link quote => isQuote quote = true ∧ (all importFront).Reaches front lead [] ∧
      '\x7d' ∉ inner ∧ IsLink link

end Opening

/-- The pieces of an import up to its last quotation mark. -/
structure Statement where
  opening : Opening
  specifier : Text
  closing : Char

namespace Statement

/-- The characters of the pieces. -/
def text (s : Statement) : Text := s.opening.text ++ (s.specifier ++ [s.closing])

/-- The pieces stand behind a text. -/
structure Stands (s : Statement) (front : Text) : Prop where
  opening : s.opening.Stands front
  some_ : s.specifier ≠ []
  unquoted : ∀ c ∈ s.specifier, isQuote c = false
  closing : isQuote s.closing = true

end Statement

/-! ### Pieces in one way only -/

section
variable {front t t' r r' : Text} {c c' : Char} {o o' : Opening} {s s' : Statement}

theorem IsLink.unmarked (link : IsLink t) : ∀ c ∈ t, isMark c = false := by
  obtain ⟨before_, after_, rfl, gaps, gaps', _⟩ := link
  have plain : ∀ c, isGap c = true → isMark c = false := by
    intro c gapped
    by_contra mark
    rw [Bool.not_eq_false] at mark
    simp [(of_isMark mark).1] at gapped
  have word : ∀ c ∈ "from".toList, isMark c = false := by simp [isMark, isQuote]
  simp only [List.mem_append]
  rintro c (member | member | member)
  · exact plain c (gaps c member)
  · exact word c member
  · exact plain c (gaps' c member)

theorem unmarked_of_reaches (reached : (all importFront).Reaches front t r) :
    ∀ c ∈ t, isMark c = false := reached.avoided avoids_importFront

/-- The words before a specifier have no marks. -/
theorem Opening.Stands.words_unmarked {words : Text} {quote : Char}
    (stands : (Opening.plain words quote).Stands front) : ∀ c ∈ words, isMark c = false := by
  obtain ⟨_, lead, link, rfl, reached, linked⟩ := stands
  intro c member
  rcases List.mem_append.mp member with member | member
  · exact unmarked_of_reaches reached c member
  · exact linked.unmarked c member

/-- An import stands where a line starts. -/
theorem atLine_of_reaches (reached : (all importFront).Reaches front t r) : Text.AtLine front := by
  obtain ⟨t₁, t₂, rfl, first, -⟩ := Reaches.exists_of_next (p := lineStart) reached
  obtain ⟨g, g', ended⟩ := first
  rw [lineStart, ends] at ended
  split at ended
  · next starts => exact Cursor.startsLine_between_iff.mp starts
  · simp at ended

theorem Statement.Stands.atLine (stands : s.Stands front) : Text.AtLine front := by
  have opening := stands.opening
  cases same : s.opening with
  | plain words quote =>
    rw [same] at opening
    obtain ⟨_, lead, link, _, reached, _⟩ := opening
    exact atLine_of_reaches reached
  | braced lead inner link quote =>
    rw [same] at opening
    exact atLine_of_reaches opening.2.1

/-- Two openings at one place are the same. -/
theorem Opening.eq_of_append (split : o.text ++ r = o'.text ++ r') (stands : o.Stands front)
    (stands' : o'.Stands front) : o = o' ∧ r = r' := by
  -- The first mark tells words alone from words before braces.
  have different : ∀ {words lead inner link rest rest' : Text} {quote quote' : Char},
      (plain words quote).Stands front → (braced lead inner link quote').Stands front →
        words ++ quote :: rest ≠ lead ++ '\x7b' :: rest' := by
    intro words lead inner link rest rest' quote quote' stands stands' split
    obtain ⟨_, rfl, _⟩ := cut_eq split stands.words_unmarked (isMark_of_isQuote stands.1)
      (unmarked_of_reaches stands'.2.1) rfl
    exact absurd stands.1 (by decide)
  cases o with
  | plain words quote =>
    cases o' with
    | plain words' quote' =>
      simp only [text, List.append_assoc, List.singleton_append] at split
      obtain ⟨rfl, rfl, rfl⟩ := cut_eq split stands.words_unmarked (isMark_of_isQuote stands.1)
        stands'.words_unmarked (isMark_of_isQuote stands'.1)
      exact ⟨rfl, rfl⟩
    | braced lead inner link quote' =>
      simp only [text, List.append_assoc, List.cons_append] at split
      exact absurd split (different stands stands')
  | braced lead inner link quote =>
    cases o' with
    | plain words quote' =>
      simp only [text, List.append_assoc, List.cons_append] at split
      exact absurd split.symm (different stands' stands)
    | braced lead' inner' link' quote' =>
      simp only [text, List.append_assoc, List.cons_append] at split
      obtain ⟨quoted, reached, closed, linked⟩ := stands
      obtain ⟨quoted', reached', closed', linked'⟩ := stands'
      obtain ⟨rfl, _, split⟩ := cut_eq split (unmarked_of_reaches reached) rfl
        (unmarked_of_reaches reached') rfl
      have inside : ∀ {inner : Text}, '\x7d' ∉ inner → ∀ c ∈ inner, (c == '\x7d') = false := by
        intro inner closed c member
        simp only [beq_eq_false_iff_ne, ne_eq]
        rintro rfl
        exact closed member
      obtain ⟨rfl, _, split⟩ := cut_eq split (inside closed) rfl
        (inside closed') rfl
      obtain ⟨rfl, rfl, rfl⟩ := cut_eq split linked.unmarked (isMark_of_isQuote quoted)
        linked'.unmarked (isMark_of_isQuote quoted')
      exact ⟨rfl, rfl⟩

/-- Two imports at one place have the same pieces. -/
theorem Statement.eq_of_append (split : s.text ++ r = s'.text ++ r') (stands : s.Stands front)
    (stands' : s'.Stands front) : s = s' ∧ r = r' := by
  obtain ⟨o, specifier, closing⟩ := s
  obtain ⟨o', specifier', closing'⟩ := s'
  simp only [Statement.text, List.append_assoc, List.singleton_append] at split
  obtain ⟨opening, some_, unquoted, closed⟩ := stands
  obtain ⟨opening', some_', unquoted', closed'⟩ := stands'
  dsimp only at opening opening' unquoted unquoted' closed closed'
  obtain ⟨rfl, rest⟩ := Opening.eq_of_append split opening opening'
  obtain ⟨rfl, rfl, rfl⟩ := cut_eq rest unquoted closed unquoted' closed'
  exact ⟨rfl, rfl⟩

end

/-! ### The pieces and the pattern -/

section
variable {f f' front back b y y' t rest : Text} {g : Groups} {e : Cursor × Groups} {o : Opening}
  {s : Statement}

theorem reaches_importLink (link : IsLink t) (rest : Text) : (all importLink).Reaches front t rest := by
  obtain ⟨before_, after_, rfl, gaps, gaps', some_⟩ := link
  have looks : (all importLink).LooksBack := by simp [importLink, gap, space, word]
  have stop : ∀ x, ("from".toList ++ after_ ++ []).head? = some x → isGap x = false := by
    intro x head
    obtain rfl : 'f' = x := by simpa using head
    rfl
  have takes : (all importLink).Takes front (before_ ++ ("from".toList ++ after_)) [] [] [] :=
    (takes_gap gaps stop).next ((takes_word "from").next (takes_atLeastOnce some_ gaps' (by simp)))
  exact takes.reaches.behind looks rest

theorem isLink_of_reaches (reached : (all importLink).Reaches front t rest) : IsLink t := by
  obtain ⟨g, g', ended⟩ := reached
  obtain ⟨m₁, first, ended⟩ := mem_ends_all_cons.mp ended
  obtain ⟨before_, r₁, split₁, gaps, rfl⟩ := mem_ends_many_one first
  obtain ⟨m₂, second, ended⟩ := mem_ends_all_cons.mp ended
  obtain ⟨r₂, rfl, rfl⟩ := mem_ends_literal second
  obtain ⟨m₃, third, ended⟩ := List.mem_flatMap.mp ended
  obtain ⟨x, r₃, rfl, gap_, rfl⟩ : ∃ x r₃, r₂ = x :: r₃ ∧ isGap x = true ∧
      m₃ = (.between (front ++ before_ ++ "from".toList ++ [x]) r₃, g) := by
    cases r₂ with
    | nil => simp [ends] at third
    | cons x r₃ =>
      rw [ends_one_cons] at third
      split at third
      · next accepted => exact ⟨x, r₃, rfl, accepted, List.mem_singleton.mp third⟩
      · simp at third
  obtain ⟨after_, r₄, rfl, gaps', same⟩ := mem_ends_many_one ended
  obtain rfl : rest = r₄ := congrArg (Cursor.rest ∘ Prod.fst) same
  refine ⟨before_, x :: after_, ?_, gaps, by simpa [gap_] using gaps', by simp⟩
  refine (List.append_left_inj rest).mp ?_
  simpa using split₁

theorem looksBack_importBraces : (Pattern.optional (all importBraces)).LooksBack := by
  simp [importBraces]

theorem looksBack_importLink : (next (all importLink) (one isQuote)).LooksBack := by
  simp [importLink, gap, space, word]

theorem looksBack_importSource : importSource.LooksBack := by
  simp [importSource]

theorem looksBack_importOpening : importOpening.LooksBack :=
  ⟨looksBack_importFront, looksBack_importBraces, looksBack_importLink⟩

theorem reaches_importBraces {inner : Text} (closed : '\x7d' ∉ inner) (rest : Text) :
    (Pattern.optional (all importBraces)).Reaches front ('\x7b' :: (inner ++ ['\x7d'])) rest := by
  have inside : ∀ c ∈ inner, (c != '\x7d') = true := by
    intro c member
    simp only [bne_iff_ne, ne_eq]
    rintro rfl
    exact closed member
  obtain ⟨g, takes⟩ : ∃ g, (all importBraces).Takes front (['\x7b'] ++ (inner ++ ['\x7d'])) [] [] g :=
    ⟨_, takes_char.next ((takes_many inside (by simp)).group.next takes_char)⟩
  exact takes.optional.reaches.behind looksBack_importBraces rest

/-- The pieces of an opening are reached where they stand. -/
theorem Opening.Stands.reaches (stands : o.Stands front) (rest : Text) :
    importOpening.Reaches front o.text rest := by
  have behind : ∀ {f link : Text} {q : Char}, isQuote q = true → IsLink link →
      (next (all importLink) (one isQuote)).Reaches f (link ++ [q]) rest := fun quoted linked =>
    (reaches_importLink linked _).next trivial ((takes_one quoted).reaches (g := []))
  have looks : (next (Pattern.optional (all importBraces))
      (next (all importLink) (one isQuote))).LooksBack :=
    ⟨looksBack_importBraces, looksBack_importLink⟩
  cases o with
  | plain words q =>
    obtain ⟨quoted, lead, link, rfl, reached, linked⟩ := stands
    have names := (reaches_optional_nil (p := all importBraces)).next looksBack_importLink
      (behind (f := front ++ lead ++ []) quoted linked)
    have whole := (reached.behind looksBack_importFront _).next looks names
    simpa [text, importOpening] using whole
  | braced lead inner link q =>
    obtain ⟨quoted, reached, closed, linked⟩ := stands
    have names := (reaches_importBraces closed _).next looksBack_importLink
      (behind (f := front ++ lead ++ ('\x7b' :: (inner ++ ['\x7d']))) quoted linked)
    have whole := (reached.behind looksBack_importFront _).next looks names
    simpa [text, importOpening] using whole

theorem exists_of_reaches_one {accepts : Char → Bool} (reached : (one accepts).Reaches front t rest) :
    ∃ x, t = [x] ∧ accepts x = true := by
  obtain ⟨g, g', ended⟩ := reached
  cases whole : t ++ rest with
  | nil => simp [whole, ends] at ended
  | cons x back =>
    rw [whole, ends_one_cons] at ended
    split at ended
    · next accepted =>
      obtain rfl : rest = back := congrArg (Cursor.rest ∘ Prod.fst) (List.mem_singleton.mp ended)
      exact ⟨x, List.append_cancel_right whole, accepted⟩
    · simp at ended

/-- What the pattern remembers of the names in braces. -/
def Opening.Remembered (front : Text) (g : Groups) : Opening → Prop
  | plain .. => g.lookup "named" = none
  | braced lead inner _ _ => ∃ c, g.lookup "named" = some c ∧ Encloses c inner ∧
      c.1.offset = Text.size (front ++ lead ++ ['\x7b'])

/-- An end before a specifier lies behind the pieces of an opening. -/
theorem exists_opening_of_mem (member : e ∈ importOpening.ends (.between front b) []) :
    ∃ (o : Opening) (rest : Text), b = o.text ++ rest ∧ o.Stands front ∧
      e.1 = .between (front ++ o.text) rest ∧ o.Remembered front e.2 := by
  obtain ⟨⟨_, g₁⟩, first, behind⟩ := List.mem_flatMap.mp member
  obtain ⟨lead, b₁, rfl, rfl⟩ := mem_ends first
  obtain ⟨⟨_, g₂⟩, second, behind⟩ := List.mem_flatMap.mp behind
  obtain ⟨names, b₂, rfl, rfl⟩ := mem_ends second
  obtain ⟨⟨_, g₃⟩, third, behind⟩ := List.mem_flatMap.mp behind
  obtain ⟨link, b₃, rfl, rfl⟩ := mem_ends third
  obtain ⟨taken, rest, rfl, at_⟩ := mem_ends behind
  have reached : (all importFront).Reaches front lead [] :=
    Reaches.behind ⟨_, _, first⟩ looksBack_importFront []
  have linked : IsLink link := isLink_of_reaches ⟨_, _, third⟩
  obtain ⟨q, rfl, quoted⟩ : ∃ x, taken = [x] ∧ isQuote x = true := by
    obtain ⟨_, g⟩ := e
    dsimp only at at_
    subst at_
    exact exists_of_reaches_one ⟨_, _, behind⟩
  have before_ : g₁.lookup "named" = none := lookup_of_mem_ends (by decide) first
  have kept : g₃.lookup "named" = g₂.lookup "named" := lookup_of_mem_ends (by decide) third
  have last : e.2.lookup "named" = g₃.lookup "named" := lookup_of_mem_ends (by decide) behind
  rcases List.mem_append.mp second with braces | none_
  · obtain ⟨m₁, opened, braces⟩ := List.mem_flatMap.mp braces
    obtain ⟨b₄, split, rfl⟩ := mem_ends_literal (t := ['\x7b']) opened
    obtain ⟨m₂, grouped, closed⟩ := List.mem_flatMap.mp braces
    obtain ⟨m₃, inside, rfl⟩ := List.mem_map.mp grouped
    obtain ⟨inner, b₅, rfl, free, rfl⟩ := mem_ends_many_one inside
    obtain ⟨b₆, rfl, same⟩ := mem_ends_literal (t := ['\x7d']) closed
    obtain ⟨at_', rfl⟩ := Prod.mk.inj same
    obtain rfl : link ++ ([q] ++ rest) = b₆ := congrArg Cursor.rest at_'
    obtain rfl : names = ['\x7b'] ++ (inner ++ ['\x7d']) :=
      (List.append_left_inj (link ++ ([q] ++ rest))).mp (by simpa using split)
    refine ⟨.braced lead inner link q, rest, by simp [Opening.text], ⟨quoted, reached, ?_, linked⟩,
      by simp [at_, Opening.text], ?_⟩
    · intro member
      simpa using free _ member
    · refine ⟨_, by rw [last, kept, List.lookup_cons_self], ⟨_, _, rfl⟩, by simp⟩
  · have same := List.mem_singleton.mp none_
    obtain ⟨still, rfl⟩ := Prod.mk.inj same
    have still := congrArg (List.length ∘ Cursor.rest) still
    simp only [Function.comp_apply, Cursor.between_rest, List.length_append] at still
    obtain rfl : names = [] := List.length_eq_zero_iff.mp (by omega)
    exact ⟨.plain (lead ++ link) q, rest, by simp [Opening.text],
      ⟨quoted, lead, link, rfl, reached, linked⟩, by simp [at_, Opening.text],
      by rw [Opening.Remembered, last, kept, before_]⟩

/-- What is reached up to a specifier are the pieces of an opening. -/
theorem exists_opening (reached : importOpening.Reaches front t rest) :
    ∃ o : Opening, t = o.text ∧ o.Stands front := by
  obtain ⟨h, ended⟩ := reached.exists_end looksBack_importOpening rfl rest []
  obtain ⟨o, rest', split, stands, at_, -⟩ := exists_opening_of_mem ended
  obtain rfl : rest = rest' := congrArg Cursor.rest at_
  exact ⟨o, List.append_cancel_right split, stands⟩

/-- Behind the first quotation mark the specifier is taken, and the quotation mark behind it. -/
theorem Statement.Stands.exists_takes_importSource (stands : s.Stands f) (front rest : Text)
    (g : Groups) : ∃ c, importSource.Takes front (s.specifier ++ [s.closing]) rest g
      (("specifier", c) :: g) := by
  have unquoted : ∀ x ∈ s.specifier, (!isQuote x) = true := by simpa using stands.unquoted
  have quoted : ∀ x, ([s.closing] ++ rest).head? = some x → (!isQuote x) = false := by
    simp [stands.closing]
  exact ⟨_, (takes_atLeastOnce stands.some_ unquoted quoted).group.next (takes_one stands.closing)⟩

/-- The pieces of an import are reached where they stand. -/
theorem Statement.Stands.reaches (stands : s.Stands front) (rest : Text) :
    (next importOpening importSource).Reaches front s.text rest := by
  obtain ⟨_, takes⟩ := stands.exists_takes_importSource (front ++ s.opening.text) [] []
  exact (stands.opening.reaches _).next looksBack_importSource
    (takes.reaches.behind looksBack_importSource rest)

/-- What is reached up to the last quotation mark are the pieces of an import. -/
theorem exists_statement (reached : (next importOpening importSource).Reaches front t rest) :
    ∃ s : Statement, t = s.text ∧ s.Stands front := by
  obtain ⟨t, t', rfl, first, second⟩ := reached.exists_of_next
  obtain ⟨o, rfl, stands⟩ := exists_opening first
  obtain ⟨specifier, t', rfl, given, last⟩ := second.exists_of_next
  obtain ⟨q, rfl, quoted⟩ := exists_of_reaches_one last
  have free : ∀ c ∈ specifier, isQuote c = false := given.avoided (by simp [Avoids])
  obtain ⟨g, g', ended⟩ := given
  obtain ⟨inner, inside, same⟩ := List.mem_map.mp ended
  have some_ : specifier ≠ [] := by
    rintro rfl
    have moved : (group "specifier" (atLeastOnce (one fun c => !isQuote c))).moves = true := rfl
    have less := lt_of_moves moved ended
    simp at less
  exact ⟨⟨o, specifier, q⟩, by simp [Statement.text], stands, some_, free, quoted⟩

/-! ### What follows an import -/

/-- What may stand between the last quotation mark and the end of a match. -/
def IsTail (t : Text) : Prop := ∃ u, '\n' ∉ u ∧ (t = u ∨ t = u ++ ['\n'])

theorem isTail_of_reaches (reached : importEnding.Reaches front t rest) : IsTail t := by
  obtain ⟨t₁, t, rfl, first, behind⟩ := Reaches.exists_of_next (p := gap) reached
  obtain ⟨t₂, t, rfl, second, behind⟩ := Reaches.exists_of_next (p := optional _) behind
  obtain ⟨t₃, t, rfl, third, behind⟩ := Reaches.exists_of_next (p := gap) behind
  obtain ⟨t₄, t₅, rfl, fourth, last⟩ := Reaches.exists_of_next (p := optional _) behind
  have free : ∀ {p : Pattern} {f t r : Text}, p.Avoids (· == '\n') → p.Reaches f t r → '\n' ∉ t := by
    intro p f t r avoids reached member
    simpa using reached.avoided avoids _ member
  have front_ : '\n' ∉ t₁ ++ (t₂ ++ (t₃ ++ t₄)) := by
    simp only [List.mem_append, not_or]
    exact ⟨free (by simp; decide) first, free (by simp) second, free (by simp; decide) third,
      free (by simp) fourth⟩
  refine ⟨_, front_, ?_⟩
  rcases last.of_optional with feed | rfl
  · obtain rfl := feed.eq_of_char
    exact .inr (by simp)
  · exact .inl (by simp)

/-- A character that need not be there is taken where it is. -/
theorem exists_takes_char (c : Char) (b : Text) : ∃ t rest, b = t ++ rest ∧
    ∀ front g, (Pattern.optional (char c)).Takes front t rest g g := by
  by_cases here : b.head? = some c
  · obtain ⟨rest, rfl⟩ := List.head?_eq_some_iff.mp here
    exact ⟨[c], rest, rfl, fun front g => takes_char.optional⟩
  · refine ⟨[], b, rfl, fun front g => Refuses.optional (refuses_one fun x head => ?_)⟩
    simp only [beq_eq_false_iff_ne, ne_eq]
    rintro rfl
    exact here head

/-- A line ending is taken where it is. -/
theorem exists_takes_lineEnding (b : Text) : ∃ t rest, b = t ++ rest ∧
    ∀ front g, lineEnding.Takes front t rest g g := by
  obtain ⟨t, b, rfl, first⟩ := exists_takes_char '\r' b
  obtain ⟨t', rest, rfl, second⟩ := exists_takes_char '\n' b
  exact ⟨t ++ t', rest, by simp, fun front g => (first front g).next (second _ g)⟩

/-- What is taken behind the last quotation mark hangs on what stands there alone. -/
theorem exists_importTail (b : Text) : ∃ tail rest, b = tail ++ rest ∧ IsTail tail ∧
    ∀ front g, importEnding.Takes front tail rest g g := by
  have takes_gap_ : ∀ b : Text, ∃ t rest, b = t ++ rest ∧ ∀ front g, gap.Takes front t rest g g := by
    intro b
    refine ⟨b.takeWhile isGap, b.dropWhile isGap, List.takeWhile_append_dropWhile.symm,
      fun front g => takes_gap (List.all_eq_true.mp List.all_takeWhile) fun x head => ?_⟩
    have stop := List.head?_dropWhile_not isGap b
    rwa [head] at stop
  obtain ⟨t₁, b, rfl, first⟩ := takes_gap_ b
  obtain ⟨t₂, b, rfl, second⟩ := exists_takes_char ';' b
  obtain ⟨t₃, b, rfl, third⟩ := takes_gap_ b
  obtain ⟨t₄, rest, rfl, fourth⟩ := exists_takes_lineEnding b
  have takes : ∀ front g, importEnding.Takes front (t₁ ++ (t₂ ++ (t₃ ++ t₄))) rest g g := by
    intro front g
    refine Takes.next (by simpa using first front g) (Takes.next (by simpa using second _ g)
      (Takes.next (by simpa using third _ g) (fourth _ g)))
  exact ⟨_, rest, by simp, isTail_of_reaches (takes [] []).reaches, takes⟩

theorem avoids_importLink : (all importLink).Avoids isMark := by
  have gapless : ∀ x, isMark x = true → isGap x = false := fun x mark => (of_isMark mark).1
  simp only [importLink, avoids_all, List.forall_mem_cons, avoids_gap, avoids_space, avoids_word]
  exact ⟨gapless, by simp [isMark, isQuote], gapless, by simp⟩

namespace Opening

/-- The first quotation mark of the specifier. -/
def quote : Opening → Char
  | plain _ quote | braced _ _ _ quote => quote

theorem Stands.quoted (stands : o.Stands front) : isQuote o.quote = true := by
  cases o with
  | plain words quote => exact stands.1
  | braced lead inner link quote => exact stands.1

/-- A rest of an opening that is not empty has its quotation mark. -/
theorem quote_mem (split : o.text = t ++ rest) (some_ : rest ≠ []) : o.quote ∈ rest := by
  obtain ⟨front, text_eq⟩ : ∃ front, o.text = front ++ [o.quote] := by
    cases o with
    | plain words quote => exact ⟨words, rfl⟩
    | braced lead inner link quote =>
      exact ⟨lead ++ '\x7b' :: (inner ++ '\x7d' :: link), by simp [text, Opening.quote]⟩
  obtain ⟨u, x, rfl⟩ := (List.eq_nil_or_concat rest).resolve_left some_
  rw [text_eq, List.concat_eq_append, ← List.append_assoc] at split
  obtain ⟨_, same⟩ := List.append_inj' split rfl
  simp [List.cons.inj same]

/-- A brace behind words of an opening has one behind it that closes it. -/
theorem Stands.closed (stands : o.Stands front) (split : o.text = t ++ '\x7b' :: rest)
    (free : ∀ c ∈ t, isMark c = false) : '\x7d' ∈ rest := by
  cases o with
  | plain words quote =>
    obtain ⟨_, rfl, _⟩ := cut_eq split stands.words_unmarked (isMark_of_isQuote stands.1) free rfl
    exact absurd stands.1 (by decide)
  | braced lead inner link quote =>
    obtain ⟨_, _, rfl⟩ := cut_eq split (unmarked_of_reaches stands.2.1) rfl free rfl
    simp

/-- The pattern has the same ends behind two texts up to a specifier, whatever follows. -/
theorem Stands.echoes (stands : o.Stands f)
    (sides : Cursor.edge f.getLast? = Cursor.edge f'.getLast?) :
    importOpening.Echoes f f' o.text y y' := by
  have mark : isMark o.quote = true := isMark_of_isQuote stands.quoted
  have marked : o.quote ∈ o.text := quote_mem (t := []) rfl (by cases o <;> simp [text])
  refine (echoes_bar avoids_importFront sides marked mark).next fun t r split first => ?_
  have free := first.avoided avoids_importFront
  have some_ : r ≠ [] := by
    rintro rfl
    rw [split, List.append_nil] at marked
    simp [free _ marked] at mark
  have names : (Pattern.optional (all importBraces)).Echoes (f ++ t) (f' ++ t) r y y' := by
    refine Echoes.optional (Echoes.next (echoes_one some_) fun opened r split' second => ?_)
    obtain rfl := Reaches.eq_of_char second
    subst split'
    have closed := stands.closed split free
    have inside : (group "named" (many true (one (· != '\x7d')))).Avoids (· == '\x7d') := by
      simp [Avoids]
    refine (echoes_bar inside (edge_append (edge_append sides t) _) closed rfl).next ?_
    rintro inner r rfl third
    refine echoes_one ?_
    rintro rfl
    rw [List.append_nil] at closed
    simpa using third.avoided inside _ closed
  refine names.next fun inner r split' second => ?_
  subst split'
  rw [← List.append_assoc] at split
  have some_ : r ≠ [] := by
    rintro rfl
    rw [List.append_nil] at split
    rcases second.of_optional with braced | rfl
    · obtain ⟨opening, _, rfl, _, inside⟩ := Reaches.exists_of_next (p := char '\x7b') braced
      obtain ⟨inner, closing, rfl, _, closed⟩ := inside.exists_of_next
      obtain rfl := closed.eq_of_char
      rw [← List.append_assoc, ← List.append_assoc] at split
      have quoted := stands.quoted
      rw [List.mem_singleton.mp (quote_mem split (by simp))] at quoted
      exact absurd quoted (by decide)
    · rw [split, List.append_nil] at marked
      simp [free _ marked] at mark
  refine (echoes_bar avoids_importLink (edge_append (edge_append sides t) _)
    (quote_mem split some_) mark).next ?_
  rintro link r rfl third
  refine echoes_one ?_
  rintro rfl
  rw [List.append_nil] at split some_
  simp [third.avoided avoids_importLink _ (quote_mem split some_)] at mark

end Opening

/-- The pattern has the same ends behind two texts, whatever follows the pieces. -/
theorem Statement.Stands.echoes (stands : s.Stands f)
    (sides : Cursor.edge f.getLast? = Cursor.edge f'.getLast?) :
    (next importOpening importSource).Echoes f f' s.text y y' := by
  have opening : importOpening.Echoes f f' s.text y y' := (stands.opening.echoes sides).widen
  refine opening.next fun t r split first => ?_
  obtain ⟨o, rfl, stands'⟩ := exists_opening first
  obtain ⟨_, rfl⟩ := Opening.eq_of_append (by rw [← split, text]) stands.opening stands'
  have free : (group "specifier" (atLeastOnce (one fun c => !isQuote c))).Avoids isQuote := by
    simp [Avoids]
  refine (echoes_bar free (edge_append sides _) (by simp) stands.closing).next ?_
  intro specifier r split' second
  refine echoes_one ?_
  rintro rfl
  have unquoted := second.avoided free s.closing (by rw [List.append_nil] at split'; simp [← split'])
  simp [stands.closing] at unquoted

/-! ### What a match says -/

/-- Behind an import that stands at a place the pattern remembers its pieces. -/
theorem Statement.Stands.of_mem (stands : s.Stands front)
    (member : e ∈ (next importOpening importSource).ends (.between front (s.text ++ rest)) []) :
    e.1 = .between (front ++ s.text) rest ∧ s.opening.Remembered front e.2 ∧
      ∃ c, e.2.lookup "specifier" = some c ∧ Encloses c s.specifier := by
  obtain ⟨⟨_, g₁⟩, first, second⟩ := List.mem_flatMap.mp member
  obtain ⟨o, b₁, split, stands', rfl, named⟩ := exists_opening_of_mem first
  rw [text, List.append_assoc] at split
  obtain ⟨rfl, rfl⟩ := Opening.eq_of_append split stands.opening stands'
  obtain ⟨⟨_, g₂⟩, grouped, closed⟩ := List.mem_flatMap.mp second
  obtain ⟨⟨_, g₃⟩, inside, same⟩ := List.mem_map.mp grouped
  obtain ⟨rfl, rfl⟩ := Prod.mk.inj same
  obtain ⟨given, b₂, again, rfl⟩ := mem_ends inside
  obtain ⟨taken, b₃, rfl, at_⟩ := mem_ends closed
  obtain ⟨q, rfl, quoted⟩ : ∃ x, taken = [x] ∧ isQuote x = true := by
    obtain ⟨_, g⟩ := e
    dsimp only at at_
    subst at_
    exact exists_of_reaches_one ⟨_, _, closed⟩
  have free : ∀ c ∈ given, isQuote c = false :=
    Reaches.avoided (p := atLeastOnce (one fun c => !isQuote c)) (by simp [Avoids])
      ⟨_, _, by rwa [again] at inside⟩
  rw [List.append_assoc] at again
  obtain ⟨rfl, rfl, rfl⟩ := cut_eq again stands.unquoted stands.closing free quoted
  have last : ∀ label, e.2.lookup label = List.lookup label _ := fun label =>
    lookup_of_mem_ends (by simp [labels]) closed
  refine ⟨by simp [at_, text], ?_, _, by rw [last, List.lookup_cons_self],
    front ++ s.opening.text, [s.closing] ++ rest, by simp⟩
  have kept : e.2.lookup "named" = g₁.lookup "named" := lookup_of_mem_ends (by decide) second
  cases opening : s.opening with
  | plain words quote =>
    rw [opening] at named
    exact kept.trans named
  | braced lead inner link quote =>
    rw [opening] at named
    obtain ⟨c, found, encloses, offset⟩ := named
    exact ⟨c, kept.trans found, encloses, offset⟩

/-- A match goes on from the last quotation mark. -/
theorem matchAt?_of_ends {c : Cursor} {more : List (Cursor × Groups)} {tail : Text}
    (ended : (next importOpening importSource).ends c [] = (.between front (tail ++ rest), g) :: more)
    (takes : ∀ front g, importEnding.Takes front tail rest g g) :
    importStatement.matchAt? c = some ⟨c, .between (front ++ tail) rest, g⟩ := by
  obtain ⟨others, first⟩ := exists_cons_of_head? (takes front g)
  rw [matchAt?_eq, ends_importStatement, ends, ended, List.flatMap_cons, first]
  rfl

/-- At two places where an import stands there are matches that read alike, whatever follows. -/
theorem Statement.Stands.exists_matches (stands : s.Stands f)
    (sides : Cursor.edge f.getLast? = Cursor.edge f'.getLast?) (y y' : Text) :
    ∃ m m', importStatement.matchAt? (.between f (s.text ++ y)) = some m ∧
      importStatement.matchAt? (.between f' (s.text ++ y')) = some m' ∧
      (∀ n, f'.size = f.size + n → m.Reads n m') ∧
      (∃ tail rest, y = tail ++ rest ∧ IsTail tail ∧ m.stop = .between (f ++ s.text ++ tail) rest) ∧
      ∃ tail rest, y' = tail ++ rest ∧ IsTail tail ∧ m'.stop = .between (f' ++ s.text ++ tail) rest := by
  obtain ⟨_, ended⟩ := (stands.reaches y).exists_end ⟨looksBack_importOpening, looksBack_importSource⟩
    rfl y []
  have echoes : (next importOpening importSource).Echoes f f' s.text y y' := stands.echoes sides
  have all_ := echoes [] [] .nil
  generalize here : (next importOpening importSource).ends (.between f (s.text ++ y)) [] = l at all_
  generalize there : (next importOpening importSource).ends (.between f' (s.text ++ y')) [] = l' at all_
  rw [here] at ended
  cases all_ with
  | nil => simp at ended
  | @cons e e' _ _ same _ =>
    obtain ⟨_, g⟩ := e
    obtain ⟨_, g'⟩ := e'
    obtain ⟨taken, rest, split, at_, at_', like⟩ := same
    have place := (stands.of_mem (e := (_, g)) (by rw [here]; exact List.mem_cons_self)).1
    dsimp only at at_ at_' place
    have whole : rest ++ y = y := congrArg Cursor.rest (at_.symm.trans place)
    obtain rfl : rest = [] := by simpa using whole
    obtain rfl : s.text = taken := by simpa using split
    rw [List.nil_append] at at_ at_'
    subst at_ at_'
    obtain ⟨tail, rest, rfl, isTail, takes⟩ := exists_importTail y
    obtain ⟨tail', rest', rfl, isTail', takes'⟩ := exists_importTail y'
    exact ⟨_, _, matchAt?_of_ends here takes, matchAt?_of_ends there takes',
      fun n farther => Like.reads (like_shift like farther), ⟨tail, rest, rfl, isTail, rfl⟩,
      tail', rest', rfl, isTail', rfl⟩

/-- A match is one of an import that stands at its place, and it says what the import does. -/
theorem exists_statement_of_match {m : Match}
    (found : importStatement.matchAt? (.between f b) = some m) :
    ∃ (s : Statement) (y : Text), b = s.text ++ y ∧ s.Stands f ∧
      s.opening.Remembered f m.groups ∧
      (∃ c, m.groups.lookup "specifier" = some c ∧ Encloses c s.specifier) ∧
      ∃ tail rest, y = tail ++ rest ∧ IsTail tail ∧ m.stop = .between (f ++ s.text ++ tail) rest := by
  rw [matchAt?_eq] at found
  obtain ⟨e, first, rfl⟩ := Option.map_eq_some_iff.mp found
  have member := List.mem_of_head? first
  rw [ends_importStatement] at member
  obtain ⟨⟨_, g⟩, core, ended⟩ := List.mem_flatMap.mp member
  obtain ⟨t, y, rfl, rfl⟩ := mem_ends core
  obtain ⟨s, rfl, stands⟩ := exists_statement ⟨_, _, core⟩
  obtain ⟨-, named, c, given, encloses⟩ := stands.of_mem core
  obtain ⟨_, h⟩ := e
  obtain ⟨tail, rest, rfl, rfl⟩ := mem_ends ended
  have kept : ∀ label, h.lookup label = g.lookup label := fun label =>
    lookup_of_mem_ends List.not_mem_nil ended
  refine ⟨s, _, rfl, stands, ?_, ⟨c, (kept _).trans given, encloses⟩, tail, rest, rfl,
    isTail_of_reaches ⟨_, _, ended⟩, rfl⟩
  cases opening : s.opening with
  | plain words quote =>
    rw [opening] at named
    exact (kept _).trans named
  | braced lead inner link quote =>
    rw [opening] at named
    obtain ⟨c, found, encloses, offset⟩ := named
    exact ⟨c, (kept _).trans found, encloses, offset⟩

/-- Where no match is, no import stands. -/
theorem Statement.Stands.ne_of_refused (stands : s.Stands f)
    (refused : importStatement.matchAt? (.between f b) = none) (y : Text) : b ≠ s.text ++ y := by
  rintro rfl
  obtain ⟨m, -, found, -⟩ := stands.exists_matches rfl y y
  rw [refused] at found
  cases found

/-- An import stands wherever the place before it looks the same. -/
theorem Statement.Stands.elsewhere (stands : s.Stands f)
    (sides : Cursor.edge f.getLast? = Cursor.edge f'.getLast?) : s.Stands f' := by
  have lead : ∀ {t : Text}, (all importFront).Reaches f t [] → (all importFront).Reaches f' t [] := by
    intro t reached
    obtain ⟨h, ended⟩ := reached.exists_end looksBack_importFront sides [] []
    exact ⟨_, _, ended⟩
  refine ⟨?_, stands.some_, stands.unquoted, stands.closing⟩
  have opening := stands.opening
  cases same : s.opening with
  | plain words quote =>
    rw [same] at opening
    obtain ⟨quoted, front, link, rfl, reached, linked⟩ := opening
    exact ⟨quoted, front, link, rfl, lead reached, linked⟩
  | braced front inner link quote =>
    rw [same] at opening
    obtain ⟨quoted, reached, closed, linked⟩ := opening
    exact ⟨quoted, lead reached, closed, linked⟩

end

end Recognition
end Registrar
