import Registrar.Proofs.Registry.Statement
import Registrar.Proofs.Text.Word
import Registrar.Registry.Zones

/-!
Scanning for imports. What follows a line decides about the imports that begin before it only where one
of them runs on over the line: in its braces or in its quotation marks. Where it does not, the imports
before the line stay what they are, whatever follows it.
-/

namespace Registrar

open Pattern Text

namespace Recognition

variable {f f' a b r u w w' x y y' : Text} {s : Statement} {m : Match} {ms : List Match}

/-! ### A match and its line -/

/-- The ends of an import are seen where its line ends. -/
theorem Statement.Stands.echoes_line (stands : s.Stands f)
    (sides : Cursor.edge f.getLast? = Cursor.edge f'.getLast?) (feed : '\n' ∈ r) :
    importStatement.Echoes f f' (s.text ++ r) y y' := by
  have core : (next importOpening importSource).Echoes f f' (s.text ++ r) y y' :=
    (stands.echoes sides).widen
  have ending : (next (next importOpening importSource) importEnding).Echoes f f' (s.text ++ r) y y' := by
    refine core.next fun t rest split reached => ?_
    obtain ⟨s', rfl, stands'⟩ := exists_statement reached
    obtain ⟨rfl, rfl⟩ := Statement.eq_of_append split stands stands'
    have parts : importEnding = all ([gap, Pattern.optional (char ';'), gap] ++ [lineEnding]) := rfl
    have avoids : (all [gap, Pattern.optional (char ';'), gap]).Avoids (· == '\n') := by
      simp
      decide
    rw [parts]
    refine (echoes_bar avoids (edge_append sides _) feed rfl).all_append ?_
    rintro t rest rfl reached
    refine echoes_lineEnding ?_
    rcases List.mem_append.mp feed with member | member
    · simpa using reached.avoided avoids _ member
    · exact member
  intro g g' like
  rw [ends_importStatement, ends_importStatement]
  exact ending g g' like

/-- An import ends in no line feed, so where it ends no line starts. -/
theorem Statement.Stands.ne_nil_of_atLine (stands : s.Stands f) (whole : AtLine (a ++ s.text ++ r)) :
    r ≠ [] := by
  rintro rfl
  rw [List.append_nil] at whole
  rcases whole.of_append (by simp [text]) with none_ | ⟨v, ends_⟩
  · simp [text] at none_
  · rw [text, ← List.append_assoc] at ends_
    obtain ⟨_, same⟩ := List.append_inj' ends_ rfl
    have quoted := stands.closing
    rw [(List.cons.inj same).1] at quoted
    exact absurd quoted (by decide)

/-! ### Imports that run on over a line -/

/-- An import runs on over the end of a text into the one behind it. -/
def Statement.Crosses (s : Statement) (b w : Text) : Prop :=
  ∃ z r, z ≠ [] ∧ s.text = b ++ z ∧ w = z ++ r

/-- A text goes on as an import does that has been left in its braces. -/
def Resumes (w : Text) : Prop := ∃ rest link quote specifier closing r,
  w = rest ++ '\x7d' :: (link ++ quote :: (specifier ++ closing :: r)) ∧ '\x7d' ∉ rest ∧ IsLink link ∧
    isQuote quote = true ∧ specifier ≠ [] ∧ (∀ c ∈ specifier, isQuote c = false) ∧
      isQuote closing = true

/-- The words of an opening and its quotation mark end in no line feed. -/
theorem Opening.Stands.not_feed {o : Opening} (stands : o.Stands f) (u : Text) :
    o.text ≠ u ++ ['\n'] := by
  intro same
  have last : ∀ {t : Text} {q : Char}, isQuote q = true → t ++ [q] ≠ u ++ ['\n'] := by
    intro t q quoted same
    obtain ⟨_, same⟩ := List.append_inj' same rfl
    rw [List.cons.inj same |>.1] at quoted
    exact absurd quoted (by decide)
  cases o with
  | plain words quote => exact last stands.1 same
  | braced lead inner link quote =>
    refine last (t := lead ++ '\x7b' :: (inner ++ '\x7d' :: link)) stands.1 ?_
    simpa [text] using same

/-- A part of an opening that ends in a line feed ends in its braces. -/
theorem Opening.Stands.exists_of_feed {o : Opening} {z : Text} (stands : o.Stands f)
    (split : o.text = u ++ ['\n'] ++ z) : ∃ lead inner rest link quote,
      o = .braced lead (inner ++ rest) link quote ∧ u ++ ['\n'] = lead ++ '\x7b' :: inner ∧
        z = rest ++ '\x7d' :: (link ++ [quote]) := by
  -- No words without marks have a part that ends in a line feed.
  have free : ∀ {t : Text} (v v' : Text), (∀ c ∈ t, isMark c = false) → t ≠ v ++ ['\n'] ++ v' := by
    rintro t v v' unmarked rfl
    exact absurd (unmarked '\n' (by simp)) (by decide)
  have some_ : z ≠ [] := by
    rintro rfl
    exact stands.not_feed u (by simpa using split)
  obtain ⟨z, x, rfl⟩ := (List.eq_nil_or_concat z).resolve_left some_
  rw [List.concat_eq_append] at split ⊢
  cases o with
  | plain words quote =>
    rw [text, ← List.append_assoc] at split
    obtain ⟨rfl, _⟩ := List.append_inj' split rfl
    exact absurd rfl (free _ _ stands.words_unmarked)
  | braced lead inner link quote =>
    obtain ⟨_, reached, _, linked⟩ := stands
    have lead_free := unmarked_of_reaches reached
    rw [text] at split
    rcases List.append_eq_append_iff.mp split with ⟨v, front, back⟩ | ⟨v, rfl, _⟩
    · cases v with
      | nil => exact absurd (by simpa using front.symm) (free u [] lead_free)
      | cons c v =>
        obtain ⟨rfl, behind⟩ := List.cons.inj back
        rcases List.append_eq_append_iff.mp behind with ⟨w, rfl, rest⟩ | ⟨w, rfl, rest⟩
        · cases w with
          | nil => exact ⟨lead, inner, [], link, quote, by simp, by simpa using front, by simpa using rest.symm⟩
          | cons d w =>
            -- The line feed is one of the words behind the braces.
            obtain ⟨rfl, words⟩ := List.cons.inj rest
            have words : link ++ [quote] = (w ++ z) ++ [x] := by rw [words, List.append_assoc]; rfl
            obtain ⟨rfl, _⟩ := List.append_inj' words rfl
            have whole : AtLine ((lead ++ '\x7b' :: inner) ++ ('\x7d' :: w)) :=
              .inr ⟨u, by simpa using front.symm⟩
            rcases whole.of_append (by simp) with none_ | ⟨v, ends_⟩
            · cases none_
            · cases v with
              | nil => simp at ends_
              | cons e v =>
                obtain ⟨_, rfl⟩ := List.cons.inj ends_
                exact absurd rfl (free _ _ linked.unmarked)
        · exact ⟨lead, v, w, link, quote, rfl, front, by simpa using rest⟩
    · exact absurd rfl (free _ _ lead_free)

/-- Over a line feed an import runs on in its specifier or in its braces. -/
theorem Statement.Crosses.cases (crosses : s.Crosses (u ++ ['\n']) w) (stands : s.Stands f) :
    (∃ v z r, u ++ ['\n'] = s.opening.text ++ v ∧ v ≠ [] ∧ s.specifier = v ++ z ∧
        w = z ++ s.closing :: r) ∨
      ∃ lead inner rest link quote r, s.opening = .braced lead (inner ++ rest) link quote ∧
        u ++ ['\n'] = lead ++ '\x7b' :: inner ∧
        w = rest ++ '\x7d' :: (link ++ quote :: (s.specifier ++ s.closing :: r)) := by
  obtain ⟨z, r, some_, split, rfl⟩ := crosses
  rw [text] at split
  rcases List.append_eq_append_iff.mp split with ⟨v, front, back⟩ | ⟨v, front, back⟩
  · refine .inl ⟨v, ?_⟩
    obtain ⟨z, x, rfl⟩ := (List.eq_nil_or_concat z).resolve_left some_
    rw [List.concat_eq_append, ← List.append_assoc] at back
    obtain ⟨same, last⟩ := List.append_inj' back rfl
    obtain rfl : s.closing = x := by simpa using last
    refine ⟨z, r, front, ?_, same, by simp⟩
    rintro rfl
    exact stands.opening.not_feed u (by simpa using front.symm)
  · obtain ⟨lead, inner, rest, link, quote, opening, before_, rfl⟩ :=
      stands.opening.exists_of_feed front
    exact .inr ⟨lead, inner, rest, link, quote, r, opening, before_, by simp [back]⟩

/-- Whether an import runs on over a line hangs on the quotation marks and the braces behind the line. -/
theorem Statement.Crosses.exists_crossing (crosses : s.Crosses (u ++ ['\n']) w') (stands : s.Stands f)
    (quotes : (∃ c ∈ w', isQuote c = true) → ∃ c ∈ w, isQuote c = true)
    (braces : Shut '\x7b' '\x7d' (u ++ ['\n']) ∨ (Resumes w' → Resumes w)) :
    ∃ s' : Statement, s'.Stands f ∧ s'.Crosses (u ++ ['\n']) w := by
  rcases crosses.cases stands with
    ⟨v, z, r, front, some_, given, rfl⟩ | ⟨lead, inner, rest, link, quote, r, opening, front, rfl⟩
  · obtain ⟨c, member, quoted⟩ := quotes ⟨s.closing, by simp, stands.closing⟩
    obtain ⟨z', c, r', rfl, free, quoted⟩ : ∃ z' c r', w = z' ++ c :: r' ∧
        (∀ x ∈ z', isQuote x = false) ∧ isQuote c = true := by
      obtain ⟨z', r', rfl, rfl | ⟨d, r', rfl, first⟩, free⟩ := exists_first isQuote w
      · rw [List.append_nil] at member
        simp [free c member] at quoted
      · exact ⟨z', d, r', rfl, free, first⟩
    refine ⟨⟨s.opening, v ++ z', c⟩, ⟨stands.opening, by simp [some_], ?_, quoted⟩, z' ++ [c], r', by simp,
      by simp [text, front], by simp⟩
    intro x member
    rcases List.mem_append.mp member with member | member
    · exact stands.unquoted x (by simp [given, member])
    · exact free x member
  · have standing := stands.opening
    rw [opening] at standing
    obtain ⟨quoted, reached, closed, linked⟩ := standing
    simp only [List.mem_append, not_or] at closed
    rcases braces with shut | resumes
    · exact absurd (shut lead inner front) closed.1
    · obtain ⟨rest', link', quote', specifier, closing, r', rfl, free, linked', quoted', some_, unquoted,
        quoted''⟩ := resumes ⟨rest, link, quote, s.specifier, s.closing, r, rfl, closed.2, linked, quoted,
          stands.some_, stands.unquoted, stands.closing⟩
      refine ⟨⟨.braced lead (inner ++ rest') link' quote', specifier, closing⟩,
        ⟨⟨quoted', reached, by simp [closed.1, free], linked'⟩, some_, unquoted, quoted''⟩,
        rest' ++ '\x7d' :: (link' ++ quote' :: (specifier ++ [closing])), r', by simp, ?_, by simp⟩
      simp [text, Opening.text, front]

/-! ### Scanning up to a line -/

/-- The second match is the first one, some bytes farther on in another text. -/
structure Same (n : Nat) (m m' : Match) : Prop where
  start : m'.start.offset = m.start.offset + n
  stop : m'.stop.offset = m.stop.offset + n
  reads : m.Reads n m'

/-- An import that has begun before a line and runs on over it does so with another text behind the
line only if one does with the text that is there. -/
def Shields (x w w' : Text) : Prop := ∀ a b (s : Statement), x = a ++ b → b ≠ [] → s.Stands a →
  s.Crosses b w' → ∃ s' : Statement, s'.Stands a ∧ s'.Crosses b w

theorem refused_of_shields (side : Cursor.edge f.getLast? = none) (shields : Shields x w w')
    (split : x = a ++ b) (some_ : b ≠ []) (refused : importStatement.matchAt? (.between a (b ++ w)) = none) :
    importStatement.matchAt? (.between (f ++ a) (b ++ w')) = none := by
  cases found : importStatement.matchAt? (.between (f ++ a) (b ++ w')) with
  | none => rfl
  | some m =>
    obtain ⟨s, y, text, there, -⟩ := exists_statement_of_match found
    have stands := there.elsewhere (edge_front side a).symm
    rcases List.append_eq_append_iff.mp text with ⟨r, front, rfl⟩ | ⟨r, rfl, rfl⟩
    · by_cases inside : r = []
      · subst inside
        exact absurd (by simp [front]) (stands.ne_of_refused refused w)
      · obtain ⟨s', stands', z, r', -, text', rfl⟩ := shields a b s split some_ stands
          ⟨r, y, inside, front, rfl⟩
        exact absurd (by simp [text']) (stands'.ne_of_refused refused r')
    · exact absurd (by simp) (stands.ne_of_refused refused (r ++ w))

/-- An import that stops before a line, or at it, is found whatever follows the line. -/
theorem exists_same_match {m : Match} (whole : AtLine (a ++ b)) (side : Cursor.edge f.getLast? = none)
    (found : importStatement.matchAt? (.between a (b ++ w)) = some m)
    (within : w.length ≤ m.stop.rest.length) (w' : Text) :
    ∃ taken r m', b = taken ++ r ∧ taken ≠ [] ∧ m.stop = .between (a ++ taken) (r ++ w) ∧
      importStatement.matchAt? (.between (f ++ a) (b ++ w')) = some m' ∧
        m'.stop = .between (f ++ a ++ taken) (r ++ w') ∧ Same f.size m m' := by
  obtain ⟨s, y, text, stands, -, -, tail, rest, rfl, -, stop⟩ := exists_statement_of_match found
  simp only [stop, Cursor.between_rest] at within
  obtain ⟨r, rfl, rfl⟩ : ∃ r, b = s.text ++ (tail ++ r) ∧ rest = r ++ w := by
    rw [← List.append_assoc] at text
    rcases List.append_eq_append_iff.mp text with ⟨r, front_, rfl⟩ | ⟨r, rfl, rfl⟩
    · simp only [List.length_append] at within
      obtain rfl : r = [] := List.length_eq_zero_iff.mp (by omega)
      exact ⟨[], by simpa using front_.symm, rfl⟩
    · exact ⟨r, by simp, rfl⟩
  have feed : '\n' ∈ tail ++ r := by
    rw [← List.append_assoc] at whole
    exact whole.feed_mem (stands.ne_nil_of_atLine whole)
  have echoes : importStatement.Echoes a (f ++ a) (s.text ++ (tail ++ r)) w w' :=
    stands.echoes_line (edge_front side a) feed
  rcases echoes.matchAt?_cases with ⟨refused, -⟩ | ⟨taken, rest, g, g', cut, like, found₁, found₂⟩
  · rw [found] at refused
    cases refused
  · rw [found₁] at found
    obtain rfl := Option.some.inj found
    have same : rest ++ w = r ++ w := congrArg Cursor.rest stop
    obtain rfl := List.append_cancel_right same
    rw [← List.append_assoc] at cut
    obtain rfl := List.append_cancel_right cut
    have like' : Like 0 f.size g g' := like_shift like (by simp only [Text.size_append]; omega)
    refine ⟨s.text ++ tail, rest, _, by simp, by simp [Statement.text], rfl, found₂, rfl, ?_, ?_,
      Like.reads like'⟩
    · simp only [Cursor.between_offset, Text.size_append]
      omega
    · simp only [Cursor.between_offset, Text.size_append]
      omega

/-- A scan that comes to a line finds the same imports before it whatever follows. -/
theorem exists_scan_of_shields (whole : AtLine x) (side : Cursor.edge f.getLast? = none)
    (shields : Shields x w w') (scan : Scan importStatement (.between [] (x ++ w)) ms (.between x w)) :
    ∃ ms', Scan importStatement (.between f (x ++ w')) ms' (.between (f ++ x) w') ∧
      List.Forall₂ (Same f.size) ms ms' := by
  have later : ∀ {c d : Cursor} {ms : List Match}, Scan importStatement c ms d →
      ∀ a b, x = a ++ b → c = .between a (b ++ w) → d = .between x w →
        ∃ ms', Scan importStatement (.between (f ++ a) (b ++ w')) ms' (.between (f ++ x) w') ∧
          List.Forall₂ (Same f.size) ms ms' := by
    intro c d ms scan
    induction scan with
    | stay c =>
      rintro a b rfl rfl same
      have none_ : b ++ w = w := congrArg Cursor.rest same
      obtain rfl : b = [] := by simpa using none_
      refine ⟨[], ?_, .nil⟩
      simpa using .stay _
    | @skip front back c ms d refused later ih =>
      rintro a b split here rfl
      have rest : c :: back = b ++ w := congrArg Cursor.rest here
      cases b with
      | nil =>
        have enough := later.length_le
        rw [List.nil_append] at rest
        simp only [Cursor.between_rest, ← rest, List.length_cons] at enough
        omega
      | cons d b =>
        obtain ⟨rfl, rfl⟩ := List.cons.inj rest
        rw [here] at refused
        have refused' : importStatement.matchAt? (.between (f ++ a) (c :: b ++ w')) = none :=
          refused_of_shields side shields split (by simp) refused
        obtain ⟨ms', scan, same⟩ := ih (a ++ [c]) b (by simp [split]) (between_concat here _ _) rfl
        exact ⟨ms', .skip refused' (by simpa using scan), same⟩
    | @hit front back m ms d found moved later ih =>
      rintro a b split here rfl
      rw [here] at found
      have within := Nat.le_of_add_left_le later.length_le
      obtain ⟨taken, r, m', rfl, some_, stop, found', stop', same⟩ :=
        exists_same_match (split ▸ whole) side found within w'
      obtain ⟨ms', scan, more⟩ := ih (a ++ taken) r (by simp [split]) stop rfl
      have moved' : (Cursor.between (f ++ a) (taken ++ r ++ w')).offset < m'.stop.offset := by
        rw [stop']
        exact offset_lt_append (f ++ a) [] _ _ some_
      exact ⟨m' :: ms', .hit found' moved' (by rw [stop']; simpa using scan), .cons same more⟩
  simpa using later scan [] x rfl rfl rfl

end Recognition

/-! ### Imports that are parsed -/

open Recognition

/-- Two imports say the same, wherever they stand. -/
structure Import.Agrees (i j : Import) : Prop where
  default? : j.default? = i.default?
  bindings : j.bindings = i.bindings
  specifier : j.specifier = i.specifier

/-- The import farther on. -/
def Import.moved (n : Nat) (i : Import) : Import :=
  { i with span := i.span.moved n, bindingsSpan := i.bindingsSpan.map (·.moved n) }

theorem Import.moved_zero : Import.moved 0 = id := by
  have span : (Span.moved 0 : Span → Span) = id := rfl
  funext i
  simp [Import.moved, span]

/-- An import of a text with its pieces, behind other imports. -/
structure Import.StandsIn (t : Text) (others : List Import) (i : Import) (x : Text) (s : Statement)
    (tail rest : Text) : Prop where
  text : t = x ++ (s.text ++ (tail ++ rest))
  stands : s.Stands x
  isTail : IsTail tail
  exists_match : ∃ ms m, Scan importStatement (.between [] t) ms (.between x (s.text ++ (tail ++ rest))) ∧
    ms.filterMap Zones.import? = others ∧
    importStatement.matchAt? (.between x (s.text ++ (tail ++ rest))) = some m ∧
    Zones.import? m = some i ∧ m.stop = .between (x ++ s.text ++ tail) rest

namespace Zones

variable {t x tail rest : Text} {i j : Import} {others later : List Import} {m m' : Match} {n : Nat}
  {s : Statement}

theorem exists_import?_of_reads (reads : m.Reads n m') (read : import? m = some i) :
    ∃ j, import? m' = some j ∧ i.Agrees j := by
  simp only [import?, reads.texts, reads.spans] at read ⊢
  split at read
  · cases read
  · next named =>
    obtain rfl := Option.some.inj read
    rw [if_neg named]
    exact ⟨_, rfl, rfl, rfl, rfl⟩

theorem import?_of_same (same : Same n m m') : import? m' = (import? m).map (·.moved n) := by
  have span : m'.span = m.span.moved n := by
    simp only [Match.span, Cursor.spanTo, Span.moved, same.start, same.stop]
  simp only [import?, same.reads.texts, same.reads.spans, span]
  split <;> rfl

theorem filterMap_import?_of_same {ms ms' : List Match} (same : List.Forall₂ (Same n) ms ms') :
    ms'.filterMap import? = (ms.filterMap import?).map (·.moved n) := by
  induction same with
  | nil => rfl
  | @cons m m' _ _ first _ ih =>
    rw [List.filterMap_cons, List.filterMap_cons, import?_of_same first]
    cases import? m with
    | none => simpa using ih
    | some i => simpa using ih

theorem local_importStatement : importStatement.Avoids fun _ => false := by
  simp [importStatement, lineEnding, Avoids]

/-- Every import of a text stands in it. -/
theorem exists_standsIn (split : (ofText t).imports = others ++ i :: later) :
    ∃ x s tail rest, Import.StandsIn t others i x s tail rest := by
  obtain ⟨ms, ns, matches_, rfl, behind⟩ := List.filterMap_eq_append_iff.mp split
  obtain ⟨ns₁, m, ns₂, rfl, none_, read, -⟩ := List.filterMap_eq_cons_iff.mp behind
  have scan := exists_scan_findAll (p := importStatement) rfl local_importStatement t
  rw [matches_, ← List.append_assoc] at scan
  obtain ⟨x, y, rfl, before_, found, -⟩ := scan.exists_place
  rw [List.nil_append] at before_ found
  obtain ⟨s, y, rfl, stands, -, -, tail, rest, rfl, isTail, stop⟩ := exists_statement_of_match found
  refine ⟨x, s, tail, rest, rfl, stands, isTail, ms ++ ns₁, m, before_, ?_, found, read, stop⟩
  rw [List.filterMap_append, List.filterMap_eq_nil_iff.mpr none_, List.append_nil]

end Zones

namespace Import.StandsIn

variable {t x tail rest : Text} {i : Import} {others : List Import} {s : Statement}

/-- What is read off the match of an import. -/
theorem exists_remembered (at_ : i.StandsIn t others x s tail rest) :
    ∃ m : Match, Zones.import? m = some i ∧ m.span = ⟨x.size, Text.size (x ++ s.text ++ tail)⟩ ∧
      m.textOf? "specifier" = some s.specifier ∧ s.opening.Remembered x m.groups := by
  obtain ⟨-, stands, -, ms, m, -, -, found, read, stop⟩ := at_
  obtain ⟨s', y, split, stands', named, ⟨c, given, encloses⟩, -⟩ := exists_statement_of_match found
  obtain ⟨rfl, -⟩ := Statement.eq_of_append split stands stands'
  refine ⟨m, read, ?_, by simp [Match.textOf?, given, encloses.upTo], named⟩
  simp [Match.span, Cursor.spanTo, (matchAt?_some found).1, stop]

theorem specifier (at_ : i.StandsIn t others x s tail rest) : i.specifier.toList = s.specifier := by
  obtain ⟨m, read, -, given, -⟩ := at_.exists_remembered
  simp only [Zones.import?, given] at read
  split at read
  · cases read
  · obtain rfl := Option.some.inj read
    simp

theorem span (at_ : i.StandsIn t others x s tail rest) :
    i.span = ⟨x.size, Text.size (x ++ s.text ++ tail)⟩ := by
  obtain ⟨m, read, span, -, -⟩ := at_.exists_remembered
  simp only [Zones.import?, span] at read
  split at read
  · cases read
  · obtain rfl := Option.some.inj read
    rfl

/-- The names of an import in braces. -/
theorem braced {lead inner link : Text} {quote : Char} (at_ : i.StandsIn t others x s tail rest)
    (opening : s.opening = .braced lead inner link quote) : i.bindings = Zones.bindings inner ∧
      i.bindingsSpan = some ⟨Text.size (x ++ lead ++ ['\x7b']),
        Text.size (x ++ lead ++ ['\x7b']) + inner.size⟩ := by
  obtain ⟨m, read, -, -, named⟩ := at_.exists_remembered
  rw [opening] at named
  obtain ⟨c, known, encloses, offset⟩ := named
  simp only [Zones.import?, Match.textOf?, Match.spanOf?, known, Option.map_some, encloses.upTo] at read
  split at read
  · cases read
  · obtain rfl := Option.some.inj read
    exact ⟨rfl, by simp [Cursor.spanTo, encloses.offset, offset]⟩

/-- An import without braces has no names in them. -/
theorem plain {words : Text} {quote : Char} (at_ : i.StandsIn t others x s tail rest)
    (opening : s.opening = .plain words quote) : i.bindings = [] ∧ i.bindingsSpan = none := by
  obtain ⟨m, read, -, -, named⟩ := at_.exists_remembered
  rw [opening] at named
  have none_ : m.groups.lookup "named" = none := named
  simp only [Zones.import?, Match.textOf?, Match.spanOf?, none_, Option.map_none] at read
  split at read
  · cases read
  · obtain rfl := Option.some.inj read
    exact ⟨rfl, rfl⟩

/-! ### What follows an import -/

/-- An import in braces, or one before which all braces are closed, keeps those before it from running
on over it. -/
theorem shields (at_ : i.StandsIn t others x s tail rest)
    (closed : i.bindingsSpan = none → Shut '\x7b' '\x7d' x) (w : Text) :
    Shields x (s.text ++ (tail ++ rest)) w := by
  intro a b s' split some_ stands crosses
  have whole := at_.stands.atLine
  rw [split] at whole
  obtain ⟨u, rfl⟩ := (whole.of_append some_).resolve_left some_
  refine crosses.exists_crossing stands (fun _ => ⟨s.closing, by simp [Statement.text],
    at_.stands.closing⟩) ?_
  cases opening : s.opening with
  | plain words quote =>
    have shut := closed (at_.plain opening).2
    refine .inl fun front back same => ?_
    exact shut (a ++ front) back (by rw [split, same, List.append_assoc])
  | braced lead inner link quote =>
    refine .inr fun _ => ⟨lead ++ '\x7b' :: inner, link, quote, s.specifier, s.closing, tail ++ rest,
      by simp [Statement.text, Opening.text, opening], ?_, ?_⟩
    · have standing := at_.stands.opening
      rw [opening] at standing
      have free : '\x7d' ∉ lead := fun member =>
        absurd (unmarked_of_reaches standing.2.1 _ member) (by decide)
      simp [free, standing.2.2.1]
    · have standing := at_.stands
      have opened := standing.opening
      rw [opening] at opened
      exact ⟨opened.2.2.2, opened.1, standing.some_, standing.unquoted, standing.closing⟩

/-- Up to an import nothing hangs on what follows it. -/
theorem exists_scan (at_ : i.StandsIn t others x s tail rest)
    (closed : i.bindingsSpan = none → Shut '\x7b' '\x7d' x) (w : Text) :
    ∃ ms, Scan importStatement (.between [] (x ++ w)) ms (.between x w) ∧
      ms.filterMap Zones.import? = others := by
  obtain ⟨ms, m, scan, before_, -⟩ := at_.exists_match
  rw [at_.text] at scan
  obtain ⟨ms', scan', same⟩ := exists_scan_of_shields (f := []) at_.stands.atLine rfl (at_.shields closed w) scan
  refine ⟨ms', scan', ?_⟩
  rw [Zones.filterMap_import?_of_same same, before_, Text.size_nil, Import.moved_zero, List.map_id]

/-- The imports before one end where it begins, or earlier. -/
theorem span_stop_le (at_ : i.StandsIn t others x s tail rest) :
    ∀ k ∈ others, k.span.stop ≤ x.size := by
  obtain ⟨ms, -, scan, rfl, -⟩ := at_.exists_match
  intro k member
  obtain ⟨m, inside, read⟩ := List.mem_filterMap.mp member
  obtain ⟨front, back, rfl⟩ := List.append_of_mem inside
  obtain ⟨taken, rest', -, -, found, behind⟩ := scan.exists_place
  obtain ⟨-, taken', rest'', -, stop⟩ := matchAt?_some found
  rw [stop] at behind
  obtain ⟨taken'', _, -, there⟩ := behind.exists_taken
  have span : k.span.stop = m.stop.offset := by
    simp only [Zones.import?] at read
    split at read
    · cases read
    · obtain rfl := Option.some.inj read
      rfl
  have sizes := congrArg Cursor.offset there
  simp only [Cursor.between_offset, Text.size_append] at sizes
  simp only [span, stop, Cursor.between_offset, Text.size_append]
  omega

/-- An import stays what it is whatever follows it, and the scan goes on behind it. -/
theorem exists_scan_past (at_ : i.StandsIn t others x s tail rest)
    (closed : i.bindingsSpan = none → Shut '\x7b' '\x7d' x) (w : Text) :
    ∃ ms m j tail' rest', Scan importStatement (.between [] (x ++ (s.text ++ w))) (ms ++ [m]) m.stop ∧
      ms.filterMap Zones.import? = others ∧ Zones.import? m = some j ∧ i.Agrees j ∧
      w = tail' ++ rest' ∧ IsTail tail' ∧ m.stop = .between (x ++ s.text ++ tail') rest' := by
  obtain ⟨ms, scan, before_⟩ := at_.exists_scan closed (s.text ++ w)
  obtain ⟨-, m, -, -, found, read, -⟩ := at_.exists_match
  obtain ⟨m', m'', found', found'', reads, -, tail', rest', rfl, isTail, stop⟩ :=
    at_.stands.exists_matches rfl (tail ++ rest) w
  rw [found] at found'
  obtain rfl := Option.some.inj found'
  obtain ⟨j, read', agrees⟩ := Zones.exists_import?_of_reads (reads 0 rfl) read
  have moved : Text.size x < m''.stop.offset := by
    rw [stop, List.append_assoc]
    exact offset_lt_append x [] _ _ (by simp [Statement.text])
  exact ⟨ms, m'', j, tail', rest', scan.trans (.hit found'' moved (.stay _)), before_, read', agrees, rfl,
    isTail, stop⟩

/-- An import and those before it are still there, whatever follows them. -/
theorem exists_agreeing (at_ : i.StandsIn t others x s tail rest)
    (closed : i.bindingsSpan = none → Shut '\x7b' '\x7d' x) (w : Text) :
    ∀ k ∈ others ++ [i], ∃ j ∈ (Zones.ofText (x ++ (s.text ++ w))).imports, k.Agrees j := by
  obtain ⟨ms, m, j, -, -, scan, before_, read, agrees, -⟩ := at_.exists_scan_past closed w
  obtain ⟨ns, found⟩ := scan.exists_findAll
  intro k member
  have imports : (Zones.ofText (x ++ (s.text ++ w))).imports =
      others ++ j :: ns.filterMap Zones.import? := by
    rw [Zones.ofText, found, List.filterMap_append, List.filterMap_append, before_]
    simp [read]
  rw [imports]
  rcases List.mem_append.mp member with member | member
  · exact ⟨k, by simp [member], rfl, rfl, rfl⟩
  · obtain rfl := List.mem_singleton.mp member
    exact ⟨j, by simp, agrees⟩

/-- The scan goes on at the line behind an import. -/
theorem exists_scan_line (at_ : i.StandsIn t others x s tail rest)
    (closed : i.bindingsSpan = none → Shut '\x7b' '\x7d' x) {line : Text} (whole : '\n' ∉ line)
    (w : Text) : ∃ ms, Scan importStatement (.between [] (x ++ (s.text ++ (line ++ '\n' :: w)))) ms
      (.between (x ++ s.text ++ line ++ ['\n']) w) := by
  obtain ⟨ms, m, -, tail', rest', scan, -, -, -, split, ⟨u, free, cut⟩, stop⟩ :=
    at_.exists_scan_past closed (line ++ '\n' :: w)
  rw [stop] at scan
  have feed : ∀ {t : Text}, '\n' ∉ t → ∀ c ∈ t, (c == '\n') = false := by
    intro t free c member
    simp only [beq_eq_false_iff_ne, ne_eq]
    rintro rfl
    exact free member
  rcases cut with rfl | rfl
  · obtain ⟨v, rfl, rfl⟩ : ∃ v, line = tail' ++ v ∧ rest' = v ++ '\n' :: w := by
      rcases List.append_eq_append_iff.mp split with ⟨v, rfl, back⟩ | ⟨v, rfl, rfl⟩
      · cases v with
        | nil => exact ⟨[], by simp, by simpa using back.symm⟩
        | cons c v =>
          obtain ⟨rfl, -⟩ := List.cons.inj back
          simp at free
      · exact ⟨v, rfl, rfl⟩
    have anchored : importStatement.Anchored := anchored_lineStart _
    have inside : (Cursor.between (x ++ s.text ++ tail') (v ++ '\n' :: w)).startsLine = false := by
      by_contra starts
      have begun : AtLine (x ++ s.text ++ tail') :=
        Cursor.startsLine_between_iff.mp (by simpa using starts)
      exact free (begun.feed_mem (at_.stands.ne_nil_of_atLine begun))
    have onward := anchored.scan_inside (fun member => whole (by simp [member])) inside
    exact ⟨_, by simpa using scan.trans onward⟩
  · rw [List.append_assoc] at split
    obtain ⟨rfl, -, rfl⟩ := cut_eq split (feed whole) rfl (feed free) rfl
    exact ⟨_, by simpa using scan⟩

end Import.StandsIn

/-- An import with braces that a scan comes to is one of the text. -/
theorem Zones.exists_import_of_scan {x y lead inner link : Text} {quote : Char} {s : Statement}
    {ms : List Match} (scan : Scan importStatement (.between [] (x ++ (s.text ++ y))) ms
      (.between x (s.text ++ y))) (stands : s.Stands x)
    (opening : s.opening = .braced lead inner link quote) :
    ∃ j ∈ (ofText (x ++ (s.text ++ y))).imports, j.bindings = bindings inner ∧
      j.specifier.toList = s.specifier := by
  obtain ⟨m, -, found, -, -, ⟨tail, rest, rfl, -, stop⟩, -⟩ := stands.exists_matches rfl y y
  have moved : Text.size x < m.stop.offset := by
    rw [stop, List.append_assoc]
    exact offset_lt_append x [] _ _ (by simp [Statement.text])
  obtain ⟨ns, all_⟩ := (scan.trans (.hit found moved (.stay _))).exists_findAll
  obtain ⟨s', y, split, stands', named, ⟨c, given, encloses⟩, -⟩ := exists_statement_of_match found
  obtain ⟨rfl, -⟩ := Statement.eq_of_append split stands stands'
  rw [opening] at named
  obtain ⟨d, known, encloses', -⟩ := named
  obtain ⟨j, read, bindings_, specifier⟩ : ∃ j, import? m = some j ∧ j.bindings = bindings inner ∧
      j.specifier.toList = s.specifier := by
    simp [import?, Match.textOf?, known, given, encloses.upTo, encloses'.upTo]
  refine ⟨j, ?_, bindings_, specifier⟩
  rw [ofText, all_]
  simp [read]

end Registrar
