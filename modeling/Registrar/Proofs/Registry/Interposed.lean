import Registrar.Proofs.Registry.Imported
import Registrar.Proofs.Text.Splicing

/-!
Lines put between imports. Lines that hold no quotation mark and begin no import leave alone the imports
around them: an import that runs on over the place where they are put would be one that names nothing,
and it runs on over the lines as well.
-/

namespace Registrar

open Pattern Text

namespace Recognition

variable {f f' a b d w x y y' : Text} {g : Groups} {s s' : Statement} {m m' : Match} {ms : List Match}

/-- Lines that have nothing to do with imports. -/
structure Inert (d : Text) : Prop where
  whole : AtLine d
  unquoted : ∀ c ∈ d, isQuote c = false
  passed : ∀ f y, Scan importStatement (.between f (d ++ y)) [] (.between (f ++ d) y)

/-! ### What an import remembers of its opening -/

/-- An opening is taken as it is where it stands. -/
theorem Opening.Stands.exists_takes {o : Opening} (stands : o.Stands f) (y : Text) :
    ∃ g, importOpening.Takes f o.text y [] g := by
  obtain ⟨_, member⟩ := (stands.reaches y).exists_end looksBack_importOpening rfl y []
  obtain ⟨⟨place, g⟩, others, first⟩ := List.exists_cons_of_ne_nil (List.ne_nil_of_mem member)
  obtain ⟨o', rest, split, stands', at_, -⟩ := exists_opening_of_mem (e := (place, g))
    (by rw [first]; exact List.mem_cons_self)
  obtain ⟨rfl, rfl⟩ := Opening.eq_of_append split stands stands'
  dsimp only at at_
  subst at_
  exact ⟨g, by rw [Takes, first, List.head?_cons]⟩

/-- The match of an import, with what is taken for its pieces. -/
theorem Statement.Stands.exists_match (stands : s.Stands f) {tail rest : Text}
    (takes : ∀ front g, importEnding.Takes front tail rest g g) :
    ∃ c g z, importOpening.Takes f s.opening.text z [] g ∧
      importStatement.matchAt? (.between f (s.text ++ (tail ++ rest))) =
        some ⟨.between f (s.text ++ (tail ++ rest)), .between (f ++ s.text ++ tail) rest,
          ("specifier", c) :: g⟩ := by
  obtain ⟨g, opening⟩ := stands.opening.exists_takes ((s.specifier ++ [s.closing]) ++ (tail ++ rest))
  obtain ⟨c, source⟩ := stands.exists_takes_importSource (f ++ s.opening.text) (tail ++ rest) g
  obtain ⟨others, core⟩ := exists_cons_of_head? (opening.next source)
  exact ⟨c, g, _, opening, matchAt?_of_ends core takes⟩

/-- What an opening remembers is the same whatever specifier follows it. -/
theorem Opening.Stands.like {o : Opening} {g' : Groups} (stands : o.Stands f)
    (takes : importOpening.Takes f o.text y [] g) (takes' : importOpening.Takes f o.text y' [] g') :
    Like 0 0 g g' := by
  have echoes : importOpening.Echoes f f o.text y y' := stands.echoes rfl
  obtain ⟨others, first⟩ := exists_cons_of_head? takes
  obtain ⟨others', first'⟩ := exists_cons_of_head? takes'
  have all_ := echoes [] [] .nil
  rw [first, first', List.forall₂_cons] at all_
  obtain ⟨⟨_, _, _, _, _, like⟩, -⟩ := all_
  exact like_shift like rfl

theorem import?_eq_none_iff :
    Zones.import? m = none ↔ m.textOf? "default" = none ∧ m.textOf? "named" = none := by
  rw [Zones.import?]
  cases m.textOf? "default" <;> cases m.textOf? "named" <;> simp

/-- An import names nothing whatever its specifier is. -/
theorem import?_eq_none_of_like {g' : Groups} {c c' : Cursor × Cursor} {start stop start' stop' : Cursor}
    (like : Like 0 0 g g') (nameless : Zones.import? ⟨start, stop, ("specifier", c) :: g⟩ = none) :
    Zones.import? ⟨start', stop', ("specifier", c') :: g'⟩ = none := by
  have texts : ∀ label : String, label ≠ "specifier" →
      Match.textOf? ⟨start', stop', ("specifier", c') :: g'⟩ label =
        Match.textOf? ⟨start, stop, ("specifier", c) :: g⟩ label := by
    intro label other
    have reads : Match.Reads 0 ⟨start, stop, g⟩ ⟨start', stop', g'⟩ := Like.reads like
    have other' : (label == "specifier") = false := by simpa using other
    have same := reads.texts label
    simpa only [Match.textOf?, List.lookup_cons, other'] using same
  rw [import?_eq_none_iff] at nameless ⊢
  rwa [texts _ (by decide), texts _ (by decide)]

/-! ### Lines between imports -/

/-- A text goes on behind one that does not have the character. -/
theorem exists_of_append_cons {z r : Text} {c : Char} (split : d ++ w = z ++ c :: r) (free : c ∉ d) :
    ∃ z', z = d ++ z' ∧ w = z' ++ c :: r := by
  rcases List.append_eq_append_iff.mp split with ⟨t, rfl, rfl⟩ | ⟨t, rfl, back⟩
  · exact ⟨t, rfl, rfl⟩
  · cases t with
    | nil => exact ⟨[], by simp, by simpa using back.symm⟩
    | cons c' t =>
      obtain ⟨rfl, -⟩ := List.cons.inj back
      simp at free

/-- An import that runs on over lines that have nothing to do with it runs on without them. -/
theorem shields_of_inert (whole : AtLine d) (unquoted : ∀ c ∈ d, isQuote c = false) (whole' : AtLine x)
    (w : Text) : Shields x w (d ++ w) := by
  intro a b s split some_ stands crosses
  rw [split] at whole'
  obtain ⟨u, rfl⟩ := (whole'.of_append some_).resolve_left some_
  have unquoted' : ∀ c, isQuote c = true → c ∉ d := by
    intro c quoted member
    simp [unquoted c member] at quoted
  rcases crosses.cases stands with
    ⟨v, z, r, front, some_', given, behind⟩ | ⟨lead, inner, rest, link, quote, r, opening, front, behind⟩
  · -- The specifier runs on over the lines to a quotation mark behind them.
    obtain ⟨z', rfl, rfl⟩ := exists_of_append_cons behind (unquoted' _ stands.closing)
    refine ⟨⟨s.opening, v ++ z', s.closing⟩, ⟨stands.opening, by simp [some_'], fun c member => ?_,
      stands.closing⟩, z' ++ [s.closing], r, by simp, by simp [Statement.text, front], by simp⟩
    refine stands.unquoted c ?_
    rw [given]
    rcases List.mem_append.mp member with member | member <;> simp [member]
  · have standing := stands.opening
    rw [opening] at standing
    obtain ⟨quoted, reached, closed, linked⟩ := standing
    simp only [List.mem_append, not_or] at closed
    -- No brace in the lines closes those of the import, for the word behind it would stand on its line.
    obtain ⟨rest', rfl, rfl⟩ : ∃ rest', rest = d ++ rest' ∧
        w = rest' ++ '\x7d' :: (link ++ quote :: (s.specifier ++ s.closing :: r)) := by
      rcases List.append_eq_append_iff.mp behind with ⟨t, rfl, rfl⟩ | ⟨t, rfl, back⟩
      · exact ⟨t, rfl, rfl⟩
      · cases t with
        | nil => exact ⟨[], by simp, by simpa using back.symm⟩
        | cons c t =>
          have rest_ : t ++ w = link ++ quote :: (s.specifier ++ s.closing :: r) := by
            simpa using (List.cons.inj back).2.symm
          obtain ⟨z', rfl, -⟩ := exists_of_append_cons rest_ fun member =>
            unquoted' _ quoted (by simp [member])
          obtain rfl : '\x7d' = c := (List.cons.inj back).1
          have some_ : t ≠ [] := by
            rintro rfl
            rcases whole.of_append (by simp) with none_ | ⟨v, last⟩
            · simp at none_
            · have last : [] ++ ['\x7d'] = v ++ ['\n'] := last
              obtain ⟨-, same⟩ := List.append_inj' last rfl
              simp at same
          have feed : '\n' ∈ t := AtLine.feed_mem (a := rest ++ ['\x7d']) (by simpa using whole) some_
          exact absurd (linked.unmarked '\n' (by simp [feed])) (by decide)
    refine ⟨⟨.braced lead (inner ++ rest') link quote, s.specifier, s.closing⟩,
      ⟨⟨quoted, reached, ?_, linked⟩, stands.some_, stands.unquoted, stands.closing⟩,
      rest' ++ '\x7d' :: (link ++ quote :: (s.specifier ++ [s.closing])), r, by simp, ?_, by simp⟩
    · simp only [List.mem_append, not_or] at closed ⊢
      exact ⟨closed.1, closed.2.2⟩
    · simp [Statement.text, Opening.text, front]

/-- An import without braces that runs on over a line does so in its specifier. -/
theorem Statement.Stands.exists_specifier {front back z tail : Text} (stands : s.Stands front)
    (whole : AtLine (front ++ back)) (some_ : back ≠ []) (moved : z ≠ [])
    (pieces : back ++ z = s.text ++ tail) (isTail : IsTail tail)
    (plain : ∀ lead inner link quote, s.opening ≠ .braced lead inner link quote) :
    ∃ v z', back = s.opening.text ++ v ∧ v ≠ [] ∧ s.specifier = v ++ z' ∧ z = z' ++ s.closing :: tail := by
  rcases List.append_eq_append_iff.mp pieces with ⟨t, text, rfl⟩ | ⟨t, rfl, rfl⟩
  · have some_' : t ≠ [] := by
      rintro rfl
      rw [List.append_nil] at text
      exact stands.ne_nil_of_atLine (a := front) (r := []) (by simpa [text] using whole) rfl
    obtain ⟨u, rfl⟩ := (whole.of_append some_).resolve_left some_
    have crosses : s.Crosses (u ++ ['\n']) (t ++ tail) := ⟨t, tail, some_', text, rfl⟩
    rcases crosses.cases stands with ⟨v, z', r, front_, some_'', given, behind⟩ |
        ⟨lead, inner, rest, link, quote, r, opening, -⟩
    · refine ⟨v, z', front_, some_'', given, ?_⟩
      have text_eq : s.opening.text ++ (v ++ (z' ++ [s.closing])) = s.opening.text ++ (v ++ t) := by
        rw [← List.append_assoc _ v t, ← front_, ← text, Statement.text, given, List.append_assoc v]
      have t_eq := List.append_cancel_left (List.append_cancel_left text_eq)
      rw [← t_eq]
      simp
    · exact absurd opening (plain _ _ _ _)
  · -- The text would end in what follows the last quotation mark, but that has one line feed at its end.
    rw [← List.append_assoc] at whole
    have feed : '\n' ∈ t := whole.feed_mem (stands.ne_nil_of_atLine whole)
    obtain ⟨u, free, cut⟩ := isTail
    obtain ⟨z, c, rfl⟩ := (List.eq_nil_or_concat z).resolve_left moved
    rw [List.concat_eq_append, ← List.append_assoc] at cut
    rcases cut with same | same
    · exact absurd (by rw [← same]; simp [feed]) free
    · obtain ⟨rfl, -⟩ := List.append_inj' same rfl
      exact absurd (by simp [feed]) free

/-- What shields a longer front shields a shorter one. -/
theorem Shields.front {w' : Text} (shields : Shields (x ++ y) w w') :
    Shields x (y ++ w) (y ++ w') := by
  rintro a b s rfl some_ stands ⟨z, r, moved, text, split⟩
  rcases List.append_eq_append_iff.mp split with ⟨t, rfl, rfl⟩ | ⟨t, rfl, rfl⟩
  · by_cases none_ : t = []
    · subst none_
      exact ⟨s, stands, y, w, by simpa using moved, by simpa using text, rfl⟩
    · obtain ⟨s', stands', z', r', moved', text', rfl⟩ := shields a (b ++ y) s (by simp) (by simp [some_])
        stands ⟨t, r, none_, by simp [text], rfl⟩
      exact ⟨s', stands', y ++ z', r', by simp [moved'], by simp [text'], by simp⟩
  · exact ⟨s, stands, z, t ++ w, moved, text, by simp⟩

end Recognition

open Recognition

/-- The second import is the first one in a text into which `k` bytes have been put at byte `n`. -/
structure Import.Shifted (n k : Nat) (i j : Import) : Prop where
  agrees : i.Agrees j
  before_ : i.span.stop ≤ n → j.span = i.span
  behind : n ≤ i.span.start → j.span = i.span.moved k

namespace Zones

variable {n k : Nat} {c e : Cursor} {ms : List Match} {m : Match} {i : Import}

theorem span_of_import? (read : import? m = some i) : i.span = m.span := by
  rw [import?] at read
  split at read
  · cases read
  · obtain rfl := Option.some.inj read
    rfl

/-- The imports that a scan finds lie between its ends. -/
theorem bounds_of_mem_imports (scan : Scan importStatement c ms e)
    (member : i ∈ ms.filterMap import?) :
    c.offset ≤ i.span.start ∧ i.span.start < i.span.stop ∧ i.span.stop ≤ e.offset := by
  obtain ⟨m, inside, read⟩ := List.mem_filterMap.mp member
  rw [span_of_import? read]
  exact scan.bounds.2 m inside

/-- Imports before the place of an insertion stay where they are. -/
theorem forall₂_shifted_before (scan : Scan importStatement c ms e) (end_ : e.offset ≤ n) :
    List.Forall₂ (Import.Shifted n k) (ms.filterMap import?) (ms.filterMap import?) := by
  refine List.forall₂_same.mpr fun i member => ⟨⟨rfl, rfl, rfl⟩, fun _ => rfl, fun behind => ?_⟩
  have bounds := bounds_of_mem_imports scan member
  omega

/-- Imports behind the place of an insertion are moved. -/
theorem forall₂_shifted_behind (scan : Scan importStatement c ms e) (start : n ≤ c.offset) :
    List.Forall₂ (Import.Shifted n k) (ms.filterMap import?)
      ((ms.filterMap import?).map (·.moved k)) := by
  refine List.forall₂_map_right_iff.mpr (List.forall₂_same.mpr fun i member =>
    ⟨⟨rfl, rfl, rfl⟩, fun before_ => ?_, fun _ => rfl⟩)
  have bounds := bounds_of_mem_imports scan member
  omega

theorem same_of_moved {m' : Match} (moved : Match.Moved n [] m m') : Same n m m' :=
  ⟨moved.start, moved.stop, moved.groups.reads⟩

theorem filterMap_import?_of_moved {ms' : List Match} (moved : List.Forall₂ (Match.Moved n []) ms ms') :
    ms'.filterMap import? = (ms.filterMap import?).map (·.moved n) :=
  filterMap_import?_of_same (moved.imp fun _ _ => same_of_moved)

end Zones

/-! ### Up to the last import -/

/-- An import that ends a line is the same whatever follows. -/
theorem Import.StandsIn.exists_scan_whole {t x tail rest : Text} {i : Import} {others : List Import}
    {s : Statement} (at_ : i.StandsIn t others x s tail rest)
    (closed : i.bindingsSpan = none → Shut '\x7b' '\x7d' x) (whole : AtLine (x ++ s.text ++ tail))
    (w : Text) : ∃ ms, Scan importStatement (.between [] (x ++ s.text ++ tail ++ w)) ms
      (.between (x ++ s.text ++ tail) w) ∧ ms.filterMap Zones.import? = others ++ [i] := by
  obtain ⟨ms, scan, before_⟩ := at_.exists_scan closed (s.text ++ (tail ++ w))
  obtain ⟨-, m, -, -, found, read, stop⟩ := at_.exists_match
  have feed := whole.feed_mem (at_.stands.ne_nil_of_atLine whole)
  have echoes : importStatement.Echoes x x (s.text ++ tail) rest w := at_.stands.echoes_line rfl feed
  rw [← List.append_assoc s.text] at found
  rcases echoes.matchAt?_cases with ⟨refused, -⟩ | ⟨taken, rest', g, g', cut, like, found₁, found₂⟩
  · rw [found] at refused
    cases refused
  rw [found] at found₁
  obtain rfl := Option.some.inj found₁
  obtain rfl : rest' = [] := by
    have same : rest' ++ rest = rest := congrArg Cursor.rest stop
    simpa using same
  obtain rfl : s.text ++ tail = taken := by simpa using cut
  have same : Same 0
      ⟨.between x (s.text ++ tail ++ rest), .between (x ++ (s.text ++ tail)) ([] ++ rest), g⟩
      ⟨.between x (s.text ++ tail ++ w), .between (x ++ (s.text ++ tail)) w, g'⟩ :=
    ⟨rfl, rfl, Like.reads (like_shift like rfl)⟩
  have read' := Zones.import?_of_same same
  rw [read, Option.map_some, Import.moved_zero, id] at read'
  rw [← List.append_assoc s.text] at scan
  have hit := scan.trans (.hit found₂ (offset_lt_append x [] _ _ (by simp [Statement.text])) (.stay _))
  refine ⟨ms ++ [⟨.between x (s.text ++ tail ++ w), .between (x ++ (s.text ++ tail)) w, g'⟩],
    by simpa using hit, ?_⟩
  rw [List.filterMap_append, before_, List.filterMap_cons_some read', List.filterMap_nil]

/-- Up to the end of the last import nothing hangs on what follows. -/
theorem Zones.exists_scan_imports {t : Text}
    (whole : AtLine (t.before ((ofText t).lastImportEnd.getD 0)))
    (braces : ∀ i, (ofText t).imports.getLast? = some i → i.bindingsSpan = none →
      Shut '\x7b' '\x7d' (t.before i.span.start)) (w : Text) :
    ∃ ms, Scan importStatement (.between [] (t.before ((ofText t).lastImportEnd.getD 0) ++ w)) ms
      (.between (t.before ((ofText t).lastImportEnd.getD 0)) w) ∧
      ms.filterMap import? = (ofText t).imports := by
  rw [lastImportEnd] at whole ⊢
  cases last : (ofText t).imports.getLast? with
  | none =>
    rw [List.getLast?_eq_none_iff.mp last]
    exact ⟨[], by simpa using .stay _, rfl⟩
  | some i =>
    obtain ⟨others, split⟩ := List.getLast?_eq_some_iff.mp last
    obtain ⟨x, s, tail, rest, at_⟩ := exists_standsIn split
    have closed := braces i last
    have text : t = x ++ s.text ++ tail ++ rest := by rw [at_.text]; simp
    have front : t.before x.size = x := by rw [at_.text, Text.before_size_append]
    have end_ : t.before (Text.size (x ++ s.text ++ tail)) = x ++ s.text ++ tail := by
      rw [text, Text.before_size_append]
    simp only [last, Option.map_some, Option.getD_some, at_.span, end_, front] at whole closed ⊢
    rw [split]
    exact at_.exists_scan_whole closed whole w

section
variable {d w x y : Text} {ms : List Match} (inert : Inert d) (whole : AtLine x)
include inert whole

/-- A scan that comes to the place finds the same imports before the lines and behind them. -/
theorem exists_scan_interposed_visit {ms₁ ms₂ : List Match}
    (first : Scan importStatement (.between [] (x ++ (y ++ w))) ms₁ (.between x (y ++ w)))
    (second : Scan importStatement (.between x (y ++ w)) ms₂ (.between (x ++ y) w)) :
    ∃ ms', Scan importStatement (.between [] (x ++ (d ++ (y ++ w)))) ms' (.between (x ++ (d ++ y)) w) ∧
      List.Forall₂ (Import.Shifted x.size d.size) ((ms₁ ++ ms₂).filterMap Zones.import?)
        (ms'.filterMap Zones.import?) := by
  obtain ⟨ms₁', before_, same⟩ := exists_scan_of_shields (f := []) whole rfl
    (shields_of_inert inert.whole inert.unquoted whole (y ++ w)) first
  have sides : Cursor.edge x.getLast? = Cursor.edge (x ++ d).getLast? := by
    rw [whole.edge_eq, (whole.append inert.whole).edge_eq]
  obtain ⟨taken, rest, ms₂', split, place, behind, moved⟩ :=
    second.elsewhere Zones.local_importStatement sides (Text.size_append x d)
  obtain rfl : w = rest := congrArg Cursor.rest place
  obtain rfl := List.append_cancel_right split
  have scan := (before_.trans (inert.passed x (y ++ w))).trans behind
  rw [List.append_nil, List.append_assoc x d y] at scan
  refine ⟨ms₁' ++ ms₂', scan, ?_⟩
  rw [List.filterMap_append, List.filterMap_append, Zones.filterMap_import?_of_same same,
    Zones.filterMap_import?_of_moved moved, Text.size_nil, Import.moved_zero, List.map_id]
  exact List.rel_append (Zones.forall₂_shifted_before first (Nat.le_refl _))
    (Zones.forall₂_shifted_behind second (Nat.le_refl _))

/-- A scan that finds an import which runs on over the place and names nothing finds it with the lines in
its specifier, and the same imports before and behind it. -/
theorem exists_scan_interposed_cross {ms₁ ms₂ : List Match} {m : Match} {front back z rest : Text}
    (split : x = front ++ back) (some_ : back ≠ []) (moved : z ≠ []) (whole_eq : y ++ w = z ++ rest)
    (first : Scan importStatement (.between [] (x ++ (y ++ w))) ms₁ (.between front (back ++ (y ++ w))))
    (found : importStatement.matchAt? (.between front (back ++ (y ++ w))) = some m)
    (stop : m.stop = .between (x ++ z) rest) (nameless : Zones.import? m = none)
    (last : Scan importStatement m.stop ms₂ (.between (x ++ y) w)) :
    ∃ ms', Scan importStatement (.between [] (x ++ (d ++ (y ++ w)))) ms' (.between (x ++ (d ++ y)) w) ∧
      List.Forall₂ (Import.Shifted x.size d.size) ((ms₁ ++ m :: ms₂).filterMap Zones.import?)
        (ms'.filterMap Zones.import?) := by
  obtain ⟨s, y₀, text, stands, named, -, -⟩ := exists_statement_of_match found
  obtain ⟨tail, rest₀, rfl, isTail, takes⟩ := exists_importTail y₀
  obtain ⟨c, g, z₀, opening, found₁⟩ := stands.exists_match takes
  rw [text, found₁] at found
  obtain rfl := Option.some.inj found
  obtain rfl : rest₀ = rest := congrArg Cursor.rest stop
  have pieces : back ++ z = s.text ++ tail := by
    rw [whole_eq, ← List.append_assoc, ← List.append_assoc] at text
    exact List.append_cancel_right text
  have plain : ∀ lead inner link quote, s.opening ≠ .braced lead inner link quote := by
    intro lead inner link quote opening
    rw [opening] at named
    obtain ⟨c, known, -⟩ := named
    simpa [Match.textOf?, known] using (import?_eq_none_iff.mp nameless).2
  subst split
  obtain ⟨v, z', rfl, some_', given, rfl⟩ :=
    stands.exists_specifier whole some_ moved pieces isTail plain
  -- The import with the lines in its specifier.
  let s' : Statement := { s with specifier := v ++ (d ++ z') }
  have stands' : s'.Stands front := by
    refine ⟨stands.opening, by simp [s', some_'], fun c member => ?_, stands.closing⟩
    have unquoted := stands.unquoted
    simp only [given, List.mem_append] at unquoted
    simp only [s', List.mem_append] at member
    rcases member with member | member | member
    · exact unquoted c (.inl member)
    · exact inert.unquoted c member
    · exact unquoted c (.inr member)
  obtain ⟨c', g', z₁, opening', found'⟩ := stands'.exists_match takes
  have text' : s'.text ++ (tail ++ rest₀) = s.opening.text ++ v ++ (d ++ (y ++ w)) := by
    simp [s', Statement.text, whole_eq]
  rw [text'] at found'
  obtain ⟨ms₁', before_, same⟩ := exists_scan_of_shields (f := []) stands.atLine rfl
    (shields_of_inert inert.whole inert.unquoted whole (y ++ w)).front (by simpa using first)
  have sides : Cursor.edge (front ++ s.text ++ tail).getLast? =
      Cursor.edge (front ++ s'.text ++ tail).getLast? :=
    edge_append (by simp [s', Statement.text, ← List.append_assoc]) tail
  have farther : Text.size (front ++ s'.text ++ tail) = Text.size (front ++ s.text ++ tail) + d.size := by
    simp only [s', Statement.text, given, Text.size_append]
    omega
  obtain ⟨taken, rest, ms₂', rfl, place, behind, moved'⟩ :=
    last.elsewhere Zones.local_importStatement sides farther
  obtain rfl : w = rest := congrArg Cursor.rest place
  obtain rfl : y = z' ++ s.closing :: (tail ++ taken) := by
    have same : y ++ w = z' ++ s.closing :: (tail ++ taken) ++ w := by
      rw [whole_eq]
      simp
    exact List.append_cancel_right same
  have end_ : front ++ s'.text ++ tail ++ taken =
      front ++ (s.opening.text ++ v) ++ (d ++ (z' ++ s.closing :: (tail ++ taken))) := by
    simp [s', Statement.text]
  rw [end_] at behind
  have hit : Scan importStatement (.between front (s.opening.text ++ v ++ (d ++
      (z' ++ s.closing :: (tail ++ taken) ++ w)))) _ _ :=
    .hit found' (by
      have := s.closing.utf8Size_pos
      simp only [s', Statement.text, Cursor.between_offset, Text.size_append, Text.size_cons]
      omega) behind
  have all_ := before_.trans hit
  rw [← List.append_assoc front] at all_
  refine ⟨_, all_, ?_⟩
  rw [List.filterMap_append, List.filterMap_append, List.filterMap_cons_none nameless,
    List.filterMap_cons_none (import?_eq_none_of_like (stands.opening.like opening opening') nameless), Zones.filterMap_import?_of_same same,
    Zones.filterMap_import?_of_moved moved', Text.size_nil, Import.moved_zero, List.map_id]
  refine List.rel_append (Zones.forall₂_shifted_before first ?_) (Zones.forall₂_shifted_behind last ?_)
  · simp only [Cursor.between_offset, Text.size_append]
    omega
  · have reached := congrArg Cursor.offset stop
    simp only [Cursor.between_offset, Text.size_append] at reached ⊢
    omega

/-- Lines that have nothing to do with imports leave the imports of a text as they are, unless they are
put inside one of them. -/
theorem exists_scan_interposed
    (scan : Scan importStatement (.between [] (x ++ (y ++ w))) ms (.between (x ++ y) w))
    (outside : ∀ i ∈ ms.filterMap Zones.import?, ¬(i.span.start < x.size ∧ x.size < i.span.stop)) :
    ∃ ms', Scan importStatement (.between [] (x ++ (d ++ (y ++ w)))) ms' (.between (x ++ (d ++ y)) w) ∧
      List.Forall₂ (Import.Shifted x.size d.size) (ms.filterMap Zones.import?)
        (ms'.filterMap Zones.import?) := by
  rcases scan.exists_visit (by simp) with ⟨ms₁, ms₂, rfl, first, second⟩ |
      ⟨ms₁, m, ms₂, front, back, z, rest, rfl, split, some_, moved, whole_eq, first, found, stop, last⟩
  · exact exists_scan_interposed_visit inert whole first second
  · refine exists_scan_interposed_cross inert whole split some_ moved whole_eq first found stop ?_ last
    by_contra some_import
    obtain ⟨i, read⟩ := Option.ne_none_iff_exists'.mp some_import
    refine outside i (List.mem_filterMap.mpr ⟨m, by simp, read⟩) ?_
    have start := (matchAt?_some found).1
    have before_ := Text.size_pos some_
    have behind := Text.size_pos moved
    rw [Zones.span_of_import? read, Match.span, Cursor.spanTo, start, stop]
    simp only [split, List.nil_append, Cursor.between_offset, Text.size_append]
    omega

end

end Registrar
