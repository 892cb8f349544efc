import Registrar.Proofs.Registry.Entries
import Registrar.Proofs.Registry.Forwarding
import Registrar.Proofs.Text.Woven

/-!
What is read off a text line by line. Of whole lines and what follows them it is read one after the other,
and it does not hang on whether the last line has its ending; so of a text into which blocks are woven it is
read off the parts and the blocks. Fields, classes, exports and closing braces are read in this way, and the
remark that marks the place of accessors.
-/

namespace Registrar

open Pattern Recognition

namespace Text

/-- What is read off a text is read off its lines, whether or not the last one has an ending. -/
structure Linewise {α : Type} (content : Text → List α) : Prop where
  append : ∀ {x : Text}, x.AtLine → ∀ y, content (x ++ y) = content x ++ content y
  ended : ∀ x : Text, content (x ++ ['\n']) = content x

variable {α ι : Type} {content : Text → List α} {block : ι → Text} {parts : List (Text × ι)}
  {x y t front rest : Text}

namespace Linewise

variable (linewise : Linewise content)
include linewise

theorem nil : content [] = [] := by
  have twice := linewise.append atLine_nil []
  simpa using twice

/-- A line feed where one is needed does not matter. -/
theorem breakBefore (x y : Text) :
    content (x ++ (x.breakBefore x.size ++ y)) = content x ++ content y := by
  by_cases whole : x.AtLine
  · have none_ := breakBefore_between whole []
    rw [List.append_nil] at none_
    rw [none_, List.nil_append, linewise.append whole]
  · have feed := breakBefore_of_not_atLine whole []
    rw [List.append_nil] at feed
    rw [feed, ← List.append_assoc, linewise.append (atLine_concat x), linewise.ended]

/-- Blocks of lines in which nothing is read are passed over. -/
theorem woven_eq (whole : ∀ p ∈ parts, p.1.AtLine) (whole' : ∀ p ∈ parts, (block p.2).AtLine)
    (silent : ∀ p ∈ parts, content (block p.2) = []) (rest : Text) :
    content (woven block parts rest) = content (unwoven parts []) ++ content rest := by
  induction parts with
  | nil => simp [linewise.nil]
  | cons p parts ih =>
    obtain ⟨here, whole⟩ := List.forall_mem_cons.mp whole
    obtain ⟨here', whole'⟩ := List.forall_mem_cons.mp whole'
    obtain ⟨silent_, silent⟩ := List.forall_mem_cons.mp silent
    rw [woven_cons, linewise.append here, linewise.append here', silent_, List.nil_append,
      ih whole whole' silent, unwoven_cons, linewise.append here, List.append_assoc]

/-- The parts of a text are read one after the other. -/
theorem unwoven_eq (whole : ∀ p ∈ parts, p.1.AtLine) (rest : Text) :
    content (unwoven parts rest) = content (unwoven parts []) ++ content rest :=
  linewise.woven_eq whole (fun _ _ => atLine_nil) (fun _ _ => linewise.nil) rest

end Linewise

theorem atLine_woven (whole : ∀ p ∈ parts, p.1.AtLine) (whole' : ∀ p ∈ parts, (block p.2).AtLine)
    (last : rest.AtLine) : (woven block parts rest).AtLine := by
  induction parts with
  | nil => exact last
  | cons p parts ih =>
    obtain ⟨here, whole⟩ := List.forall_mem_cons.mp whole
    obtain ⟨here', whole'⟩ := List.forall_mem_cons.mp whole'
    rw [woven_cons]
    exact here.append (here'.append (ih whole whole'))

theorem atLine_unwoven (whole : ∀ p ∈ parts, p.1.AtLine) (last : rest.AtLine) :
    (unwoven parts rest).AtLine :=
  atLine_woven whole (fun _ _ => atLine_nil) last

/-- Whether a line feed is needed at the end of a text hangs on what follows its whole lines. -/
theorem breakBefore_append (whole : front.AtLine) (rest : Text) :
    (front ++ rest).breakBefore (front ++ rest).size = rest.breakBefore rest.size := by
  have free : ∀ {t : Text}, t.AtLine → t.breakBefore t.size = [] := by
    intro t here
    simpa using breakBefore_between here []
  have feed : ∀ {t : Text}, ¬t.AtLine → t.breakBefore t.size = ['\n'] := by
    intro t inside
    simpa using breakBefore_of_not_atLine inside []
  by_cases here : rest.AtLine
  · rw [free here, free (whole.append here)]
  · have inside : ¬(front ++ rest).AtLine := by
      intro ended
      refine here (ended.of_append ?_)
      rintro rfl
      exact here atLine_nil
    rw [feed here, feed inside]

end Text

/-! ### Patterns that stay on a line -/

namespace Pattern

variable {p : Pattern} {bars bars' : Char → Bool} {x : Text}

theorem Avoids.mono (less : ∀ c, bars c = true → bars' c = true) (avoids : p.Avoids bars') :
    p.Avoids bars := by
  induction p with
  | nothing => trivial
  | one accepts => exact fun c barred => avoids c (less c barred)
  | place holds => exact avoids
  | next p q ihp ihq | either p q ihp ihq => exact ⟨ihp avoids.1, ihq avoids.2⟩
  | many greedy p ih | group label p ih => exact ih avoids

/-- A line feed alone is none of the matches of a pattern that stays on its line. -/
theorem matchAt?_feed (moves_ : p.moves = true) (avoids : p.Avoids (· == '\n')) (x : Text) :
    p.matchAt? (.between x ['\n']) = none := by
  cases found : p.matchAt? (.between x ['\n']) with
  | none => rfl
  | some m =>
    have less := lt_stop_of_matchAt? moves_ found
    obtain ⟨start, taken, rest, split, stop⟩ := matchAt?_some found
    have reached : p.Reaches x taken rest := by
      rw [matchAt?_eq] at found
      obtain ⟨⟨place, g⟩, first, rfl⟩ := Option.map_eq_some_iff.mp found
      dsimp only at stop
      subst stop
      exact ⟨_, g, by rw [← split]; exact List.mem_of_head? first⟩
    have some_ : taken ≠ [] := by
      rintro rfl
      rw [stop, List.append_nil] at less
      simp at less
    obtain ⟨c, taken, rfl⟩ := List.exists_cons_of_ne_nil some_
    obtain rfl : '\n' = c := (List.cons.inj split).1
    exact absurd (reached.avoided avoids '\n' (by simp)) (by simp)

/-- Matches that have moved have the same values. -/
theorem map_value_of_moved {α : Type} {value : Match → α} {n : Nat} {y : Text} {ms ms' : List Match}
    (reads : ∀ m m', Match.Moved n y m m' → value m' = value m)
    (moved : List.Forall₂ (Match.Moved n y) ms ms') : ms'.map value = ms.map value := by
  induction moved with
  | nil => rfl
  | cons first _ ih => rw [List.map_cons, List.map_cons, reads _ _ first, ih]

/-- What is read off the matches of a pattern that stays on its line is read line by line. -/
theorem linewise_findAll {α : Type} {value : Match → α} (moves_ : p.moves = true)
    (avoids : p.Avoids (· == '\n'))
    (reads : ∀ n y m m', Match.Moved n y m m' → value m' = value m) :
    Text.Linewise fun t => (p.findAll t).map value where
  append := by
    intro x whole y
    have local_ : p.Avoids fun _ => false := avoids.mono (by simp)
    obtain ⟨ms, ms', joined, first, second⟩ := ((settles_lines moves_ avoids whole).steady
      moves_).findAll_append moves_ local_ whole.edge_eq y
    rw [joined, List.map_append, map_value_of_moved (reads _ _) first,
      map_value_of_moved (reads _ _) second]
  ended := by
    intro x
    have local_ : p.Avoids fun _ => false := avoids.mono (by simp)
    have settles : p.Settles (fun z => z = [] ∨ z = ['\n']) [] x := by
      refine settles_of_holds moves_ (fun a b split some_ f z side behind => ?_) (.inl rfl)
      subst split
      rcases behind with rfl | rfl
      · exact echoes_rim local_ (edge_front side a) ⟨by simp, by simp, rfl⟩
      · exact echoes_seen avoids (edge_front side a) (Text.Continues.lineSeen (a := a) (.inr ⟨[], rfl⟩) some_)
    obtain ⟨ms, scan, later⟩ := settles.exists_scan
    obtain ⟨ms', scan', moved⟩ := later [] ['\n'] rfl (.inr rfl)
    simp only [List.nil_append] at scan scan'
    have ended := scan'.trans (.skip (matchAt?_feed moves_ avoids x) (.stay _))
    rw [ended.findAll_eq (matchAt?_eq_none_of_moves moves_),
      scan.findAll_eq (matchAt?_eq_none_of_moves moves_), List.append_nil,
      map_value_of_moved (reads _ _) moved]

theorem head?_findAll (p : Pattern) (t : Text) : (p.findAll t).head? = p.find? t := by
  rw [findAll, findAllFrom, ← find?]
  split
  · next none_ => rw [none_, List.head?_nil]
  · next m found =>
    rw [found]
    split
    · rfl
    · split <;> rfl

end Pattern

/-! ### What is declared -/

namespace Zones

variable {b f : Text}

/-- A field is not made out of the end of a line by the line feed behind it. -/
theorem matchAt?_fieldDeclaration_feed (some_ : b ≠ [])
    (refused : fieldDeclaration.matchAt? (.between f b) = none) :
    fieldDeclaration.matchAt? (.between f (b ++ ['\n'])) = none := by
  obtain ⟨ps, parts, avoids⟩ := exists_declaration_pieces
  have seen : LineSeen b ['\n'] := Text.Continues.lineSeen (a := []) (.inr ⟨[], rfl⟩) some_
  have echoes : (all ps).Echoes f f b [] ['\n'] := echoes_seen avoids rfl seen
  have all_ := echoes [] [] .nil
  rw [List.append_nil] at all_
  rw [parts] at refused ⊢
  generalize here : (all ps).ends (.between f b) [] = l at all_
  generalize there : (all ps).ends (.between f (b ++ ['\n'])) [] = l' at all_
  cases all_ with
  | nil =>
    rw [matchAt?_eq, ends_all_append, ends, there]
    rfl
  | @cons e e' _ _ same _ =>
    obtain ⟨_, g⟩ := e
    obtain ⟨taken, rest, rfl, at_, -⟩ := same
    dsimp only at at_
    subst at_
    obtain ⟨stop, found⟩ := exists_matchAt?_of_ends here
    rw [found] at refused
    cases refused

theorem linewise_fieldContents : Text.Linewise fieldContents where
  append := fieldContents_append
  ended := by
    intro x
    obtain ⟨x, b, rfl, whole, free⟩ := x.exists_last_line
    have contents : ∀ t, fieldContents t =
        (fieldDeclaration.findAll t).map fun m => (field m).content := by
      intro t
      rw [fieldContents, ofText, List.map_map]
      rfl
    rw [List.append_assoc, fieldContents_append whole, fieldContents_append whole]
    congr 1
    by_cases none_ : b = []
    · subst none_
      decide
    -- Inside the line nothing else is found.
    have inside : ∀ {front r : Text}, b = front ++ r → front ≠ [] →
        Scan fieldDeclaration (.between front (r ++ ['\n'])) [] (.between (front ++ r ++ ['\n']) []) := by
      rintro front r rfl some_
      refine anchored_fieldDeclaration.scan_inside (fun member => free (by simp [member])) ?_
      obtain ⟨front, c, rfl⟩ := (List.eq_nil_or_concat front).resolve_left some_
      have other : c ≠ '\n' := by
        rintro rfl
        simp at free
      simpa [Cursor.startsLine] using other
    rw [contents, contents b, anchored_fieldDeclaration.findAll_line rfl local_fieldDeclaration free]
    cases found : fieldDeclaration.matchAt? (.between [] b) with
    | none =>
      obtain ⟨c, b, rfl⟩ := List.exists_cons_of_ne_nil none_
      have refused := matchAt?_fieldDeclaration_feed none_ found
      have scan : Scan fieldDeclaration (.between [] (c :: b ++ ['\n'])) []
          (.between (c :: b ++ ['\n']) []) := .skip refused (inside rfl (List.cons_ne_nil c []))
      rw [scan.findAll_eq (matchAt?_eq_none_of_moves rfl)]
      rfl
    | some m =>
      obtain ⟨m', found', reads⟩ := exists_reads_behind (y := ['\n']) (.inr ⟨[], rfl⟩) found
      have moved := lt_stop_of_matchAt? rfl found'
      obtain ⟨-, taken, rest, split, stop⟩ := matchAt?_some found'
      rw [List.nil_append] at stop
      have some_ : taken ≠ [] := by
        rintro rfl
        rw [stop] at moved
        simp at moved
      have onward : Scan fieldDeclaration m'.stop [] (.between (b ++ ['\n']) []) := by
        rw [stop, split]
        rcases List.eq_nil_or_concat rest with rfl | ⟨r, c, rfl⟩
        · simpa using .stay _
        · rw [List.concat_eq_append, ← List.append_assoc] at split
          obtain ⟨line, last⟩ := List.append_inj' split rfl
          obtain rfl : '\n' = c := (List.cons.inj last).1
          simpa using inside line some_
      have scan := Scan.hit found' moved onward
      rw [scan.findAll_eq (matchAt?_eq_none_of_moves rfl), List.map_cons, content_field_of_reads reads]
      rfl

end Zones

namespace Recognition

variable {accessor : String} {x y t front : Text}

/-- The names of the classes that a text declares. -/
def classNames (t : Text) : List (Option Text) := (classDeclaration.findAll t).map (·.textOf? "name")

theorem linewise_classNames : Text.Linewise classNames :=
  linewise_findAll rfl (by simp [classDeclaration, Avoids]; decide) fun _ _ _ _ moved =>
    moved.groups.reads.texts "name"

theorem className?_eq_classNames (t : Text) :
    className? t = (classNames t).head?.bind (·.map String.ofList) := by
  rw [classNames, List.head?_map, head?_findAll, className?, Option.bind_map]
  rfl

/-- One mark for every export of an accessor. -/
def exportsOf (accessor : String) (t : Text) : List Unit := ((exportOf accessor).findAll t).map fun _ => ()

theorem linewise_exportsOf (whole : '\n' ∉ accessor.toList) : Text.Linewise (exportsOf accessor) :=
  linewise_findAll rfl (avoids_exportOf (by simp) whole) fun _ _ _ _ _ => rfl

theorem exportSpan?_isSome_iff : (exportSpan? t accessor).isSome ↔ exportsOf accessor t ≠ [] := by
  rw [exportSpan?, Option.isSome_map, ← head?_findAll, List.isSome_head?, exportsOf, ne_eq, ne_eq,
    List.map_eq_nil_iff]

/-- One mark for every brace at the start of a line. -/
def closings (t : Text) : List Unit := (closingBrace.findAll t).map fun _ => ()

theorem linewise_closings : Text.Linewise closings :=
  linewise_findAll rfl (by simp [closingBrace]) fun _ _ _ _ _ => rfl

end Recognition

namespace Text

variable {c : Char} {piece x y t : Text}

/-- A piece without the separator lies between two of them. -/
theorem infix_iff_exists_splitOn (other : c ∉ piece) :
    piece <:+: t ↔ ∃ s ∈ splitOn (· == c) t, piece <:+: s := by
  induction n : t.length using Nat.strong_induction_on generalizing t with
  | _ n ih =>
    by_cases inside : c ∈ t
    · obtain ⟨a, b, rfl⟩ := List.append_of_mem inside
      rw [List.length_append, List.length_cons] at n
      have first := ih a.length (by omega) rfl
      have second := ih b.length (by omega) rfl
      rw [splitOn_append_cons (by simp)]
      simp only [List.mem_append, or_and_right, exists_or, ← first, ← second]
      constructor
      · exact infix_append_cons other
      · rintro (inside | inside)
        · exact inside.trans ⟨[], c :: b, rfl⟩
        · exact inside.trans ⟨a ++ [c], [], by simp⟩
    · have alone : splitOn (· == c) t = [t] := by
        refine splitOn_eq_singleton fun d member => ?_
        simp only [beq_eq_false_iff_ne, ne_eq]
        rintro rfl
        exact inside member
      simp [alone]

/-- The lines with the remark that marks the place of accessors. -/
def markedLines (t : Text) : List Text :=
  (splitOn (· == '\n') t).filter (·.holds Source.accessorMark.toList)

theorem linewise_markedLines : Linewise markedLines := by
  have none_ : holds [] Source.accessorMark.toList = false := by decide
  have append : ∀ x y : Text, markedLines (x ++ '\n' :: y) = markedLines x ++ markedLines y := by
    intro x y
    rw [markedLines, splitOn_append_cons (by simp), List.filter_append]
    rfl
  have empty : markedLines [] = [] := by simp [markedLines, splitOn, none_]
  refine ⟨fun {x} whole y => ?_, fun x => ?_⟩
  · rcases whole with rfl | ⟨x, rfl⟩
    · rw [empty]
      rfl
    · rw [List.append_assoc, append x [], empty, List.append_nil]
      exact append x y
  · rw [append, empty, List.append_nil]

theorem holds_iff_inside : t.holds piece = true ↔ piece <:+: t := by
  refine ⟨fun found => ?_, holds_of_inside⟩
  obtain ⟨⟨front, back⟩, cut⟩ := Option.isSome_iff_exists.mp found
  exact ⟨front, back, (eq_append_of_cut? cut).symm⟩

theorem markedLines_eq_nil_iff : markedLines t = [] ↔ ¬Source.accessorMark.toList <:+: t := by
  rw [infix_iff_exists_splitOn (c := '\n') (by decide), markedLines, List.filter_eq_nil_iff]
  simp [holds_iff_inside]

/-- A piece is sought behind whole lines that do not hold it. -/
theorem cut?_append_of_atLine (some_ : piece ≠ []) (single : '\n' ∉ piece) (whole : x.AtLine)
    (absent : ¬piece <:+: x) (y : Text) :
    cut? piece (x ++ y) = (cut? piece y).map fun cut => (x ++ cut.1, cut.2) := by
  rcases whole with rfl | ⟨x, rfl⟩
  · simp
  · have absent : ¬piece <:+: x := fun inside => absent (inside.trans (List.prefix_append _ _).isInfix)
    rw [List.append_assoc, List.singleton_append, cut?_line some_ single absent]
    simp

end Text
end Registrar
