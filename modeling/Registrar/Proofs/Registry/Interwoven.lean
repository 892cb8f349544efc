import Registrar.Proofs.Registry.Slots

/-!
Imports and accessors of a text into which blocks are woven. Blocks that have nothing to do with imports
leave those of the text what they are, and blocks in which every brace is closed leave its accessors what
they are.
-/

namespace Registrar

open Recognition Pattern

variable {ι : Type} {block : ι → Text} {place : ι → Nat} {parts : List (Text × ι)}
  {d x y front kept rest w : Text} {ms : List Match}

/-! ### Imports -/

/-- No import of a list goes on over the place. -/
def Import.Outside (n : Nat) (imports : List Import) : Prop :=
  ∀ i ∈ imports, ¬(i.span.start < n ∧ n < i.span.stop)

/-- What is put in behind a place, and into no import, leaves the place outside the imports. -/
theorem Import.Outside.of_shifted {n m k : Nat} {is js : List Import} (less : n ≤ m)
    (outside : Import.Outside n is) (outside' : Import.Outside m is)
    (shifted : List.Forall₂ (Import.Shifted m k) is js) : Import.Outside n js := by
  intro j member
  obtain ⟨i, inside, -, before_, behind⟩ := (exists_of_forall₂ shifted).2 j member
  have here := outside i inside
  have there := outside' i inside
  by_cases first : i.span.stop ≤ m
  · rwa [before_ first]
  · have later : m ≤ i.span.start := by omega
    rw [behind later]
    simp only [Span.moved]
    omega

namespace Zones

/-- Woven blocks that have nothing to do with imports leave the imports of a text what they are, unless one
of them is put inside an import. -/
theorem exists_scan_interwoven (whole : front.AtLine) (whole' : ∀ p ∈ parts, p.1.AtLine)
    (inert : ∀ p ∈ parts, Inert (block p.2)) (cut : Text.Cut place front.size parts)
    (scan : Scan importStatement (.between [] (front ++ (Text.unwoven parts kept ++ w))) ms
      (.between (front ++ Text.unwoven parts kept) w))
    (outside : ∀ p ∈ parts, Import.Outside (place p.2) (ms.filterMap import?)) :
    ∃ ms', Scan importStatement (.between [] (front ++ (Text.woven block parts kept ++ w))) ms'
        (.between (front ++ Text.woven block parts kept) w) ∧
      (ms'.filterMap import?).map Import.content = (ms.filterMap import?).map Import.content ∧
      ∀ n ≤ front.size, Import.Outside n (ms.filterMap import?) →
        Import.Outside n (ms'.filterMap import?) := by
  induction parts generalizing front with
  | nil => exact ⟨ms, scan, rfl, fun n _ same => same⟩
  | cons p parts ih =>
    obtain ⟨here, whole'⟩ := List.forall_mem_cons.mp whole'
    obtain ⟨inert_, inert⟩ := List.forall_mem_cons.mp inert
    obtain ⟨place_, cut⟩ := cut
    obtain ⟨outside_, outside⟩ := List.forall_mem_cons.mp outside
    have front' : (front ++ p.1).AtLine := whole.append here
    have size : (front ++ p.1).size = front.size + p.1.size := Text.size_append _ _
    rw [← size] at place_ cut
    -- The later blocks are put in first.
    obtain ⟨ms₁, scan₁, content₁, outside₁⟩ := ih front' whole' inert cut (by simpa using scan) outside
    have apart := outside₁ _ (Nat.le_refl _) (place_ ▸ outside_)
    obtain ⟨ms₂, scan₂, shifted⟩ := exists_scan_interposed inert_ front' scan₁ apart
    refine ⟨ms₂, by simpa using scan₂, ?_, fun n less same => ?_⟩
    · rw [Import.map_content_of_shifted shifted, content₁]
    · exact (outside₁ n (by omega) same).of_shifted (by omega) apart shifted

/-- Behind whole lines that a scan comes to the end of, the imports are those of what follows. -/
theorem imports_of_scan (whole : x.AtLine)
    (scan : Scan importStatement (.between [] (x ++ y)) ms (.between x y)) :
    (ofText (x ++ y)).imports = ms.filterMap import? ++ (ofText y).imports.map (·.moved x.size) := by
  have alone := exists_scan_findAll (p := importStatement) rfl local_importStatement y
  have sides : Cursor.edge ([] : Text).getLast? = Cursor.edge x.getLast? := whole.edge_eq.symm
  obtain ⟨taken, rest, ms', split, place, behind, moved⟩ :=
    alone.elsewhere local_importStatement sides (show x.size = Text.size [] + x.size by simp)
  obtain rfl : [] = rest := congrArg Cursor.rest place
  rw [List.append_nil] at split
  subst split
  have all_ := (scan.trans behind).findAll_eq (matchAt?_eq_none_of_moves rfl)
  rw [ofText, all_, List.filterMap_append, filterMap_import?_of_moved moved]
  rfl

/-- A text behind which no quotation mark follows has no import that it had not before. -/
theorem imports_append_eq_nil (unquoted : ∀ c ∈ d, isQuote c = false) (none_ : (ofText y).imports = []) :
    (ofText (y ++ d)).imports = [] := by
  by_contra some_
  obtain ⟨i, later, split⟩ := List.exists_cons_of_ne_nil some_
  obtain ⟨x, s, tail, rest, at_⟩ : ∃ x s tail rest, Import.StandsIn (y ++ d) [] i x s tail rest :=
    exists_standsIn split
  -- The last quotation mark of the import stands in the text.
  obtain ⟨r, rfl⟩ : ∃ r, y = x ++ (s.text ++ r) := by
    have text := at_.text
    rw [← List.append_assoc] at text
    rcases List.append_eq_append_iff.mp text with ⟨z, same, behind⟩ | ⟨z, rfl, -⟩
    · rcases List.eq_nil_or_concat z with rfl | ⟨z, c, rfl⟩
      · exact ⟨[], by simpa using same.symm⟩
      · have last := congrArg List.getLast? same
        have closing : s.closing = c := by simpa [Statement.text] using last
        have quoted := at_.stands.closing
        rw [closing, unquoted c (by simp [behind])] at quoted
        cases quoted
    · exact ⟨z, by simp⟩
  obtain ⟨ms, m, scan, nameless, found, read, -⟩ := at_.exists_match
  have behind : tail ++ rest = r ++ d := by
    have text := at_.text
    simpa using text.symm
  rw [behind] at found scan
  have shields : Shields x (s.text ++ (r ++ d)) (s.text ++ r) := by
    rintro a b s' - - stands ⟨z, r', moved, text, same⟩
    exact ⟨s', stands, z, r' ++ d, moved, text, by rw [← List.append_assoc, same, List.append_assoc]⟩
  obtain ⟨ms', scan', same⟩ := exists_scan_of_shields (f := []) at_.stands.atLine rfl shields (by simpa using scan)
  obtain ⟨m', m'', found', found'', reads, -, tail', rest', rfl, -, stop⟩ :=
    at_.stands.exists_matches rfl (r ++ d) r
  rw [found] at found'
  obtain rfl := Option.some.inj found'
  obtain ⟨j, read', -⟩ := exists_import?_of_reads (reads 0 rfl) read
  have moved : Text.size x < m''.stop.offset := by
    rw [stop, List.append_assoc]
    exact offset_lt_append x [] _ _ (by simp [Statement.text])
  have scan' := scan'.trans (.hit found'' moved (.stay _))
  obtain ⟨ns, all_⟩ := scan'.exists_findAll
  rw [ofText] at none_
  simp [all_, read'] at none_

/-! ### Accessors -/

/-- The accessors of a text hang only on the blocks that are closed behind it. -/
theorem accessorContentsBefore_congr {y' : Text} (alike : Text.ClosesAlike y y') (x : Text) :
    accessorContentsBefore x y = accessorContentsBefore x y' := by
  refine List.filterMap_congr fun m _ => ?_
  rw [opened?, opened?, alike.append_left _ 1 (by decide)]

/-- In a text in which every brace is closed, the accessors are what they are whatever follows. -/
theorem accessorContentsBefore_of_balanced (balanced : Text.Balanced x) (y : Text) :
    accessorContentsBefore x y = accessorContents x := by
  rw [accessorContents_before x]
  refine List.filterMap_congr fun m member => ?_
  obtain ⟨front, back, rfl, found⟩ := exists_of_mem_findAll member
  obtain ⟨taken, rest, rfl, stop⟩ := exists_of_signature found
  have closed := balanced.closing?_isSome (s := front ++ taken) (t := rest) (by simp)
  have behind := Text.closing?_isSome_behind closed y
  rw [opened?, opened?, stop, Cursor.between_rest, if_pos behind, List.append_nil, if_pos closed]

theorem accessorContentsBefore_of_nil (none_ : accessorSignature.findAll x = []) (y : Text) :
    accessorContentsBefore x y = [] := by
  rw [accessorContentsBefore, none_]
  rfl

/-- A text that leaves no parenthesis of a method and no line open, and whose methods are seen alike
whatever follows. -/
structure Settled (x : Text) : Prop where
  steady : accessorSignature.Steady x
  whole : x.AtLine
  closed : ∀ y, accessorContentsBefore x y = accessorContents x

theorem Settled.append (settled : Settled x) (y : Text) :
    accessorContents (x ++ y) = accessorContents x ++ accessorContents y := by
  rw [accessorContents_append settled.steady settled.whole, settled.closed]

/-- Woven blocks close the same blocks as the text if every brace in them is closed. -/
theorem closesAlike_woven (balanced : ∀ p ∈ parts, Text.Balanced (block p.2)) {rest' : Text}
    (alike : Text.ClosesAlike rest' rest) :
    Text.ClosesAlike (Text.woven block parts rest') (Text.unwoven parts rest) := by
  induction parts with
  | nil => exact alike
  | cons p parts ih =>
    obtain ⟨here, balanced⟩ := List.forall_mem_cons.mp balanced
    rw [Text.woven_cons, Text.unwoven_cons]
    exact ((here.closesAlike _).trans (ih balanced)).append_left p.1

/-- Woven blocks add their own accessors to those of a text if every brace in them is closed; behind parts
without methods they may do without. -/
theorem mem_accessorContents_interwoven {rest' : Text} (steady : ∀ p ∈ parts, accessorSignature.Steady p.1)
    (whole : ∀ p ∈ parts, p.1.AtLine) (settled : ∀ p ∈ parts, Settled (block p.2))
    (paired : ∀ ps p qs, parts = ps ++ p :: qs → accessorSignature.findAll p.1 = [] ∨
      ∀ q ∈ p :: qs, Text.Balanced (block q.2))
    (alike : Text.ClosesAlike rest' rest) (same : accessorContents rest' = accessorContents rest)
    (c : String × Option String) :
    c ∈ accessorContents (Text.woven block parts rest') ↔
      c ∈ accessorContents (Text.unwoven parts rest) ∨ ∃ p ∈ parts, c ∈ accessorContents (block p.2) := by
  induction parts with
  | nil => simp [same]
  | cons p parts ih =>
    obtain ⟨steady_, steady⟩ := List.forall_mem_cons.mp steady
    obtain ⟨whole_, whole⟩ := List.forall_mem_cons.mp whole
    obtain ⟨settled_, settled⟩ := List.forall_mem_cons.mp settled
    have later := ih steady whole settled fun ps q qs split => paired (p :: ps) q qs (by rw [split]; rfl)
    have here : accessorContentsBefore p.1 (block p.2 ++ Text.woven block parts rest') =
        accessorContentsBefore p.1 (Text.unwoven parts rest) := by
      rcases paired [] p parts rfl with none_ | balanced
      · rw [accessorContentsBefore_of_nil none_, accessorContentsBefore_of_nil none_]
      · obtain ⟨balanced_, balanced⟩ := List.forall_mem_cons.mp balanced
        exact accessorContentsBefore_congr ((balanced_.closesAlike _).trans (closesAlike_woven balanced alike)) _
    rw [Text.woven_cons, Text.unwoven_cons, accessorContents_append steady_ whole_,
      accessorContents_append steady_ whole_, settled_.append, here, List.mem_append, List.mem_append,
      List.mem_append, later, List.exists_mem_cons_iff, ← or_assoc, or_or_or_comm]

end Zones
end Registrar
