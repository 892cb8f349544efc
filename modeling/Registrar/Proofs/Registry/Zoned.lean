import Registrar.Proofs.Registry.Finding

/-!
The zones of a text that is put together from parts. They are read off the parts in their order,
each with the bytes where it stands; the export of an accessor and the remark that marks the place
of accessors are found in the same way.
-/

namespace Registrar

open Recognition Pattern

namespace Part

/-- The parts with the bytes at which they begin. -/
def located (f : Frame) : Nat → List Part → List (Nat × Part)
  | _, [] => []
  | start, p :: rest => (start, p) :: located f (start + (p.text f).size) rest

/-- The bytes of a located part. -/
def span (f : Frame) (e : Nat × Part) : Span := ⟨e.1, e.1 + (e.2.text f).size⟩

variable {f : Frame} {p : Part} {parts : List Part} {front back : Text}

theorem located_append (start : Nat) (parts parts' : List Part) :
    located f start (parts ++ parts') =
      located f start parts ++ located f (start + (textOf f parts).size) parts' := by
  induction parts generalizing start with
  | nil => simp [located]
  | cons p rest ih => simp [located, ih, Nat.add_assoc]

theorem map_snd_located (start : Nat) (parts : List Part) :
    (located f start parts).map (·.2) = parts := by
  induction parts generalizing start with
  | nil => rfl
  | cons p rest ih => simp [located, ih]

theorem snd_mem_of_mem_located {start : Nat} {e : Nat × Part}
    (member : e ∈ located f start parts) : e.2 ∈ parts := by
  rw [← map_snd_located (f := f) start parts]
  exact List.mem_map_of_mem member

theorem exists_mem_located (member : p ∈ parts) (start : Nat) :
    ∃ place, (place, p) ∈ located f start parts := by
  rw [← map_snd_located (f := f) start parts] at member
  obtain ⟨e, inside, same⟩ := List.mem_map.mp member
  exact ⟨e.1, by rw [← same]; exact inside⟩

/-- A located part stands behind the text of the parts before it. -/
theorem exists_of_mem_located {start : Nat} {e : Nat × Part} (member : e ∈ located f start parts) :
    ∃ before_ after_, parts = before_ ++ e.2 :: after_ ∧
      e.1 = start + (textOf f before_).size := by
  induction parts generalizing start with
  | nil => simp [located] at member
  | cons p rest ih =>
    rcases List.mem_cons.mp member with rfl | member
    · exact ⟨[], rest, rfl, by simp⟩
    · obtain ⟨before_, after_, rfl, place⟩ := ih member
      refine ⟨p :: before_, after_, rfl, ?_⟩
      rw [place]
      simp [Nat.add_assoc]

theorem atLine_text (p : Part) : Text.AtLine (p.text f) := .inr p.exists_text_eq

theorem atLine_textOf (parts : List Part) : Text.AtLine (textOf f parts) := by
  induction parts with
  | nil => exact Text.atLine_nil
  | cons p rest ih => exact p.atLine_text.append ih

/-- What a pattern finds in parts one after another is what it finds in each of them. -/
theorem exists_scan_textOf {α : Type} {pattern : Pattern} (value : Text → Match → Option α)
    (read : Nat → Part → Option α)
    (each : ∀ p ∈ parts, ∀ front back, Text.AtLine front →
      ∃ ms, Scan pattern (.between front (p.text f ++ back)) ms (.between (front ++ p.text f) back) ∧
        ms.filterMap (value (front ++ p.text f ++ back)) = (read front.size p).toList)
    (front back : Text) (at_ : Text.AtLine front) :
    ∃ ms, Scan pattern (.between front (textOf f parts ++ back)) ms
        (.between (front ++ textOf f parts) back) ∧
      ms.filterMap (value (front ++ textOf f parts ++ back)) =
        (located f front.size parts).filterMap fun e => read e.1 e.2 := by
  induction parts generalizing front with
  | nil =>
    refine ⟨[], ?_, rfl⟩
    simpa using .stay _
  | cons p rest ih =>
    obtain ⟨ms, here, found⟩ := each p (by simp) front (textOf f rest ++ back) at_
    obtain ⟨ms', later, found'⟩ := ih (fun q member => each q (by simp [member]))
      (front ++ p.text f) (at_.append p.atLine_text)
    have text_eq : front ++ p.text f ++ (textOf f rest ++ back) =
        front ++ textOf f (p :: rest) ++ back := by simp
    have text_eq' : front ++ p.text f ++ textOf f rest ++ back =
        front ++ textOf f (p :: rest) ++ back := by simp
    rw [text_eq] at found
    rw [text_eq'] at found'
    refine ⟨ms ++ ms', ?_, ?_⟩
    · have both := here.trans later
      simpa using both
    · rw [List.filterMap_append, found, found', located, List.filterMap_cons, Text.size_append]
      cases read front.size p <;> rfl

/-- The findings in a text of parts and of lines behind them that the pattern passes over. -/
theorem filterMap_findAll {α : Type} {w : String} {q : Pattern} {lines : List Text}
    (known : w ∈ zoneWords) (passes : ∀ line ∈ lines, Passes w line)
    (value : Text → Match → Option α) (read : Nat → Part → Option α)
    (each : ∀ p ∈ parts, ∀ front back, Text.AtLine front →
      ∃ ms, Scan (keyworded w q) (.between front (p.text f ++ back)) ms
          (.between (front ++ p.text f) back) ∧
        ms.filterMap (value (front ++ p.text f ++ back)) = (read front.size p).toList) :
    ((keyworded w q).findAll (textOf f parts ++ Text.ofLines lines)).filterMap
        (value (textOf f parts ++ Text.ofLines lines)) =
      (located f 0 parts).filterMap fun e => read e.1 e.2 := by
  obtain ⟨ms, scan, found⟩ := exists_scan_textOf value read each [] (Text.ofLines lines ++ [])
    Text.atLine_nil
  have all := scan.trans (scan_keyworded known passes)
  simp only [List.nil_append, List.append_nil, Text.size_nil] at all found
  rw [all.findAll_eq (refuses_keyworded_nil known _).matchAt?, found]

/-- The zones of a text of parts that are read, and of lines behind them that are passed over. -/
theorem zones_of_isRead {lines : List Text} (read : ∀ p ∈ parts, p.IsRead f)
    (passes : ∀ w ∈ zoneWords, ∀ line ∈ lines, Passes w line) :
    Zones.ofText (textOf f parts ++ Text.ofLines lines) = {
      className := className? (textOf f parts ++ Text.ofLines lines)
      imports := (located f 0 parts).filterMap fun e => e.2.import? f e.1
      fields := (located f 0 parts).filterMap fun e => e.2.field? f e.1
      accessors := (located f 0 parts).filterMap fun e => e.2.accessor? f e.1 } := by
  have imports := filterMap_findAll (by simp [zoneWords]) (passes "import" (by simp [zoneWords]))
    (fun _ => Zones.import?) (fun n p => p.import? f n) fun p member => (read p member).imports
  have fields := filterMap_findAll (by simp [zoneWords]) (passes "private" (by simp [zoneWords]))
    (fun _ m => some (Zones.field m)) (fun n p => p.field? f n) fun p member front back at_ => by
      rw [List.filterMap_eq_map']
      exact (read p member).fields front back at_
  have accessors := filterMap_findAll (by simp [zoneWords]) (passes "public" (by simp [zoneWords]))
    Zones.accessor? (fun n p => p.accessor? f n) fun p member => (read p member).accessors
  rw [List.filterMap_eq_map'] at fields
  exact congr (congr (congrArg _ imports) fields) accessors

/-- The zones of a text of sound parts. -/
theorem zones_textOf (plain : f.Plain) (sound : ∀ p ∈ parts, p.IsSound) :
    Zones.ofText (textOf f parts) = {
      className := className? (textOf f parts)
      imports := (located f 0 parts).filterMap fun e => e.2.import? f e.1
      fields := (located f 0 parts).filterMap fun e => e.2.field? f e.1
      accessors := (located f 0 parts).filterMap fun e => e.2.accessor? f e.1 } := by
  simpa using @zones_of_isRead f parts [] (fun p member => isRead_of_isSound plain (sound p member))
    (by simp)

/-! ### Exports -/

theorem exists_of_exported? {rest : Text} (is_export : p.exported? f = some rest) :
    ∃ line, rest = 'g' :: line ++ ['\n'] := by
  cases p with
  | ownExport =>
    obtain rfl := Option.some.inj is_export
    exact ⟨'e' :: 't' :: f.name.toList ++
      (" = (): " ++ f.name ++ " => " ++ f.name ++ ".getInstance();").toList, by simp⟩
  | helperExport c =>
    obtain rfl := Option.some.inj is_export
    refine ⟨'e' :: 't' :: Letter.raiseFirst c.toList ++ (" = (" ++ f.config.contextField ++ "?: " ++
      f.config.contextType ++ "): " ++ c ++ " => " ++ f.name ++ ".getInstance()." ++
      Naming.accessor c ++ "(" ++ f.config.contextField ++ ");").toList, ?_⟩
    simp [Naming.accessor]
  | _ => simp [exported?] at is_export

theorem lines_of_exported? {rest : Text} (is_export : p.exported? f = some rest) :
    ∃ l, p.lines f = [l] := by
  cases p with
  | ownExport | helperExport c => exact ⟨_, rfl⟩
  | _ => simp [exported?] at is_export

/-- The export of an accessor is found where it begins. -/
theorem exists_matchAt?_exportOf {accessor : String} (back : Text) (whole : '\n' ∉ accessor.toList)
    (is_export : p.isExportOf f accessor = true) (at_ : Text.AtLine front) :
    ∃ m, (exportOf accessor).matchAt? (.between front (p.text f ++ back)) = some m ∧
      m.start.offset = front.size := by
  obtain ⟨rest, exported, named⟩ := (Option.any_eq_true _ _).mp is_export
  obtain ⟨line, rest_eq⟩ := exists_of_exported? exported
  have begins : accessor.toList <+: rest := by
    by_contra other
    simp [exportsAs, Text.dropFront?_eq_none other] at named
  obtain ⟨after_, split⟩ := begins
  rw [exportsAs, ← split, Text.dropFront?_append] at named
  have some_ : after_ ≠ [] := by
    rintro rfl
    refine whole ?_
    rw [List.append_nil, rest_eq] at split
    simp [split]
  have split_ : (Cursor.between (' ' :: accessor.toList) (after_ ++ back)).splitsWord = true := by
    rw [← named]
    refine splitsWord_congr rfl ?_
    cases after_ with
    | nil => exact absurd rfl some_
    | cons x after_ => rfl
  have first : ∀ x, (accessor.toList ++ (after_ ++ back)).head? = some x → isGap x = false := by
    intro x head
    rw [← List.append_assoc, split, rest_eq] at head
    obtain rfl : 'g' = x := by simpa using head
    rfl
  have takes := (takes_exportOf (at_.startsLine) first split_).matchAt?
  have text_eq : p.text f ++ back =
      "export".toList ++ (' ' :: ("const".toList ++ ' ' :: accessor.toList)) ++
        (after_ ++ back) := by
    rw [text_of_exported? exported, ← split]
    simp
  exact ⟨_, by rw [text_eq]; exact takes, rfl⟩

/-- A line of another part is refused as an export. -/
theorem refuses_exportOf_text {accessor : String} (plain : f.Plain)
    (whole : '\n' ∉ accessor.toList) (other : p.isExportOf f accessor = false) :
    ∀ l ∈ p.lines f, ∀ front back,
      (exportOf accessor).Refuses front (l.text ++ '\n' :: back) := by
  intro l member front back
  cases exported : p.exported? f with
  | some rest =>
    obtain ⟨l', single⟩ := lines_of_exported? exported
    obtain ⟨line, rest_eq⟩ := exists_of_exported? exported
    have text_eq := text_of_exported? exported
    rw [single] at member
    obtain rfl := List.mem_singleton.mp member
    rw [text, single, rest_eq] at text_eq
    have feed : l.text ++ ['\n'] =
        "export".toList ++ (' ' :: ("const".toList ++ ' ' :: 'g' :: line)) ++ ['\n'] := by
      simpa using text_eq
    have line_eq := List.append_cancel_right feed
    have unnamed : exportsAs accessor.toList ('g' :: line ++ ['\n']) = false := by
      rw [isExportOf, exported, rest_eq] at other
      exact other
    have refused := refuses_exportOf front back whole (by simp [isGap]) unnamed
    rw [line_eq]
    simpa using refused
  | none =>
    by_cases opens : p = .opening
    · subst opens
      obtain rfl := List.mem_singleton.mp member
      have refused := refuses_exportOf_opening accessor front
        (' ' :: (f.name.toList ++ " \x7b\n".toList ++ back))
      simpa [Line.text] using refused
    · have lacks : p.Lacks f "export" := by
        refine lacks plain (by simp [keywords]) ?_
        cases p <;> simp [keyword, exported?] at opens exported ⊢
      refine refuses_exportOf_line front back fun begins => lacks l member ?_
      obtain ⟨rest, split⟩ := begins
      rw [← l.dropWhile_text, ← split]
      simp [isGap]

/-- Another part is passed over by the search for an export. -/
theorem scan_exportOf {accessor : String} (front back : Text) (plain : f.Plain) (sound : p.IsSound)
    (whole : '\n' ∉ accessor.toList) (other : p.isExportOf f accessor = false) :
    Scan (exportOf accessor) (.between front (p.text f ++ back)) []
      (.between (front ++ p.text f) back) := by
  refine (anchored_lineStart _).scan_lines ?_ ?_
  · intro line member
    obtain ⟨l, inside, rfl⟩ := List.mem_map.mp member
    exact not_mem_text plain sound l inside
  · intro line member
    obtain ⟨l, inside, rfl⟩ := List.mem_map.mp member
    exact refuses_exportOf_text plain whole other l inside

/-- An export begins where the first part that is one does. -/
theorem findFrom?_exportOf {accessor : String} (front : Text) (plain : f.Plain)
    (sound : ∀ p ∈ parts, p.IsSound) (whole : '\n' ∉ accessor.toList) (at_ : Text.AtLine front) :
    ((exportOf accessor).findFrom? (.between front (textOf f parts))).map (·.start.offset) =
      ((located f front.size parts).find? (·.2.isExportOf f accessor)).map (·.1) := by
  induction parts generalizing front with
  | nil =>
    have refused : (exportOf accessor).Refuses front [] :=
      Refuses.place_next (Refuses.next_left (refuses_literal (by simp)))
    rw [textOf_nil, findFrom?_at_end refused.matchAt?]
    rfl
  | cons p rest ih =>
    have later := ih (front ++ p.text f) (fun q member => sound q (by simp [member]))
      (at_.append p.atLine_text)
    rw [located, List.find?_cons]
    cases is_export : p.isExportOf f accessor with
    | true =>
      obtain ⟨m, found, place⟩ :=
        exists_matchAt?_exportOf (textOf f rest) whole is_export at_
      rw [textOf_cons, findFrom?_of_found found]
      simp [place]
    | false =>
      have passed := scan_exportOf front (textOf f rest) plain (sound p (by simp)) whole is_export
      rw [textOf_cons, passed.findFrom?_eq, later, Text.size_append]

/-- The line of an export is the part that is one. -/
theorem exportSpan?_textOf (accessor : String) (plain : f.Plain)
    (sound : ∀ p ∈ parts, p.IsSound) (whole : '\n' ∉ accessor.toList) :
    exportSpan? (textOf f parts) accessor =
      ((located f 0 parts).find? (·.2.isExportOf f accessor)).map (span f) := by
  have found := findFrom?_exportOf [] plain sound whole Text.atLine_nil
  have starts : exportSpan? (textOf f parts) accessor =
      (((exportOf accessor).findFrom? (.between [] (textOf f parts))).map (·.start.offset)).map
        fun start => ⟨start, (textOf f parts).lineEnd start⟩ := by
    rw [exportSpan?, find?, Cursor.start_eq_between, Option.map_map]
    rfl
  rw [starts, found, Option.map_map]
  refine Option.map_congr fun e member => ?_
  have inside := List.mem_of_find?_eq_some member
  have is_export : e.2.isExportOf f accessor = true :=
    List.find?_some (p := fun e : Nat × Part => e.2.isExportOf f accessor) member
  obtain ⟨rest, exported, _⟩ := (Option.any_eq_true _ _).mp is_export
  obtain ⟨before_, after_, parts_eq, place⟩ := exists_of_mem_located inside
  obtain ⟨l, single⟩ := lines_of_exported? exported
  have line := not_mem_text plain (sound e.2 (by simp [parts_eq])) l (by simp [single])
  have text_eq : e.2.text f = l.text ++ ['\n'] := by simp [text, single]
  have ends := Text.lineEnd_between (textOf f before_) (textOf f after_) line
  rw [Text.size_nil, Nat.zero_add] at place
  simp only [span, Function.comp_apply, Span.mk.injEq, true_and]
  rw [place, text_eq, parts_eq]
  simp only [textOf_append, textOf_cons, text_eq, List.append_assoc, List.singleton_append,
    Text.size_append] at ends ⊢
  rw [ends]

end Part
end Registrar
