import Registrar.Proofs.Registry.Edited

/-!
Exports of new entries, on lines of their own. The lines that are put in before them export nothing, so
the export of an entry is found on its own line if the text had no such export before; only an entry
whose accessor goes on behind the name with a dollar sign can stand in its way.
-/

namespace Registrar

open Pattern Recognition

namespace Pattern

variable {p : Pattern} {t x y : Text}

theorem findAll_eq_nil (none_ : p.find? t = none) : p.findAll t = [] := by
  rw [find?] at none_
  rw [findAll, findAllFrom, none_]

/-- What stays on a line is in whole lines and what follows them if it is in one of both. -/
theorem findAll_append_eq_nil_iff (moves_ : p.moves = true) (local_ : p.Avoids fun _ => false)
    (avoids : p.Avoids (· == '\n')) (whole : x.AtLine) :
    p.findAll (x ++ y) = [] ↔ p.findAll x = [] ∧ p.findAll y = [] := by
  obtain ⟨ms, ms', joined, first, second⟩ := ((settles_lines moves_ avoids whole).steady
    moves_).findAll_append moves_ local_ whole.edge_eq y
  have none_ : ∀ {l l' : List Match} {n z}, List.Forall₂ (Match.Moved n z) l l' →
      (l' = [] ↔ l = []) := fun all_ => by
    rw [← List.length_eq_zero_iff, ← List.length_eq_zero_iff, all_.length_eq]
  rw [joined, List.append_eq_nil_iff, none_ first, none_ second]

/-- Where a text has nothing, it has nothing either when it goes on. -/
theorem findAll_continued_eq_nil (moves_ : p.moves = true) (local_ : p.Avoids fun _ => false)
    (avoids : p.Avoids (· == '\n')) (continues : Text.Continues t y) (none_ : p.findAll t = []) :
    Scan p (.between [] (t ++ y)) [] (.between t y) := by
  have settles : p.Settles (fun z => z = [] ∨ z = y) [] t := by
    refine settles_of_holds moves_ (fun a b split some_ f z side behind => ?_) (.inl rfl)
    subst split
    rcases behind with rfl | rfl
    · exact echoes_rim local_ (edge_front side a) ⟨by simp, by simp, rfl⟩
    · exact echoes_seen avoids (edge_front side a) (continues.lineSeen some_)
  obtain ⟨ms, scan, later⟩ := settles.exists_scan
  obtain ⟨ms', scan', moved⟩ := later [] y rfl (.inr rfl)
  rw [List.nil_append] at scan
  rw [scan.findAll_eq (matchAt?_eq_none_of_moves moves_)] at none_
  subst none_
  obtain rfl := List.forall₂_nil_left_iff.mp moved
  simpa using scan'

end Pattern

/-! ### Export lines -/

namespace Recognition

variable {accessor name : Text} {sought : String}

theorem avoids_exportOf {bars : Char → Bool} (feed : ∀ c, bars c = true → c = '\n')
    (whole : '\n' ∉ sought.toList) : (exportOf sought).Avoids bars := by
  have free : ∀ t : Text, '\n' ∉ t → ∀ c ∈ t, bars c = false := by
    intro t whole c member
    by_contra barred
    obtain rfl := feed c (by simpa using barred)
    exact whole member
  have gap_ : ∀ c, bars c = true → isGap c = false := by
    intro c barred
    obtain rfl := feed c barred
    rfl
  have export_ := free "export".toList (by simp)
  have const_ := free "const".toList (by simp)
  simp only [exportOf, avoids_all, List.forall_mem_cons, avoids_lineStart, avoids_word, avoids_space,
    avoids_splitsWord]
  exact ⟨trivial, export_, gap_, const_, gap_, free _ whole, trivial, by simp⟩

/-- An exported name is taken for another one only if it goes on behind that with a dollar sign. -/
theorem exportsAs_eq_false (named : isIdentifier name = true) (spaceless : ' ' ∉ accessor)
    (word_ : accessor.getLast?.any Letter.isWord = true) (other : accessor ≠ name)
    (apart : ¬accessor ++ ['$'] <+: name) (back : Text) :
    exportsAs accessor (name ++ ' ' :: back) = false := by
  by_cases begins : accessor <+: name
  · obtain ⟨more, rfl⟩ := begins
    cases more with
    | nil => simp at other
    | cons c more =>
      have part := all_of_isIdentifier named c (by simp)
      have letter : Letter.isWord c = true := by
        by_contra nonword
        obtain rfl : c = '$' := by simpa [isNamePart, nonword] using part
        exact apart ⟨more, by simp⟩
      have last : (' ' :: accessor).getLast?.any Letter.isWord = true := by
        cases accessor with
        | nil => simp at word_
        | cons x rest => rwa [List.getLast?_cons_cons]
      rw [exportsAs, List.append_assoc, Text.dropFront?_append]
      simp [Cursor.splitsWord, Cursor.afterWord, Cursor.beforeWord, last, letter]
  · have other : ¬accessor <+: name ++ ' ' :: back := fun h =>
      begins ((Text.prefix_line_iff spaceless).mp h)
    rw [exportsAs, Text.dropFront?_eq_none other]

end Recognition

/-- The accessor of an entry goes on behind that of another one with a dollar sign, so that its export is
taken for one of the other. -/
def Entry.Masks (a e : Entry) : Prop := (e.accessor ++ "$").toList <+: a.accessor.toList

namespace Host

variable {h : Host} {entries : List Entry} {a e : Entry}

/-- The line that exports an entry. -/
def exportLine (h : Host) (e : Entry) : Text :=
  (Source.exportLine h.config e.accessor e.className h.className).toList

theorem exists_exportLine (proper : e.Proper h.config) (registry : '\n' ∉ h.className.toList) :
    ∃ tail, h.exportLine e = Source.constantLine e.accessor tail ++ ['\n'] ∧
      '\n' ∉ Source.constantLine e.accessor tail := by
  obtain ⟨accessor_, -, className_, type_, context_⟩ := proper.names.not_mem (d := '\n') rfl
  refine ⟨("= (" ++ h.config.contextField ++ "?: " ++ h.config.contextType ++ "): " ++ e.className ++
    " => " ++ h.className ++ ".getInstance()." ++ e.accessor ++ "(" ++ h.config.contextField ++
      ");").toList, ?_, ?_⟩
  · unfold exportLine Source.exportLine Source.constantLine
    simp
  · simp [Source.constantLine, accessor_, className_, type_, context_, registry]

/-- The export line of another entry is passed over. -/
theorem scan_exportLine (proper : a.Proper h.config) (registry : '\n' ∉ h.className.toList)
    (sought : e.Proper h.config) (word_ : e.accessor.toList.getLast?.any Letter.isWord = true)
    (other : e.accessor ≠ a.accessor) (apart : ¬a.Masks e) (front back : Text) :
    Scan (exportOf e.accessor) (.between front (h.exportLine a ++ back)) []
      (.between (front ++ h.exportLine a) back) := by
  obtain ⟨tail, line, whole⟩ := exists_exportLine proper registry
  have named := proper.names.accessor
  have free := fun {c} => not_mem_of_isIdentifier (c := c) sought.names.accessor
  have unnamed : exportsAs e.accessor.toList (a.accessor.toList ++ ' ' :: tail ++ ['\n']) = false := by
    have apart' : ¬e.accessor.toList ++ ['$'] <+: a.accessor.toList := by
      simpa [Entry.Masks] using apart
    simpa using exportsAs_eq_false named (free (by decide)) word_ (by rwa [ne_eq, String.toList_inj])
      apart' (tail ++ ['\n'])
  have gapless : ∀ x, (a.accessor.toList ++ ' ' :: tail ++ ['\n']).head? = some x → isGap x = false :=
    fun x head => isGap_head_eq_false named (' ' :: (tail ++ ['\n'])) x (by simpa using head)
  have refused := refuses_exportOf front back (free (by decide)) gapless unnamed
  have anchored : (exportOf e.accessor).Anchored := anchored_lineStart _
  have scan : Scan _ (.between front (Source.constantLine a.accessor tail ++ '\n' :: back)) [] _ :=
    anchored.scan_line whole (by simpa [Source.constantLine] using refused)
  rw [line]
  simpa using scan

/-! ### Exports of a text with entries -/

theorem silent_of_mem {edit : Edit} (member : edit ∈ h.inserts entries)
    (proper : ∀ e ∈ entries, e.Proper h.config) (accessor : String) (f y : Text) :
    Scan (exportOf accessor) (.between f (edit.new ++ y)) [] (.between (f ++ edit.new) y) := by
  simp only [inserts_eq, List.mem_cons, List.not_mem_nil, or_false] at member
  rcases member with rfl | rfl | rfl
  · exact (h.onlyZone_importBlock proper _).scan_exportOf accessor f y
  · exact (h.onlyZone_fieldBlock proper _).scan_exportOf accessor f y
  · exact (h.onlyZone_accessorBlock proper _).scan_exportOf accessor f y

/-- A line feed where one is needed goes on with the text. -/
theorem continues_breakBefore (h : Host) : Text.Continues h.text (h.text.breakBefore h.text.size) := by
  have continues := h.continues_exportBlock []
  rwa [exportBlock, List.flatMap_nil, List.append_nil] at continues

/-- Before the export lines of entries nothing is exported that was not before. -/
theorem exists_withEntries_silent (clear : Anchors.Clear h.text h.config.contextField)
    (proper : ∀ e ∈ entries, e.Proper h.config) {accessor : String} (whole : '\n' ∉ accessor.toList)
    (none_ : exportSpan? h.text accessor = none) :
    ∃ front, h.withEntries entries = front ++ h.exportLines entries ∧ front.AtLine ∧
      Scan (exportOf accessor) (.between [] (h.withEntries entries)) []
        (.between front (h.exportLines entries)) := by
  have local_ : (exportOf accessor).Avoids fun _ => false := avoids_exportOf (by simp) whole
  have avoids : (exportOf accessor).Avoids (· == '\n') := avoids_exportOf (by simp) whole
  have moves_ : (exportOf accessor).moves = true := rfl
  have joined := fun {x y : Text} => findAll_append_eq_nil_iff (x := x) (y := y) moves_ local_ avoids
  -- The lines go into the text with its last line ended.
  let start := h.text ++ h.text.breakBefore h.text.size
  have ended : start.AtLine := Text.atLine_append_breakBefore h.text
  have inserts : ∀ edit ∈ Edit.backToFront (h.inserts entries), edit.InsertsLines start := by
    intro edit member
    have here := h.insertsLines_of_mem entries (Edit.mem_backToFront.mp member)
    exact ⟨here.empty, by simp only [start, Text.size_append]; exact Nat.le_add_right_of_le here.inside,
      here.lines⟩
  have silent : (exportOf accessor).findAll start = [] := by
    have first := findAll_continued_eq_nil moves_ local_ avoids h.continues_breakBefore
      (findAll_eq_nil (Option.map_eq_none_iff.mp none_))
    have second := (OnlyZone.breakBefore "import" h.text h.text.size).scan_exportOf accessor h.text []
    rw [List.append_nil] at second
    exact (first.trans second).findAll_eq (matchAt?_eq_none_of_moves moves_)
  have kept := Edit.foldl_apply_keeps (s := start) (t := start)
    (motive := fun _ s => (exportOf accessor).findAll s = []) (Edit.backToFront_pairwise _) inserts
    ⟨Nat.le_refl _, rfl⟩ (fun edit member => (inserts edit member).inside)
    (fun edit member rest back _ before_ => by
      have inside := Edit.mem_backToFront.mp member
      have front : start.before edit.start = h.text.before edit.start :=
        Text.before_append (h.insertsLines_of_mem entries inside).inside _
      have new_ : (exportOf accessor).findAll edit.new = [] := by
        have passed := silent_of_mem inside proper accessor [] []
        rw [List.append_nil, List.nil_append] at passed
        exact passed.findAll_eq (matchAt?_eq_none_of_moves moves_)
      rw [front, joined (atLine_before inside clear)] at before_ ⊢
      exact ⟨before_.1, (joined (atLine_of_mem inside)).mpr ⟨new_, before_.2⟩⟩) silent
  obtain ⟨apart, lines⟩ := Edit.foldl_apply_lines inserts (h.exportLines entries)
  have split : h.withEntries entries =
      (Edit.backToFront (h.inserts entries)).foldl (fun t e => e.apply t) start ++
        h.exportLines entries := by
    rw [withEntries_eq, exportBlock, ← List.append_assoc]
    exact apart
  refine ⟨_, split, lines ended, ?_⟩
  rw [split]
  exact findAll_continued_eq_nil moves_ local_ avoids (.inl (lines ended)) kept

/-- The export of an entry is found on its own line. -/
theorem exists_exportSpan?_withEntries (clear : Anchors.Clear h.text h.config.contextField)
    (proper : ∀ e ∈ entries, e.Proper h.config) (registry : '\n' ∉ h.className.toList)
    {earlier later : List Entry} (split : entries = earlier ++ e :: later)
    (none_ : exportSpan? h.text e.accessor = none)
    (word_ : e.accessor.toList.getLast?.any Letter.isWord = true)
    (apart : ∀ a ∈ earlier, e.accessor ≠ a.accessor ∧ ¬a.Masks e) :
    ∃ front back, h.withEntries entries = front ++ h.exportLine e ++ back ∧
      exportSpan? (h.withEntries entries) e.accessor =
        some ⟨front.size, (front ++ h.exportLine e).size⟩ := by
  have own := proper e (by simp [split])
  have free := fun {c} => not_mem_of_isIdentifier (c := c) own.names.accessor
  obtain ⟨front, whole, lines, scan⟩ := exists_withEntries_silent clear proper (free (by decide)) none_
  have passed : ∀ (l : List Entry), (∀ a ∈ l, a.Proper h.config ∧ e.accessor ≠ a.accessor ∧ ¬a.Masks e) →
      ∀ f y, Scan (exportOf e.accessor) (.between f (h.exportLines l ++ y)) []
        (.between (f ++ h.exportLines l) y) := by
    intro l
    induction l with
    | nil => exact fun _ f y => by simpa [exportLines] using .stay _
    | cons a rest ih =>
      intro all_ f y
      obtain ⟨proper_, other, apart_⟩ := all_ a (by simp)
      have first := scan_exportLine proper_ registry own word_ other apart_ f (h.exportLines rest ++ y)
      have second := ih (fun b member => all_ b (by simp [member])) (f ++ h.exportLine a) y
      simpa [exportLines, exportLine] using first.trans second
  have before_ := passed earlier (fun a member => ⟨proper a (by simp [split, member]), apart a member⟩)
    front (h.exportLine e ++ h.exportLines later)
  have parts : h.exportLines entries = h.exportLines earlier ++ (h.exportLine e ++ h.exportLines later) := by
    simp [split, exportLines, exportLine]
  rw [parts] at whole scan
  have lines' : (front ++ h.exportLines earlier).AtLine :=
    lines.append (Text.atLine_flatMap (fun e => Source.atLine_exportLine _ _ _ _) _)
  obtain ⟨tail, line, feedless⟩ := exists_exportLine own registry
  have ends : (Cursor.between (' ' :: e.accessor.toList)
      (' ' :: (tail ++ '\n' :: h.exportLines later))).splitsWord = true := by
    obtain ⟨x, name, split, -⟩ := exists_of_isIdentifier own.names.accessor
    have last : (' ' :: e.accessor.toList).getLast? = e.accessor.toList.getLast? := by
      rw [split, List.getLast?_cons_cons]
    have space : Letter.isWord ' ' = false := rfl
    simp [Cursor.splitsWord, Cursor.afterWord, Cursor.beforeWord, last, word_, space]
  have takes := (takes_exportOf (fun back => lines'.startsLine back)
    (isGap_head_eq_false own.names.accessor _) ends).matchAt?
  have line_eq : h.exportLine e ++ h.exportLines later =
      "export".toList ++ (' ' :: ("const".toList ++ ' ' :: e.accessor.toList)) ++
        ' ' :: (tail ++ '\n' :: h.exportLines later) := by
    rw [line]
    simp [Source.constantLine]
  rw [← line_eq] at takes
  have found := (scan.trans before_).find?_eq takes
  have stop := Text.lineEnd_between (front ++ h.exportLines earlier) (h.exportLines later) feedless
  have text : h.withEntries entries = front ++ h.exportLines earlier ++
      (Source.constantLine e.accessor tail ++ '\n' :: h.exportLines later) := by
    rw [whole, line]
    simp
  refine ⟨front ++ h.exportLines earlier, h.exportLines later, by rw [whole]; simp, ?_⟩
  rw [exportSpan?, found, Option.map_some, Cursor.between_offset]
  rw [text, stop, line, List.append_assoc _ _ ['\n']]

end Host
end Registrar
