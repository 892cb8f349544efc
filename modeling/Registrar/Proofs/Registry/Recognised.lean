import Registrar.Proofs.Registry.Entries

/-!
Generator and patterns agree. Every generated text, filled with identifiers, is read as what it was
written for: an import line as one import, a field as one field, an accessor as one accessor, an export
under its own name alone; a new registry is told to be one and has its class, its two fields and its
setter, and a new helper is told to be none, whatever words the names are.
-/

namespace Registrar

open Recognition Pattern

variable {config : Config} {line : Text} {lines : List Text} {w : String} {p q : Pattern}

/-! ### Zones of a text -/

/-- A pattern that a scan through a text does not meet. -/
theorem Pattern.Scan.find?_eq_none {t : Text} (scan : Scan p (.between [] t) [] (.between t []))
    (refused : p.matchAt? (.between t []) = none) : p.find? t = none := by
  rw [find?, Cursor.start_eq_between, scan.findFrom?_eq, findFrom?_at_end refused]

namespace Zones

/-- The zones of a text are what scans through it meet. -/
theorem ofText_of_scans {t : Text} {is : List Import} {fs : List Field} {as : List Accessor}
    (imports : ∃ ms, Scan importStatement (.between [] t) ms (.between t []) ∧
      ms.filterMap import? = is)
    (fields : ∃ ms, Scan fieldDeclaration (.between [] t) ms (.between t []) ∧ ms.map field = fs)
    (accessors : ∃ ms, Scan accessorSignature (.between [] t) ms (.between t []) ∧
      ms.filterMap (accessor? t) = as) : ofText t = ⟨className? t, is, fs, as⟩ := by
  obtain ⟨ms, scan, rfl⟩ := imports
  obtain ⟨ms', scan', rfl⟩ := fields
  obtain ⟨ms'', scan'', rfl⟩ := accessors
  rw [ofText, scan.findAll_eq (refuses_keyworded_nil (w := "import") (by simp [zoneWords]) _).matchAt?,
    scan'.findAll_eq (refuses_keyworded_nil (w := "private") (by simp [zoneWords]) _).matchAt?,
    scan''.findAll_eq (refuses_keyworded_nil (w := "public") (by simp [zoneWords]) _).matchAt?]

end Zones

namespace Recognition

/-- Lines that are passed over, as a whole text. -/
theorem scan_ofLines (known : w ∈ zoneWords) (passes : ∀ line ∈ lines, Passes w line) :
    Scan (keyworded w q) (.between [] (Text.ofLines lines)) [] (.between (Text.ofLines lines) []) := by
  have scan := @scan_keyworded [] [] lines q w known passes
  simpa using scan

/-- Lines that declare no class, as a whole text. -/
theorem className?_eq_none (nothing : ∀ line ∈ lines, Part.DeclaresNothing line) :
    className? (Text.ofLines lines) = none := by
  have scan := @Part.scan_classDeclaration [] [] lines nothing
  rw [List.nil_append, List.append_nil] at scan
  have refused : classDeclaration.Refuses (Text.ofLines lines) [] := by
    refine Refuses.place_next (refuses_no_gap_next (by simp) ?_)
    refine (refuses_literal (by simp)).next_left.optional_next ?_
    refine (refuses_literal (by simp)).next_left.optional_next ?_
    exact (refuses_literal (by simp)).next_left.optional_next (refuses_literal (by simp)).next_left
  rw [className?, scan.find?_eq_none refused.matchAt?, Option.bind_none]

end Recognition

/-! ### Words in a row -/

namespace Recognition

/-- Two words with gaps between them are not in a text if the first one does not end its first word
in front of the second one, and they are not behind this word. -/
theorem not_infix_gap {first second gaps word rest : Text} (spaced : gaps ≠ [])
    (gapped : ∀ c ∈ gaps, isGap c = true) (some_ : second.head?.any (!isGap ·) = true)
    (gapless : ∀ c ∈ first, isGap c = false) (wordGapless : ∀ c ∈ word, isGap c = false)
    (apart : ¬(first <:+ word ∧ second <+: rest.dropWhile isGap))
    (later : ¬first ++ gaps ++ second <:+: rest) :
    ¬first ++ gaps ++ second <:+: word ++ ' ' :: rest := by
  rintro ⟨front, back, split⟩
  have adjacent : word = front ++ first → ' ' :: rest = gaps ++ (second ++ back) → False := by
    intro word_eq rest_eq
    obtain ⟨g, gaps, rfl⟩ := List.exists_cons_of_ne_nil spaced
    have stays : (second ++ back).dropWhile isGap = second ++ back := by
      cases second with
      | nil => simp at some_
      | cons c second =>
        have mark : isGap c = false := by simpa using some_
        simp [mark]
    rw [List.cons_append, List.cons.injEq] at rest_eq
    refine apart ⟨⟨front, word_eq.symm⟩, back, ?_⟩
    rw [rest_eq.2, List.dropWhile_append_of_pos fun c member => gapped c (by simp [member]), stays]
  have split : (front ++ first) ++ (gaps ++ (second ++ back)) = word ++ ' ' :: rest := by
    simpa using split
  rcases List.append_eq_append_iff.mp split with ⟨more, word_eq, gaps_eq⟩ | ⟨more, front_eq, rest_eq⟩
  · -- The gap begins no later than the word ends.
    cases more with
    | nil => exact adjacent (by simpa using word_eq) (by simpa using gaps_eq.symm)
    | cons c more =>
      obtain ⟨g, gaps, rfl⟩ := List.exists_cons_of_ne_nil spaced
      have same : g = c := (List.cons.inj gaps_eq).1
      have gap := gapped c (by simp [same])
      rw [wordGapless c (by simp [word_eq])] at gap
      contradiction
  · cases more with
    | nil => exact adjacent (by simpa using front_eq.symm) (by simpa using rest_eq)
    | cons c more =>
      rw [List.cons_append, List.cons.injEq] at rest_eq
      obtain ⟨rfl, rest_eq⟩ := rest_eq
      -- The first word has no gap in it, so it lies behind the one that the text begins with.
      have behind : front ++ first = (word ++ [' ']) ++ more := by simpa using front_eq
      rcases List.append_eq_append_iff.mp behind with ⟨piece, word_eq, first_eq⟩ | ⟨piece, _, more_eq⟩
      · rcases List.eq_nil_or_concat piece with rfl | ⟨piece, c, rfl⟩
        · refine later ⟨[], back, ?_⟩
          rw [rest_eq, first_eq]
          simp
        · have last := congrArg List.getLast? word_eq
          obtain rfl : ' ' = c := by simpa using last
          have gap := gapless ' ' (by simp [first_eq])
          simp [isGap] at gap
      · refine later ⟨piece, back, ?_⟩
        rw [rest_eq, more_eq]
        simp

/-- A pattern of two words with a gap between them is refused where they do not stand so. -/
theorem refuses_pair {first second : String} {front back : Text}
    (absent : ∀ gaps, gaps ≠ [] → (∀ c ∈ gaps, isGap c = true) →
      ¬first.toList ++ gaps ++ second.toList <:+: front ++ back) :
    (next (word first) (next space (next (word second) q))).Refuses front back := by
  refine refuses_literal_next fun rest split => refuses_next fun g e member => ?_
  obtain ⟨gaps, rest', rest_eq, spaced, gapped, rfl⟩ := mem_ends_space member
  have refused : (next (word second) q).Refuses (front ++ first.toList ++ gaps) rest' := by
    refine Refuses.next_left (refuses_literal ?_)
    rintro ⟨back', rfl⟩
    refine absent gaps spaced gapped ⟨front, back', ?_⟩
    rw [split, rest_eq]
    simp
  exact refused g

/-- A text in which a pattern is refused everywhere has no match of it behind anything else. -/
theorem occursIn_eq_false {t : Text} (refused : ∀ front back, t = front ++ back → p.Refuses front back) :
    p.occursIn t = false := by
  cases found : p.find? t with
  | none => rw [occursIn, found]; rfl
  | some m =>
    obtain ⟨front, back, split, here⟩ := exists_of_find? found
    rw [(refused front back split).matchAt?] at here
    contradiction

theorem refuses_behind {t : Text} (refused : ∀ front back, t = front ++ back → q.Refuses front back) :
    ∀ front back, t = front ++ back → (next p q).Refuses front back := by
  intro front back split
  refine refuses_next fun g e member => ?_
  obtain ⟨taken, rest, rfl, at_⟩ := mem_ends member
  rw [at_]
  exact refused _ _ (by simp [split]) e.2

end Recognition

/-- All bytes of a text. -/
def Text.whole (t : Text) : Span := ⟨0, t.size⟩

namespace Source

/-! ### Fragments -/

/-- What is asked of the lines of a text that no pattern of a zone finds anything in, but for one. -/
structure Silent (word : String) (lines : List Text) : Prop where
  passes : ∀ line ∈ lines, ∀ w ∈ zoneWords, w ≠ word → Passes w line
  nothing : ∀ line ∈ lines, Part.DeclaresNothing line

namespace Silent

variable {word : String} (silent : Silent word lines)
include silent

theorem scan (known : w ∈ zoneWords) (other : w ≠ word) : Scan (keyworded w q)
    (.between [] (Text.ofLines lines)) [] (.between (Text.ofLines lines) []) :=
  scan_ofLines known fun line member => silent.passes line member w known other

theorem className?_eq : className? (Text.ofLines lines) = none := className?_eq_none silent.nothing

end Silent

/-- An import is one line, with nothing else on it. -/
theorem exists_line_import {name specifier : String} (named : isIdentifier name.toList = true)
    (oneLine : '\n' ∉ specifier.toList) : ∃ line : Text,
      (importLine name specifier).toList = Text.ofLines [line] ∧ Silent "import" [line] := by
  have feed := not_mem_of_isIdentifier named (c := '\n') (by decide)
  let written := "import \x7b " ++ name ++ " \x7d from '" ++ specifier ++ "';"
  have whole : '\n' ∉ written.toList := by simp [written, feed, oneLine]
  refine ⟨written.toList, by unfold importLine; simp [written], ?_, ?_⟩ <;>
    intro line member <;> obtain rfl := List.mem_singleton.mp member
  · intro w known other
    refine ⟨whole, fun x _ => ?_⟩
    simp only [zoneWords, List.mem_cons, List.not_mem_nil, or_false] at known
    rcases known with rfl | rfl | rfl <;> simp [written, isGap] at other ⊢
  · exact ⟨whole, by simp [written, isGap]⟩

/-- A field is one line, with nothing else on it. -/
theorem exists_line_field {field className : String} (named : isIdentifier field.toList = true)
    (typed : isIdentifier className.toList = true) : ∃ line : Text,
      (fieldLine field className).toList = Text.ofLines [line] ∧ Silent "private" [line] := by
  have feed := not_mem_of_isIdentifier named (c := '\n') (by decide)
  have feed' := not_mem_of_isIdentifier typed (c := '\n') (by decide)
  let written := indent ++ "private " ++ field ++ "?: " ++ className ++ ";"
  have whole : '\n' ∉ written.toList := by simp [written, indent, feed, feed']
  refine ⟨written.toList, by unfold fieldLine; simp [written], ?_, ?_⟩ <;>
    intro line member <;> obtain rfl := List.mem_singleton.mp member
  · intro w known other
    refine ⟨whole, fun x _ => ?_⟩
    simp only [zoneWords, List.mem_cons, List.not_mem_nil, or_false] at known
    rcases known with rfl | rfl | rfl <;> simp [written, indent, isGap] at other ⊢
  · exact ⟨whole, by simp [written, indent, isGap]⟩

/-- An accessor has nothing else on its lines. -/
theorem silent_accessor {accessor field className : String}
    (names : Part.AccessorNames config accessor field className) :
    Silent "public" ((Part.accessorOpening config accessor className ::
      Part.accessorBody config field className).map String.toList) := by
  refine ⟨?_, ?_⟩ <;> intro line member <;> obtain ⟨l, inside, rfl⟩ := List.mem_map.mp member
  · intro w known other
    rcases List.mem_cons.mp inside with rfl | inside
    · exact names.passes_opening known other
    · exact names.passes_body known l inside
  · rcases List.mem_cons.mp inside with rfl | inside
    · refine ⟨(names.passes_opening (w := "import") (by simp [zoneWords]) (by simp)).whole, ?_⟩
      simp [Part.accessorOpening, indent, isGap]
    · refine ⟨(names.passes_body (w := "import") (by simp [zoneWords]) l inside).whole, ?_⟩
      simp only [Part.accessorBody, List.mem_cons, List.not_mem_nil, or_false] at inside
      rcases inside with rfl | rfl | rfl | rfl | rfl <;> simp [indent, isGap]

/-- An import line is one import. -/
theorem zones_importLine {name specifier : String} (named : isIdentifier name.toList = true)
    (some_ : specifier.toList ≠ []) (unquoted : ∀ c ∈ specifier.toList, isQuote c = false)
    (oneLine : '\n' ∉ specifier.toList) : ∃ braces, Zones.ofText (importLine name specifier).toList =
      ⟨none, [⟨none, [⟨name, name, name⟩], specifier, Text.whole (importLine name specifier).toList,
        braces⟩], [], []⟩ := by
  obtain ⟨line, lines_eq, silent⟩ := exists_line_import named oneLine
  have text_eq : (importLine name specifier).toList =
      importText false name.toList specifier.toList := by
    unfold importLine importText importLead
    simp [typeWord, braced]
  obtain ⟨ms, scan, found⟩ := @Part.exists_scan_importText [] [] _ _ false Text.atLine_nil named
    some_ unquoted
  rw [List.nil_append, List.append_nil, ← text_eq] at scan
  have zones := Zones.ofText_of_scans ⟨ms, scan, found⟩
    ⟨[], lines_eq ▸ silent.scan (by simp [zoneWords]) (by simp), rfl⟩
    ⟨[], lines_eq ▸ silent.scan (by simp [zoneWords]) (by simp), rfl⟩
  have unclassed : className? (importLine name specifier).toList = none :=
    lines_eq ▸ silent.className?_eq
  refine ⟨(Part.importAt 0 false name specifier).bindingsSpan, ?_⟩
  rw [zones, unclassed, Text.whole, text_eq]
  simp [Part.importAt]

/-- A field line is one field. -/
theorem zones_fieldLine {field className : String} (named : isIdentifier field.toList = true)
    (typed : isIdentifier className.toList = true) :
    Zones.ofText (fieldLine field className).toList =
      ⟨none, [], [⟨field, className, false, Text.whole (fieldLine field className).toList⟩], []⟩ := by
  obtain ⟨line, lines_eq, silent⟩ := exists_line_field named typed
  have text_eq : (fieldLine field className).toList =
      fieldText false field.toList className.toList := by
    unfold fieldLine fieldText
    simp [fieldTail]
  obtain ⟨ms, scan, found⟩ := Part.exists_scan_fieldText [] [] Text.atLine_nil named typed
  rw [List.nil_append, List.append_nil, ← text_eq] at scan
  have zones := Zones.ofText_of_scans
    ⟨[], lines_eq ▸ silent.scan (by simp [zoneWords]) (by simp), rfl⟩ ⟨ms, scan, found⟩
    ⟨[], lines_eq ▸ silent.scan (by simp [zoneWords]) (by simp), rfl⟩
  have unclassed : className? (fieldLine field className).toList = none :=
    lines_eq ▸ silent.className?_eq
  rw [zones, unclassed, Text.whole, text_eq]
  simp

/-- An accessor block is one accessor. -/
theorem zones_accessorBlock {accessor field className : String}
    (names : Part.AccessorNames config accessor field className) :
    Zones.ofText (accessorBlock config accessor field className).toList =
      ⟨none, [], [], [⟨accessor, some className,
        Text.whole (accessorBlock config accessor field className).toList⟩]⟩ := by
  have lines_eq := @Part.toList_accessorBlock config accessor field className
  have silent := silent_accessor names
  obtain ⟨ms, scan, found⟩ := names.exists_scan_accessorBlock Text.atLine_nil []
  rw [List.nil_append, List.append_nil] at scan
  rw [List.nil_append, List.append_nil, Text.size_nil, Nat.zero_add] at found
  have zones := Zones.ofText_of_scans
    ⟨[], lines_eq ▸ silent.scan (by simp [zoneWords]) (by simp), rfl⟩
    ⟨[], lines_eq ▸ silent.scan (by simp [zoneWords]) (by simp), rfl⟩ ⟨ms, scan, found⟩
  have unclassed : className? (accessorBlock config accessor field className).toList = none :=
    lines_eq ▸ silent.className?_eq
  rw [zones, unclassed, Text.whole]
  rfl

/-! ### Exports -/

/-- The line of an exported constant. -/
def constantLine (name : String) (tail : Text) : Text :=
  "export".toList ++ (' ' :: ("const".toList ++ ' ' :: (name.toList ++ ' ' :: tail)))

section
variable {name sought : String} {tail : Text} (some_ : name.toList ≠ [])
  (words : ∀ c ∈ name.toList, Letter.isWord c = true) (whole : '\n' ∉ tail)

include words whole in
theorem feed_not_mem_constantLine : '\n' ∉ constantLine name tail := by
  have nameWhole : '\n' ∉ name.toList := by
    intro member
    have feed : Letter.isWord '\n' = false := by decide
    simpa [feed] using words _ member
  simp [constantLine, nameWhole, whole]

include some_ words in
theorem isGap_head_constant (back : Text) :
    ∀ x, (name.toList ++ back).head? = some x → isGap x = false := by
  intro x head
  obtain ⟨y, rest, name_eq⟩ := List.exists_cons_of_ne_nil some_
  obtain rfl : y = x := by simpa [name_eq] using head
  exact isGap_of_isNamePart (by simp [isNamePart, words y (by simp [name_eq])])

include some_ words whole

/-- A constant is found under its own name. -/
theorem exportSpan?_own : exportSpan? (constantLine name tail ++ ['\n']) name =
    some (Text.whole (constantLine name tail ++ ['\n'])) := by
  have spaced : ' ' ∉ name.toList := by
    intro member
    have space : Letter.isWord ' ' = false := by decide
    simpa [space] using words _ member
  have exports := exportsAs_word some_ spaced words (tail ++ ['\n'])
  rw [exportsAs, Text.dropFront?_append, decide_eq_true rfl] at exports
  have takes := @takes_exportOf [] name _ Text.atLine_nil.startsLine
    (isGap_head_constant some_ words _) exports
  have line_eq : "export".toList ++ (' ' :: ("const".toList ++ ' ' :: name.toList)) ++
      ' ' :: (tail ++ ['\n']) = constantLine name tail ++ ['\n'] := by
    simp [constantLine]
  have found := findFrom?_of_found takes.matchAt?
  rw [line_eq] at found
  have ends := Text.lineEnd_between [] [] (feed_not_mem_constantLine words whole)
  rw [List.nil_append, Text.size_nil] at ends
  rw [exportSpan?, find?, Cursor.start_eq_between, found, Option.map_some, Cursor.between_offset,
    Text.size_nil, ends, Text.whole]
  rfl

/-- A constant is found under no other name. -/
theorem exportSpan?_other (proper : isIdentifier sought.toList = true) (other : sought ≠ name) :
    exportSpan? (constantLine name tail ++ ['\n']) sought = none := by
  have exports := exportsAs_word (ne_nil_of_isIdentifier proper)
    (not_mem_of_isIdentifier proper (by decide)) words (tail ++ ['\n'])
  rw [decide_eq_false (by rwa [String.toList_inj])] at exports
  have refused := @refuses_exportOf sought (name.toList ++ ' ' :: tail) [] []
    (not_mem_of_isIdentifier proper (by decide))
    (by rw [List.append_assoc]; exact isGap_head_constant some_ words _)
    (by simpa using exports)
  have line_eq : "export".toList ++ (' ' :: ("const".toList ++ ' ' :: (name.toList ++ ' ' :: tail ++
      '\n' :: []))) = constantLine name tail ++ '\n' :: [] := by
    simp [constantLine]
  rw [line_eq] at refused
  have anchored : (exportOf sought).Anchored := anchored_lineStart _
  have scan := anchored.scan_line (feed_not_mem_constantLine words whole) refused
  have ended : (exportOf sought).Refuses (constantLine name tail ++ ['\n']) [] :=
    Refuses.place_next (Refuses.next_left (refuses_literal (by simp)))
  rw [List.nil_append] at scan
  rw [exportSpan?, scan.find?_eq_none ended.matchAt?, Option.map_none]

end

/-- An export is found as a whole under its own name, and under no other one. -/
theorem exportSpan?_exportLine {accessor className registryClass sought : String}
    (some_ : accessor.toList ≠ []) (words : ∀ c ∈ accessor.toList, Letter.isWord c = true)
    (typed : isIdentifier className.toList = true)
    (registryNamed : isIdentifier registryClass.toList = true)
    (context : isIdentifier config.contextField.toList = true)
    (type : isIdentifier config.contextType.toList = true)
    (proper : isIdentifier sought.toList = true) :
    exportSpan? (exportLine config accessor className registryClass).toList sought =
      if sought = accessor then
        some (Text.whole (exportLine config accessor className registryClass).toList)
      else none := by
  have feedless : ∀ {t : Text}, isIdentifier t = true → '\n' ∉ t :=
    fun named => not_mem_of_isIdentifier named (by decide)
  have accessorWhole : '\n' ∉ accessor.toList := by
    intro member
    have feed : Letter.isWord '\n' = false := by decide
    simpa [feed] using words _ member
  let tail := ("= (" ++ config.contextField ++ "?: " ++ config.contextType ++ "): " ++ className ++
    " => " ++ registryClass ++ ".getInstance()." ++ accessor ++ "(" ++ config.contextField ++
    ");").toList
  have whole : '\n' ∉ tail := by
    simp [tail, feedless typed, feedless registryNamed, feedless context, feedless type,
      accessorWhole]
  have text_eq : (exportLine config accessor className registryClass).toList =
      constantLine accessor tail ++ ['\n'] := by
    unfold exportLine constantLine
    simp [tail]
  rw [text_eq]
  split
  · next same =>
    rw [same]
    exact exportSpan?_own some_ words whole
  · next other => exact exportSpan?_other some_ words whole proper other

/-! ### New registries -/

/-- The only import of a text is that of the context type, at its beginning. -/
def ImportsContext (config : Config) (z : Zones) : Prop :=
  ∃ braces, z.imports = [⟨none, [⟨config.contextType, config.contextType, config.contextType⟩],
    config.contextModule, Text.whole (contextImport config).toList, braces⟩]

/-- What a new registry is read as: the class, the import of the context type, the field of the
registry object and the one of the context, the setter, and no helper. -/
structure ReadsAsRegistry (config : Config) (name : String) (z : Zones) : Prop where
  className : z.className = some name
  imports : ImportsContext config z
  fields : z.fields.map (fun f => (f.name, f.type, f.isStatic)) =
    [("instance", name, true), (config.contextField, config.contextType, false)]
  accessors : z.accessors.map (fun a => (a.name, a.returns)) =
    [("set" ++ String.ofList (Letter.raiseFirst config.contextField.toList), some "void")]
  helpers : z.helpers = []

theorem importAt_contextImport (config : Config) :
    ∃ braces, Part.importAt 0 true config.contextType config.contextModule =
      ⟨none, [⟨config.contextType, config.contextType, config.contextType⟩], config.contextModule,
        Text.whole (contextImport config).toList, braces⟩ := by
  have text_eq : (contextImport config).toList =
      importText true config.contextType.toList config.contextModule.toList := by
    unfold contextImport importText importLead
    simp [typeWord, braced]
  refine ⟨(Part.importAt 0 true config.contextType config.contextModule).bindingsSpan, ?_⟩
  rw [Text.whole, text_eq]
  simp [Part.importAt]

theorem isOwn_of_ofListings_nil : ∀ p ∈ (Layout.ofListings []).parts, p.isOwn = true := by
  decide

/-- A new registry is told to be one, and is read as what was asked for. -/
theorem reads_registry {name : String} (template : config.registryTemplate = none)
    (written : Frame.Written ⟨config, name⟩) (given : config.contextType ≠ "void") :
    Recognition.isRegistry (registry config name).toList = true ∧
      ReadsAsRegistry config name (Zones.ofText (registry config name).toList) := by
  have text_eq := Layout.text_ofListings_nil (f := ⟨config, name⟩) template
  refine ⟨?_, ?_⟩
  · rw [← text_eq]
    exact Listed.isRegistry _ _
  have zones := @Part.zones_of_isRead _ _ [] (fun p member =>
    Part.isRead_of_isOwn written (isOwn_of_ofListings_nil p member)) (by simp)
  rw [Text.ofLines_nil, List.append_nil] at zones
  rw [Layout.text] at text_eq
  rw [text_eq] at zones
  obtain ⟨braces, context⟩ := importAt_contextImport config
  have className : className? (registry config name).toList = some name := by
    have opened := @Part.className?_textOf ⟨config, name⟩ [.contextImport, .blank] written.name
      (fun p member => Part.feed_not_mem_of_isOwn written (by
        simp only [List.mem_cons, List.not_mem_nil, or_false] at member
        rcases member with rfl | rfl <;> rfl))
      (by simp [Part.keyword])
      (Part.textOf ⟨config, name⟩ ((Layout.ofListings []).parts.drop 3))
    rw [← text_eq]
    simpa [Layout.parts, Layout.ofListings, Layout.fieldBlock] using opened
  have accessors : (Zones.ofText (registry config name).toList).accessors.map
      (fun a => (a.name, a.returns)) =
        [("set" ++ String.ofList (Letter.raiseFirst config.contextField.toList), some "void")] := by
    rw [zones]
    simp [Layout.parts, Layout.ofListings, Layout.fieldBlock, Part.located, Part.accessor?,
      Frame.setterName]
  have imports : ImportsContext config (Zones.ofText (registry config name).toList) := by
    refine ⟨braces, ?_⟩
    rw [zones, ← context]
    simp [Layout.parts, Layout.ofListings, Layout.fieldBlock, Part.located, Part.import?]
  refine ⟨?_, imports, ?_, accessors, ?_⟩
  · rw [zones]
    exact className
  · rw [zones]
    simp [Layout.parts, Layout.ofListings, Layout.fieldBlock, Part.located, Part.field?]
  · refine List.filterMap_eq_nil_iff.mpr fun a member => ?_
    have void : a.returns = some "void" := by
      have entry := List.mem_map_of_mem (f := fun a : Accessor => (a.name, a.returns)) member
      rw [accessors, List.mem_singleton] at entry
      exact congrArg Prod.snd entry
    have unknown : (Zones.ofText (registry config name).toList).importsName "void" = false := by
      obtain ⟨_, imports⟩ := imports
      rw [Zones.importsName, imports]
      simp [Import.binds, given]
    simp [void, unknown]

/-! ### New helpers -/

/-- The lines of a new helper behind the one that opens its class. -/
def helperBody (config : Config) : List Text :=
  [(indent ++ "constructor(private readonly " ++ config.contextField ++ "?: " ++
    config.contextType ++ ") \x7b\x7d").toList, ['\x7d']]

/-- The parts that a new helper begins with. -/
def helperHead : List Part := [.contextImport, .blank, .opening]

theorem toList_helper {name : String} (template : config.helperTemplate = none) :
    (helper config name).toList =
      Part.textOf ⟨config, name⟩ helperHead ++ Text.ofLines (helperBody config) := by
  unfold helper contextImport
  simp [template, helperHead, Part.text, Part.lines, Line.text, helperBody]

section
variable {name : String} (written : Frame.Written ⟨config, name⟩)
include written

/-- The two words of a sign of a registry do not stand in a row in a helper. -/
theorem not_infix_helper {first second : String} (template : config.helperTemplate = none)
    (sign : (first, second) ∈ [("static", "instance"), ("static", "getInstance"),
      ("export", "const"), ("//", "page-registry:")])
    {gaps : Text} (spaced : gaps ≠ []) (gapped : ∀ c ∈ gaps, isGap c = true) :
    ¬first.toList ++ gaps ++ second.toList <:+: (helper config name).toList := by
  have proper : first.toList ≠ [] ∧ (∀ c ∈ first.toList, isGap c = false) ∧
      second.toList.head?.any (!isGap ·) = true := by
    simp only [List.mem_cons, Prod.mk.injEq, List.not_mem_nil, or_false] at sign
    rcases sign with ⟨rfl, rfl⟩ | ⟨rfl, rfl⟩ | ⟨rfl, rfl⟩ | ⟨rfl, rfl⟩ <;>
      exact ⟨by simp, by simp [isGap], by decide⟩
  have pass : ∀ word rest : Text, (∀ c ∈ word, isGap c = false) →
      (first.toList.getLast? ≠ word.getLast? ∨ ¬second.toList <+: rest.dropWhile isGap) →
      ¬first.toList ++ gaps ++ second.toList <:+: rest →
        ¬first.toList ++ gaps ++ second.toList <:+: word ++ ' ' :: rest := by
    intro word rest gapless apart later
    refine not_infix_gap spaced gapped proper.2.2 proper.2.1 gapless ?_ later
    rintro ⟨⟨front, rfl⟩, begins⟩
    refine apart.elim (fun other => other ?_) fun other => other begins
    rw [List.getLast?_append_of_ne_nil _ proper.1]
  have named : ∀ {t : Text}, isIdentifier t = true → ∀ c ∈ t, isGap c = false :=
    fun proper c member => isGap_of_isNamePart (all_of_isIdentifier proper c member)
  have type := named written.type
  have field := named written.field
  have class_ := named written.name
  have module_ : ∀ c ∈ config.contextModule.toList, isGap c = false := by
    intro c member
    by_contra gapped
    have blank := written.unspaced c member
    simp only [Bool.not_eq_false, isGap, Bool.or_eq_true, beq_iff_eq] at gapped
    rcases gapped with rfl | rfl <;> simp [Letter.isBlank] at blank
  have text_eq : (helper config name).toList = "import".toList ++ ' ' :: ("type".toList ++ ' ' ::
      ("\x7b".toList ++ ' ' :: (config.contextType.toList ++ ' ' :: ("\x7d".toList ++ ' ' ::
      ("from".toList ++ ' ' :: (("'".toList ++ config.contextModule.toList ++ "';\n\nexport".toList) ++
      ' ' :: ("class".toList ++ ' ' :: (name.toList ++ ' ' :: ("\x7b\n".toList ++ ' ' :: ([] ++ ' ' ::
      ([] ++ ' ' :: ([] ++ ' ' :: ("constructor(private".toList ++ ' ' :: ("readonly".toList ++ ' ' ::
      ((config.contextField.toList ++ "?:".toList) ++ ' ' :: ((config.contextType.toList ++
      ")".toList) ++ ' ' :: "\x7b\x7d\n\x7d\n".toList)))))))))))))))) := by
    unfold helper contextImport
    simp [template, indent]
  rw [text_eq]
  clear text_eq
  have last : ¬first.toList ++ gaps ++ second.toList <:+: "\x7b\x7d\n\x7d\n".toList := by
    intro inside
    obtain ⟨g, gaps, rfl⟩ := List.exists_cons_of_ne_nil spaced
    have among : g ∈ "\x7b\x7d\n\x7d\n".toList := inside.subset (by simp)
    have gap := gapped g (by simp)
    have none_ : ∀ c ∈ "\x7b\x7d\n\x7d\n".toList, isGap c = false := by simp [isGap]
    rw [none_ g among] at gap
    contradiction
  have quoted : ∀ c ∈ "'".toList ++ config.contextModule.toList ++ "';\n\nexport".toList,
      isGap c = false := by
    simp only [List.mem_append, or_imp, forall_and]
    exact ⟨⟨by simp [isGap], module_⟩, by simp [isGap]⟩
  have asked : ∀ c ∈ config.contextField.toList ++ "?:".toList, isGap c = false := by
    simp only [List.mem_append, or_imp, forall_and]
    exact ⟨field, by simp [isGap]⟩
  have closed : ∀ c ∈ config.contextType.toList ++ ")".toList, isGap c = false := by
    simp only [List.mem_append, or_imp, forall_and]
    exact ⟨type, by simp [isGap]⟩
  refine pass _ _ (by simp [isGap]) ?_ (pass _ _ (by simp [isGap]) ?_
    (pass _ _ (by simp [isGap]) ?_ (pass _ _ type ?_ (pass _ _ (by simp [isGap]) ?_
    (pass _ _ (by simp [isGap]) ?_ (pass _ _ quoted ?_ (pass _ _ (by simp [isGap]) ?_
    (pass _ _ class_ ?_ (pass _ _ (by simp [isGap]) ?_ (pass _ _ (by simp) ?_ (pass _ _ (by simp) ?_
    (pass _ _ (by simp) ?_ (pass _ _ (by simp [isGap]) ?_ (pass _ _ (by simp [isGap]) ?_
    (pass _ _ asked ?_ (pass _ _ closed ?_ last))))))))))))))))
  all_goals
    clear pass proper last
    simp only [List.mem_cons, Prod.mk.injEq, List.not_mem_nil, or_false] at sign
    rcases sign with ⟨rfl, rfl⟩ | ⟨rfl, rfl⟩ | ⟨rfl, rfl⟩ | ⟨rfl, rfl⟩ <;> simp [isGap]

/-- A new helper has no sign of a registry. -/
theorem isRegistry_helper (template : config.helperTemplate = none) :
    Recognition.isRegistry (helper config name).toList = false := by
  have refuses : ∀ {first second : String} {q : Pattern},
      (first, second) ∈ [("static", "instance"), ("static", "getInstance"), ("export", "const"),
        ("//", "page-registry:")] → ∀ front back, (helper config name).toList = front ++ back →
          (next (word first) (next space (next (word second) q))).Refuses front back := by
    intro first second q sign front back split
    refine refuses_pair fun gaps spaced gapped => ?_
    rw [← split]
    exact not_infix_helper written template sign spaced gapped
  have field : instanceField.occursIn (helper config name).toList = false :=
    occursIn_eq_false (refuses_behind (refuses_behind (refuses (by simp))))
  have method : instanceMethod.occursIn (helper config name).toList = false :=
    occursIn_eq_false (refuses_behind (refuses (by simp)))
  have constant : instanceExport.occursIn (helper config name).toList = false :=
    occursIn_eq_false (refuses_behind (refuses (by simp)))
  have remark : Text.holds (helper config name).toList accessorMark.toList = false := by
    have absent : ¬"//".toList ++ [' '] ++ "page-registry:".toList <:+: (helper config name).toList :=
      not_infix_helper written template (by simp) (by simp) (by simp [isGap])
    have inside : "//".toList ++ [' '] ++ "page-registry:".toList <:+: accessorMark.toList :=
      ⟨[], " accessors".toList, by simp [accessorMark]⟩
    rw [Text.holds, Text.cut?_eq_none fun held => absent (inside.trans held)]
    rfl
  rw [Recognition.isRegistry, field, method, constant, remark]
  rfl

/-- What a new helper is read as: the class and the import of the context type. -/
structure ReadsAsHelper (config : Config) (name : String) (z : Zones) : Prop where
  className : z.className = some name
  imports : ImportsContext config z
  fields : z.fields = []
  accessors : z.accessors = []

theorem passes_helperBody : ∀ w ∈ zoneWords, ∀ line ∈ helperBody config, Passes w line := by
  intro w known line member
  have feed := written.not_mem (d := '\n') (by decide)
  simp only [helperBody, List.mem_cons, List.not_mem_nil, or_false] at member
  simp only [zoneWords, List.mem_cons, List.not_mem_nil, or_false] at known
  refine ⟨?_, fun x _ => ?_⟩
  · rcases member with rfl | rfl <;> simp [indent, feed.2.1, feed.2.2.1]
  · rcases member with rfl | rfl <;> rcases known with rfl | rfl | rfl <;> simp [indent, isGap]

/-- The class that is declared behind the import of the context type. -/
theorem className?_behind_context (back : Text) :
    className? (Part.textOf ⟨config, name⟩ helperHead ++ back) = some name := by
  have own : ∀ p ∈ [Part.contextImport, .blank], p.isOwn = true := by decide
  have opened := @Part.className?_textOf ⟨config, name⟩ [.contextImport, .blank] written.name
    (fun p member => Part.feed_not_mem_of_isOwn written (own p member)) (by simp [Part.keyword]) back
  simpa [helperHead] using opened

/-- A new helper is read as what was asked for. -/
theorem reads_helper (template : config.helperTemplate = none) :
    ReadsAsHelper config name (Zones.ofText (helper config name).toList) := by
  have own : ∀ p ∈ helperHead, p.isOwn = true := by decide
  have zones := Part.zones_of_isRead (fun p member => Part.isRead_of_isOwn written (own p member))
    (passes_helperBody written)
  obtain ⟨braces, context⟩ := importAt_contextImport config
  rw [className?_behind_context written] at zones
  rw [toList_helper template, zones]
  constructor
  · rfl
  · refine ⟨braces, ?_⟩
    rw [← context]
    simp [helperHead, Part.located, Part.import?]
  · simp [helperHead, Part.located, Part.field?]
  · simp [helperHead, Part.located, Part.accessor?]

end

end Source

/-! ### Everything that is generated -/

/-- Settings with the templates of the program, filled with identifiers and a module that can be
written between quotation marks. -/
structure Config.Usual (config : Config) : Prop where
  registryTemplate : config.registryTemplate = none
  helperTemplate : config.helperTemplate = none
  type : isIdentifier config.contextType.toList = true
  given : config.contextType ≠ "void"
  field : isIdentifier config.contextField.toList = true
  module_ : config.contextModule.toList ≠ []
  unquoted : ∀ c ∈ config.contextModule.toList, isQuote c = false
  unspaced : ∀ c ∈ config.contextModule.toList, Letter.isBlank c = false

theorem Config.Usual.written {name : String} (usual : config.Usual)
    (named : isIdentifier name.toList = true) : Frame.Written ⟨config, name⟩ where
  name := named
  type := usual.type
  field := usual.field
  module_ := usual.module_
  unquoted := usual.unquoted
  unspaced := usual.unspaced

/-- Each generated text is read as what it was written for, whatever identifiers it is filled with. -/
structure Source.Recognised (config : Config) : Prop where
  importLine : ∀ name specifier : String, isIdentifier name.toList = true → specifier.toList ≠ [] →
    (∀ c ∈ specifier.toList, isQuote c = false) → '\n' ∉ specifier.toList →
      ∃ braces, Zones.ofText (importLine name specifier).toList =
        ⟨none, [⟨none, [⟨name, name, name⟩], specifier,
          Text.whole (importLine name specifier).toList, braces⟩], [], []⟩
  fieldLine : ∀ field className : String, isIdentifier field.toList = true →
    isIdentifier className.toList = true → Zones.ofText (fieldLine field className).toList =
      ⟨none, [], [⟨field, className, false, Text.whole (fieldLine field className).toList⟩], []⟩
  accessorBlock : ∀ accessor field className : String, isIdentifier accessor.toList = true →
    isIdentifier field.toList = true → isIdentifier className.toList = true →
      Zones.ofText (accessorBlock config accessor field className).toList =
        ⟨none, [], [], [⟨accessor, some className,
          Text.whole (accessorBlock config accessor field className).toList⟩]⟩
  exportLine : ∀ accessor className registryClass sought : String,
    isIdentifier accessor.toList = true → '$' ∉ accessor.toList →
    isIdentifier className.toList = true → isIdentifier registryClass.toList = true →
    isIdentifier sought.toList = true →
      exportSpan? (exportLine config accessor className registryClass).toList sought =
        if sought = accessor then
          some (Text.whole (exportLine config accessor className registryClass).toList)
        else none
  registry : ∀ name : String, isIdentifier name.toList = true →
    Recognition.isRegistry (registry config name).toList = true ∧
      ReadsAsRegistry config name (Zones.ofText (registry config name).toList)
  helper : ∀ name : String, isIdentifier name.toList = true →
    Recognition.isRegistry (helper config name).toList = false ∧
      ReadsAsHelper config name (Zones.ofText (helper config name).toList)

namespace Source

/-- Generator and patterns agree, whatever words the names are. -/
theorem recognised (usual : config.Usual) : Recognised config where
  importLine _ _ := zones_importLine
  fieldLine _ _ := zones_fieldLine
  accessorBlock _ _ _ accessor field className :=
    zones_accessorBlock ⟨accessor, field, className, usual.type, usual.field⟩
  exportLine accessor _ _ _ named undollared typed registryNamed proper := by
    have words : ∀ c ∈ accessor.toList, Letter.isWord c = true := by
      intro c member
      have other : c ≠ '$' := fun same => undollared (same ▸ member)
      simpa [isNamePart, other] using all_of_isIdentifier named c member
    exact exportSpan?_exportLine (ne_nil_of_isIdentifier named) words typed registryNamed usual.field
      usual.type proper
  registry _ named := reads_registry usual.registryTemplate (usual.written named) usual.given
  helper _ named := ⟨isRegistry_helper (usual.written named) usual.helperTemplate,
    reads_helper (usual.written named) usual.helperTemplate⟩

/-- A class `class` with a field `static` and a registry `import`, under settings with a context
`readonly` of a type `type`. -/
theorem recognised_words :
    let config : Config := { contextType := "type", contextField := "readonly" }
    config.Usual ∧
      Zones.ofText (fieldLine "static" "class").toList =
        ⟨none, [], [⟨"static", "class", false, ⟨0, 28⟩⟩], []⟩ ∧
      exportSpan? (exportLine config "public" "class" "import").toList "public" =
        some (Text.whole (exportLine config "public" "class" "import").toList) ∧
      exportSpan? (exportLine config "public" "class" "import").toList "publi" = none ∧
      (Zones.ofText (registry config "import").toList).helpers = [] ∧
      (Zones.ofText (helper config "private").toList).className = some "private" := by
  intro config
  have unquoted : config.contextModule.toList.all (!isQuote ·) = true := by decide
  have unspaced : config.contextModule.toList.all (!Letter.isBlank ·) = true := by decide
  have usual : config.Usual :=
    ⟨rfl, rfl, by decide, by decide, by decide, by decide, by simpa using unquoted,
      by simpa using unspaced⟩
  have reads := recognised usual
  have class_ : isIdentifier "class".toList = true := by decide
  have import_ : isIdentifier "import".toList = true := by decide
  have public_ : isIdentifier "public".toList = true := by decide
  refine ⟨usual, ?_, ?_, ?_, ?_, ?_⟩
  · rw [reads.fieldLine "static" "class" (by decide) class_]
    rfl
  · rw [reads.exportLine "public" "class" "import" "public" public_ (by decide) class_ import_ public_,
      if_pos rfl]
  · rw [reads.exportLine "public" "class" "import" "publi" public_ (by decide) class_ import_
      (by decide), if_neg (by decide)]
  · exact (reads.registry "import" import_).2.helpers
  · exact (reads.helper "private" (by decide)).2.className

end Source
end Registrar
