import Registrar.Proofs.Disk.Shape
import Registrar.Proofs.Registry.Fragment
import Registrar.Proofs.Registry.Imported
import Registrar.Proofs.Text.Splicing
import Registrar.Proofs.Specifier.Return
import Registrar.Registry.Usage

/-!
Imports of a file in which a helper is used. The call goes behind the imports, so all of them are kept;
an accessor that is not bound yet is bound by a new import behind the last one or by one more name in
the braces of an import from the same module.
-/

namespace Registrar

open Pattern Recognition Text

/-! ### Pieces that are joined -/

namespace Text

theorem join_concat (separator : Text) (pieces : List Text) (piece : Text) :
    join separator (pieces ++ [piece]) =
      (if pieces = [] then [] else join separator pieces ++ separator) ++ piece := by
  induction pieces with
  | nil => simp [join]
  | cons p rest ih =>
    cases rest with
    | nil => simp [join, List.intercalate_cons_cons]
    | cons q rest =>
      simp only [join, List.cons_append, List.intercalate_cons_cons] at ih ⊢
      simp [ih]

theorem mem_of_mem_join {separator : Text} {pieces : List Text} {c : Char}
    (member : c ∈ join separator pieces) : c ∈ separator ∨ ∃ p ∈ pieces, c ∈ p := by
  induction pieces with
  | nil => simp [join] at member
  | cons p rest ih =>
    cases rest with
    | nil => exact .inr ⟨p, by simp, by simpa [join] using member⟩
    | cons q rest =>
      rw [join, List.intercalate_cons_cons] at member
      rcases List.mem_append.mp member with first | member
      · rcases List.mem_append.mp first with inside | inside
        · exact .inr ⟨p, by simp, inside⟩
        · exact .inl inside
      · rcases ih member with inside | ⟨r, among, inside⟩
        · exact .inl inside
        · exact .inr ⟨r, List.mem_cons_of_mem _ among, inside⟩

theorem mem_join {separator piece : Text} {pieces : List Text} {c : Char} (among : piece ∈ pieces)
    (member : c ∈ piece) : c ∈ join separator pieces := by
  induction pieces with
  | nil => simp at among
  | cons p rest ih =>
    cases rest with
    | nil =>
      obtain rfl : piece = p := by simpa using among
      simpa [join] using member
    | cons q rest =>
      rw [join, List.intercalate_cons_cons]
      rcases List.mem_cons.mp among with rfl | among
      · simp [member]
      · exact List.mem_append_right _ (ih among)

end Text

/-! ### Names in braces -/

namespace Zones

/-- The last name between braces is bound. -/
theorem exists_binding {name : String} {front : Text} (named : isIdentifier name.toList = true)
    (closes : front = [] ∨ ∃ f, front = f ++ [',']) :
    ∃ b ∈ bindings (front ++ braced name.toList), b.bound = name := by
  have comma : ∀ c ∈ braced name.toList, (c == ',') = false := by
    intro c member
    simp only [braced, List.cons_append, List.mem_cons, List.mem_append, List.not_mem_nil,
      or_false] at member
    rcases member with rfl | member | rfl
    · rfl
    · simp only [beq_eq_false_iff_ne, ne_eq]
      rintro rfl
      exact not_mem_of_isIdentifier named (by decide) member
    · rfl
  have piece : braced name.toList ∈ splitOn (· == ',') (front ++ braced name.toList) := by
    rw [← List.append_nil (front ++ _)]
    refine mem_splitOn comma ?_ (.inl rfl)
    rcases closes with none_ | ⟨f, split⟩
    · exact .inl none_
    · exact .inr ⟨f, ',', split, rfl⟩
  have some_ := ne_nil_of_isIdentifier named
  have trimmed : Text.trim ([' '] ++ name.toList ++ [' ']) = name.toList :=
    trim_append some_ (by simp [Letter.isBlank])
      (fun c member => isBlank_of_isNamePart (all_of_isIdentifier named c member))
      (by simp [Letter.isBlank])
  refine ⟨binding name.toList, ?_, by rw [Part.binding_eq named]⟩
  refine List.mem_map_of_mem (List.mem_filter.mpr ⟨List.mem_map.mpr ⟨_, piece, trimmed⟩, ?_⟩)
  simpa using some_

/-- The entries in braces have no other characters than the braces hold. -/
theorem mem_of_mem_raw {inner : Text} {b : Binding} {c : Char} (member : b ∈ bindings inner)
    (inside : c ∈ b.raw.toList) : c ∈ inner := by
  obtain ⟨raw, kept, rfl⟩ := List.mem_map.mp member
  obtain ⟨piece, split, rfl⟩ := List.mem_map.mp (List.mem_filter.mp kept).1
  have trimmed : c ∈ piece := by
    have raw_ : c ∈ Text.trim piece := by simpa [binding] using inside
    rw [trim, trimBack, List.mem_reverse] at raw_
    have front := (List.dropWhile_suffix _).subset raw_
    rw [List.mem_reverse] at front
    exact (List.dropWhile_suffix _).subset front
  obtain ⟨before_, after_, pieces⟩ := List.append_of_mem split
  obtain ⟨front, back, rfl, -⟩ := exists_of_splitOn pieces
  simp [trimmed]

end Zones

/-! ### A new import line -/

namespace Recognition

/-- The pieces of the import of one name. -/
def importPieces (name specifier : Text) : Statement :=
  ⟨.braced "import ".toList (braced name) " from ".toList '\'', specifier, '\''⟩

theorem stands_importPieces {front name specifier : Text} (whole : AtLine front) (closed : '\x7d' ∉ name)
    (some_ : specifier ≠ []) (unquoted : ∀ c ∈ specifier, isQuote c = false) :
    (importPieces name specifier).Stands front := by
  refine ⟨⟨rfl, ?_, by simp [braced, closed], [' '], [' '], rfl, by simp [isGap], by simp [isGap], by simp⟩,
    some_, unquoted, rfl⟩
  have noType : ∀ f, (next (word "type") space).Refuses f [] := fun f =>
    (refuses_literal (by decide)).next_left
  have noDefault : ∀ f, (all [group "default" Recognition.name, gap, Pattern.optional (char ','), gap]).Refuses
      f [] :=
    fun f => Refuses.next_left (Refuses.group (Refuses.next_left (refuses_one (by simp))))
  have takes : (all importFront).Takes front
      ([] ++ ([] ++ ("import".toList ++ ([' '] ++ ([] ++ []))))) [] [] [] := by
    refine (takes_lineStart (whole.startsLine _)).next ?_
    refine (takes_no_gap (by simp [isGap])).next ?_
    refine (takes_word "import").next ?_
    refine (takes_space (by simp)).next ?_
    exact (noType _).optional.next (noDefault _).optional
  exact takes.reaches

theorem toList_importLine (name specifier : String) : (Source.importLine name specifier).toList =
    (importPieces name.toList specifier.toList).text ++ [';', '\n'] := by
  simp [Source.importLine, importPieces, Statement.text, Opening.text, braced]

end Recognition

namespace Usage

variable {t : Text} {line : Nat} {specifier accessor className : String} {i : Import}
  {others : List Import} {x tail rest : Text} {s : Statement}

/-- An insertion at the end of a part. -/
theorem apply_insert_append (front back new : Text) :
    (Edit.insert front.size new).apply (front ++ back) = front ++ new ++ back := by
  have middle := Edit.apply_middle front [] back new
  rwa [size_nil, Nat.add_zero, List.append_nil] at middle

/-- The end of the last import. -/
theorem lastImportEnd_eq (at_ : i.StandsIn t others x s tail rest)
    (last : (Zones.ofText t).imports = others ++ [i]) :
    (Zones.ofText t).lastImportEnd = some (Text.size (x ++ s.text ++ tail)) := by
  simp [Zones.lastImportEnd, last, at_.span]

/-- The call goes behind the last import. -/
theorem le_place (t : Text) (line : Nat) : (Zones.ofText t).lastImportEnd.getD 0 ≤ place t (Zones.ofText t) line :=
  Nat.le_max_right _ _

/-- An insertion behind a part leaves it alone. -/
theorem exists_insert_behind {front : Text} {n : Nat} (behind : front.size ≤ n) (new back : Text) :
    ∃ w, (Edit.insert n new).apply (front ++ back) = front ++ w :=
  Edit.exists_apply_behind (e := .insert n new) behind back

/-- The call with the line feed that it needs before it. -/
def callText (t : Text) (line : Nat) (accessor className : String) : Text :=
  let offset := place t (Zones.ofText t) line
  t.breakBefore offset ++ (Source.usageLine (String.ofList (indentation t offset))
    (Naming.variableOf className) accessor).toList

/-- Where the accessor is bound already, the call alone is written. -/
theorem insert_of_known (line : Nat) (specifier className : String)
    (known : (Zones.ofText t).importsName accessor = true) :
    insert t line specifier accessor className =
      (Edit.insert (place t (Zones.ofText t) line) (callText t line accessor className)).apply t := by
  unfold insert
  simp only [known, if_true]
  rfl

/-- Where the accessor is bound already, all imports are kept. -/
theorem exists_agreeing_of_insert (line : Nat) (specifier className : String)
    (known : (Zones.ofText t).importsName accessor = true)
    (closed : ∀ i, (Zones.ofText t).imports.getLast? = some i → i.bindingsSpan = none →
      Shut '\x7b' '\x7d' (t.before i.span.start)) :
    ∀ k ∈ (Zones.ofText t).imports,
      ∃ j ∈ (Zones.ofText (insert t line specifier accessor className)).imports, k.Agrees j := by
  intro k member
  obtain ⟨others, i, last⟩ := (List.eq_nil_or_concat (Zones.ofText t).imports).resolve_left
    (List.ne_nil_of_mem member)
  rw [List.concat_eq_append] at last
  obtain ⟨x, s, tail, rest, at_⟩ := Zones.exists_standsIn last
  obtain rfl := at_.text
  have shut : i.bindingsSpan = none → Shut '\x7b' '\x7d' x := by
    intro none_
    have shut := closed i (by simp [last]) none_
    rwa [at_.span, before_size_append] at shut
  have behind := le_place (x ++ (s.text ++ (tail ++ rest))) line
  rw [lastImportEnd_eq at_ last, Option.getD_some, size_append (x ++ s.text)] at behind
  obtain ⟨w, kept⟩ := exists_insert_behind (Nat.le_trans (Nat.le_add_right _ _) behind)
    (callText _ line accessor className) (tail ++ rest)
  rw [List.append_assoc x, List.append_assoc x] at kept
  rw [insert_of_known line specifier className known, kept]
  exact at_.exists_agreeing shut w k (last ▸ member)

/-- No import ends behind the last one. -/
theorem span_stop_le_lastImportEnd (member : i ∈ (Zones.ofText t).imports) :
    i.span.stop ≤ (Zones.ofText t).lastImportEnd.getD 0 := by
  obtain ⟨others, k, last⟩ := (List.eq_nil_or_concat' (Zones.ofText t).imports).resolve_left
    (List.ne_nil_of_mem member)
  obtain ⟨x, s, tail, rest, at_⟩ := Zones.exists_standsIn last
  rw [lastImportEnd_eq at_ last, Option.getD_some]
  rw [last] at member
  rcases List.mem_append.mp member with member | member
  · have before_ := at_.span_stop_le i member
    simp only [size_append]
    omega
  · rw [List.mem_singleton.mp member, at_.span]

/-- The names in braces begin before the import ends. -/
theorem start_le_of_standsIn {span : Span} (at_ : i.StandsIn t others x s tail rest)
    (braced : i.bindingsSpan = some span) : span.start ≤ i.span.stop := by
  cases opening : s.opening with
  | plain words quote => simp [(at_.plain opening).2] at braced
  | braced lead inner link quote =>
    obtain rfl : _ = span := Option.some.inj ((at_.braced opening).2 ▸ braced)
    rw [at_.span]
    simp only [Statement.text, Opening.text, opening, size_append, size_cons]
    omega

/-- The imports are changed before the end of the last one. -/
theorem start_importEdit_le (t : Text) (specifier accessor : String) :
    (importEdit t (Zones.ofText t) specifier accessor).start ≤ (Zones.ofText t).lastImportEnd.getD 0 := by
  cases shared : (Zones.ofText t).imports.find? fun i => i.specifier == specifier &&
      i.bindingsSpan.isSome with
  | none => simp [importEdit, shared, Edit.insert]
  | some i =>
    cases braced : i.bindingsSpan with
    | none => simp [importEdit, shared, braced, Edit.insert]
    | some span =>
      have member := List.mem_of_find?_eq_some shared
      have before_ := span_stop_le_lastImportEnd member
      obtain ⟨others, later, split⟩ := List.append_of_mem member
      obtain ⟨x, s, tail, rest, at_⟩ := Zones.exists_standsIn split
      have inside := start_le_of_standsIn at_ braced
      simp only [importEdit, shared, Option.bind_some, braced, Option.map_some, Edit.replace]
      exact Nat.le_trans inside before_

/-- The import is written into the text that the call has been written into. -/
theorem insert_of_unknown (line : Nat) (specifier className : String)
    (unknown : (Zones.ofText t).importsName accessor = false) :
    insert t line specifier accessor className =
      (importEdit t (Zones.ofText t) specifier accessor).apply ((Edit.insert
        (place t (Zones.ofText t) line) (callText t line accessor className)).apply t) := by
  unfold insert
  simp only [unknown, Bool.false_eq_true, if_false]
  exact Edit.applyAll_pair
    (Nat.le_trans (start_importEdit_le t specifier accessor) (le_place t line)) t

/-- The names in braces with one more. -/
def bracesText (names : List Text) (name : Text) : Text :=
  braced (Text.join ", ".toList (names ++ [name]))

theorem exists_bracesText (names : List Text) (name : Text) : ∃ front,
    bracesText names name = front ++ braced name ∧
      (front = [] ∨ ∃ f, front = f ++ [',']) := by
  rw [bracesText, join_concat]
  by_cases none_ : names = []
  · exact ⟨[], by simp [braced, none_], .inl rfl⟩
  · exact ⟨' ' :: Text.join ", ".toList names ++ [','], by simp [braced, none_], .inr ⟨_, rfl⟩⟩

theorem not_mem_bracesText {names : List Text} {name : Text} {c : Char} (other : c ∉ ", ".toList)
    (absent : ∀ n ∈ names ++ [name], c ∉ n) : c ∉ bracesText names name := by
  intro member
  have space : c ≠ ' ' := by
    rintro rfl
    exact other (by decide)
  rw [bracesText, braced, List.mem_append, List.mem_cons, List.mem_singleton] at member
  rcases member with (rfl | member) | rfl
  · exact space rfl
  · rcases mem_of_mem_join member with inside | ⟨n, among, inside⟩
    · exact other inside
    · exact absent n among inside
  · exact space rfl

/-- An import in braces from the same module gets one more name. -/
theorem exists_binding_of_shared {span : Span} (at_ : i.StandsIn t others x s tail rest)
    (braced : i.bindingsSpan = some span) (named : isIdentifier accessor.toList = true) {n : Nat}
    (behind : Text.size (x ++ s.text ++ tail) ≤ n) (call : Text) :
    ∃ j ∈ (Zones.ofText ((Edit.replace span (bracesText (i.bindings.map (·.raw.toList))
        accessor.toList)).apply ((Edit.insert n call).apply t))).imports,
      j.specifier = i.specifier ∧ ∃ b ∈ j.bindings, b.bound = accessor := by
  obtain rfl := at_.text
  cases opening : s.opening with
  | plain words quote => simp [(at_.plain opening).2] at braced
  | braced lead inner link quote =>
    obtain ⟨bindings, spanned⟩ := at_.braced opening
    obtain rfl : _ = span := Option.some.inj (spanned ▸ braced)
    rw [size_append (x ++ s.text)] at behind
    obtain ⟨w, kept⟩ := exists_insert_behind (Nat.le_trans (Nat.le_add_right _ _) behind) call
      (tail ++ rest)
    rw [List.append_assoc x, List.append_assoc x] at kept
    obtain ⟨front, text, closes⟩ := exists_bracesText (i.bindings.map (·.raw.toList)) accessor.toList
    have free : '\x7d' ∉ bracesText (i.bindings.map (·.raw.toList)) accessor.toList := by
      refine not_mem_bracesText (by decide) ?_
      have standing := at_.stands.opening
      rw [opening] at standing
      intro n among member
      rcases List.mem_append.mp among with among | among
      · obtain ⟨b, inside, rfl⟩ := List.mem_map.mp among
        exact standing.2.2.1 (Zones.mem_of_mem_raw (bindings ▸ inside) member)
      · rw [List.mem_singleton.mp among] at member
        exact not_mem_of_isIdentifier named (by decide) member
    -- The import with the new names in its braces.
    let s' : Statement := { s with
      opening := .braced lead (bracesText (i.bindings.map (·.raw.toList)) accessor.toList) link quote }
    have stands : s'.Stands x := by
      obtain ⟨standing, some_, unquoted, closing⟩ := at_.stands
      rw [opening] at standing
      obtain ⟨quoted, reached, -, linked⟩ := standing
      exact ⟨⟨quoted, reached, free, linked⟩, some_, unquoted, closing⟩
    have middle := Edit.apply_middle (x ++ lead ++ ['\x7b']) inner
      ('\x7d' :: (link ++ [quote]) ++ (s.specifier ++ [s.closing]) ++ w)
      (bracesText (i.bindings.map (·.raw.toList)) accessor.toList)
    have edited : (Edit.replace ⟨Text.size (x ++ lead ++ ['\x7b']),
        Text.size (x ++ lead ++ ['\x7b']) + inner.size⟩ (bracesText (i.bindings.map (·.raw.toList))
          accessor.toList)).apply (x ++ (s.text ++ w)) = x ++ (s'.text ++ w) := by
      simpa [Statement.text, Opening.text, opening, s', Edit.replace] using middle
    rw [kept, edited]
    obtain ⟨ms, scan, -⟩ := at_.exists_scan (by simp [braced]) (s'.text ++ w)
    obtain ⟨j, among, bindings', specifier⟩ := Zones.exists_import_of_scan scan stands rfl
    refine ⟨j, among, ?_, ?_⟩
    · rw [← String.toList_inj, specifier, at_.specifier]
    · obtain ⟨b, inside, bound⟩ := Zones.exists_binding named closes
      rw [bindings', text]
      exact ⟨b, inside, bound⟩

/-- An import line that a scan comes to. -/
theorem exists_binding_of_scan {ms : List Match} (named : isIdentifier accessor.toList = true)
    (some_ : specifier.toList ≠ []) (unquoted : ∀ c ∈ specifier.toList, isQuote c = false)
    (whole : AtLine x) {w : Text}
    (scan : Scan importStatement
      (.between [] (x ++ ((Source.importLine accessor specifier).toList ++ w))) ms
      (.between x ((Source.importLine accessor specifier).toList ++ w))) :
    ∃ j ∈ (Zones.ofText (x ++ ((Source.importLine accessor specifier).toList ++ w))).imports,
      j.specifier = specifier ∧ ∃ b ∈ j.bindings, b.bound = accessor := by
  have stands := stands_importPieces whole (not_mem_of_isIdentifier named (by decide)) some_ unquoted
  rw [toList_importLine, List.append_assoc] at scan ⊢
  obtain ⟨j, among, bindings, specifier_⟩ := Zones.exists_import_of_scan scan stands rfl
  refine ⟨j, among, ?_, ?_⟩
  · rw [← String.toList_inj, specifier_]
    rfl
  · obtain ⟨b, inside, bound⟩ := Zones.exists_binding named (.inl rfl : ([] : Text) = [] ∨ _)
    rw [List.nil_append, ← bindings] at inside
    exact ⟨b, inside, bound⟩

/-- Behind the last import a new one is found. -/
theorem exists_binding_of_line (at_ : i.StandsIn t others x s tail rest)
    (shut : i.bindingsSpan = none → Shut '\x7b' '\x7d' x)
    (named : isIdentifier accessor.toList = true) (some_ : specifier.toList ≠ [])
    (unquoted : ∀ c ∈ specifier.toList, isQuote c = false) {n : Nat}
    (behind : Text.size (x ++ s.text ++ tail) ≤ n) (call : Text) :
    ∃ j ∈ (Zones.ofText ((Edit.insert (Text.size (x ++ s.text ++ tail))
        (t.breakBefore (Text.size (x ++ s.text ++ tail)) ++
          (Source.importLine accessor specifier).toList)).apply
            ((Edit.insert n call).apply t))).imports,
      j.specifier = specifier ∧ ∃ b ∈ j.bindings, b.bound = accessor := by
  have text := at_.text
  rw [← List.append_assoc, ← List.append_assoc] at text
  obtain ⟨w, kept⟩ := exists_insert_behind behind call rest
  rw [text, kept, apply_insert_append]
  obtain ⟨u, free, feed⟩ : ∃ u, '\n' ∉ u ∧
      tail ++ (x ++ s.text ++ tail ++ rest).breakBefore (Text.size (x ++ s.text ++ tail)) = u ++ ['\n'] := by
    obtain ⟨u, free, rfl | rfl⟩ := at_.isTail
    · refine ⟨tail, free, ?_⟩
      rw [breakBefore_of_not_atLine]
      intro whole
      exact free (whole.feed_mem (at_.stands.ne_nil_of_atLine whole))
    · refine ⟨u, free, ?_⟩
      rw [breakBefore_between (.inr ⟨x ++ s.text ++ u, by simp⟩), List.append_nil]
  obtain ⟨ms, scan⟩ := at_.exists_scan_line shut free ((Source.importLine accessor specifier).toList ++ w)
  have found := exists_binding_of_scan (x := x ++ s.text ++ u ++ ['\n']) named some_ unquoted
    (.inr ⟨_, rfl⟩) (w := w) (by simpa using scan)
  have whole : x ++ s.text ++ tail ++ ((x ++ s.text ++ tail ++ rest).breakBefore
      (Text.size (x ++ s.text ++ tail)) ++ (Source.importLine accessor specifier).toList) ++ w =
      x ++ s.text ++ u ++ ['\n'] ++ ((Source.importLine accessor specifier).toList ++ w) := by
    rw [← List.append_assoc _ _ (Source.importLine accessor specifier).toList,
      List.append_assoc (x ++ s.text), feed]
    simp
  rwa [whole]

/-- An accessor that is not bound yet is bound by an import with the specifier. -/
theorem exists_binding_of_insert (line : Nat) (className : String)
    (unknown : (Zones.ofText t).importsName accessor = false)
    (named : isIdentifier accessor.toList = true) (some_ : specifier.toList ≠ [])
    (unquoted : ∀ c ∈ specifier.toList, isQuote c = false)
    (closed : ∀ i, (Zones.ofText t).imports.getLast? = some i → i.bindingsSpan = none →
      Shut '\x7b' '\x7d' (t.before i.span.start)) :
    ∃ j ∈ (Zones.ofText (insert t line specifier accessor className)).imports,
      j.specifier = specifier ∧ ∃ b ∈ j.bindings, b.bound = accessor := by
  rw [insert_of_unknown line specifier className unknown]
  cases shared : (Zones.ofText t).imports.find? fun i => i.specifier == specifier &&
      i.bindingsSpan.isSome with
  | some i =>
    obtain ⟨same, braced⟩ : i.specifier = specifier ∧ i.bindingsSpan.isSome = true := by
      simpa using List.find?_some shared
    obtain ⟨span, braced⟩ := Option.isSome_iff_exists.mp braced
    have member := List.mem_of_find?_eq_some shared
    have before_ := span_stop_le_lastImportEnd member
    obtain ⟨others, later, split⟩ := List.append_of_mem member
    obtain ⟨x, s, tail, rest, at_⟩ := Zones.exists_standsIn split
    have edit : importEdit t (Zones.ofText t) specifier accessor =
        .replace span (bracesText (i.bindings.map (·.raw.toList)) accessor.toList) := by
      simp only [importEdit, shared, Option.bind_some, braced, Option.map_some]
      rfl
    rw [edit, ← same]
    exact exists_binding_of_shared at_ braced named
      (Nat.le_trans (by rwa [at_.span] at before_) (le_place t line)) _
  | none =>
    rcases List.eq_nil_or_concat' (Zones.ofText t).imports with none_ | ⟨others, i, last⟩
    · have edit : importEdit t (Zones.ofText t) specifier accessor =
          .insert 0 ((Source.importLine accessor specifier).toList ++ ['\n']) := by
        simp [importEdit, Zones.lastImportEnd, none_, breakBefore]
      rw [edit]
      have front := apply_insert_append [] ((Edit.insert (place t (Zones.ofText t) line)
        (callText t line accessor className)).apply t) ((Source.importLine accessor specifier).toList ++ ['\n'])
      rw [size_nil, List.nil_append, List.nil_append, List.append_assoc] at front
      rw [front]
      exact exists_binding_of_scan (x := []) named some_ unquoted atLine_nil (.stay _)
    · obtain ⟨x, s, tail, rest, at_⟩ := Zones.exists_standsIn last
      have edit : importEdit t (Zones.ofText t) specifier accessor =
          .insert (Text.size (x ++ s.text ++ tail)) (t.breakBefore (Text.size (x ++ s.text ++ tail)) ++
            (Source.importLine accessor specifier).toList) := by
        have some_imports : (Zones.ofText t).imports.isEmpty = false := by simp [last]
        simp [importEdit, shared, lastImportEnd_eq at_ last, some_imports, -List.isEmpty_eq_false_iff]
      have behind := le_place t line
      rw [lastImportEnd_eq at_ last, Option.getD_some] at behind
      have shut : i.bindingsSpan = none → Shut '\x7b' '\x7d' x := by
        intro none_
        have shut := closed i (by simp [last]) none_
        rwa [at_.span, at_.text, before_size_append] at shut
      rw [edit]
      exact exists_binding_of_line at_ shut named some_ unquoted behind _

end Usage
end Registrar
