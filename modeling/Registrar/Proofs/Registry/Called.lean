import Registrar.Proofs.Registry.Blocks
import Registrar.Proofs.Registry.Used
import Registrar.Proofs.Text.Grown

/-!
What the use of a helper changes. A call is put on a line of its own, behind all imports, and the accessor
is imported if no import binds it yet: by one more name in braces, by a new line behind the last import or
by one at the top. Nothing else is touched, and a second use only puts in another call.
-/

namespace Registrar

open Recognition Text

namespace Text

/-- A line begins where a character begins, or where the text ends. -/
theorem isPlace_lineOffset (t : Text) (line : Nat) : t.IsPlace (t.lineOffset line) := by
  fun_induction lineOffset t line with
  | case1 t => exact ⟨[], t, rfl, rfl⟩
  | case2 t => exact ⟨[], t, rfl, rfl⟩
  | case3 n => exact ⟨[], [], rfl, rfl⟩
  | case4 c rest n ih₁ ih₂ =>
    split
    · obtain ⟨a, b, rfl, size⟩ := ih₁
      exact ⟨c :: a, b, rfl, by rw [size, size_cons]⟩
    · obtain ⟨a, b, rfl, size⟩ := ih₂
      exact ⟨c :: a, b, rfl, by rw [size, size_cons]⟩

end Text

namespace Usage

variable {t new front front' back call : Text} {line : Nat} {specifier accessor className : String}

/-- The text of a call: a statement that gives the helper to a variable, indented on one line. -/
structure IsCall (className accessor : String) (call : Text) : Prop where
  statement : ∃ indentation, (∀ c ∈ indentation, isGap c = true) ∧ call = (Source.usageLine
    (String.ofList indentation) (Naming.variableOf className) accessor).toList
  line : ∃ u, call = u ++ ['\n'] ∧ '\n' ∉ u

/-- The new text is two parts with a call between them, which begins a line and ends it. -/
def CallBetween (className accessor : String) (front back new : Text) : Prop :=
  ∃ feed call, IsFeeds feed ∧ AtLine (front ++ feed) ∧ IsCall className accessor call ∧
    new = front ++ feed ++ call ++ back

/-- No import in braces is from the module. -/
def Unshared (specifier : String) (imports : List Import) : Prop :=
  ∀ i ∈ imports, ¬(i.specifier = specifier ∧ i.bindingsSpan.isSome = true)

/-- What becomes of the part of a text before the call. It stays as it is where an import binds the
accessor. Else the accessor goes behind the names in the first braces of an import from the module, each
of which stays as it is written, or onto a new line behind the last import, or to the top. -/
inductive Imports (t : Text) (specifier accessor : String) : Text → Text → Prop
  | bound {front : Text} (known : (Zones.ofText t).importsName accessor = true) :
      Imports t specifier accessor front front
  | shared {front inner back : Text} {i : Import} {others later : List Import}
      (unknown : (Zones.ofText t).importsName accessor = false)
      (split : (Zones.ofText t).imports = others ++ i :: later) (first : Unshared specifier others)
      (same : i.specifier = specifier)
      (names : i.bindingsSpan = some ⟨front.size, front.size + inner.size⟩) :
      Imports t specifier accessor (front ++ inner ++ back)
        (front ++ bracesText (i.bindings.map (·.raw.toList)) accessor.toList ++ back)
  | line {front back : Text} (unknown : (Zones.ofText t).importsName accessor = false)
      (none_ : Unshared specifier (Zones.ofText t).imports)
      (last : (Zones.ofText t).lastImportEnd = some front.size) :
      Imports t specifier accessor (front ++ back) (front ++
        (t.breakBefore front.size ++ (Source.importLine accessor specifier).toList) ++ back)
  | top {back : Text} (unknown : (Zones.ofText t).importsName accessor = false)
      (none_ : (Zones.ofText t).imports = []) :
      Imports t specifier accessor back ((Source.importLine accessor specifier).toList ++ '\n' :: back)

/-! ### The call -/

theorem isGap_indentation (t : Text) (place : Nat) : ∀ c ∈ indentation t place, isGap c = true := by
  unfold indentation
  split
  · simp
  · next line _ =>
    have margin : ∀ c ∈ line.takeWhile isGap, isGap c = true :=
      List.all_eq_true.mp List.all_takeWhile
    dsimp only
    split
    · intro c member
      rcases List.mem_append.mp member with member | member
      · exact margin c member
      · split at member
        · rw [List.mem_singleton.mp member]
          rfl
        · have spaces : Source.indent.toList.all isGap = true := by decide
          exact List.all_eq_true.mp spaces c member
    · exact margin

/-- A call is one line if its names are names. -/
theorem isCall_usageLine {indentation : Text} (gaps : ∀ c ∈ indentation, isGap c = true)
    (named : isIdentifier className.toList = true) (named' : isIdentifier accessor.toList = true) :
    IsCall className accessor (Source.usageLine (String.ofList indentation)
      (Naming.variableOf className) accessor).toList := by
  refine ⟨⟨indentation, gaps, rfl⟩, ?_⟩
  have margin : '\n' ∉ indentation := by
    intro member
    exact absurd (gaps _ member) (by decide)
  have variable_ : '\n' ∉ (Naming.variableOf className).toList := by
    have field : isIdentifier (Naming.field "" className).toList = true :=
      Naming.isIdentifier_field (.inl rfl) named
    simpa [Naming.field, Naming.variableOf] using not_mem_of_isIdentifier field (c := '\n') (by decide)
  have accessor_ : '\n' ∉ accessor.toList := not_mem_of_isIdentifier named' (by decide)
  refine ⟨indentation ++ "const ".toList ++ (Naming.variableOf className).toList ++ " = ".toList ++
    accessor.toList ++ "();".toList, ?_, ?_⟩
  · simp [Source.usageLine]
  · simp [margin, variable_, accessor_]

/-! ### The imports -/

/-- The braces of an import close before it ends. -/
theorem exists_names {i : Import} {others later : List Import} {span : Span}
    (split : (Zones.ofText t).imports = others ++ i :: later) (braced : i.bindingsSpan = some span) :
    ∃ a inner b, t = a ++ inner ++ '\x7d' :: b ∧ span = ⟨a.size, a.size + inner.size⟩ ∧
      Text.size (a ++ inner ++ ['\x7d']) ≤ i.span.stop := by
  obtain ⟨x, s, tail, rest, at_⟩ := Zones.exists_standsIn split
  cases opening : s.opening with
  | plain words quote => simp [(at_.plain opening).2] at braced
  | braced lead inner link quote =>
    obtain rfl : _ = span := Option.some.inj ((at_.braced opening).2 ▸ braced)
    refine ⟨x ++ lead ++ ['\x7b'], inner,
      link ++ quote :: (s.specifier ++ s.closing :: (tail ++ rest)), ?_, rfl, ?_⟩
    · rw [at_.text]
      simp [Statement.text, Opening.text, opening]
    · rw [at_.span]
      simp only [Statement.text, Opening.text, opening, size_append, size_cons, size_nil]
      omega

/-- A part with a character behind a place begins a line where the part without what is before the place
does. -/
theorem atLine_of_atLine_append {a b m : Text} (whole : AtLine (a ++ m)) (some_ : m ≠ []) :
    AtLine (b ++ m) := by
  rcases whole.of_append some_ with none_ | ⟨u, rfl⟩
  · exact absurd none_ some_
  · exact .inr ⟨b ++ u, (List.append_assoc ..).symm⟩

/-- Where an import of the specifier names things in braces, the accessor is put in behind them. -/
theorem exists_imports_shared {i : Import} (unknown : (Zones.ofText t).importsName accessor = false)
    (shared : (Zones.ofText t).imports.find? (fun i => i.specifier == specifier &&
      i.bindingsSpan.isSome) = some i) (split : t = front ++ back)
    (behind : (Zones.ofText t).lastImportEnd.getD 0 ≤ front.size) (rest : Text) :
    ∃ front', (importEdit t (Zones.ofText t) specifier accessor).apply (front ++ rest) = front' ++ rest ∧
      Imports t specifier accessor front front' ∧ (AtLine front → AtLine front') := by
  obtain ⟨found, others, later, listed, first⟩ := List.find?_eq_some_iff_append.mp shared
  obtain ⟨same, braced⟩ : i.specifier = specifier ∧ i.bindingsSpan.isSome = true := by simpa using found
  obtain ⟨span, braced⟩ := Option.isSome_iff_exists.mp braced
  have before_ := span_stop_le_lastImportEnd (List.mem_of_find?_eq_some shared)
  obtain ⟨a, inner, b, cut, rfl, closes⟩ := exists_names listed braced
  -- The braces lie in the part before the call.
  obtain ⟨m, rfl, -⟩ := exists_of_append_eq (s := front) (t := back) (a := a ++ inner ++ ['\x7d'])
    (b := b) (by rw [← split, cut]; simp) (by omega)
  let names := bracesText (i.bindings.map (·.raw.toList)) accessor.toList
  have edit : importEdit t (Zones.ofText t) specifier accessor =
      .replace ⟨a.size, a.size + inner.size⟩ names := by
    simp only [importEdit, shared, Option.bind_some, braced, Option.map_some]
    rfl
  have first' : Unshared specifier others := by
    intro k member named
    simpa [named] using first k member
  refine ⟨a ++ names ++ '\x7d' :: m, ?_, ?_, fun whole => ?_⟩
  · have middle := Edit.apply_middle a inner ('\x7d' :: m ++ rest) names
    rw [edit]
    simpa [Edit.replace] using middle
  · have imports : Imports t specifier accessor (a ++ inner ++ '\x7d' :: m) _ :=
      .shared unknown listed first' same braced
    simpa using imports
  · exact atLine_of_atLine_append (a := a ++ inner) (m := '\x7d' :: m) (by simpa using whole) (by simp)

/-- A text without imports gets one at the top, and a blank line. -/
theorem exists_imports_top (unknown : (Zones.ofText t).importsName accessor = false)
    (empty : (Zones.ofText t).imports = []) (front rest : Text) :
    ∃ front', (importEdit t (Zones.ofText t) specifier accessor).apply (front ++ rest) = front' ++ rest ∧
      Imports t specifier accessor front front' ∧ (AtLine front → AtLine front') := by
  have edit : importEdit t (Zones.ofText t) specifier accessor =
      .insert 0 ((Source.importLine accessor specifier).toList ++ ['\n']) := by
    simp [importEdit, Zones.lastImportEnd, empty, breakBefore]
  refine ⟨_, ?_, .top unknown empty, fun whole => ?_⟩
  · rw [edit]
    simpa using apply_insert_append [] (front ++ rest)
      ((Source.importLine accessor specifier).toList ++ ['\n'])
  · have line := ((Source.atLine_importLine accessor specifier).append (atLine_concat [])).append whole
    simpa using line

/-- Where no import of the specifier names things in braces, a new one goes behind the last import. -/
theorem exists_imports_line {n : Nat} (unknown : (Zones.ofText t).importsName accessor = false)
    (unshared : (Zones.ofText t).imports.find? (fun i => i.specifier == specifier &&
      i.bindingsSpan.isSome) = none) (last : (Zones.ofText t).lastImportEnd = some n)
    (split : t = front ++ back) (behind : n ≤ front.size) (rest : Text) :
    ∃ front', (importEdit t (Zones.ofText t) specifier accessor).apply (front ++ rest) = front' ++ rest ∧
      Imports t specifier accessor front front' ∧ (AtLine front → AtLine front') := by
  have none_ : Unshared specifier (Zones.ofText t).imports := by
    intro k member named
    simpa [named] using List.find?_eq_none.mp unshared k member
  have some_ : (Zones.ofText t).imports.isEmpty = false := by
    cases imports : (Zones.ofText t).imports with
    | nil => simp [Zones.lastImportEnd, imports] at last
    | cons i rest => rfl
  obtain ⟨a, b, cut, size⟩ := Anchors.isPlace_importsOf t
  rw [last, Option.getD_some] at size
  subst size
  obtain ⟨m, rfl, -⟩ := exists_of_append_eq (cut.symm.trans split) behind
  have edit : importEdit t (Zones.ofText t) specifier accessor = .insert a.size
      (t.breakBefore a.size ++ (Source.importLine accessor specifier).toList) := by
    simp [importEdit, unshared, last, some_, -List.isEmpty_eq_false_iff]
  refine ⟨_, ?_, .line unknown none_ last, fun whole => ?_⟩
  · rw [edit, List.append_assoc, apply_insert_append]
    simp
  · by_cases nothing : m = []
    · subst nothing
      rw [List.append_nil] at whole ⊢
      exact whole.append ((atLine_breakBefore _ _).append (Source.atLine_importLine _ _))
    · exact atLine_of_atLine_append whole nothing

/-- The import is written into the part before the call. -/
theorem exists_imports_of_unknown (specifier : String)
    (unknown : (Zones.ofText t).importsName accessor = false) (split : t = front ++ back)
    (behind : (Zones.ofText t).lastImportEnd.getD 0 ≤ front.size) (rest : Text) :
    ∃ front', (importEdit t (Zones.ofText t) specifier accessor).apply (front ++ rest) = front' ++ rest ∧
      Imports t specifier accessor front front' ∧ (AtLine front → AtLine front') := by
  cases shared : (Zones.ofText t).imports.find? fun i => i.specifier == specifier &&
      i.bindingsSpan.isSome with
  | some i => exact exists_imports_shared unknown shared split behind rest
  | none =>
    cases last : (Zones.ofText t).lastImportEnd with
    | none =>
      exact exists_imports_top unknown (by simpa [Zones.lastImportEnd] using last) front rest
    | some n =>
      rw [last, Option.getD_some] at behind
      exact exists_imports_line unknown shared last split behind rest

/-! ### The whole text -/

/-- Where the call goes a character begins, or the text ends. -/
theorem isPlace_place (t : Text) (line : Nat) : t.IsPlace (place t (Zones.ofText t) line) := by
  rcases Nat.le_total ((Zones.ofText t).lastImportEnd.getD 0) (t.lineOffset line) with less | less
  · rw [place, Nat.max_eq_left less]
    exact isPlace_lineOffset t line
  · rw [place, Nat.max_eq_right less]
    exact Anchors.isPlace_importsOf t

/-- The call is put behind the part before it, on a line of its own. -/
theorem callBetween_of_atLine (named : isIdentifier className.toList = true)
    (named' : isIdentifier accessor.toList = true) (split : t = front ++ back)
    (size : place t (Zones.ofText t) line = front.size) (side : AtLine front → AtLine front') :
    CallBetween className accessor front' back
      (front' ++ (callText t line accessor className ++ back)) := by
  refine ⟨t.breakBefore front.size, _, isFeeds_breakBefore _ _, ?_,
    isCall_usageLine (isGap_indentation t front.size) named named', ?_⟩
  · subst split
    by_cases whole : AtLine front
    · rw [breakBefore_between whole, List.append_nil]
      exact side whole
    · rw [breakBefore_of_not_atLine whole]
      exact .inr ⟨_, rfl⟩
  · rw [callText, size]
    simp

/-- A use puts a call at the start of the line, or behind the imports if they end later, and imports the
accessor in the part before it; all else is kept. -/
theorem exists_imports_of_insert (t : Text) (line : Nat) (specifier : String)
    (named : isIdentifier className.toList = true) (named' : isIdentifier accessor.toList = true) :
    ∃ front front' back, t = front ++ back ∧
      front.size = max (t.lineOffset line) ((Zones.ofText t).lastImportEnd.getD 0) ∧
      Imports t specifier accessor front front' ∧
      CallBetween className accessor front' back (insert t line specifier accessor className) := by
  obtain ⟨front, back, split, size⟩ := isPlace_place t line
  have call : (Edit.insert (place t (Zones.ofText t) line) (callText t line accessor className)).apply t =
      front ++ (callText t line accessor className ++ back) := by
    have inserted := apply_insert_append front back (callText t line accessor className)
    rwa [← split, List.append_assoc, ← size] at inserted
  cases known : (Zones.ofText t).importsName accessor with
  | true =>
    refine ⟨front, front, back, split, size.symm, .bound known, ?_⟩
    rw [insert_of_known line specifier className known, call]
    exact callBetween_of_atLine named named' split size id
  | false =>
    have behind := le_place t line
    rw [size] at behind
    obtain ⟨front', edited, imports, side⟩ := exists_imports_of_unknown specifier known split behind
      (callText t line accessor className ++ back)
    refine ⟨front, front', back, split, size.symm, imports, ?_⟩
    rw [insert_of_unknown line specifier className known, call, edited]
    exact callBetween_of_atLine named named' split size side

/-- A use of a helper puts in one call, behind all imports, and sees to it that the accessor is imported;
all else is kept. The same use once more puts in another call and nothing else. -/
theorem insert_changes (line : Nat) (named : isIdentifier className.toList = true)
    (named' : isIdentifier accessor.toList = true) (some_ : specifier ≠ "")
    (unquoted : ∀ c ∈ specifier.toList, isQuote c = false)
    (closed : ∀ i, (Zones.ofText t).imports.getLast? = some i → i.bindingsSpan = none →
      Shut '\x7b' '\x7d' (t.before i.span.start)) :
    (∃ front front' back, t = front ++ back ∧
      front.size = max (t.lineOffset line) ((Zones.ofText t).lastImportEnd.getD 0) ∧
      (∀ i ∈ (Zones.ofText t).imports, i.span.stop ≤ front.size) ∧
      Imports t specifier accessor front front' ∧
      CallBetween className accessor front' back (insert t line specifier accessor className)) ∧
    ∃ front back, insert t line specifier accessor className = front ++ back ∧
      CallBetween className accessor front back
        (insert (insert t line specifier accessor className) line specifier accessor className) := by
  constructor
  · obtain ⟨front, front', back, split, size, imports, call⟩ :=
      exists_imports_of_insert t line specifier named named'
    refine ⟨front, front', back, split, size, fun i member => ?_, imports, call⟩
    exact (span_stop_le_lastImportEnd member).trans (size ▸ Nat.le_max_right _ _)
  · have bound : (Zones.ofText (insert t line specifier accessor className)).importsName accessor =
        true := by
      cases known : (Zones.ofText t).importsName accessor with
      | true =>
        obtain ⟨k, member, binds⟩ := List.any_eq_true.mp known
        obtain ⟨j, among, agrees⟩ := exists_agreeing_of_insert line specifier className known closed k
          member
        exact List.any_eq_true.mpr ⟨j, among, by
          rwa [Import.binds, agrees.default?, agrees.bindings]⟩
      | false =>
        obtain ⟨j, among, -, b, inside, same⟩ := exists_binding_of_insert line className known named'
          (by simpa using some_) unquoted closed
        refine List.any_eq_true.mpr ⟨j, among, ?_⟩
        simp only [Import.binds, Bool.or_eq_true, List.any_eq_true]
        exact .inr ⟨b, inside, by simp [same]⟩
    obtain ⟨front, front', back, split, -, imports, call⟩ :=
      exists_imports_of_insert (insert t line specifier accessor className) line specifier named named'
    cases imports with
    | bound known => exact ⟨front, back, split, call⟩
    | shared unknown => simp [bound] at unknown
    | line unknown => simp [bound] at unknown
    | top unknown => simp [bound] at unknown

/-- Above an import whose names stand on lines of their own, a call goes behind it, and the names get one
more; asked for again, only the call is put in. -/
theorem insert_changes_lines :
    let t := "import \x7b\n  getA,\n  type X as Y\n\x7d from './reg';\nrun();\n".toList
    let once := insert t 2 "./reg" "getB" "B"
    once = "import \x7b getA, type X as Y, getB \x7d from './reg';\nconst b = getB();\nrun();\n".toList ∧
      ∃ front back, once = front ++ back ∧
        CallBetween "B" "getB" front back (insert once 2 "./reg" "getB" "B") := by
  intro t once
  have braced : (Zones.ofText t).imports.getLast?.all (·.bindingsSpan.isSome) = true := by
    decide +kernel
  have unquoted : "./reg".toList.any isQuote = false := by decide
  refine ⟨by decide +kernel,
    (insert_changes 2 (by decide) (by decide) (by decide) (by simpa using unquoted) ?_).2⟩
  intro i last plain
  simp [last, plain] at braced

/-- A call of `getB` has no letter of the word that begins an import but those of other words. -/
theorem count_of_callBetween (call : CallBetween "B" "getB" front back new) :
    new.count 'p' = (front ++ back).count 'p' := by
  obtain ⟨feed, call, blank, -, ⟨⟨indentation, gaps, rfl⟩, -⟩, rfl⟩ := call
  have free : feed.count 'p' = 0 := List.count_eq_zero.mpr fun member =>
    absurd (blank _ member) (by decide)
  have free' : indentation.count 'p' = 0 := List.count_eq_zero.mpr fun member =>
    absurd (gaps _ member) (by decide)
  have words : (Source.usageLine (String.ofList indentation) (Naming.variableOf "B") "getB").toList =
      indentation ++ "const b = getB();\n".toList := by
    have named : Naming.variableOf "B" = "b" := by decide
    simp [Source.usageLine, named]
  rw [words]
  simp [free, free']

/-- A brace that is closed only in the specifier of the last import takes up the import that is put behind
it, and no import is found from a module without a name: the accessor is imported again. -/
theorem insert_imports_again :
    let t : Text := "import \x7b\nimport A from './x\x7d from ';\n".toList
    Shut '\x7b' '\x7d' (t.before ((Zones.ofText t).lastImportEnd.getD 0)) ∧
      (¬∃ front back, insert t 9 "./reg" "getB" "B" = front ++ back ∧ CallBetween "B" "getB" front back
        (insert (insert t 9 "./reg" "getB" "B") 9 "./reg" "getB" "B")) ∧
      ¬∃ front back, insert [] 1 "" "getB" "B" = front ++ back ∧ CallBetween "B" "getB" front back
        (insert (insert [] 1 "" "getB" "B") 1 "" "getB" "B") := by
  refine ⟨?_, ?_, ?_⟩
  · have cut : ∀ t : Text, t = "import \x7b\nimport A from './x\x7d from ';\n".toList →
        t.before ((Zones.ofText t).lastImportEnd.getD 0) =
          "import \x7b\nimport A from './x".toList ++ '\x7d' :: " from ';\n".toList := by
      rintro _ rfl
      decide +kernel
    rw [cut _ rfl]
    exact shut_of_last (by decide) (by decide)
  · rintro ⟨front, back, split, call⟩
    have same := count_of_callBetween call
    rw [← split] at same
    exact absurd same (by decide +kernel)
  · rintro ⟨front, back, split, call⟩
    have same := count_of_callBetween call
    rw [← split] at same
    exact absurd same (by decide +kernel)

end Usage
end Registrar
