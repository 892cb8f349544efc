import Registrar.Proofs.Registry.Identifier
import Registrar.Registry.Zones

/-!
What the patterns of a registry find in a generated line: an import of one name, a private field, a
method and an exported constant, each with the values that are read off the match.
-/

namespace Registrar.Recognition

open Pattern

variable {front back : Text} {g : Groups}

/-- Two places of a text with the characters `t` between them. -/
def Encloses (e : Cursor × Cursor) (t : Text) : Prop :=
  ∃ pre post, e = (.between pre (t ++ post), .between (pre ++ t) post)

theorem Encloses.upTo {e : Cursor × Cursor} {t : Text} (h : Encloses e t) : e.1.upTo e.2 = t := by
  obtain ⟨pre, post, rfl⟩ := h
  exact Cursor.upTo_between ..

theorem Encloses.offset {e : Cursor × Cursor} {t : Text} (h : Encloses e t) :
    e.2.offset = e.1.offset + t.size := by
  obtain ⟨pre, post, rfl⟩ := h
  simp

/-! ### Imports -/

/-- The word `type` with the space behind it, if an import has it. -/
def typeWord (typed : Bool) : Text := if typed then "type".toList ++ [' '] else []

/-- What stands before the name in an import. -/
def importLead (typed : Bool) : Text := "import".toList ++ [' '] ++ typeWord typed ++ ['\x7b']

/-- A name between braces. -/
def braced (name : Text) : Text := ' ' :: name ++ [' ']

/-- An import of one name. -/
def importText (typed : Bool) (name specifier : Text) : Text :=
  importLead typed ++ braced name ++ ['\x7d', ' '] ++ "from".toList ++ [' ', '\''] ++ specifier ++
    ['\'', ';', '\n']

theorem takes_typeWord (typed : Bool) :
    (optional (next (word "type") space)).Takes front (typeWord typed) ('\x7b' :: back) g g := by
  cases typed with
  | false =>
    have refused : (word "type").Refuses front ('\x7b' :: back) := refuses_literal (by simp)
    exact refused.next_left.optional
  | true => exact ((takes_word "type").next (takes_space (by simp [isGap]))).optional

/-- A brace begins no default name. -/
theorem refuses_defaultName :
    (all [group "default" name, gap, optional (char ','), gap]).Refuses front ('\x7b' :: back) :=
  Refuses.next_left (Refuses.group (Refuses.next_left (refuses_one (by simp [isNameStart]))))

theorem takes_braced {name : Text} (proper : isIdentifier name = true) :
    (optional (all [char '\x7b', group "named" (many true (one (· != '\x7d'))), char '\x7d'])).Takes
      front (['\x7b'] ++ (braced name ++ ['\x7d'])) back g
      (("named", .between (front ++ ['\x7b']) (braced name ++ (['\x7d'] ++ back)),
        .between (front ++ ['\x7b'] ++ braced name) (['\x7d'] ++ back)) :: g) := by
  have inside : ∀ c ∈ braced name, (c != '\x7d') = true := by
    intro c member
    have other := not_mem_of_isIdentifier proper (by decide : isNamePart '\x7d' = false)
    simp only [braced, List.cons_append, List.mem_cons, List.mem_append, List.not_mem_nil,
      or_false] at member
    rcases member with rfl | member | rfl
    · rfl
    · simp only [bne_iff_ne, ne_eq]
      rintro rfl
      exact other member
    · rfl
  exact (takes_char.next ((takes_many inside (by simp)).group.next takes_char)).optional

theorem takes_importEnding :
    (next gap (next (optional (char ';')) (next gap lineEnding))).Takes front
      ([] ++ ([';'] ++ ([] ++ ['\n']))) back g g := by
  refine (takes_no_gap (by simp [isGap])).next ?_
  refine takes_char.optional.next ?_
  exact (takes_no_gap (by simp [isGap])).next takes_lineEnding

/-- An import is taken as a whole, with its name and its specifier. -/
theorem exists_takes_importText (front back : Text) {name specifier : Text} (typed : Bool)
    (start : ∀ back, (Cursor.between front back).startsLine = true)
    (proper : isIdentifier name = true) (some_ : specifier ≠ [])
    (unquoted : ∀ c ∈ specifier, isQuote c = false) :
    ∃ a b, importStatement.Takes front (importText typed name specifier) back []
        [("specifier", b), ("named", a)] ∧
      Encloses a (braced name) ∧ a.1.offset = front.size + (importLead typed).size ∧
      Encloses b specifier := by
  have chain : ∃ a b, importStatement.Takes front ([] ++ ([] ++ ("import".toList ++ ([' '] ++
        (typeWord typed ++ ([] ++ ((['\x7b'] ++ (braced name ++ ['\x7d'])) ++ ([' '] ++
        ("from".toList ++ ([' '] ++ (['\''] ++ (specifier ++ (['\''] ++
        ([] ++ ([';'] ++ ([] ++ ['\n'])))))))))))))))) back []
        [("specifier", b), ("named", a)] ∧
      Encloses a (braced name) ∧ a.1.offset = Text.size (front ++ [] ++ [] ++ "import".toList ++
        [' '] ++ typeWord typed ++ [] ++ ['\x7b']) ∧ Encloses b specifier := by
    apply Exists.intro
    apply Exists.intro
    refine ⟨?_, ?_⟩
    · apply (takes_lineStart (start _)).next
      apply (takes_no_gap (by simp [isGap])).next
      apply (takes_word "import").next
      apply (takes_space (by cases typed <;> simp [typeWord, isGap])).next
      apply (takes_typeWord typed).next
      apply refuses_defaultName.optional.next
      apply (takes_braced proper).next
      apply (takes_gap (by simp [isGap]) (by simp [isGap])).next
      apply (takes_word "from").next
      apply (takes_space (by simp [isGap])).next
      apply (takes_one (by simp [isQuote])).next
      apply (takes_atLeastOnce some_ (by simpa using unquoted) (by simp [isQuote])).group.next
      apply (takes_one (by simp [isQuote])).next
      exact takes_importEnding
    · exact ⟨⟨_, _, rfl⟩, rfl, ⟨_, _, rfl⟩⟩
  obtain ⟨a, b, takes, named, place, given⟩ := chain
  refine ⟨a, b, ?_, named, ?_, given⟩
  · unfold importText importLead
    simpa using takes
  · unfold importLead
    simp only [place, Text.size_append, Text.size_nil, Nat.add_zero]
    omega

/-! ### Private fields -/

/-- What is taken of a field from its name on. -/
def fieldTail (isOptional : Bool) (name type : Text) : Text :=
  name ++ (if isOptional then ['?'] else []) ++ [':', ' '] ++ type ++ [';', '\n']

/-- The line of a private field; one that is not static need not be set. -/
def fieldText (isStatic : Bool) (name type : Text) : Text :=
  Source.indent.toList ++ "private".toList ++ [' '] ++
    (if isStatic then "static".toList ++ [' '] else []) ++ fieldTail (!isStatic) name type

theorem isGap_of_mem_indent : ∀ c ∈ Source.indent.toList, isGap c = true := by
  simp [Source.indent, isGap]

/-- What the pattern of fields asks for behind the type. -/
def fieldEnding : Pattern :=
  next gap (next (optional (next (char '=') (many true (one fun c => c != ';' && c != '\n'))))
    (next (char ';') (next gap lineEnding)))

theorem takes_fieldEnding :
    fieldEnding.Takes front ([] ++ ([] ++ ([';'] ++ ([] ++ ['\n'])))) back g g := by
  have noValue : (next (char '=') (many true (one fun c => c != ';' && c != '\n'))).Refuses
      (front ++ []) ([';'] ++ ([] ++ ['\n']) ++ back) := (refuses_one (by simp)).next_left
  refine (takes_no_gap (by simp [isGap])).next ?_
  refine noValue.optional.next ?_
  refine takes_char.next ?_
  exact (takes_no_gap (by simp [isGap])).next takes_lineEnding

/-- Inside a name a field does not end. -/
theorem refuses_fieldEnding {c : Char} (part : isNamePart c = true) :
    fieldEnding.Refuses front (c :: back) := by
  have noValue : c ≠ '=' := by
    rintro rfl
    exact absurd part (by decide)
  have noEnd : c ≠ ';' := by
    rintro rfl
    exact absurd part (by decide)
  refine refuses_no_gap_next (by simp [isGap_of_isNamePart part]) ?_
  exact (refuses_one (by simp [noValue])).next_left.optional_next
    (refuses_one (by simp [noEnd])).next_left

/-- A type that is a name is taken as a whole. -/
theorem takes_fieldType {type : Text} (proper : isIdentifier type = true) :
    (next (group "type" (next (one fieldDeclaration.isFieldType)
      (many false (one fieldDeclaration.isFieldType)))) fieldEnding).Takes front
      (type ++ ([] ++ ([] ++ ([';'] ++ ([] ++ ['\n']))))) back g
      (("type", .between front (type ++ ([] ++ ([] ++ ([';'] ++ ([] ++ ['\n']))) ++ back)),
        .between (front ++ type) ([] ++ ([] ++ ([';'] ++ ([] ++ ['\n']))) ++ back)) :: g) := by
  have accepted : ∀ c ∈ type, fieldDeclaration.isFieldType c = true := by
    intro c member
    simp [fieldDeclaration.isFieldType, isTypePart,
      all_of_isIdentifier proper c member]
  obtain ⟨x, rest, rfl, _, all⟩ := exists_of_isIdentifier proper
  refine takes_reluctant (accepted x (by simp)) (fun c member => accepted c (by simp [member])) ?_ ?_
  · intro part y later split
    exact refuses_fieldEnding (all y (by simp [split]))
  · exact takes_fieldEnding

/-- What the pattern of fields asks for from the name on. -/
def fieldRest : Pattern :=
  next (group "name" name) (next gap (next (optional (one fun c => c == '?' || c == '!')) (next gap
    (next (char ':') (next gap (next (group "type" (next (one fieldDeclaration.isFieldType)
      (many false (one fieldDeclaration.isFieldType)))) fieldEnding))))))

/-- The name and the type of a field are remembered. -/
theorem exists_takes_fieldTail (front back : Text) (g : Groups) {name type : Text}
    (isOptional : Bool) (proper : isIdentifier name = true) (properType : isIdentifier type = true) :
    ∃ a b, fieldRest.Takes front (fieldTail isOptional name type) back g
        (("type", b) :: ("name", a) :: g) ∧ Encloses a name ∧ Encloses b type := by
  have typeStop : ∀ x, (type ++ ([] ++ ([] ++ ([';'] ++ ([] ++ ['\n'])))) ++ back).head? = some x →
      isGap x = false := by
    rw [List.append_assoc]
    exact isGap_head_eq_false properType _
  have sign : ∀ (front back : Text) (g : Groups),
      (optional (one fun c => c == '?' || c == '!')).Takes front
        (if isOptional then ['?'] else []) (':' :: back) g g := by
    intro front back g
    cases isOptional with
    | false => exact (refuses_one (by simp)).optional
    | true => exact (takes_one (by simp)).optional
  have chain : ∃ a b, fieldRest.Takes front (name ++ ([] ++
        ((if isOptional then ['?'] else []) ++ ([] ++ ([':'] ++ ([' '] ++ (type ++
        ([] ++ ([] ++ ([';'] ++ ([] ++ ['\n']))))))))))) back g
        (("type", b) :: ("name", a) :: g) ∧ Encloses a name ∧ Encloses b type := by
    apply Exists.intro
    apply Exists.intro
    refine ⟨?_, ?_⟩
    · apply (takes_name proper (by cases isOptional <;> simp <;> rfl)).group.next
      apply (takes_no_gap (by cases isOptional <;> simp [isGap])).next
      apply (sign _ _ _).next
      apply (takes_no_gap (by simp [isGap])).next
      apply takes_char.next
      apply (takes_gap (by simp [isGap]) typeStop).next
      exact takes_fieldType properType
    · exact ⟨⟨_, _, rfl⟩, ⟨_, _, rfl⟩⟩
  obtain ⟨a, b, takes, named, typed⟩ := chain
  exact ⟨a, b, by simpa [fieldTail] using takes, named, typed⟩

/-- A private field is taken as a whole, with its name and its type. -/
theorem exists_takes_fieldText (front back : Text) {name type : Text}
    (start : ∀ back, (Cursor.between front back).startsLine = true)
    (proper : isIdentifier name = true) (properType : isIdentifier type = true) :
    ∃ a b, fieldDeclaration.Takes front (fieldText false name type) back []
        [("type", b), ("name", a)] ∧ Encloses a name ∧ Encloses b type := by
  obtain ⟨a, b, tail, named, typed⟩ := exists_takes_fieldTail
    (front ++ [] ++ Source.indent.toList ++ "private".toList ++ [' '] ++ [] ++ []) back [] true
    proper properType
  have gapless : ∀ c ∈ name, isGap c = false :=
    fun c member => isGap_of_isNamePart (all_of_isIdentifier proper c member)
  have nameStop := isGap_head_eq_false proper ('?' :: ([':', ' '] ++ type ++ [';', '\n'] ++ back))
  have chain : fieldDeclaration.Takes front ([] ++ (Source.indent.toList ++ ("private".toList ++
      ([' '] ++ ([] ++ ([] ++ fieldTail true name type)))))) back [] [("type", b), ("name", a)] := by
    refine (takes_lineStart (start _)).next ?_
    refine (takes_gap isGap_of_mem_indent (by simp [isGap])).next ?_
    refine (takes_word "private").next ?_
    refine (takes_space (by simpa [fieldTail] using nameStop)).next ?_
    -- The sign behind the name keeps `static` and `readonly` from being read into it.
    have unread : ∀ (w : String) (front : Text), '?' ∉ w.toList →
        (next (word w) space).Refuses front ([] ++ fieldTail true name type ++ back) := by
      intro w front other
      have refused := refuses_word_space front ([':', ' '] ++ type ++ [';', '\n'] ++ back) gapless
        rfl other
      simpa [fieldTail] using refused
    refine (unread "static" _ (by simp)).group.optional.next ?_
    refine (unread "readonly" _ (by simp)).optional.next ?_
    exact tail
  refine ⟨a, b, ?_, named, typed⟩
  unfold fieldText
  simpa using chain

/-- A static field is taken as a whole, with its name and its type. -/
theorem exists_takes_staticText (front back : Text) {name type : Text}
    (start : ∀ back, (Cursor.between front back).startsLine = true)
    (proper : isIdentifier name = true) (properType : isIdentifier type = true) :
    ∃ a b c, fieldDeclaration.Takes front (fieldText true name type) back []
        [("type", b), ("name", a), ("static", c)] ∧ Encloses a name ∧ Encloses b type := by
  have gapless : ∀ c ∈ name, isGap c = false :=
    fun c member => isGap_of_isNamePart (all_of_isIdentifier proper c member)
  have nameStop := isGap_head_eq_false proper (':' :: ([' '] ++ type ++ [';', '\n'] ++ back))
  have noReadonly : ∀ front, (next (word "readonly") space).Refuses front
      ([] ++ fieldTail false name type ++ back) := by
    intro front
    have refused := refuses_word_space front ([' '] ++ type ++ [';', '\n'] ++ back) (x := ':')
      (w := "readonly") gapless rfl (by simp)
    simpa [fieldTail] using refused
  obtain ⟨c, isStatic⟩ : ∃ c, (optional (group "static" (next (word "static") space))).Takes
      (front ++ [] ++ Source.indent.toList ++ "private".toList ++ [' ']) ("static".toList ++ [' '])
      ([] ++ fieldTail false name type ++ back) [] [("static", c)] :=
    ⟨_, ((takes_word "static").next (takes_space (by simpa [fieldTail] using nameStop))).group.optional⟩
  obtain ⟨a, b, tail, named, typed⟩ := exists_takes_fieldTail
    (front ++ [] ++ Source.indent.toList ++ "private".toList ++ [' '] ++
      ("static".toList ++ [' ']) ++ []) back [("static", c)] false proper properType
  have chain : fieldDeclaration.Takes front ([] ++ (Source.indent.toList ++ ("private".toList ++
      ([' '] ++ (("static".toList ++ [' ']) ++ ([] ++ fieldTail false name type)))))) back []
      [("type", b), ("name", a), ("static", c)] := by
    refine (takes_lineStart (start _)).next ?_
    refine (takes_gap isGap_of_mem_indent (by simp [isGap])).next ?_
    refine (takes_word "private").next ?_
    refine (takes_space (by simp [isGap])).next ?_
    refine isStatic.next ?_
    refine (noReadonly _).optional.next ?_
    exact tail
  refine ⟨a, b, c, ?_, named, typed⟩
  unfold fieldText
  simpa using chain

/-! ### Public methods -/

/-- The line of a method with one parameter, up to the brace that opens its body. -/
def signatureText (isOptional : Bool) (name parameter type returns : Text) : Text :=
  Source.indent.toList ++ "public".toList ++ [' '] ++ name ++ ['('] ++ parameter ++
    (if isOptional then ['?'] else []) ++ [':'] ++ (' ' :: type) ++ [')', ':', ' '] ++ returns ++
    [' ']

theorem takes_parameter {parameter type : Text} (isOptional : Bool)
    (proper : isIdentifier parameter = true) (properType : isIdentifier type = true) :
    (optional (all [name, gap, optional (char '?'), gap, char ':', many true (one (· != ')'))])).Takes
      front (parameter ++ ([] ++ ((if isOptional then ['?'] else []) ++
        ([] ++ ([':'] ++ (' ' :: type)))))) (')' :: back) g g := by
  have sign : ∀ (front back : Text), (optional (char '?')).Takes front
      (if isOptional then ['?'] else []) (':' :: back) g g := by
    intro front back
    cases isOptional with
    | false => exact (refuses_one (by simp)).optional
    | true => exact takes_char.optional
  have inside : ∀ c ∈ ' ' :: type, (c != ')') = true := by
    intro c member
    rcases List.mem_cons.mp member with rfl | member
    · rfl
    · simp only [bne_iff_ne, ne_eq]
      rintro rfl
      exact not_mem_of_isIdentifier properType (by decide) member
  refine Takes.optional ?_
  refine (takes_name proper (by cases isOptional <;> simp <;> rfl)).next ?_
  refine (takes_no_gap (by cases isOptional <;> simp [isGap])).next ?_
  refine (sign _ _).next ?_
  refine (takes_no_gap (by simp [isGap])).next ?_
  exact takes_char.next (takes_many inside (by simp))

/-- A signature is taken with the brace, and its name and what it returns are remembered. -/
theorem exists_takes_signatureText (front back : Text) {name parameter type returns : Text} (isOptional : Bool)
    (start : ∀ back, (Cursor.between front back).startsLine = true)
    (proper : isIdentifier name = true) (properParameter : isIdentifier parameter = true)
    (properType : isIdentifier type = true) (properReturns : isIdentifier returns = true) :
    ∃ a b, accessorSignature.Takes front
        (signatureText isOptional name parameter type returns ++ ['\x7b']) back []
        [("returns", b), ("name", a)] ∧ Encloses a name ∧ Encloses b returns := by
  have stop : ∀ {t : Text} {rest rest' : Text}, isIdentifier t = true →
      ∀ x, (t ++ rest ++ rest').head? = some x → isGap x = false := by
    intro t rest rest' proper
    rw [List.append_assoc]
    exact isGap_head_eq_false proper _
  have typed : ∀ c ∈ returns, isTypePart c = true := by
    intro c member
    simp [isTypePart, all_of_isIdentifier properReturns c member]
  have chain : ∃ a b, accessorSignature.Takes front ([] ++ (Source.indent.toList ++
        ("public".toList ++ ([' '] ++ (name ++ ([] ++ (['('] ++ ([] ++
        ((parameter ++ ([] ++ ((if isOptional then ['?'] else []) ++
          ([] ++ ([':'] ++ (' ' :: type)))))) ++
        ([')'] ++ ([] ++ (([':'] ++ ([' '] ++ returns)) ++ ([' '] ++ ['\x7b'])))))))))))))
        back [] [("returns", b), ("name", a)] ∧ Encloses a name ∧ Encloses b returns := by
    apply Exists.intro
    apply Exists.intro
    refine ⟨?_, ?_⟩
    · apply (takes_lineStart (start _)).next
      apply (takes_gap isGap_of_mem_indent (by simp [isGap])).next
      apply (takes_word "public").next
      apply (takes_space (stop proper)).next
      apply (takes_name proper (by simp; rfl)).group.next
      apply (takes_no_gap (by simp [isGap])).next
      apply takes_char.next
      apply (takes_no_gap (by rw [List.append_assoc parameter]; exact stop properParameter)).next
      apply (takes_parameter isOptional properParameter properType).next
      apply takes_char.next
      apply (takes_no_gap (by simp [isGap])).next
      apply Takes.next
      · apply Takes.optional
        apply takes_char.next
        apply (takes_gap (by simp [isGap]) (isGap_head_eq_false properReturns _)).next
        exact (takes_atLeastOnce (ne_nil_of_isIdentifier properReturns) typed
          (by simp; rfl)).group
      · exact (takes_gap (by simp [isGap]) (by simp [isGap])).next takes_char
    · exact ⟨⟨_, _, rfl⟩, ⟨_, _, rfl⟩⟩
  obtain ⟨a, b, takes, named, returned⟩ := chain
  refine ⟨a, b, ?_, named, returned⟩
  unfold signatureText
  simpa using takes

/-! ### Exported constants -/

/-- Whether what follows the words of an exported constant begins with a name and ends it there. -/
def exportsAs (name rest : Text) : Bool :=
  match Text.dropFront? rest name with
  | some after => (Cursor.between (' ' :: name) after).splitsWord
  | none => false

/-- Whether a word is split depends on the characters around the place alone. -/
theorem splitsWord_congr {front front' back back' : Text} (before_ : front.getLast? = front'.getLast?)
    (after_ : back.head? = back'.head?) :
    (Cursor.between front back).splitsWord = (Cursor.between front' back').splitsWord := by
  simp only [Cursor.splitsWord, Cursor.afterWord, Cursor.beforeWord, Cursor.between_previous,
    Cursor.between_rest, before_, after_]

theorem afterWord_between (front t back : Text) (some_ : t ≠ [])
    (words : ∀ c ∈ t, Letter.isWord c = true) :
    (Cursor.between (front ++ t) back).afterWord = true := by
  have last : (front ++ t).getLast? = some (t.getLast some_) := by
    rw [List.getLast?_append_of_ne_nil _ some_, List.getLast?_eq_some_getLast some_]
  rw [Cursor.afterWord, Cursor.between_previous, last, Option.any_some]
  exact words _ (List.getLast_mem some_)

/-- An exported constant that is one word is found under no other name. -/
theorem exportsAs_word {s t : Text} (some_ : s ≠ []) (whole : ' ' ∉ s)
    (words : ∀ c ∈ t, Letter.isWord c = true) (back : Text) :
    exportsAs s (t ++ ' ' :: back) = decide (s = t) := by
  have space : Letter.isWord ' ' = false := rfl
  by_cases begins : s <+: t
  · obtain ⟨more, rfl⟩ := begins
    have inWord : (Cursor.between (' ' :: s) (more ++ ' ' :: back)).afterWord = true :=
      afterWord_between [' '] s _ some_ fun c member => words c (by simp [member])
    rw [exportsAs, List.append_assoc, Text.dropFront?_append]
    simp only [Cursor.splitsWord, inWord, Cursor.beforeWord, Cursor.between_rest]
    cases more with
    | nil => simp [space]
    | cons x more => simp [words x (by simp)]
  · have differ : s ≠ t := fun same => begins (by simp [same])
    have other : ¬s <+: t ++ ' ' :: back := fun h => begins ((Text.prefix_line_iff whole).mp h)
    rw [exportsAs, Text.dropFront?_eq_none other]
    simp [differ]

theorem getLast?_append_name (front name : Text) :
    (front ++ ' ' :: name).getLast? = (' ' :: name).getLast? := by
  rw [List.getLast?_append]
  cases last : (' ' :: name).getLast? with
  | none => simp at last
  | some x => rfl

/-- An exported constant is taken up to the end of its name. -/
theorem takes_exportOf {accessor : String} {rest : Text}
    (start : ∀ back, (Cursor.between front back).startsLine = true)
    (first : ∀ x, (accessor.toList ++ rest).head? = some x → isGap x = false)
    (split : (Cursor.between (' ' :: accessor.toList) rest).splitsWord = true) :
    (exportOf accessor).Takes front
      ("export".toList ++ (' ' :: ("const".toList ++ ' ' :: accessor.toList))) rest [] [] := by
  have place_ : (Cursor.between (front ++ [] ++ "export".toList ++ [' '] ++ "const".toList ++
      [' '] ++ accessor.toList) rest).splitsWord = true := by
    rw [← split]
    refine splitsWord_congr ?_ rfl
    rw [List.append_assoc _ [' '], List.singleton_append, getLast?_append_name]
  have chain : (exportOf accessor).Takes front ([] ++ ("export".toList ++ ([' '] ++
      ("const".toList ++ ([' '] ++ (accessor.toList ++ [])))))) rest [] [] := by
    refine (takes_lineStart (start _)).next ?_
    refine (takes_word "export").next ?_
    refine (takes_space (by simp [isGap])).next ?_
    refine (takes_word "const").next ?_
    refine (takes_space (by simpa using first)).next ?_
    exact (takes_word accessor).next (takes_place (by simpa using place_))
  simpa using chain

/-- An exported constant with another name is refused. -/
theorem refuses_exportOf {accessor : String} {line : Text} (front back : Text)
    (whole : '\n' ∉ accessor.toList) (first : ∀ x, (line ++ ['\n']).head? = some x → isGap x = false)
    (other : exportsAs accessor.toList (line ++ ['\n']) = false) :
    (exportOf accessor).Refuses front
      ("export".toList ++ (' ' :: ("const".toList ++ ' ' :: (line ++ '\n' :: back)))) := by
  refine Refuses.place_next (refuses_literal_next fun rest split => ?_)
  obtain rfl := List.append_cancel_left split
  refine refuses_space_next (by simp [isGap]) (refuses_literal_next fun rest split => ?_)
  obtain rfl := List.append_cancel_left split
  refine refuses_space_next ?_ (refuses_literal_next fun rest split => ?_)
  · intro x head
    refine first x ?_
    cases line with
    | nil => simpa using head
    | cons y line => simpa using head
  · have prefix_ : accessor.toList <+: line := (Text.prefix_line_iff whole).mp ⟨rest, split.symm⟩
    obtain ⟨after_, rfl⟩ := prefix_
    rw [List.append_assoc] at split
    obtain rfl := List.append_cancel_left split
    refine refuses_place ?_
    rw [exportsAs, List.append_assoc, Text.dropFront?_append] at other
    rw [← other]
    refine splitsWord_congr ?_ ?_
    · rw [List.append_assoc _ [' '], List.singleton_append, getLast?_append_name]
    · cases after_ <;> rfl

/-- A line that does not begin with the word exports nothing. -/
theorem refuses_exportOf_line {accessor : String} {line : Text} (front back : Text)
    (other : ¬"export".toList <+: line) :
    (exportOf accessor).Refuses front (line ++ '\n' :: back) := by
  refine Refuses.place_next (Refuses.next_left (refuses_literal fun h => other ?_))
  exact (Text.prefix_line_iff (by simp)).mp h

end Registrar.Recognition
