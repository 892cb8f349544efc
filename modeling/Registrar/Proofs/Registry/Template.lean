import Registrar.Proofs.Registry.Generated
import Registrar.Proofs.Registry.Layout

/-!
The parts that every generated registry has of its own: the import of the context type, the class with
its two fields and its two methods, the remark and the export of the registry object. Each pattern of
the zones finds in them what they were written for, whatever identifiers they are filled with: a
pattern asks for a gap behind its word, and a name is never followed by one where a line begins.
-/

namespace Registrar

open Recognition Pattern

variable {f : Frame} {p : Part} {w : String} {front back : Text}

/-! ### Lines -/

/-- The indentation of a line is a gap. -/
theorem Line.dropWhile_text (l : Line) :
    l.text.dropWhile isGap = l.code.toList.dropWhile isGap := by
  have margin : ∀ c ∈ (List.replicate l.depth Source.indent.toList).flatten, isGap c = true := by
    intro c member
    obtain ⟨piece, inside, member⟩ := List.mem_flatten.mp member
    rw [List.eq_of_mem_replicate inside] at member
    exact isGap_of_mem_indent c member
  rw [Line.text, List.dropWhile_append_of_pos margin]

/-! ### Names -/

/-- Settings and a class with identifiers for names, and a module that can be written between
quotation marks. -/
structure Frame.Written (f : Frame) : Prop where
  name : isIdentifier f.name.toList = true
  type : isIdentifier f.config.contextType.toList = true
  field : isIdentifier f.config.contextField.toList = true
  module_ : f.config.contextModule.toList ≠ []
  unquoted : ∀ c ∈ f.config.contextModule.toList, isQuote c = false
  unspaced : ∀ c ∈ f.config.contextModule.toList, Letter.isBlank c = false

theorem isIdentifier_append {s t : Text} (front : isIdentifier s = true)
    (all : ∀ c ∈ t, isNamePart c = true) : isIdentifier (s ++ t) = true := by
  obtain ⟨x, rest, rfl, start, parts⟩ := exists_of_isIdentifier front
  refine isIdentifier_cons_iff.mpr ⟨start, fun c member => ?_⟩
  rcases List.mem_append.mp member with member | member
  · exact parts c member
  · exact all c member

/-- A name with its first letter raised is made of the characters of a name. -/
theorem all_raiseFirst_of_isIdentifier {t : Text} (named : isIdentifier t = true) :
    ∀ c ∈ Letter.raiseFirst t, isNamePart c = true := by
  obtain ⟨x, rest, rfl, start, parts⟩ := exists_of_isIdentifier named
  obtain ⟨d, raised, plain, _⟩ := exists_raise_of_isNameStart start
  intro c member
  rw [Letter.raiseFirst, raised] at member
  rcases List.mem_cons.mp member with rfl | member
  · exact isNamePart_of_isPlain plain
  · exact parts c member

namespace Frame.Written

theorem setterName (written : f.Written) : isIdentifier f.setterName.toList = true := by
  have raised : (String.ofList (Letter.raiseFirst f.config.contextField.toList)).toList =
      Letter.raiseFirst f.config.contextField.toList := String.toList_ofList
  rw [Frame.setterName, String.toList_append, raised]
  exact isIdentifier_append (by decide) (all_raiseFirst_of_isIdentifier written.field)

/-- No name of a registry holds a character that names do not have. -/
theorem not_mem (written : f.Written) {d : Char} (other : isNamePart d = false) :
    d ∉ f.name.toList ∧ d ∉ f.config.contextType.toList ∧ d ∉ f.config.contextField.toList ∧
      d ∉ f.setterName.toList :=
  ⟨not_mem_of_isIdentifier written.name other, not_mem_of_isIdentifier written.type other,
    not_mem_of_isIdentifier written.field other, not_mem_of_isIdentifier written.setterName other⟩

theorem feed_not_mem_module (written : f.Written) : '\n' ∉ f.config.contextModule.toList := by
  intro member
  have blank := written.unspaced _ member
  simp [Letter.isBlank] at blank

end Frame.Written

namespace Part

/-! ### Lines that are passed over -/

/-- A part that a registry has without helpers. -/
def isOwn : Part → Bool
  | helperImport _ | helperField _ | helperAccessor _ | helperExport _ => false
  | _ => true

/-- The word that a part begins with, if a pattern begins with it too. -/
def keyword : Part → Option String
  | contextImport | helperImport _ => some "import"
  | instanceField | contextField | helperField _ | constructor => some "private"
  | instanceMethod | setter | helperAccessor _ => some "public"
  | opening | ownExport | helperExport _ => some "export"
  | blank | mark | closing => none

theorem feed_not_mem_of_isOwn (written : f.Written) (own : p.isOwn = true) :
    ∀ l ∈ p.lines f, '\n' ∉ l.text := by
  obtain ⟨name, type, field, setter⟩ := written.not_mem (d := '\n') rfl
  have module_ := written.feed_not_mem_module
  intro l member
  cases p with
  | helperImport | helperField | helperAccessor | helperExport => simp [isOwn] at own
  | _ =>
    simp only [lines, List.mem_cons, List.not_mem_nil, or_false] at member
    rcases member with rfl | rfl | rfl | rfl | rfl | rfl <;>
      simp [Line.text, Source.indent, Source.accessorMark, name, type, field, setter, module_]

/-- No line of a part of the registry's own begins with a word of a pattern and a gap, but for the
first one of a part that was written for it. -/
theorem passes_of_isOwn (written : f.Written) (own : p.isOwn = true) (known : w ∈ zoneWords)
    {l : Line} (member : l ∈ p.lines f) (other : p.keyword ≠ some w ∨ l ∈ (p.lines f).tail) :
    Passes w l.text where
  whole := feed_not_mem_of_isOwn written own l member
  other := by
    intro x gapped
    -- The one line that begins with a name.
    have assigned : ∀ rest, ¬w.toList ++ [x] <+: (f.name.toList ++ '.' :: rest).dropWhile isGap :=
      fun rest => not_prefix_of_name written.name rfl
        (fun dot => absurd ((of_mem_zoneWords known).2 _ dot) (by decide)) gapped
    simp only [zoneWords, List.mem_cons, List.not_mem_nil, or_false] at known
    rw [l.dropWhile_text]
    cases p with
    | helperImport | helperField | helperAccessor | helperExport => simp [isOwn] at own
    | instanceMethod =>
      simp only [lines, List.mem_cons, List.not_mem_nil, or_false] at member
      rcases member with rfl | rfl | rfl | rfl | rfl | rfl
      case inr.inr.inl =>
        have line := assigned ("instance = new ".toList ++ f.name.toList ++ "();".toList)
        simpa using line
      all_goals
        rcases known with rfl | rfl | rfl <;>
          simp [isGap, keyword, lines, ← String.toList_inj] at other ⊢
    | _ =>
      simp only [lines, List.mem_cons, List.not_mem_nil, or_false] at member
      rcases member with rfl | rfl | rfl | rfl <;> rcases known with rfl | rfl | rfl <;>
        simp [isGap, keyword, lines, ← String.toList_inj, Source.accessorMark] at other ⊢

/-- A part of another word is passed over. -/
theorem scan_of_isOwn {q : Pattern} (written : f.Written) (own : p.isOwn = true)
    (known : w ∈ zoneWords) (other : p.keyword ≠ some w) :
    Scan (keyworded w q) (.between front (p.text f ++ back)) []
      (.between (front ++ p.text f) back) := by
  refine scan_keyworded known fun line member => ?_
  obtain ⟨l, inside, rfl⟩ := List.mem_map.mp member
  exact passes_of_isOwn written own known inside (.inl other)

/-! ### Imports -/

/-- The import that a part at byte `start` is. -/
def import? (f : Frame) (start : Nat) : Part → Option Import
  | contextImport => some (importAt start true f.config.contextType f.config.contextModule)
  | helperImport l => some (importAt start false l.className l.specifier)
  | _ => none

theorem text_contextImport :
    contextImport.text f =
      importText true f.config.contextType.toList f.config.contextModule.toList := by
  unfold importText importLead
  simp [text, lines, Line.text, typeWord, braced]

theorem exists_scan_ownImport (written : f.Written) (own : p.isOwn = true) (at_ : Text.AtLine front) :
    ∃ ms, Scan importStatement (.between front (p.text f ++ back)) ms
        (.between (front ++ p.text f) back) ∧
      ms.filterMap Zones.import? = (p.import? f front.size).toList := by
  cases p with
  | contextImport =>
    rw [text_contextImport]
    exact exists_scan_importText true at_ written.type written.module_ written.unquoted
  | helperImport | helperField | helperAccessor | helperExport => simp [isOwn] at own
  | _ =>
    refine ⟨[], ?_, rfl⟩
    exact scan_of_isOwn written rfl (by simp [zoneWords]) (by simp [keyword])

/-! ### Fields -/

/-- The field that a part at byte `start` is. -/
def field? (f : Frame) (start : Nat) (p : Part) : Option Field :=
  let span : Span := ⟨start, start + (p.text f).size⟩
  match p with
  | instanceField => some ⟨"instance", f.name, true, span⟩
  | contextField => some ⟨f.config.contextField, f.config.contextType, false, span⟩
  | helperField className => some ⟨f.fieldOf className, className, false, span⟩
  | _ => none

theorem text_instanceField :
    instanceField.text f = fieldText true "instance".toList f.name.toList := by
  unfold fieldText
  simp [text, lines, Line.text, fieldTail]

theorem text_contextField : contextField.text f =
    fieldText false f.config.contextField.toList f.config.contextType.toList := by
  unfold fieldText
  simp [text, lines, Line.text, fieldTail]

theorem exists_scan_instanceField (at_ : Text.AtLine front) (named : isIdentifier f.name.toList = true) :
    ∃ ms, Scan fieldDeclaration (.between front (instanceField.text f ++ back)) ms
        (.between (front ++ instanceField.text f) back) ∧
      ms.map Zones.field = (instanceField.field? f front.size).toList := by
  have instance_ : isIdentifier "instance".toList = true := by decide
  obtain ⟨a, b, c, takes, name, type⟩ :=
    exists_takes_staticText front back at_.startsLine instance_ named
  rw [← text_instanceField] at takes
  refine ⟨_, scan_hit (text_ne_nil _) takes, ?_⟩
  simp [Zones.field, Match.textOf?, List.lookup_cons, Match.span, Cursor.spanTo, name.upTo, type.upTo,
    trim_name named, field?]

/-- Between its word and a bracket the constructor has no type. -/
theorem refuses_constructor (front back : Text) : fieldDeclaration.Refuses front
    (Source.indent.toList ++ "private".toList ++
      (' ' :: ("constructor".toList ++ '(' :: back))) := by
  refine refuses_after_keyword isGap_of_mem_indent (by simp [isGap]) (by simp) ?_
  refine refuses_space_next (by simp [isGap]) ?_
  refine (Refuses.next_left (refuses_literal (by simp))).group.optional_next ?_
  refine (Refuses.next_left (refuses_literal (by simp))).optional_next ?_
  refine refuses_name_next fun taken rest split _ all => ?_
  obtain ⟨s, name_eq, rest_eq⟩ := exists_of_nameParts split all rfl
  have next_ : ∀ x, rest.head? = some x → x ∈ "constructor(".toList := by
    intro x head
    cases s with
    | nil =>
      obtain rfl : '(' = x := by simpa [rest_eq] using head
      simp
    | cons y s =>
      obtain rfl : y = x := by simpa [rest_eq] using head
      have member : y ∈ "constructor".toList := by simp [name_eq]
      simp at member ⊢
      tauto
  refine refuses_no_gap_next ?_ (Refuses.optional_next (refuses_one ?_)
    (refuses_no_gap_next ?_ (refuses_one ?_).next_left))
  all_goals
    intro x head
    have member := next_ x head
    simp only [String.reduceToList, List.mem_cons, List.not_mem_nil, or_false] at member
    rcases member with rfl | rfl | rfl | rfl | rfl | rfl | rfl | rfl | rfl | rfl | rfl | rfl <;> rfl

theorem exists_scan_ownField (written : f.Written) (own : p.isOwn = true) (at_ : Text.AtLine front) :
    ∃ ms, Scan fieldDeclaration (.between front (p.text f ++ back)) ms
        (.between (front ++ p.text f) back) ∧
      ms.map Zones.field = (p.field? f front.size).toList := by
  cases p with
  | instanceField => exact exists_scan_instanceField at_ written.name
  | contextField =>
    have found := exists_scan_fieldText front back at_ written.field written.type
    rwa [← text_contextField] at found
  | constructor =>
    refine ⟨[], ?_, rfl⟩
    refine (anchored_lineStart _).scan_lines ?_ ?_
    · intro line member
      obtain ⟨l, inside, rfl⟩ := List.mem_map.mp member
      exact feed_not_mem_of_isOwn written rfl l inside
    · intro line member front back
      obtain ⟨l, inside, rfl⟩ := List.mem_map.mp member
      obtain rfl := List.mem_singleton.mp inside
      have refused := refuses_constructor front (") \x7b\x7d".toList ++ '\n' :: back)
      show fieldDeclaration.Refuses front _
      simpa [Line.text] using refused
  | helperImport | helperField | helperAccessor | helperExport => simp [isOwn] at own
  | _ =>
    refine ⟨[], ?_, rfl⟩
    exact scan_of_isOwn written rfl (by simp [zoneWords]) (by simp [keyword])

/-! ### Methods -/

/-- The method that a part at byte `start` is; the blank line behind it is not its own. -/
def accessor? (f : Frame) (start : Nat) (p : Part) : Option Accessor :=
  let span : Span := ⟨start, start + (p.text f).size - 1⟩
  match p with
  | setter => some ⟨f.setterName, some "void", span⟩
  | helperAccessor className => some ⟨Naming.accessor className, some className, span⟩
  | _ => none

/-- The end of a text before its last line feed. -/
theorem size_append_feed (start : Nat) (t : Text) :
    start + Text.size (t ++ ['\n']) - 1 = start + t.size := by
  have feed : Text.size ['\n'] = 1 := rfl
  rw [Text.size_append, feed]
  omega

/-- The setter is found as a whole, without the blank line behind it. -/
theorem exists_scan_setter (written : f.Written) (at_ : Text.AtLine front) :
    ∃ ms, Scan accessorSignature (.between front (setter.text f ++ back)) ms
        (.between (front ++ setter.text f) back) ∧
      ms.filterMap (Zones.accessor? (front ++ setter.text f ++ back)) =
        (setter.accessor? f front.size).toList := by
  have passes : ∀ line ∈ ((setter.lines f).tail).map Line.text, Passes "public" line := by
    intro line member
    obtain ⟨l, inside, rfl⟩ := List.mem_map.mp member
    exact passes_of_isOwn written rfl (by simp [zoneWords]) (List.mem_of_mem_tail inside) (.inr inside)
  let inner : Text := '\n' :: (Source.indent ++ Source.indent ++ "this." ++ f.config.contextField ++
    " = " ++ f.config.contextField ++ ";\n" ++ Source.indent).toList
  have balanced : Text.Balanced inner := by
    obtain ⟨_, _, opening, _⟩ := written.not_mem (d := '\x7b') rfl
    obtain ⟨_, _, closing, _⟩ := written.not_mem (d := '\x7d') rfl
    exact Text.balanced_of_not_mem (by simp [inner, Source.indent, opening])
      (by simp [inner, Source.indent, closing])
  have body_eq : '\n' :: Text.ofLines (((setter.lines f).tail).map Line.text) =
      inner ++ '\x7d' :: '\n' :: ['\n'] := by
    simp [inner, lines, Line.text]
  have named := written.setterName
  have void : isIdentifier "void".toList = true := by decide
  obtain ⟨ms, scan, found⟩ := exists_scan_methodText false at_ back passes body_eq balanced
    named written.field written.type void rfl
  have opening_eq : setter.text f = signatureText false f.setterName.toList
      f.config.contextField.toList f.config.contextType.toList "void".toList ++
        '\x7b' :: '\n' :: Text.ofLines (((setter.lines f).tail).map Line.text) := by
    unfold signatureText
    simp [text, lines, Line.text]
  generalize signatureText false f.setterName.toList f.config.contextField.toList
    f.config.contextType.toList "void".toList = lead at scan found opening_eq
  have inner_eq : setter.text f = lead ++ '\x7b' :: inner ++ ['\x7d', '\n'] ++ ['\n'] := by
    rw [opening_eq, body_eq]
    simp
  refine ⟨ms, ?_, ?_⟩
  · rw [opening_eq]
    simpa using scan
  · have text_eq : front ++ setter.text f ++ back = front ++ (lead ++ '\x7b' :: '\n' ::
        (Text.ofLines (((setter.lines f).tail).map Line.text) ++ back)) := by
      rw [opening_eq]
      simp
    rw [text_eq, found, accessor?, inner_eq, size_append_feed]
    rfl

/-- A name that is followed by another one is none of a method. -/
theorem refuses_instanceMethod (front back : Text) : accessorSignature.Refuses front
    (Source.indent.toList ++ "public".toList ++
      (' ' :: ("static".toList ++ ' ' :: 'g' :: back))) := by
  refine refuses_after_keyword isGap_of_mem_indent (by simp [isGap]) (by simp) ?_
  refine refuses_space_next (by simp [isGap]) ?_
  refine refuses_name_next fun taken rest split _ all => ?_
  obtain ⟨s, name_eq, rest_eq⟩ := exists_of_nameParts split all rfl
  refine refuses_many_next fun gaps rest' split' gapped => (refuses_one ?_).next_left
  intro x head
  rw [rest_eq] at split'
  cases gaps with
  | nil =>
    rw [List.nil_append] at split'
    cases s with
    | nil =>
      obtain rfl : ' ' = x := by simpa [← split'] using head
      rfl
    | cons y s =>
      obtain rfl : y = x := by simpa [← split'] using head
      have member : y ∈ "static".toList := by simp [name_eq]
      simp only [String.reduceToList, List.mem_cons, List.not_mem_nil, or_false] at member
      rcases member with rfl | rfl | rfl | rfl | rfl | rfl <;> rfl
  | cons z gaps =>
    have gap := gapped z (by simp)
    cases s with
    | nil =>
      cases gaps with
      | nil =>
        have rest_eq' : 'g' :: back = rest' := (List.cons.inj split').2
        obtain rfl : 'g' = x := by simpa [← rest_eq'] using head
        rfl
      | cons z' gaps =>
        have gap' := gapped z' (by simp)
        obtain ⟨_, rest_eq'⟩ := List.cons.inj split'
        rw [← (List.cons.inj rest_eq').1] at gap'
        simp [isGap] at gap'
    | cons y s =>
      have member : y ∈ "static".toList := by simp [name_eq]
      rw [← (List.cons.inj split').1] at gap
      simp only [String.reduceToList, List.mem_cons, List.not_mem_nil, or_false] at member
      rcases member with rfl | rfl | rfl | rfl | rfl | rfl <;> simp [isGap] at gap

theorem exists_scan_ownAccessor (written : f.Written) (own : p.isOwn = true)
    (at_ : Text.AtLine front) :
    ∃ ms, Scan accessorSignature (.between front (p.text f ++ back)) ms
        (.between (front ++ p.text f) back) ∧
      ms.filterMap (Zones.accessor? (front ++ p.text f ++ back)) =
        (p.accessor? f front.size).toList := by
  cases p with
  | setter => exact exists_scan_setter written at_
  | instanceMethod =>
    have known : "public" ∈ zoneWords := by simp [zoneWords]
    refine ⟨[], ?_, rfl⟩
    refine (anchored_lineStart _).scan_lines ?_ ?_
    · intro line member
      obtain ⟨l, inside, rfl⟩ := List.mem_map.mp member
      exact feed_not_mem_of_isOwn written rfl l inside
    · intro line member front back
      obtain ⟨l, inside, rfl⟩ := List.mem_map.mp member
      rcases List.mem_cons.mp inside with rfl | later
      · have refused := refuses_instanceMethod front
          ("etInstance(): ".toList ++ f.name.toList ++ " \x7b\n".toList ++ back)
        show accessorSignature.Refuses front _
        simpa [Line.text] using refused
      · exact (passes_of_isOwn written rfl known inside (.inr later)).refuses known front back
  | helperImport | helperField | helperAccessor | helperExport => simp [isOwn] at own
  | _ =>
    refine ⟨[], ?_, rfl⟩
    exact scan_of_isOwn written rfl (by simp [zoneWords]) (by simp [keyword])

/-! ### All zones -/

/-- The patterns of the zones find in a part what it is, wherever it begins a line. -/
structure IsRead (f : Frame) (p : Part) : Prop where
  imports : ∀ front back, Text.AtLine front → ∃ ms,
    Scan importStatement (.between front (p.text f ++ back)) ms (.between (front ++ p.text f) back) ∧
      ms.filterMap Zones.import? = (p.import? f front.size).toList
  fields : ∀ front back, Text.AtLine front → ∃ ms,
    Scan fieldDeclaration (.between front (p.text f ++ back)) ms (.between (front ++ p.text f) back) ∧
      ms.map Zones.field = (p.field? f front.size).toList
  accessors : ∀ front back, Text.AtLine front → ∃ ms,
    Scan accessorSignature (.between front (p.text f ++ back)) ms (.between (front ++ p.text f) back) ∧
      ms.filterMap (Zones.accessor? (front ++ p.text f ++ back)) =
        (p.accessor? f front.size).toList

theorem isRead_of_isOwn (written : f.Written) (own : p.isOwn = true) : p.IsRead f where
  imports _ _ := exists_scan_ownImport written own
  fields _ _ := exists_scan_ownField written own
  accessors _ _ := exists_scan_ownAccessor written own

end Part
end Registrar
