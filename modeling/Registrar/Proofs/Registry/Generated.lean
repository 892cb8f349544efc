import Registrar.Proofs.Registry.Fragment
import Registrar.Proofs.Text.Block

/-!
Generated source line by line. A pattern that begins with a word and a gap passes over the lines that
do not begin so, whatever names they hold; between such lines a method is found with its body.
-/

namespace Registrar

open Recognition Pattern

variable {front back line : Text} {lines : List Text} {p q : Pattern} {w : String}

/-! ### Lines that are passed over -/

namespace Recognition

/-- The words that the patterns of the zones begin with, each with a gap behind it. -/
def zoneWords : List String := ["import", "private", "public"]

/-- A word and a gap at the beginning of a line, and what follows them. -/
def keyworded (w : String) (q : Pattern) : Pattern :=
  next lineStart (next gap (next (word w) (next space q)))

/-- A line that does not begin with the word and a gap. -/
structure Passes (w : String) (line : Text) : Prop where
  whole : '\n' ∉ line
  other : ∀ x, isGap x = true → ¬w.toList ++ [x] <+: line.dropWhile isGap

theorem of_mem_zoneWords (known : w ∈ zoneWords) :
    w.toList ≠ [] ∧ ∀ c ∈ w.toList, isNamePart c = true := by
  simp only [zoneWords, List.mem_cons, List.not_mem_nil, or_false] at known
  rcases known with rfl | rfl | rfl <;> exact ⟨by simp, List.all_eq_true.mp (by decide)⟩

/-- The gap before a line feed is dropped without it. -/
theorem dropWhile_isGap_line (line back : Text) :
    (line ++ '\n' :: back).dropWhile isGap = line.dropWhile isGap ++ '\n' :: back := by
  have feed : isGap '\n' = false := rfl
  rw [List.dropWhile_append]
  split
  · next gone => simp [List.isEmpty_iff.mp gone, feed]
  · rfl

theorem Passes.refuses (passes : Passes w line) (known : w ∈ zoneWords) (front back : Text) :
    (keyworded w q).Refuses front (line ++ '\n' :: back) := by
  obtain ⟨some_, parts⟩ := of_mem_zoneWords known
  refine Refuses.place_next (refuses_many_next fun taken rest split all => ?_)
  refine refuses_literal_next fun rest' rest_eq => Refuses.next_left (refuses_no_space ?_)
  intro x head
  by_contra gapped
  rw [Bool.not_eq_false] at gapped
  obtain ⟨rest'', rfl⟩ : ∃ rest'', rest' = x :: rest'' := by
    cases rest' with
    | nil => simp at head
    | cons y rest' =>
      obtain rfl : y = x := by simpa using head
      exact ⟨rest', rfl⟩
  have dropped : (line ++ '\n' :: back).dropWhile isGap = w.toList ++ [x] ++ rest'' := by
    rw [split, List.dropWhile_append_of_pos all, rest_eq]
    cases list : w.toList with
    | nil => exact absurd list some_
    | cons y w' => simp [isGap_of_isNamePart (parts y (by simp [list]))]
  have wordWhole : '\n' ∉ w.toList ++ [x] := by
    simp only [List.mem_append, List.mem_singleton, not_or]
    refine ⟨fun member => absurd (parts _ member) (by decide), ?_⟩
    rintro rfl
    exact absurd gapped (by decide)
  have begins : w.toList ++ [x] <+: line.dropWhile isGap ++ '\n' :: back :=
    ⟨rest'', by rw [← dropWhile_isGap_line, dropped]⟩
  exact passes.other x gapped ((Text.prefix_line_iff wordWhole).mp begins)

/-- Lines that do not begin with the word are passed over. -/
theorem scan_keyworded (known : w ∈ zoneWords) (passes : ∀ line ∈ lines, Passes w line) :
    Scan (keyworded w q) (.between front (Text.ofLines lines ++ back)) []
      (.between (front ++ Text.ofLines lines) back) :=
  (anchored_lineStart _).scan_lines (fun line member => (passes line member).whole)
    fun line member front back => (passes line member).refuses known front back

theorem refuses_keyworded_nil (known : w ∈ zoneWords) (front : Text) :
    (keyworded w q).Refuses front [] :=
  refuses_keyword_nil (of_mem_zoneWords known).1

/-- A line that begins with a name and a sign does not begin with the word and a gap. -/
theorem not_prefix_of_name {name rest : Text} {x y : Char} (named : isIdentifier name = true)
    (mark : isGap y = false) (other : y ∉ w.toList) (gapped : isGap x = true) :
    ¬w.toList ++ [x] <+: (name ++ y :: rest).dropWhile isGap := by
  obtain ⟨z, name', rfl, _⟩ := exists_of_isIdentifier named
  have letters := all_of_isIdentifier named
  have start : isGap z = false := isGap_of_isNamePart (letters z (by simp))
  have apart : y ∉ w.toList ++ [x] := by
    simp only [List.mem_append, List.mem_singleton, not_or]
    refine ⟨other, ?_⟩
    rintro rfl
    simp [mark] at gapped
  rw [List.cons_append, List.dropWhile_cons_of_neg (by simp [start]), ← List.cons_append,
    Text.prefix_line_iff apart]
  intro begins
  have inside : x ∈ z :: name' := begins.subset (by simp)
  rw [isGap_of_isNamePart (letters x inside)] at gapped
  contradiction

end Recognition

/-! ### Methods -/

namespace Part

/-- A method is found with its body, whose lines begin no other one. -/
theorem exists_scan_methodText {name parameter type returns : String} (isOptional : Bool)
    {inner tail : Text} (at_ : Text.AtLine front) (back : Text)
    (passes : ∀ line ∈ lines, Passes "public" line)
    (body_eq : '\n' :: Text.ofLines lines = inner ++ '\x7d' :: '\n' :: tail)
    (balanced : Text.Balanced inner) (proper : isIdentifier name.toList = true)
    (properParameter : isIdentifier parameter.toList = true)
    (properType : isIdentifier type.toList = true) (properReturns : isIdentifier returns.toList = true)
    {lead : Text} (lead_eq : signatureText isOptional name.toList parameter.toList type.toList
      returns.toList = lead) :
    ∃ ms, Scan accessorSignature
        (.between front (lead ++ '\x7b' :: '\n' :: (Text.ofLines lines ++ back))) ms
        (.between (front ++ (lead ++ '\x7b' :: '\n' :: Text.ofLines lines)) back) ∧
      ms.filterMap (Zones.accessor?
        (front ++ (lead ++ '\x7b' :: '\n' :: (Text.ofLines lines ++ back)))) =
          [⟨name, some returns, front.size,
            front.size + Text.size (lead ++ '\x7b' :: inner ++ ['\x7d', '\n'])⟩] := by
  obtain ⟨a, b, takes, named, returned⟩ := exists_takes_signatureText front
    ('\n' :: (Text.ofLines lines ++ back)) isOptional at_.startsLine proper properParameter properType
    properReturns
  rw [lead_eq] at takes
  have ending : Scan accessorSignature
      (.between (front ++ (lead ++ ['\x7b'])) ([] ++ '\n' :: (Text.ofLines lines ++ back))) []
      (.between (front ++ (lead ++ ['\x7b']) ++ [] ++ ['\n']) (Text.ofLines lines ++ back)) :=
    (anchored_lineStart _).scan_inside (by simp) (by simp [Cursor.startsLine])
  have body : Scan accessorSignature
      (.between (front ++ (lead ++ ['\x7b']) ++ [] ++ ['\n']) (Text.ofLines lines ++ back)) []
      (.between (front ++ (lead ++ ['\x7b']) ++ [] ++ ['\n'] ++ Text.ofLines lines) back) :=
    scan_keyworded (by simp [zoneWords]) passes
  have hit := ((scan_hit (by simp) takes).trans ending).trans body
  have start_eq : lead ++ ['\x7b'] ++ '\n' :: (Text.ofLines lines ++ back) =
      lead ++ '\x7b' :: '\n' :: (Text.ofLines lines ++ back) := by simp
  have stop_eq : front ++ (lead ++ ['\x7b']) ++ [] ++ ['\n'] ++ Text.ofLines lines =
      front ++ (lead ++ '\x7b' :: '\n' :: Text.ofLines lines) := by simp
  rw [start_eq, stop_eq] at hit
  refine ⟨_, hit, ?_⟩
  have stop : Text.blockEnd? (front ++ (lead ++ '\x7b' :: '\n' :: (Text.ofLines lines ++ back)))
      (front.size + lead.size) =
        some (front.size + Text.size (lead ++ '\x7b' :: inner ++ ['\x7d', '\n'])) := by
    have ends := Text.blockEnd?_between balanced (front ++ lead) (tail ++ back)
    have whole : front ++ lead ++ '\x7b' :: (inner ++ '\x7d' :: '\n' :: (tail ++ back)) =
        front ++ (lead ++ '\x7b' :: '\n' :: (Text.ofLines lines ++ back)) := by
      have closed := congrArg (· ++ back) body_eq
      simp only [List.cons_append, List.append_assoc] at closed ⊢
      rw [closed]
    rw [whole, Text.size_append] at ends
    rw [ends]
    simp
  have offset : front.size + (lead.size + Char.utf8Size '\x7b') - 1 = front.size + lead.size := by
    have brace : Char.utf8Size '\x7b' = 1 := rfl
    omega
  simp only [List.append_nil, List.filterMap_cons, List.filterMap_nil]
  simp [Zones.accessor?, Match.textOf?, List.lookup_cons, offset, stop, named.upTo, returned.upTo,
    -List.append_assoc]

variable {config : Config} {accessor field className : String}

/-- The line that opens an accessor. -/
def accessorOpening (config : Config) (accessor className : String) : String :=
  Source.indent ++ "public " ++ accessor ++ "(" ++ config.contextField ++ "?: " ++
    config.contextType ++ "): " ++ className ++ " \x7b"

/-- The lines behind the one that opens an accessor. -/
def accessorBody (config : Config) (field className : String) : List String :=
  let deep := Source.indent ++ Source.indent
  [deep ++ "if (!this." ++ field ++ ") \x7b",
    deep ++ Source.indent ++ "this." ++ field ++ " = new " ++ className ++ "(" ++
      config.contextField ++ " ?? this." ++ config.contextField ++ ");",
    deep ++ "\x7d",
    deep ++ "return this." ++ field ++ ";",
    Source.indent ++ "\x7d"]

theorem toList_accessorBlock : (Source.accessorBlock config accessor field className).toList =
    Text.ofLines ((accessorOpening config accessor className ::
      accessorBody config field className).map String.toList) := by
  unfold Source.accessorBlock accessorOpening accessorBody
  simp

/-- Names such as an accessor is written with. -/
structure AccessorNames (config : Config) (accessor field className : String) : Prop where
  accessor : isIdentifier accessor.toList = true
  field : isIdentifier field.toList = true
  className : isIdentifier className.toList = true
  type : isIdentifier config.contextType.toList = true
  context : isIdentifier config.contextField.toList = true

namespace AccessorNames

variable (names : AccessorNames config accessor field className)
include names

theorem not_mem {d : Char} (other : isNamePart d = false) :
    d ∉ accessor.toList ∧ d ∉ field.toList ∧ d ∉ className.toList ∧ d ∉ config.contextType.toList ∧
      d ∉ config.contextField.toList :=
  ⟨not_mem_of_isIdentifier names.accessor other, not_mem_of_isIdentifier names.field other,
    not_mem_of_isIdentifier names.className other, not_mem_of_isIdentifier names.type other,
    not_mem_of_isIdentifier names.context other⟩

theorem passes_body (known : w ∈ zoneWords) :
    ∀ l ∈ accessorBody config field className, Passes w l.toList := by
  obtain ⟨accessor_, field_, className_, type_, context_⟩ := names.not_mem (d := '\n') rfl
  intro l member
  simp only [accessorBody, List.mem_cons, List.not_mem_nil, or_false] at member
  refine ⟨?_, fun x _ => ?_⟩
  · rcases member with rfl | rfl | rfl | rfl | rfl <;>
      simp [Source.indent, field_, className_, context_]
  · simp only [zoneWords, List.mem_cons, List.not_mem_nil, or_false] at known
    rcases member with rfl | rfl | rfl | rfl | rfl <;> rcases known with rfl | rfl | rfl <;>
      simp [Source.indent, isGap]

theorem passes_opening (known : w ∈ zoneWords) (other : w ≠ "public") :
    Passes w (accessorOpening config accessor className).toList := by
  obtain ⟨accessor_, field_, className_, type_, context_⟩ := names.not_mem (d := '\n') rfl
  refine ⟨by simp [accessorOpening, Source.indent, accessor_, className_, type_, context_],
    fun x _ => ?_⟩
  simp only [zoneWords, List.mem_cons, List.not_mem_nil, or_false] at known
  rcases known with rfl | rfl | rfl <;> simp [accessorOpening, Source.indent, isGap] at other ⊢

/-- The brace of the body is the only one that is left to close. -/
theorem exists_balanced : ∃ inner, Text.Balanced inner ∧
    '\n' :: Text.ofLines ((accessorBody config field className).map String.toList) =
      inner ++ ['\x7d', '\n'] := by
  obtain ⟨_, field_, className_, _, context_⟩ := names.not_mem (d := '\x7b') rfl
  obtain ⟨_, field', className', _, context'⟩ := names.not_mem (d := '\x7d') rfl
  have flat : ∀ {t : Text}, '\x7b' ∉ t → '\x7d' ∉ t → Text.Balanced t := Text.balanced_of_not_mem
  let deep := Source.indent ++ Source.indent
  let condition := '\n' :: (deep ++ "if (!this." ++ field ++ ") ").toList
  let assignment := '\n' :: (deep ++ Source.indent ++ "this." ++ field ++ " = new " ++ className ++
    "(" ++ config.contextField ++ " ?? this." ++ config.contextField ++ ");\n" ++ deep).toList
  let ending := '\n' :: (deep ++ "return this." ++ field ++ ";\n" ++ Source.indent).toList
  have first : Text.Balanced condition :=
    flat (by simp [condition, deep, Source.indent, field_])
      (by simp [condition, deep, Source.indent, field'])
  have second : Text.Balanced assignment :=
    flat (by simp [assignment, deep, Source.indent, field_, className_, context_])
      (by simp [assignment, deep, Source.indent, field', className', context'])
  have third : Text.Balanced ending :=
    flat (by simp [ending, deep, Source.indent, field_])
      (by simp [ending, deep, Source.indent, field'])
  refine ⟨condition ++ ('\x7b' :: assignment ++ ['\x7d']) ++ ending,
    (first.append second.block).append third, ?_⟩
  simp [condition, assignment, ending, deep, accessorBody]

/-- The accessor of a helper is found as a whole. -/
theorem exists_scan_accessorBlock (at_ : Text.AtLine front) (back : Text) :
    ∃ ms, Scan accessorSignature
        (.between front ((Source.accessorBlock config accessor field className).toList ++ back)) ms
        (.between (front ++ (Source.accessorBlock config accessor field className).toList) back) ∧
      ms.filterMap (Zones.accessor?
        (front ++ (Source.accessorBlock config accessor field className).toList ++ back)) =
          [⟨accessor, some className, front.size,
            front.size + Text.size (Source.accessorBlock config accessor field className).toList⟩] := by
  obtain ⟨inner, balanced, body_eq⟩ := names.exists_balanced
  have passes : ∀ line ∈ (accessorBody config field className).map String.toList,
      Passes "public" line := by
    intro line member
    obtain ⟨l, inside, rfl⟩ := List.mem_map.mp member
    exact names.passes_body (by simp [zoneWords]) l inside
  obtain ⟨ms, scan, found⟩ := exists_scan_methodText true at_ back passes body_eq balanced
    names.accessor names.context names.type names.className rfl
  have opening_eq : (accessorOpening config accessor className).toList =
      signatureText true accessor.toList config.contextField.toList config.contextType.toList
        className.toList ++ ['\x7b'] := by
    unfold accessorOpening signatureText
    simp
  generalize signatureText true accessor.toList config.contextField.toList config.contextType.toList
    className.toList = lead at scan found opening_eq
  have block_eq : (Source.accessorBlock config accessor field className).toList =
      lead ++ '\x7b' :: '\n' ::
        Text.ofLines ((accessorBody config field className).map String.toList) := by
    rw [toList_accessorBlock, List.map_cons, Text.ofLines_cons, opening_eq]
    simp
  have inner_eq : (Source.accessorBlock config accessor field className).toList =
      lead ++ '\x7b' :: inner ++ ['\x7d', '\n'] := by
    rw [block_eq, body_eq]
    simp
  refine ⟨ms, ?_, ?_⟩
  · rw [block_eq]
    simpa using scan
  · rw [← inner_eq] at found
    rw [← found, block_eq]
    simp

end AccessorNames
end Part
end Registrar
