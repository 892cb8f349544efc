import Registrar.Proofs.Pattern.Found
import Registrar.Proofs.Registry.Phrase

/-!
Identifiers. What the patterns take for a name begins like one and goes on with word characters of
any script; the class that a text declares is such a name, and so is its accessor.
-/

namespace Registrar

open Pattern

/-- A name as the patterns take it. -/
def isIdentifier : Text → Bool
  | [] => false
  | x :: rest => Recognition.isNameStart x && rest.all Recognition.isNamePart

variable {t front back : Text} {g : Groups} {x : Char}

theorem isIdentifier_cons_iff {rest : Text} : isIdentifier (x :: rest) = true ↔
    Recognition.isNameStart x = true ∧ ∀ c ∈ rest, Recognition.isNamePart c = true := by
  simp [isIdentifier]

theorem exists_of_isIdentifier (named : isIdentifier t = true) : ∃ x rest, t = x :: rest ∧
    Recognition.isNameStart x = true ∧ ∀ c ∈ rest, Recognition.isNamePart c = true := by
  cases t with
  | nil => simp [isIdentifier] at named
  | cons x rest => exact ⟨x, rest, rfl, isIdentifier_cons_iff.mp named⟩

theorem ne_nil_of_isIdentifier (named : isIdentifier t = true) : t ≠ [] := by
  rintro rfl
  simp [isIdentifier] at named

theorem isPlain_of_isNameStart (start : Recognition.isNameStart x = true) : isPlain x = true := by
  simp only [Recognition.isNameStart, Bool.or_eq_true, beq_iff_eq] at start
  rcases start with (letter | rfl) | rfl
  · exact isPlain_of_isAlphanum (by simp [Char.isAlphanum, letter])
  · rfl
  · rfl

theorem all_of_isIdentifier (named : isIdentifier t = true) :
    ∀ c ∈ t, Recognition.isNamePart c = true := by
  obtain ⟨x, rest, rfl, start, all⟩ := exists_of_isIdentifier named
  simpa [isNamePart_of_isPlain (isPlain_of_isNameStart start)] using all

/-- A character that no name has is in none. -/
theorem not_mem_of_isIdentifier {c : Char} (named : isIdentifier t = true)
    (other : Recognition.isNamePart c = false) : c ∉ t := by
  intro member
  rw [all_of_isIdentifier named c member] at other
  contradiction

theorem isIdentifier_of_isPlainName (plain : isPlainName t = true) : isIdentifier t = true := by
  obtain ⟨x, rest, rfl, start, all⟩ := exists_of_isPlainName plain
  exact isIdentifier_cons_iff.mpr ⟨start, fun c member => isNamePart_of_isPlain (all c member)⟩

/-! ### Patterns -/

namespace Recognition

theorem isGap_of_isNamePart {c : Char} (part : isNamePart c = true) : isGap c = false := by
  by_contra gapped
  rw [Bool.not_eq_false] at gapped
  simp only [isGap, Bool.or_eq_true, beq_iff_eq] at gapped
  rcases gapped with rfl | rfl
  · exact absurd part (by decide)
  · exact absurd part (by decide)

/-- A name does not begin with a gap, whatever follows it. -/
theorem isGap_head_eq_false (named : isIdentifier t = true) (back : Text) :
    ∀ x, (t ++ back).head? = some x → isGap x = false := by
  obtain ⟨x, rest, rfl, start, _⟩ := exists_of_isIdentifier named
  simp [isGap_of_isPlain (isPlain_of_isNameStart start)]

theorem takes_name (named : isIdentifier t = true)
    (stop : ∀ x, back.head? = some x → isNamePart x = false) : name.Takes front t back g g := by
  obtain ⟨x, rest, rfl, first, all⟩ := exists_of_isIdentifier named
  exact (takes_one first).next (takes_many all stop)

/-- A name is a front of the text that is an identifier. -/
theorem mem_ends_name {e : Cursor × Groups} (member : e ∈ name.ends (.between front back) g) :
    ∃ taken rest, back = taken ++ rest ∧ isIdentifier taken = true ∧
      e = (.between (front ++ taken) rest, g) := by
  obtain ⟨m, first, more⟩ := List.mem_flatMap.mp member
  cases back with
  | nil => simp [ends] at first
  | cons x back =>
    rw [ends_one_cons] at first
    split at first
    · next start =>
      obtain rfl := List.mem_singleton.mp first
      obtain ⟨taken, rest, rfl, all, rfl⟩ := mem_ends_many_one more
      exact ⟨x :: taken, rest, rfl, isIdentifier_cons_iff.mpr ⟨start, all⟩, by simp⟩
    · simp at first

/-- The class that a text declares has an identifier for a name. -/
theorem isIdentifier_of_className? {c : String} (declared : className? t = some c) :
    isIdentifier c.toList = true := by
  obtain ⟨m, found, named⟩ := Option.bind_eq_some_iff.mp declared
  obtain ⟨inner, read, rfl⟩ := Option.map_eq_some_iff.mp named
  obtain ⟨front, back, rfl, here⟩ := exists_of_find? found
  rw [matchAt?_eq] at here
  obtain ⟨e, first, rfl⟩ := Option.map_eq_some_iff.mp here
  have split : classDeclaration = all ([lineStart, gap, optional (next (word "export") space),
      optional (next (word "default") space), optional (next (word "abstract") space),
      word "class", space] ++ [group "name" name]) := rfl
  rw [split] at first
  obtain ⟨m, lead, last⟩ := mem_ends_all_append.mp (List.mem_of_head? first)
  obtain ⟨taken, rest, rfl, at_⟩ := mem_ends lead
  obtain ⟨e', inside, rfl⟩ := List.mem_map.mp last
  rw [at_] at inside
  obtain ⟨taken', rest', rfl, whole, rfl⟩ := mem_ends_name inside
  have taken_eq : taken' = inner := by
    simpa [Match.textOf?, List.lookup_cons, at_, Cursor.upTo_between] using read
  rwa [String.toList_ofList, ← taken_eq]

end Recognition

/-! ### Accessors -/

/-- The first character of a name raised is one of a name again, and a dollar sign only if it was
one. -/
theorem exists_raise_of_isNameStart (start : Recognition.isNameStart x = true) :
    ∃ d, Letter.raise x = [d] ∧ isPlain d = true ∧ (d = '$' → x = '$') := by
  obtain ⟨_, most⟩ := toNat_of_isPlain (isPlain_of_isNameStart start)
  obtain ⟨d, raised, plain⟩ := exists_raise_of_isPlain (isPlain_of_isNameStart start)
  refine ⟨d, raised, plain, fun dollar => ?_⟩
  have upper : x.toUpper = '$' := by
    simpa [Letter.raise_of_ascii (show x.toNat < 128 by omega), dollar] using raised
  by_cases small : 'a'.val ≤ x.val ∧ x.val ≤ 'z'.val
  · have least : 97 ≤ x.toNat := small.1
    have sum : (x.val + ('A'.val - 'a'.val)).toNat = (x.toNat + 4294967264) % 2 ^ 32 :=
      UInt32.toNat_add ..
    have code : x.toUpper.toNat = 36 := by rw [upper]; rfl
    have moved : x.toUpper = ⟨x.val + ('A'.val - 'a'.val), _⟩ := dif_pos small
    rw [moved] at code
    have := sum.symm.trans code
    omega
  · exact (dif_neg small).symm.trans upper

/-- A character of names is one of words unless it is a dollar sign. -/
theorem Recognition.isWord_of_isNamePart {c : Char} (part : Recognition.isNamePart c = true) (other : c ≠ '$') :
    Letter.isWord c = true := by
  simpa [Recognition.isNamePart, other] using part

namespace Naming

variable {className : String}

/-- The accessor of a class whose name is an identifier. -/
theorem exists_toList_accessor (named : isIdentifier className.toList = true) :
    ∃ d x rest, className.toList = x :: rest ∧
      (accessor className).toList = 'g' :: 'e' :: 't' :: d :: rest ∧ isPlain d = true ∧
        (d = '$' → x = '$') := by
  obtain ⟨x, rest, split, start, _⟩ := exists_of_isIdentifier named
  obtain ⟨d, raised, plain, dollar⟩ := exists_raise_of_isNameStart start
  exact ⟨d, x, rest, split, by simp [accessor, split, Letter.raiseFirst, raised], plain, dollar⟩

theorem isIdentifier_accessor (named : isIdentifier className.toList = true) :
    isIdentifier (accessor className).toList = true := by
  obtain ⟨d, x, rest, split, toList, plain, _⟩ := exists_toList_accessor named
  have all := (isIdentifier_cons_iff.mp (split ▸ named)).2
  rw [toList, isIdentifier_cons_iff]
  refine ⟨rfl, ?_⟩
  simp only [List.mem_cons]
  rintro c (rfl | rfl | rfl | member)
  · rfl
  · rfl
  · exact isNamePart_of_isPlain plain
  · exact all c member

/-- An accessor is a word if its class has no dollar sign. -/
theorem all_isWord_accessor (named : isIdentifier className.toList = true) (whole : '$' ∉ className.toList) :
    ∀ c ∈ (accessor className).toList, Letter.isWord c = true := by
  obtain ⟨d, x, rest, split, toList, plain, dollar⟩ := exists_toList_accessor named
  rw [split] at whole named
  rw [toList]
  simp only [List.mem_cons]
  rintro c (rfl | rfl | rfl | rfl | member)
  · rfl
  · rfl
  · rfl
  · refine Recognition.isWord_of_isNamePart (isNamePart_of_isPlain plain) fun same => whole ?_
    rw [dollar same]
    exact List.mem_cons_self
  · refine Recognition.isWord_of_isNamePart ((isIdentifier_cons_iff.mp named).2 c member) fun same => whole ?_
    exact List.mem_cons_of_mem _ (same ▸ member)

/-- An accessor ends in a word character if its class does not end in a dollar sign. -/
theorem any_isWord_getLast?_accessor (named : isIdentifier className.toList = true)
    (whole : className.toList.getLast? ≠ some '$') :
    (accessor className).toList.getLast?.any Letter.isWord = true := by
  obtain ⟨d, x, rest, split, toList, plain, dollar⟩ := exists_toList_accessor named
  rw [split] at whole named
  rcases List.eq_nil_or_concat rest with rfl | ⟨front, last, rfl⟩
  · rw [toList]
    refine Recognition.isWord_of_isNamePart (isNamePart_of_isPlain plain) fun same => whole ?_
    rw [dollar same]
    rfl
  · have last_eq : (accessor className).toList.getLast? = some last := by
      rw [toList, List.concat_eq_append]
      exact (List.getLast?_append_of_ne_nil ['g', 'e', 't', d] (by simp)).trans (by simp)
    rw [last_eq]
    refine Recognition.isWord_of_isNamePart ((isIdentifier_cons_iff.mp named).2 last (by simp)) fun same => whole ?_
    rw [same, List.concat_eq_append, ← List.cons_append, List.getLast?_concat]

/-! ### Fields -/

/-- The first character of a name in lower case is one of a name again. -/
theorem exists_lower_of_isNameStart (start : Recognition.isNameStart x = true) :
    ∃ d, Letter.lower x = [d] ∧ Recognition.isNameStart d = true := by
  obtain ⟨_, most⟩ := toNat_of_isPlain (isPlain_of_isNameStart start)
  refine ⟨x.toLower, Letter.lower_of_ascii (by omega), ?_⟩
  by_cases capital : x.isUpper = true
  · simp [Recognition.isNameStart, isAlpha_toLower capital]
  · have same : x.toLower = x := dif_neg fun bounds => capital (decide_eq_true bounds)
    rwa [same]

/-- The field of a class is an identifier if the prefix is one or is empty. -/
theorem isIdentifier_field {fieldPrefix : String}
    (prefixed : fieldPrefix = "" ∨ isIdentifier fieldPrefix.toList = true)
    (named : isIdentifier className.toList = true) :
    isIdentifier (field fieldPrefix className).toList = true := by
  obtain ⟨x, rest, split, start, parts⟩ := exists_of_isIdentifier named
  obtain ⟨d, lowered, start'⟩ := exists_lower_of_isNameStart start
  have text : (field fieldPrefix className).toList = fieldPrefix.toList ++ d :: rest := by
    simp [field, inStyle, lowerFirst, split, lowered]
  rw [text]
  rcases prefixed with rfl | prefixed
  · simpa using isIdentifier_cons_iff.mpr ⟨start', parts⟩
  · obtain ⟨y, more, split', start'', parts'⟩ := exists_of_isIdentifier prefixed
    rw [split', List.cons_append, isIdentifier_cons_iff]
    refine ⟨start'', fun c member => ?_⟩
    rcases List.mem_append.mp member with member | member
    · exact parts' c member
    · rcases List.mem_cons.mp member with rfl | member
      · exact isNamePart_of_isPlain (isPlain_of_isNameStart start')
      · exact parts c member

end Naming
end Registrar
