import Registrar.Naming
import Registrar.Registry.Recognition

/-!
Names in generated source. A plain name is one that the patterns recognise as an identifier, and a
class name is a plain one that begins with a capital; the field and the accessor of a class are
plain names again, and they tell classes apart.
-/

namespace Registrar

/-- A character of a plain name. -/
def isPlain (c : Char) : Bool := c.isAlphanum || c == '_' || c == '$'

/-- A plain name: a letter or one of two signs, and then letters, digits and these signs. -/
def isPlainName : Text → Bool
  | [] => false
  | x :: rest => (x.isAlpha || x == '_' || x == '$') && rest.all isPlain

/-- The name of a class: a capital, and then letters and digits. -/
def isClassName : Text → Bool
  | [] => false
  | x :: rest => x.isUpper && rest.all Char.isAlphanum

/-! ### Characters -/

/-- The code points of the capitals. -/
theorem toNat_of_isUpper {c : Char} (h : c.isUpper = true) : 65 ≤ c.toNat ∧ c.toNat ≤ 90 := by
  have bounds : 'A'.val ≤ c.val ∧ c.val ≤ 'Z'.val := of_decide_eq_true h
  exact bounds

theorem isAlpha_of_isUpper {c : Char} (h : c.isUpper = true) : c.isAlpha = true := by
  show (c.isUpper || c.isLower) = true
  rw [h, Bool.true_or]

theorem isAlphanum_of_isUpper {c : Char} (h : c.isUpper = true) : c.isAlphanum = true := by
  show (c.isAlpha || c.isDigit) = true
  rw [isAlpha_of_isUpper h, Bool.true_or]

/-- The code points of the small letters. -/
theorem isLower_iff {c : Char} : c.isLower = true ↔ 97 ≤ c.toNat ∧ c.toNat ≤ 122 := by
  show (decide ('a'.val ≤ c.val) && decide (c.val ≤ 'z'.val)) = true ↔ _
  rw [Bool.and_eq_true, decide_eq_true_eq, decide_eq_true_eq]
  exact Iff.rfl

/-- The code points of the digits. -/
theorem toNat_of_isDigit {c : Char} (h : c.isDigit = true) : 48 ≤ c.toNat ∧ c.toNat ≤ 57 := by
  have bounds : (decide ('0'.val ≤ c.val) && decide (c.val ≤ '9'.val)) = true := h
  rw [Bool.and_eq_true, decide_eq_true_eq, decide_eq_true_eq] at bounds
  exact bounds

/-- All characters of plain names lie between two code points below 128. -/
theorem toNat_of_isPlain {c : Char} (h : isPlain c = true) : 36 ≤ c.toNat ∧ c.toNat ≤ 122 := by
  simp only [isPlain, Bool.or_eq_true, beq_iff_eq] at h
  rcases h with (h | rfl) | rfl
  · have kinds : ((c.isUpper || c.isLower) || c.isDigit) = true := h
    simp only [Bool.or_eq_true] at kinds
    rcases kinds with (upper | lower) | digit
    · have bounds := toNat_of_isUpper upper
      omega
    · have bounds := isLower_iff.mp lower
      omega
    · have bounds := toNat_of_isDigit digit
      omega
  · decide
  · decide

/-- A capital raised is itself. -/
theorem raise_of_isUpper {c : Char} (h : c.isUpper = true) : Letter.raise c = [c] := by
  obtain ⟨_, most⟩ := toNat_of_isUpper h
  have small : ¬('a'.val ≤ c.val ∧ c.val ≤ 'z'.val) := by
    rintro ⟨least, _⟩
    have : 97 ≤ c.toNat := least
    omega
  have same : c.toUpper = c := dif_neg small
  rw [Letter.raise_of_ascii (by omega), same]

theorem lower_of_isUpper {c : Char} (h : c.isUpper = true) : Letter.lower c = [c.toLower] := by
  obtain ⟨_, most⟩ := toNat_of_isUpper h
  exact Letter.lower_of_ascii (by omega)

/-- The small letter of a capital. -/
theorem toNat_toLower {c : Char} (h : c.isUpper = true) : c.toLower.toNat = c.toNat + 32 := by
  obtain ⟨least, most⟩ := toNat_of_isUpper h
  have capital : c.val ≥ 'A'.val ∧ c.val ≤ 'Z'.val := ⟨least, most⟩
  have sum : (c.val + ('a'.val - 'A'.val)).toNat = (c.toNat + 32) % 2 ^ 32 := UInt32.toNat_add ..
  have code : c.toLower.toNat = (c.val + ('a'.val - 'A'.val)).toNat :=
    congrArg Char.toNat (dif_pos capital)
  exact (code.trans sum).trans (Nat.mod_eq_of_lt (by omega))

theorem isAlpha_toLower {c : Char} (h : c.isUpper = true) : c.toLower.isAlpha = true := by
  obtain ⟨least, most⟩ := toNat_of_isUpper h
  have small : 97 ≤ c.toLower.toNat ∧ c.toLower.toNat ≤ 122 := by
    rw [toNat_toLower h]
    omega
  have lower := isLower_iff.mpr small
  show (c.toLower.isUpper || c.toLower.isLower) = true
  rw [lower, Bool.or_true]

/-- Capitals that are the same in lower case are the same. -/
theorem toLower_inj {c d : Char} (hc : c.isUpper = true) (hd : d.isUpper = true)
    (same : c.toLower = d.toLower) : c = d := by
  have codes := congrArg Char.toNat same
  rw [toNat_toLower hc, toNat_toLower hd] at codes
  exact Char.toNat_inj.mp (by omega)

theorem isPlain_of_isAlphanum {c : Char} (h : c.isAlphanum = true) : isPlain c = true := by
  simp [isPlain, h]

/-- A character of a name is none that is not. -/
theorem ne_of_isPlain {c d : Char} (hc : isPlain c = true) (hd : isPlain d = false) : c ≠ d := by
  rintro rfl
  simp [hc] at hd

/-- A character of a name raised is one again. -/
theorem exists_raise_of_isPlain {c : Char} (h : isPlain c = true) :
    ∃ d, Letter.raise c = [d] ∧ isPlain d = true := by
  obtain ⟨_, most⟩ := toNat_of_isPlain h
  refine ⟨c.toUpper, Letter.raise_of_ascii (by omega), ?_⟩
  by_cases small : 'a'.val ≤ c.val ∧ c.val ≤ 'z'.val
  · have least : 97 ≤ c.toNat := small.1
    have code : c.toUpper.toNat = c.toNat - 32 := by
      have sum : (c.val + ('A'.val - 'a'.val)).toNat = (c.toNat + 4294967264) % 2 ^ 32 :=
        UInt32.toNat_add ..
      have raised : c.toUpper = ⟨c.val + ('A'.val - 'a'.val), _⟩ := dif_pos small
      rw [raised]
      refine sum.trans ?_
      omega
    have capital : c.toUpper.isUpper = true := by
      have bounds : 65 ≤ c.toUpper.toNat ∧ c.toUpper.toNat ≤ 90 := by omega
      exact decide_eq_true (show 'A'.val ≤ c.toUpper.val ∧ c.toUpper.val ≤ 'Z'.val from bounds)
    exact isPlain_of_isAlphanum (isAlphanum_of_isUpper capital)
  · have same : c.toUpper = c := dif_neg small
    rwa [same]

theorem isBlank_of_isPlain {c : Char} (h : isPlain c = true) : Letter.isBlank c = false := by
  obtain ⟨least, most⟩ := toNat_of_isPlain h
  have space : c ≠ ' ' := ne_of_isPlain h rfl
  have control : ¬c.toNat ≤ 13 := by omega
  have high : ¬128 ≤ c.toNat := by omega
  simp [Letter.isBlank, space, control, high]

theorem isNamePart_of_isPlain {c : Char} (h : isPlain c = true) : Recognition.isNamePart c = true := by
  simp only [isPlain, Bool.or_eq_true, beq_iff_eq] at h
  rcases h with (h | rfl) | rfl
  · simp [Recognition.isNamePart, Letter.isWord_of_isAlphanum h]
  · rfl
  · rfl

/-! ### Plain names -/

variable {t : Text}

theorem all_of_isPlainName (h : isPlainName t = true) : ∀ c ∈ t, isPlain c = true := by
  cases t with
  | nil => simp [isPlainName] at h
  | cons x rest =>
    simp only [isPlainName, Bool.and_eq_true, Bool.or_eq_true, beq_iff_eq, List.all_eq_true] at h
    intro c member
    rcases List.mem_cons.mp member with rfl | member
    · rcases h.1 with (letter | rfl) | rfl
      · exact isPlain_of_isAlphanum (by simp [Char.isAlphanum, letter])
      · rfl
      · rfl
    · exact h.2 c member

theorem ne_nil_of_isPlainName (h : isPlainName t = true) : t ≠ [] := by
  rintro rfl
  simp [isPlainName] at h

/-- A character that no name has is in none. -/
theorem not_mem_of_isPlainName {c : Char} (h : isPlainName t = true) (other : isPlain c = false) :
    c ∉ t := by
  intro member
  exact ne_of_isPlain (all_of_isPlainName h c member) other rfl

theorem exists_of_isPlainName (h : isPlainName t = true) : ∃ x rest, t = x :: rest ∧
    Recognition.isNameStart x = true ∧ ∀ c ∈ rest, isPlain c = true := by
  cases t with
  | nil => simp [isPlainName] at h
  | cons x rest =>
    simp only [isPlainName, Bool.and_eq_true, List.all_eq_true] at h
    exact ⟨x, rest, rfl, h.1, h.2⟩

/-- Plain characters in front of a plain name give a plain name if they begin like one. -/
theorem isPlainName_append {s : Text} (front : isPlainName s = true)
    (all : ∀ c ∈ t, isPlain c = true) : isPlainName (s ++ t) = true := by
  cases s with
  | nil => simp [isPlainName] at front
  | cons x rest =>
    simp only [isPlainName, Bool.and_eq_true, List.all_eq_true] at front
    simp only [List.cons_append, isPlainName, Bool.and_eq_true, List.all_eq_true]
    refine ⟨front.1, fun c member => ?_⟩
    rcases List.mem_append.mp member with member | member
    · exact front.2 c member
    · exact all c member

/-! ### Class names -/

theorem isClassName_iff : isClassName t = true ↔
    ∃ x rest, t = x :: rest ∧ x.isUpper = true ∧ ∀ c ∈ rest, c.isAlphanum = true := by
  cases t with
  | nil => simp [isClassName]
  | cons x rest =>
    simp only [isClassName, Bool.and_eq_true, List.all_eq_true, List.cons.injEq]
    refine ⟨fun h => ⟨x, rest, ⟨rfl, rfl⟩, h⟩, ?_⟩
    rintro ⟨_, _, ⟨rfl, rfl⟩, h⟩
    exact h

theorem isPlainName_of_isClassName (h : isClassName t = true) : isPlainName t = true := by
  obtain ⟨x, rest, rfl, capital, all⟩ := isClassName_iff.mp h
  simp only [isPlainName, Bool.and_eq_true, Bool.or_eq_true, List.all_eq_true]
  exact ⟨.inl (.inl (isAlpha_of_isUpper capital)),
    fun c member => isPlain_of_isAlphanum (all c member)⟩

/-- A class name raised is itself. -/
theorem raiseFirst_of_isClassName (h : isClassName t = true) : Letter.raiseFirst t = t := by
  obtain ⟨x, rest, rfl, capital, _⟩ := isClassName_iff.mp h
  simp [Letter.raiseFirst, raise_of_isUpper capital]

/-- A plain name raised still has plain characters only. -/
theorem all_raiseFirst (h : isPlainName t = true) : ∀ c ∈ Letter.raiseFirst t, isPlain c = true := by
  have all := all_of_isPlainName h
  cases t with
  | nil => simp [Letter.raiseFirst]
  | cons x rest =>
    obtain ⟨d, raised, plain⟩ := exists_raise_of_isPlain (all x (by simp))
    intro c member
    rw [Letter.raiseFirst, raised, List.singleton_append] at member
    rcases List.mem_cons.mp member with rfl | member
    · exact plain
    · exact all c (by simp [member])

theorem isPlainName_lowerFirst (h : isClassName t = true) :
    isPlainName (Naming.lowerFirst t) = true := by
  obtain ⟨x, rest, rfl, capital, all⟩ := isClassName_iff.mp h
  simp only [Naming.lowerFirst, lower_of_isUpper capital, List.singleton_append, isPlainName,
    Bool.and_eq_true, Bool.or_eq_true, List.all_eq_true]
  exact ⟨.inl (.inl (isAlpha_toLower capital)),
    fun c member => isPlain_of_isAlphanum (all c member)⟩

theorem lowerFirst_inj {s : Text} (hs : isClassName s = true) (ht : isClassName t = true)
    (same : Naming.lowerFirst s = Naming.lowerFirst t) : s = t := by
  obtain ⟨x, rest, rfl, capital, _⟩ := isClassName_iff.mp hs
  obtain ⟨y, rest', rfl, capital', _⟩ := isClassName_iff.mp ht
  simp only [Naming.lowerFirst, lower_of_isUpper capital, lower_of_isUpper capital',
    List.singleton_append, List.cons.injEq] at same
  rw [toLower_inj capital capital' same.1, same.2]

namespace Naming

variable {fieldPrefix className other : String}

theorem toList_accessor (h : isClassName className.toList = true) :
    (accessor className).toList = 'g' :: 'e' :: 't' :: className.toList := by
  simp [accessor, raiseFirst_of_isClassName h]

/-- Classes with the same accessor are the same. -/
theorem accessor_inj (h : isClassName className.toList = true)
    (h' : isClassName other.toList = true) (same : accessor className = accessor other) :
    className = other := by
  have lists := congrArg String.toList same
  rw [toList_accessor h, toList_accessor h'] at lists
  exact String.toList_inj.mp (by simpa using lists)

/-- Classes with the same field are the same. -/
theorem field_inj (h : isClassName className.toList = true)
    (h' : isClassName other.toList = true)
    (same : field fieldPrefix className = field fieldPrefix other) : className = other := by
  have lists := congrArg String.toList same
  simp only [field, inStyle, String.toList_append, String.toList_ofList,
    List.append_cancel_left_eq] at lists
  exact String.toList_inj.mp (lowerFirst_inj h h' lists)

/-- The field of a class is a plain name. -/
theorem isPlainName_field (h : isClassName className.toList = true)
    (front : fieldPrefix = "" ∨ isPlainName fieldPrefix.toList = true) :
    isPlainName (field fieldPrefix className).toList = true := by
  have lowered := isPlainName_lowerFirst h
  rw [field, inStyle, String.toList_append, String.toList_ofList]
  rcases front with rfl | front
  · simpa using lowered
  · exact isPlainName_append front (all_of_isPlainName lowered)

theorem isPlainName_accessor (h : isClassName className.toList = true) :
    isPlainName (accessor className).toList = true := by
  rw [toList_accessor h]
  have front : isPlainName ['g', 'e', 't'] = true := rfl
  exact isPlainName_append front (all_of_isPlainName (isPlainName_of_isClassName h))

end Naming
end Registrar
