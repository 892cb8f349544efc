import Registrar.Json.Quoted

/-!
What is written between quotation marks is read back. A character is written as a piece of its own
that no quotation mark cuts short, so a string is read one character at a time.
-/

namespace Registrar.Json

attribute [grind =] cutQuoted? unescape? shortEscape?

variable {c : Char} {t : Text}

/-! ### Digits -/

theorem hexValue?_hexDigit {n : Nat} (small : n < 16) : hexValue? (hexDigit n) = some n := by
  have each : ∀ n < 16, hexValue? (hexDigit n) = some n := by decide
  exact each n small

/-- The code of a control character. -/
theorem code?_control {n : Nat} (control : n < 32) :
    code? '0' '0' (hexDigit (n / 16)) (hexDigit (n % 16)) = some n := by
  have high := hexValue?_hexDigit (n := n / 16) (by omega)
  have low := hexValue?_hexDigit (n := n % 16) (by omega)
  have zero : hexValue? '0' = some 0 := by decide
  simp [code?, high, low, zero]
  omega

/-! ### One character -/

/-- The ways in which a character is written: by a letter, by its code, or as it is. -/
theorem escape_cases (c : Char) :
    (∃ letter, letter ≠ 'u' ∧ shortEscape? letter = some c ∧ escape c = ['\\', letter]) ∨
    (c.toNat < 32 ∧
      escape c = ['\\', 'u', '0', '0', hexDigit (c.toNat / 16), hexDigit (c.toNat % 16)]) ∨
    (¬c.toNat < 32 ∧ c ≠ '"' ∧ c ≠ '\\' ∧ escape c = [c]) := by
  by_cases short : c ∈ ['"', '\\', '\x08', '\x0c', '\n', '\r', '\t']
  · refine .inl ?_
    simp only [List.mem_cons, List.not_mem_nil, or_false] at short
    rcases short with rfl | rfl | rfl | rfl | rfl | rfl | rfl
    · exact ⟨'"', by decide, rfl, rfl⟩
    · exact ⟨'\\', by decide, rfl, rfl⟩
    · exact ⟨'b', by decide, rfl, rfl⟩
    · exact ⟨'f', by decide, rfl, rfl⟩
    · exact ⟨'n', by decide, rfl, rfl⟩
    · exact ⟨'r', by decide, rfl, rfl⟩
    · exact ⟨'t', by decide, rfl, rfl⟩
  · simp only [List.mem_cons, List.not_mem_nil, or_false, not_or] at short
    obtain ⟨quote, slash, back, form, line, carriage, tab⟩ := short
    refine .inr ?_
    by_cases control : c.toNat < 32
    · exact .inl ⟨control, by simp [escape, *]⟩
    · exact .inr ⟨control, quote, slash, by simp [escape, *]⟩

theorem cutQuoted?_letter {letter : Char} (other : letter ≠ 'u') :
    cutQuoted? ('\\' :: letter :: t) =
      if (shortEscape? letter).isSome then
        (cutQuoted? t).map fun (raw, rest) => ('\\' :: letter :: raw, rest)
      else none := by
  rw [cutQuoted?]
  simp [other]

theorem cutQuoted?_code {a b c d : Char} :
    cutQuoted? ('\\' :: 'u' :: a :: b :: c :: d :: t) =
      if (code? a b c d).isSome then
        (cutQuoted? t).map fun (raw, rest) => ('\\' :: 'u' :: a :: b :: c :: d :: raw, rest)
      else none := by
  rw [cutQuoted?]

theorem cutQuoted?_plain (printed : ¬c.toNat < 32) (quote : c ≠ '"') (slash : c ≠ '\\') :
    cutQuoted? (c :: t) = (cutQuoted? t).map fun (raw, rest) => (c :: raw, rest) := by
  rw [cutQuoted?]
  · simp [printed, slash]
  all_goals simp_all

/-- A character is read as it was written, and no quotation mark is found in it. -/
theorem cutQuoted?_escape (c : Char) (t : Text) :
    cutQuoted? (escape c ++ t) = (cutQuoted? t).map fun (raw, rest) => (escape c ++ raw, rest) := by
  rcases escape_cases c with ⟨letter, other, known, is⟩ | ⟨control, is⟩ | ⟨printed, quote, slash, is⟩
  · rw [is]
    exact (cutQuoted?_letter other).trans (by simp [known])
  · rw [is]
    exact cutQuoted?_code.trans (by simp [code?_control control])
  · rw [is]
    exact cutQuoted?_plain printed quote slash

theorem unescape?_letter {letter : Char} (other : letter ≠ 'u') :
    unescape? ('\\' :: letter :: t) =
      match shortEscape? letter with
      | some x => (unescape? t).map (x :: ·)
      | none => none := by
  rw [unescape?]
  all_goals first | rfl | simp [other]

/-- A code that is no half of a pair stands for a character alone, whatever follows it. -/
theorem unescape?_code {a b c d : Char} {n : Nat} (code : code? a b c d = some n)
    (low : n < 0xd800) :
    unescape? ('\\' :: 'u' :: a :: b :: c :: d :: t) = (unescape? t).map (Char.ofNat n :: ·) := by
  have whole : isHigh n = false ∧ isLow n = false := by
    simp only [isHigh, isLow, Bool.and_eq_false_iff, decide_eq_false_iff_not]
    omega
  by_cases pair : ∃ e f g h rest, t = '\\' :: 'u' :: e :: f :: g :: h :: rest
  · obtain ⟨e, f, g, h, rest, rfl⟩ := pair
    rw [unescape?]
    simp [code, whole]
  · rw [unescape?]
    · simp [code, whole]
    · rintro e f g h rest rfl
      exact pair ⟨e, f, g, h, rest, rfl⟩

theorem unescape?_plain (slash : c ≠ '\\') :
    unescape? (c :: t) = (unescape? t).map (c :: ·) := by
  rw [unescape?]
  all_goals simp [slash]

/-- A written character stands for itself. -/
theorem unescape?_escape (c : Char) (t : Text) :
    unescape? (escape c ++ t) = (unescape? t).map (c :: ·) := by
  rcases escape_cases c with ⟨letter, other, known, is⟩ | ⟨control, is⟩ | ⟨_, _, slash, is⟩
  · rw [is]
    exact (unescape?_letter other).trans (by simp [known])
  · rw [is]
    exact (unescape?_code (code?_control control) (by omega)).trans (by rw [Char.ofNat_toNat]; rfl)
  · rw [is]
    exact unescape?_plain slash

/-! ### Strings -/

/-- A string ends at the quotation mark behind it. -/
theorem cutQuoted?_escaped (s : String) (rest : Text) :
    cutQuoted? (escaped s ++ '"' :: rest) = some (escaped s, rest) := by
  rw [escaped]
  induction s.toList with
  | nil => rfl
  | cons c tail ih => rw [List.flatMap_cons, List.append_assoc, cutQuoted?_escape, ih]; rfl

/-- A written string stands for the string that was written. -/
theorem unescape?_escaped (s : String) : unescape? (escaped s) = some s.toList := by
  rw [escaped]
  induction s.toList with
  | nil => rfl
  | cons c tail ih => rw [List.flatMap_cons, unescape?_escape, ih]; rfl

end Registrar.Json
