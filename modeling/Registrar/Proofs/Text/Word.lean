import Registrar.Letter.Word
import Registrar.Proofs.Naming
import Registrar.Proofs.Text.Search
import Registrar.Text.Line

/-!
Whole words in texts. A word stands in a text with no word character beside it, and stands there
still when more is put around the text, unless a word character comes next to it. A whole word of a
text stands in one of its lines.
-/

namespace Registrar

namespace Letter

variable {c : Char}

/-- No range of white space meets one of word characters. -/
theorem apart_of_mem_blankRanges : ∀ r ∈ blankRanges, ∀ r' ∈ wordRanges, r.2 < r'.1 ∨ r'.2 < r.1 := by
  decide +kernel

/-- White space is no part of a word. -/
theorem isWord_eq_false_of_isBlank (blank : isBlank c = true) : isWord c = false := by
  by_cases ascii : c.toNat < 128
  · have small : ∀ n < 128, isBlank (Char.ofNat n) = true → isWord (Char.ofNat n) = false := by
      decide +kernel
    have here := small c.toNat ascii
    rw [Char.ofNat_toNat] at here
    exact here blank
  · rw [Bool.eq_false_iff]
    intro word
    simp only [isBlank, Bool.or_eq_true, Bool.and_eq_true, beq_iff_eq, decide_eq_true_eq] at blank
    simp only [isWord, Bool.or_eq_true, Bool.and_eq_true, beq_iff_eq, decide_eq_true_eq] at word
    have large : 128 ≤ c.toNat ∧ inRanges blankRanges c.toNat = true := by
      rcases blank with (rfl | small) | large
      · exact absurd (by decide) ascii
      · omega
      · exact large
    have large' : 128 ≤ c.toNat ∧ inRanges wordRanges c.toNat = true := by
      rcases word with (small | rfl) | large
      · have := toNat_of_isPlain (isPlain_of_isAlphanum small)
        omega
      · exact absurd (by decide) ascii
      · exact large
    obtain ⟨r, known, inside⟩ := List.any_eq_true.mp large.2
    obtain ⟨r', known', inside'⟩ := List.any_eq_true.mp large'.2
    have apart := apart_of_mem_blankRanges r known r' known'
    simp only [Bool.and_eq_true, decide_eq_true_eq] at inside inside'
    omega

end Letter

namespace Text

variable {s t w front back piece : Text}

/-- The last character of a text, if there is one, is no part of a word. -/
def Closes (t : Text) : Prop := t.getLast?.any Letter.isWord = false

/-- The first character of a text, if there is one, is no part of a word. -/
def Opens (t : Text) : Prop := t.head?.any Letter.isWord = false

/-- The word stands in the text with no word character beside it. -/
def HasWord (t w : Text) : Prop := ∃ front back, t = front ++ w ++ back ∧ Closes front ∧ Opens back

/-- A text of word characters. -/
def IsWord (t : Text) : Prop := t ≠ [] ∧ ∀ c ∈ t, Letter.isWord c = true

theorem closes_nil : Closes [] := rfl

theorem opens_nil : Opens [] := rfl

theorem closes_concat {c : Char} (other : Letter.isWord c = false) (t : Text) : Closes (t ++ [c]) := by
  simp [Closes, other]

theorem opens_cons {c : Char} (other : Letter.isWord c = false) (t : Text) : Opens (c :: t) := by
  simp [Opens, other]

theorem closes_of_isBlank (blank : ∀ c ∈ t, Letter.isBlank c = true) : Closes t := by
  rcases List.eq_nil_or_concat' t with rfl | ⟨t, c, rfl⟩
  · exact closes_nil
  · exact closes_concat (Letter.isWord_eq_false_of_isBlank (blank c (by simp))) t

theorem opens_of_isBlank (blank : ∀ c ∈ t, Letter.isBlank c = true) : Opens t := by
  cases t with
  | nil => exact opens_nil
  | cons c t => exact opens_cons (Letter.isWord_eq_false_of_isBlank (blank c (by simp))) t

theorem Closes.append (first : Closes s) (second : Closes t) : Closes (s ++ t) := by
  rcases List.eq_nil_or_concat' t with rfl | ⟨t, c, rfl⟩
  · simpa using first
  · simpa [Closes] using second

theorem Closes.of_append (closes : Closes (s ++ t)) : Closes t := by
  rcases List.eq_nil_or_concat' t with rfl | ⟨t, c, rfl⟩
  · exact closes_nil
  · simpa [Closes] using closes

theorem Opens.append (first : Opens s) (second : Opens t) : Opens (s ++ t) := by
  cases s with
  | nil => exact second
  | cons c s => exact first

theorem Opens.of_append (opens : Opens (s ++ t)) : Opens s := by
  cases s with
  | nil => exact opens_nil
  | cons c s => exact opens

theorem hasWord_self (w : Text) : HasWord w w := ⟨[], [], by simp, closes_nil, opens_nil⟩

/-- A whole word of a part is one of the whole text, unless the part is cut out of a word. -/
theorem HasWord.append (has : HasWord s w) (closes : Closes front) (opens : Opens back) :
    HasWord (front ++ s ++ back) w := by
  obtain ⟨front', back', rfl, closes', opens'⟩ := has
  exact ⟨front ++ front', back' ++ back, by simp, closes.append closes', opens'.append opens⟩

/-- Trimming takes white space in front and behind. -/
theorem exists_trim (t : Text) : ∃ front back, t = front ++ trim t ++ back ∧
    (∀ c ∈ front, Letter.isBlank c = true) ∧ ∀ c ∈ back, Letter.isBlank c = true := by
  have front : t = t.takeWhile Letter.isBlank ++ trimFront t := List.takeWhile_append_dropWhile.symm
  have back : trimFront t =
      trim t ++ ((trimFront t).reverse.takeWhile Letter.isBlank).reverse := by
    rw [trim, trimBack, ← List.reverse_append, List.takeWhile_append_dropWhile, List.reverse_reverse]
  refine ⟨_, _, by rw [List.append_assoc, ← back, ← front], fun c member => ?_, fun c member => ?_⟩
  · exact List.all_eq_true.mp List.all_takeWhile c member
  · exact List.all_eq_true.mp List.all_takeWhile c (List.mem_reverse.mp member)

theorem HasWord.of_trim (has : HasWord (trim t) w) : HasWord t w := by
  obtain ⟨front, back, split, before_, after_⟩ := exists_trim t
  rw [split]
  exact has.append (closes_of_isBlank before_) (opens_of_isBlank after_)

/-- A piece of a split stands between separators, and the first one at the front. -/
theorem exists_of_splitOn {isSeparator : Char → Bool} {before_ after_ : List Text}
    (split : splitOn isSeparator t = before_ ++ piece :: after_) : ∃ front back,
      t = front ++ piece ++ back ∧ (front = [] ↔ before_ = []) ∧
        (∀ c ∈ front.getLast?, isSeparator c = true) ∧ ∀ c ∈ back.head?, isSeparator c = true := by
  induction t generalizing before_ piece with
  | nil =>
    obtain ⟨rfl, rfl, rfl⟩ : before_ = [] ∧ piece = [] ∧ after_ = [] := by
      cases before_ <;> simp_all [splitOn]
    exact ⟨[], [], by simp⟩
  | cons c rest ih =>
    rw [splitOn] at split
    cases pieces : splitOn isSeparator rest with
    | nil => exact absurd pieces (splitOn_ne_nil _ _)
    | cons first others =>
      rw [pieces] at ih split
      by_cases separator : isSeparator c = true
      · simp only [separator, if_true] at split
        cases before_ with
        | nil =>
          obtain ⟨rfl, -⟩ := List.cons.inj split
          exact ⟨[], c :: rest, by simp [separator]⟩
        | cons q before_ =>
          obtain ⟨front, back, rfl, _, closes, opens⟩ := ih (List.cons.inj split).2
          refine ⟨c :: front, back, by simp, by simp, fun d last => ?_, opens⟩
          cases front with
          | nil =>
            obtain rfl : c = d := by simpa using last
            exact separator
          | cons x front => exact closes d (by simpa [List.getLast?_cons_cons] using last)
      · simp only [separator, Bool.false_eq_true, if_false] at split
        cases before_ with
        | nil =>
          obtain ⟨rfl, rfl⟩ := List.cons.inj split
          obtain ⟨front, back, rfl, none_, _, opens⟩ := ih (List.nil_append _).symm
          obtain rfl := none_.mpr rfl
          exact ⟨[], back, by simp, by simp, by simp, opens⟩
        | cons q before_ =>
          obtain ⟨_, rfl⟩ := List.cons.inj split
          obtain ⟨front, back, rfl, none_, closes, opens⟩ := ih (List.cons_append ..).symm
          have some_ : front ≠ [] := fun empty => by simpa using none_.mp empty
          refine ⟨c :: front, back, by simp, by simp, fun d last => ?_, opens⟩
          rw [List.getLast?_cons_of_ne_nil some_] at last
          exact closes d last

/-- A whole word of a piece is one of the text, if separators are no parts of words. -/
theorem HasWord.of_mem_splitOn {isSeparator : Char → Bool}
    (apart : ∀ c, isSeparator c = true → Letter.isWord c = false)
    (member : piece ∈ splitOn isSeparator t) (has : HasWord piece w) : HasWord t w := by
  obtain ⟨before_, after_, split⟩ := List.append_of_mem member
  obtain ⟨front, back, rfl, _, closes, opens⟩ := exists_of_splitOn split
  refine has.append ?_ ?_
  · cases last : front.getLast? with
    | none => simp [Closes, last]
    | some c => simp [Closes, last, apart c (closes c last)]
  · cases head : back.head? with
    | none => simp [Opens, head]
    | some c => simp [Opens, head, apart c (opens c head)]

/-! ### Lines -/

/-- A piece without separators, with separators around it, is one of the split. -/
theorem mem_splitOn {isSeparator : Char → Bool} (whole : ∀ c ∈ piece, isSeparator c = false)
    (closes : front = [] ∨ ∃ f c, front = f ++ [c] ∧ isSeparator c = true)
    (opens : back = [] ∨ ∃ c b, back = c :: b ∧ isSeparator c = true) :
    piece ∈ splitOn isSeparator (front ++ piece ++ back) := by
  have here : piece ∈ splitOn isSeparator (piece ++ back) := by
    rcases opens with rfl | ⟨c, b, rfl, separator⟩
    · simp [splitOn_eq_singleton whole]
    · simp [splitOn_append_cons separator, splitOn_eq_singleton whole]
  rcases closes with rfl | ⟨f, c, rfl, separator⟩
  · simpa using here
  · have split : f ++ [c] ++ piece ++ back = f ++ c :: (piece ++ back) := by simp
    rw [split, splitOn_append_cons separator]
    exact List.mem_append_right _ here

theorem mem_lines {line : Text} (some_ : line ≠ []) (member : line ∈ splitOn (· == '\n') t) :
    line ∈ lines t ∨ withoutReturn line ∈ lines t := by
  rcases List.eq_nil_or_concat' (splitOn (· == '\n') t) with none_ | ⟨pieces, last, split⟩
  · exact absurd none_ (splitOn_ne_nil _ _)
  · rw [split] at member
    have unfolded : lines t =
        if last = [] then pieces.map withoutReturn else pieces.map withoutReturn ++ [last] := by
      rw [lines, split]
      cases last <;> simp
    rw [unfolded]
    rcases List.mem_append.mp member with member | member
    · right
      split
      · exact List.mem_map_of_mem member
      · exact List.mem_append_left _ (List.mem_map_of_mem member)
    · obtain rfl := List.mem_singleton.mp member
      left
      simp [some_]

theorem exists_first (isSeparator : Char → Bool) (t : Text) : ∃ front back, t = front ++ back ∧
    (back = [] ∨ ∃ c b, back = c :: b ∧ isSeparator c = true) ∧
      ∀ c ∈ front, isSeparator c = false := by
  induction t with
  | nil => exact ⟨[], [], by simp⟩
  | cons c rest ih =>
    cases separator : isSeparator c with
    | true => exact ⟨[], c :: rest, by simp [separator]⟩
    | false =>
      obtain ⟨front, back, rfl, begins, whole⟩ := ih
      exact ⟨c :: front, back, rfl, begins, List.forall_mem_cons.mpr ⟨separator, whole⟩⟩

theorem exists_last (isSeparator : Char → Bool) (t : Text) : ∃ front back, t = front ++ back ∧
    (front = [] ∨ ∃ f c, front = f ++ [c] ∧ isSeparator c = true) ∧
      ∀ c ∈ back, isSeparator c = false := by
  obtain ⟨front, back, split, begins, whole⟩ := exists_first isSeparator t.reverse
  refine ⟨back.reverse, front.reverse, by rw [← List.reverse_append, ← split, List.reverse_reverse],
    ?_, fun c member => whole c (List.mem_reverse.mp member)⟩
  refine begins.imp (fun none_ => by rw [none_, List.reverse_nil]) ?_
  rintro ⟨c, b, rfl, separator⟩
  exact ⟨b.reverse, c, List.reverse_cons, separator⟩

theorem eq_or_eq_concat_withoutReturn (line : Text) :
    withoutReturn line = line ∨ line = withoutReturn line ++ ['\r'] := by
  rw [withoutReturn, dropBack?]
  split
  · next ends =>
    obtain ⟨front, rfl⟩ := List.isSuffixOf_iff_suffix.mp ends
    right
    simp
  · exact .inl rfl

/-- A whole word of a text stands in one of its lines. -/
theorem HasWord.exists_mem_lines (word : IsWord w) (has : HasWord t w) :
    ∃ line ∈ lines t, HasWord line w := by
  obtain ⟨front, back, rfl, closes, opens⟩ := has
  have feed : ∀ c ∈ w, (c == '\n') = false := by
    intro c member
    rw [beq_eq_false_iff_ne]
    rintro rfl
    exact absurd (word.2 _ member) (by decide)
  -- The line reaches from the last line feed before the word to the first one behind it.
  obtain ⟨f, f', rfl, before_, whole⟩ : ∃ f f', front = f ++ f' ∧
      (f = [] ∨ ∃ g c, f = g ++ [c] ∧ (c == '\n') = true) ∧ ∀ c ∈ f', (c == '\n') = false :=
    exists_last (· == '\n') front
  obtain ⟨b, b', rfl, after_, whole'⟩ : ∃ b b', back = b ++ b' ∧
      (b' = [] ∨ ∃ c g, b' = c :: g ∧ (c == '\n') = true) ∧ ∀ c ∈ b, (c == '\n') = false :=
    exists_first (· == '\n') back
  have has : HasWord (f' ++ w ++ b) w := ⟨f', b, rfl, closes.of_append, opens.of_append⟩
  have piece : f' ++ w ++ b ∈ splitOn (· == '\n') (f ++ f' ++ w ++ (b ++ b')) := by
    have inside : ∀ c ∈ f' ++ w ++ b, (c == '\n') = false := by
      intro c member
      rcases List.mem_append.mp member with member | member
      · rcases List.mem_append.mp member with member | member
        · exact whole c member
        · exact feed c member
      · exact whole' c member
    simpa using mem_splitOn inside before_ after_
  rcases mem_lines (by simp [word.1]) piece with line | line
  · exact ⟨_, line, has⟩
  · refine ⟨_, line, ?_⟩
    rcases eq_or_eq_concat_withoutReturn (f' ++ w ++ b) with same | ends
    · rwa [same]
    · -- The carriage return lies behind the word.
      generalize withoutReturn (f' ++ w ++ b) = short at ends
      rcases List.eq_nil_or_concat' b with rfl | ⟨b, x, rfl⟩
      · have last : (w.getLast word.1) = '\r' := by
          have := congrArg List.getLast? ends
          simpa [List.getLast?_append, List.getLast?_eq_some_getLast word.1] using this
        have inside := word.2 _ (List.getLast_mem word.1)
        rw [last] at inside
        exact absurd inside (by decide)
      · rw [← List.append_assoc] at ends
        rw [← (List.append_inj' ends rfl).1]
        exact ⟨f', b, rfl, closes.of_append, opens.of_append.of_append⟩

end Text
end Registrar
