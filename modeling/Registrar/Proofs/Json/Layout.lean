import Mathlib.Data.List.DropRight
import Registrar.Json.Reader
import Registrar.Proofs.Json.Quoted

/-!
A value that has been laid out is read back. What stands behind a value in a layout is the end, a
comma or the end of a line, so no value is read further than it was written; `Returns` says that of
one value, and a list or an object returns when all that is in it does.
-/

namespace Registrar.Json

attribute [grind =] Value.layout readItems readMembers readValue

variable {t rest : Text} {v : Value} {fuel depth level : Nat}

/-! ### White space -/

/-- White space at the front of a text is skipped. -/
theorem skipGap_append {gap : Text} (blank : ∀ c ∈ gap, c = ' ' ∨ c = '\n') :
    skipGap (gap ++ t) = skipGap t := by
  refine List.dropWhile_append_of_pos fun c member => ?_
  rcases blank c member with rfl | rfl <;> rfl

/-- The end of a line and the spaces of the next one are skipped. -/
theorem skipGap_margin (level : Nat) (t : Text) : skipGap ('\n' :: (margin level ++ t)) = skipGap t := by
  have blank : ∀ c ∈ '\n' :: margin level, c = ' ' ∨ c = '\n' := by
    intro c member
    rcases List.mem_cons.mp member with rfl | member
    · exact .inr rfl
    · exact .inl (List.eq_of_mem_replicate member)
  have skipped := skipGap_append (t := t) blank
  exact skipped

theorem readValue_skipGap (fuel : Nat) (t : Text) : readValue fuel (skipGap t) = readValue fuel t := by
  have twice : skipGap (skipGap t) = skipGap t := List.dropWhile_idempotent ..
  cases fuel with
  | zero => rfl
  | succ fuel => rw [readValue, readValue, twice]

theorem readValue_margin (fuel level : Nat) (t : Text) :
    readValue fuel ('\n' :: (margin level ++ t)) = readValue fuel t := by
  rw [← readValue_skipGap, skipGap_margin, readValue_skipGap]

/-- A text that a value can be read from does not begin with the bracket that closes a list. -/
theorem not_closing_of_readValue {result : Value × Text} (found : readValue fuel t = some result)
    (rest : Text) : skipGap t ≠ ']' :: rest := by
  have refused : readValue fuel (']' :: rest) = none := by cases fuel <;> rfl
  intro begins
  rw [← readValue_skipGap, begins, refused] at found
  cases found

/-! ### What follows a value -/

/-- The text is at its end, or at a comma or the end of a line. -/
def Stops : Text → Prop
  | [] => True
  | c :: _ => c = ',' ∨ c = '\n'

theorem stops_comma (t : Text) : Stops (',' :: t) := .inl rfl

theorem stops_line (t : Text) : Stops ('\n' :: t) := .inr rfl

/-- Wherever a value stands in a layout with `depth` values inside one another, it is read back. -/
def Value.Returns (v : Value) (depth : Nat) : Prop :=
  ∀ fuel level rest, depth ≤ fuel → Stops rest →
    readValue fuel (v.layout level ++ rest) = some (v, rest)

theorem Value.Returns.mono {depth' : Nat} (returns : v.Returns depth) (le : depth ≤ depth') :
    v.Returns depth' :=
  fun fuel level rest enough => returns fuel level rest (le.trans enough)

/-! ### Numbers and strings -/

theorem head?_toDigits {n : Nat} (zero : (Nat.toDigits 10 n).head? = some '0') : n = 0 := by
  induction n using Nat.strongRecOn with
  | ind n ih =>
    by_cases small : n < 10
    · rw [Nat.toDigits_of_lt_base small] at zero
      have each : ∀ n < 10, some n.digitChar = some '0' → n = 0 := by decide
      exact each n small zero
    · rw [Nat.toDigits_of_base_le (by decide) (by omega),
        List.head?_append_of_ne_nil _ Nat.toDigits_ne_nil] at zero
      have := ih (n / 10) (by omega) zero
      omega

/-- All digits of a number are read, and nothing else. -/
theorem digits?_toDigits (n : Nat) (stops : Stops rest) :
    digits? (Nat.toDigits 10 n ++ rest) = some (Nat.toDigits 10 n, rest) := by
  have ended : rest.takeWhile Char.isDigit = [] := by
    match rest, stops with
    | [], _ => rfl
    | _ :: _, .inl rfl => rfl
    | _ :: _, .inr rfl => rfl
  have taken : (Nat.toDigits 10 n ++ rest).takeWhile Char.isDigit = Nat.toDigits 10 n := by
    rw [List.takeWhile_append_of_pos fun c member =>
      Nat.isDigit_of_mem_toDigits (by decide) (by decide) member, ended, List.append_nil]
  simp [digits?, taken, Nat.toDigits_ne_nil]

theorem whole?_toDigits (n : Nat) (stops : Stops rest) :
    whole? (Nat.toDigits 10 n ++ rest) = some (Nat.toDigits 10 n, rest) := by
  by_cases zero : n = 0
  · subst zero
    rfl
  · rw [whole?, digits?_toDigits n stops]
    intro tail begins
    have first := List.head?_append_of_ne_nil (Nat.toDigits 10 n) (Nat.toDigits_ne_nil) ▸
      congrArg List.head? begins
    exact zero (head?_toDigits first)

/-- A whole number is read back where it ends. -/
theorem readNumber_toDigits (n : Nat) (stops : Stops rest) :
    readNumber (Nat.toDigits 10 n ++ rest) = some (.ofNat n, rest) := by
  have unsigned : (Nat.toDigits 10 n).head? ≠ some '-' := by
    intro sign
    have := Nat.isDigit_of_mem_toDigits (c := '-') (by decide) (by decide)
      (List.mem_of_mem_head? sign)
    exact absurd this (by decide)
  have plain : fraction? rest = some ([], rest) ∧ exponent? rest = some ([], rest) := by
    match rest, stops with
    | [], _ => exact ⟨rfl, rfl⟩
    | _ :: _, .inl rfl => exact ⟨rfl, rfl⟩
    | _ :: _, .inr rfl => exact ⟨rfl, rfl⟩
  simp [readNumber, unsigned, whole?_toDigits n stops, plain, Value.ofNat]

/-- A text that begins with a digit is read as a number. -/
theorem readValue_digit {c : Char} (digit : c.isDigit = true) (fuel : Nat) (t : Text) :
    readValue (fuel + 1) (c :: t) = readNumber (c :: t) := by
  have solid : skipGap (c :: t) = c :: t := by
    refine List.dropWhile_cons_of_neg ?_
    rintro gap
    simp only [Bool.or_eq_true, beq_iff_eq] at gap
    rcases gap with ((rfl | rfl) | rfl) | rfl <;> cases digit
  rw [readValue, solid]
  split
  case h_7 => rfl
  all_goals
    rename_i begins
    cases begins
    cases digit

theorem returns_ofNat (n : Nat) : (Value.ofNat n).Returns 1 := by
  intro fuel level rest enough stops
  obtain ⟨fuel, rfl⟩ : ∃ f, fuel = f + 1 := ⟨fuel - 1, by omega⟩
  obtain ⟨c, tail, digits⟩ := List.exists_cons_of_ne_nil (Nat.toDigits_ne_nil (n := n) (b := 10))
  have digit : c.isDigit = true :=
    Nat.isDigit_of_mem_toDigits (n := n) (b := 10) (by decide) (by decide) (by simp [digits])
  have read := readNumber_toDigits n stops
  rw [digits, List.cons_append, ← readValue_digit digit fuel] at read
  rwa [Value.ofNat, Value.layout, digits, List.cons_append, ← digits]

theorem returns_ofString (s : String) : (Value.ofString s).Returns 1 := by
  intro fuel level rest enough stops
  obtain ⟨fuel, rfl⟩ : ∃ f, fuel = f + 1 := ⟨fuel - 1, by omega⟩
  have written : (Value.ofString s).layout level ++ rest = '"' :: (escaped s ++ '"' :: rest) := by
    simp [Value.ofString, Value.layout, quoted]
  have solid : skipGap ('"' :: (escaped s ++ '"' :: rest)) = '"' :: (escaped s ++ '"' :: rest) := rfl
  rw [written, readValue, solid]
  simp [cutQuoted?_escaped, Value.ofString]

/-! ### Lists and objects -/

/-- The lines of a block with what closes it. -/
def closed (level : Nat) (closing : Char) (lines : List Text) (rest : Text) : Text :=
  '\n' :: (Text.join [',', '\n'] (lines.map (margin (level + 1) ++ ·)) ++
    '\n' :: (margin level ++ closing :: rest))

theorem block_append {lines : List Text} (nonempty : lines ≠ []) (opening closing : Char) :
    block level opening closing lines ++ rest = opening :: closed level closing lines rest := by
  simp [block, closed, nonempty]

/-- A block of one line ends behind it. -/
theorem closed_singleton (closing : Char) (line : Text) :
    closed level closing [line] rest =
      '\n' :: (margin (level + 1) ++ (line ++ '\n' :: (margin level ++ closing :: rest))) := by
  simp [closed, Text.join]

/-- Behind the first of several lines there is a comma, and then the others. -/
theorem closed_cons (closing : Char) (line : Text) {lines : List Text} (nonempty : lines ≠ []) :
    closed level closing (line :: lines) rest =
      '\n' :: (margin (level + 1) ++ (line ++ ',' :: closed level closing lines rest)) := by
  obtain ⟨next, lines, rfl⟩ := List.exists_cons_of_ne_nil nonempty
  simp [closed, Text.join, List.intercalate_cons_cons]

/-- There are not more lines than characters. -/
theorem length_closed (level : Nat) (closing : Char) (lines : List Text) (rest : Text) :
    lines.length ≤ (closed level closing lines rest).length := by
  induction lines with
  | nil => exact Nat.zero_le _
  | cons line lines ih =>
    by_cases last : lines = []
    · simp [closed, last]
    · rw [closed_cons closing line last]
      simp only [List.length_cons, List.length_append]
      omega

@[simp] theorem length_layoutItems (level : Nat) (items : List Value) :
    (layoutItems level items).length = items.length := by
  induction items with
  | nil => rfl
  | cons v items ih => simp [layoutItems, ih]

@[simp] theorem length_layoutMembers (level : Nat) (members : List (Text × Value)) :
    (layoutMembers level members).length = members.length := by
  induction members with
  | nil => rfl
  | cons m members ih => simp [layoutMembers, ih]

section Steps

variable {read : Text → Option (Value × Text)} {room : Nat} {after tail : Text}

theorem readItems_of_closing (first : read t = some (v, after)) (ended : skipGap after = ']' :: rest) :
    readItems read (room + 1) t = some ([v], rest) := by
  simp [readItems, first, ended]

theorem readItems_of_comma (first : read t = some (v, after)) (more : skipGap after = ',' :: tail) :
    readItems read (room + 1) t =
      (readItems read room tail).map fun (items, rest) => (v :: items, rest) := by
  cases later : readItems read room tail with
  | none => simp [readItems, first, more, later]
  | some found => simp [readItems, first, more, later]

/-- Items can be read only where a value can. -/
theorem exists_of_readItems {n : Nat} {result : List Value × Text}
    (found : readItems read n t = some result) : ∃ first, read t = some first := by
  cases n with
  | zero => cases found
  | succ n =>
    obtain ⟨first, is, _⟩ := Option.bind_eq_some_iff.mp found
    exact ⟨first, is⟩

/-- Members can be read only where a name begins. -/
theorem exists_of_readMembers {n : Nat} {result : List (Text × Value) × Text}
    (found : readMembers read n t = some result) : ∃ tail, skipGap t = '"' :: tail := by
  cases n with
  | zero => cases found
  | succ n =>
    rw [readMembers] at found
    split at found
    · next tail named => exact ⟨tail, named⟩
    · cases found

/-- A member is its name between quotation marks, a colon and a value. -/
theorem readMembers_of_closing {s : String} (begins : skipGap t = quoted (escaped s) ++ ':' :: tail)
    (first : read tail = some (v, after)) (ended : skipGap after = '\x7d' :: rest) :
    readMembers read (room + 1) t = some ([(escaped s, v)], rest) := by
  have colon : skipGap (':' :: tail) = ':' :: tail := rfl
  have named : skipGap t = '"' :: (escaped s ++ '"' :: ':' :: tail) := by simp [begins, quoted]
  simp [readMembers, named, cutQuoted?_escaped, colon, first, ended]

theorem readMembers_of_comma {s : String} (begins : skipGap t = quoted (escaped s) ++ ':' :: tail)
    (first : read tail = some (v, after)) {others : Text} (more : skipGap after = ',' :: others) :
    readMembers read (room + 1) t =
      (readMembers read room others).map fun (members, rest) => ((escaped s, v) :: members, rest) := by
  have colon : skipGap (':' :: tail) = ':' :: tail := rfl
  have named : skipGap t = '"' :: (escaped s ++ '"' :: ':' :: tail) := by simp [begins, quoted]
  cases later : readMembers read room others with
  | none => simp [readMembers, named, cutQuoted?_escaped, colon, first, more, later]
  | some found => simp [readMembers, named, cutQuoted?_escaped, colon, first, more, later]

end Steps

theorem readItems_closed {items : List Value} (nonempty : items ≠ [])
    (each : ∀ v ∈ items, v.Returns depth) (enough : depth ≤ fuel) {room : Nat}
    (fits : items.length ≤ room) (level : Nat) (rest : Text) :
    readItems (readValue fuel) room (closed level ']' (layoutItems (level + 1) items) rest) =
      some (items, rest) := by
  induction items generalizing room with
  | nil => contradiction
  | cons v items ih =>
    obtain ⟨room, rfl⟩ : ∃ n, room = n + 1 := ⟨room - 1, by simp at fits; omega⟩
    have first := each v (by simp) fuel (level + 1)
    by_cases last : items = []
    · subst last
      have read := first _ enough (stops_line (margin level ++ ']' :: rest))
      rw [← readValue_margin _ (level + 1)] at read
      rw [layoutItems, layoutItems, closed_singleton]
      exact readItems_of_closing read (skipGap_margin level _)
    · have others : layoutItems (level + 1) items ≠ [] := by
        simpa [← List.length_eq_zero_iff] using last
      have read := first _ enough (stops_comma (closed level ']' (layoutItems (level + 1) items) rest))
      rw [← readValue_margin _ (level + 1)] at read
      rw [layoutItems, closed_cons _ _ others, readItems_of_comma read rfl,
        ih last (fun v member => each v (by simp [member])) (by simpa using fits)]
      rfl

theorem readMembers_closed {members : List (Text × Value)} (nonempty : members ≠ [])
    (each : ∀ m ∈ members, (∃ s, m.1 = escaped s) ∧ m.2.Returns depth) (enough : depth ≤ fuel)
    {room : Nat} (fits : members.length ≤ room) (level : Nat) (rest : Text) :
    readMembers (readValue fuel) room
        (closed level '\x7d' (layoutMembers (level + 1) members) rest) =
      some (members, rest) := by
  induction members generalizing room with
  | nil => contradiction
  | cons m members ih =>
    obtain ⟨room, rfl⟩ : ∃ n, room = n + 1 := ⟨room - 1, by simp at fits; omega⟩
    obtain ⟨name, v⟩ := m
    obtain ⟨⟨s, rfl⟩, returns⟩ := each _ (List.mem_cons_self ..)
    have first := returns fuel (level + 1)
    -- The space behind the colon is white space in front of the value.
    have spaced : ∀ tail : Text, readValue fuel (' ' :: tail) = readValue fuel tail := fun tail => by
      rw [← readValue_skipGap, ← readValue_skipGap fuel tail]
      rfl
    by_cases last : members = []
    · subst last
      have read := first _ enough (stops_line (margin level ++ '\x7d' :: rest))
      rw [← spaced] at read
      rw [layoutMembers, layoutMembers, closed_singleton]
      refine readMembers_of_closing ?_ read (skipGap_margin level _)
      rw [skipGap_margin]
      simp [quoted, skipGap]
    · have others : layoutMembers (level + 1) members ≠ [] := by
        simpa [← List.length_eq_zero_iff] using last
      have read := first _ enough
        (stops_comma (closed level '\x7d' (layoutMembers (level + 1) members) rest))
      rw [← spaced] at read
      rw [layoutMembers, closed_cons _ _ others, readMembers_of_comma ?_ read rfl,
        ih last (fun m member => each m (by simp [member])) (by simpa using fits)]
      · rfl
      · rw [skipGap_margin]
        simp [quoted, skipGap]

/-- A list is read back when its items are. -/
theorem returns_array {items : List Value} (each : ∀ v ∈ items, v.Returns depth) :
    (Value.array items).Returns (depth + 1) := by
  intro fuel level rest enough stops
  obtain ⟨fuel, rfl⟩ : ∃ f, fuel = f + 1 := ⟨fuel - 1, by omega⟩
  cases items with
  | nil => rfl
  | cons v items =>
    have lines : layoutItems (level + 1) (v :: items) ≠ [] := by simp [layoutItems]
    have count := length_closed level ']' (layoutItems (level + 1) (v :: items)) rest
    rw [length_layoutItems] at count
    have read := readItems_closed (by simp) each (Nat.le_of_succ_le_succ enough)
      (Nat.le_succ_of_le count) level rest
    have begins : skipGap ('[' :: closed level ']' (layoutItems (level + 1) (v :: items)) rest) =
      '[' :: closed level ']' (layoutItems (level + 1) (v :: items)) rest := rfl
    rw [Value.layout, block_append lines, readValue, begins]
    simp only [read]
    split
    · next empty =>
      obtain ⟨first, found⟩ := exists_of_readItems read
      exact absurd empty (not_closing_of_readValue found _)
    · rfl

/-- An object is read back when its values are, under names that can be read. -/
theorem returns_object {members : List (Text × Value)}
    (each : ∀ m ∈ members, (∃ s, m.1 = escaped s) ∧ m.2.Returns depth) :
    (Value.object members).Returns (depth + 1) := by
  intro fuel level rest enough stops
  obtain ⟨fuel, rfl⟩ : ∃ f, fuel = f + 1 := ⟨fuel - 1, by omega⟩
  cases members with
  | nil => rfl
  | cons m members =>
    have lines : layoutMembers (level + 1) (m :: members) ≠ [] := by simp [layoutMembers]
    have count := length_closed level '\x7d' (layoutMembers (level + 1) (m :: members)) rest
    rw [length_layoutMembers] at count
    have read := readMembers_closed (by simp) each (Nat.le_of_succ_le_succ enough)
      (Nat.le_succ_of_le count) level rest
    have begins : skipGap
        ('\x7b' :: closed level '\x7d' (layoutMembers (level + 1) (m :: members)) rest) =
      '\x7b' :: closed level '\x7d' (layoutMembers (level + 1) (m :: members)) rest := rfl
    rw [Value.layout, block_append lines, readValue, begins]
    simp only [read]
    split
    · next empty =>
      obtain ⟨tail, named⟩ := exists_of_readMembers read
      rw [named] at empty
      cases empty
    · rfl

/-- A document is read back. -/
theorem read_text (returns : v.Returns depth) (shallow : depth ≤ v.text.length + 1) :
    read v.text = some v := by
  have found : readValue (v.text.length + 1) v.text = some (v, []) := by
    simpa [Value.text] using returns (v.text.length + 1) 0 [] shallow trivial
  rw [read, found]
  rfl

end Registrar.Json
