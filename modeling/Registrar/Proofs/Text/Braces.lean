import Mathlib.Data.List.Basic
import Registrar.Proofs.Text.Block
import Registrar.Proofs.Text.Insertion

/-!
Matching braces, byte by byte. The end of a block is described on the bytes of the text alone: a brace is
opened, and the bytes from it on that come first to as many braces that close as are open end with the
one that closes it. No byte of a longer character is that of a brace or of a line feed, so characters
never get in the way, and the end of the line behind the closing brace is a place of the text.
-/

namespace Registrar.Text

variable {s t : Text} {b : UInt8} {c : Char} {n depth place stop : Nat}

/-! ### Bytes -/

/-- The bytes of a text. -/
def bytes (t : Text) : List UInt8 := t.flatMap String.utf8EncodeChar

@[simp] theorem bytes_nil : bytes [] = [] := rfl

@[simp] theorem bytes_cons (c : Char) (t : Text) : bytes (c :: t) = String.utf8EncodeChar c ++ bytes t := rfl

@[simp] theorem bytes_append (s t : Text) : bytes (s ++ t) = bytes s ++ bytes t := List.flatMap_append

theorem length_bytes (t : Text) : (bytes t).length = t.size := by
  induction t with
  | nil => rfl
  | cons c t ih => rw [bytes_cons, List.length_append, String.length_utf8EncodeChar, ih, size_cons]

/-- The bytes of a longer character are above all those of short ones. -/
theorem le_of_mem_utf8EncodeChar (wide : ¬c.val ≤ 127) : ∀ b ∈ String.utf8EncodeChar c, 128 ≤ b.toNat := by
  have above : 127 < c.val.toNat := by
    rw [UInt32.le_iff_toNat_le] at wide
    simpa using wide
  intro b member
  simp only [String.utf8EncodeChar] at member
  split_ifs at member <;> simp only [List.mem_cons, List.not_mem_nil, or_false] at member
  · omega
  all_goals
    rcases member with rfl | rfl | rfl | rfl <;> simp <;> omega

theorem toNat_of_mem_utf8EncodeChar (ascii : b.toNat < 128) (member : b ∈ String.utf8EncodeChar c) :
    c.toNat = b.toNat := by
  by_cases short : c.val ≤ 127
  · rw [String.utf8EncodeChar_eq_singleton (Char.utf8Size_eq_one_iff.mpr short),
      List.mem_singleton] at member
    rw [member, UInt32.toNat_toUInt8]
    rw [UInt32.le_iff_toNat_le] at short
    exact (Nat.mod_eq_of_lt (Nat.lt_of_le_of_lt short (by decide))).symm
  · exact absurd (le_of_mem_utf8EncodeChar short b member) (by omega)

section
variable {d : Char} (short : String.utf8EncodeChar c = [b]) (ascii : b.toNat < 128)
include short ascii

/-- The byte of a short character is in no other one. -/
theorem eq_of_mem_utf8EncodeChar (member : b ∈ String.utf8EncodeChar d) : d = c := by
  have here := toNat_of_mem_utf8EncodeChar (c := c) ascii (by simp [short])
  rw [← Char.ofNat_toNat d, toNat_of_mem_utf8EncodeChar ascii member, ← here, Char.ofNat_toNat]

theorem count_utf8EncodeChar (other : d ≠ c) : (String.utf8EncodeChar d).count b = 0 :=
  List.count_eq_zero.mpr fun member => other (eq_of_mem_utf8EncodeChar short ascii member)

theorem count_bytes (t : Text) : (bytes t).count b = t.count c := by
  induction t with
  | nil => rfl
  | cons d t ih =>
    rw [bytes_cons, List.count_append, ih]
    by_cases same : d = c
    · rw [same, short, List.count_singleton_self, List.count_cons_self, Nat.add_comm]
    · rw [count_utf8EncodeChar short ascii same, List.count_cons_of_ne same, Nat.zero_add]

/-- The byte of a short character stands where the character does. -/
theorem exists_of_getElem?_bytes (at_ : (bytes t)[n]? = some b) :
    ∃ front back, t = front ++ c :: back ∧ n = size front := by
  induction t generalizing n with
  | nil => simp at at_
  | cons d t ih =>
    rw [bytes_cons] at at_
    by_cases inside : n < (String.utf8EncodeChar d).length
    · rw [List.getElem?_append_left inside] at at_
      obtain rfl := eq_of_mem_utf8EncodeChar short ascii (List.mem_of_getElem? at_)
      rw [short] at inside
      exact ⟨[], t, rfl, by simpa using inside⟩
    · rw [List.getElem?_append_right (by omega), String.length_utf8EncodeChar] at at_
      rw [String.length_utf8EncodeChar] at inside
      obtain ⟨front, back, rfl, place⟩ := ih at_
      exact ⟨d :: front, back, rfl, by rw [size_cons]; omega⟩

end

theorem utf8EncodeChar_opening : String.utf8EncodeChar '\x7b' = [0x7b] := rfl

theorem utf8EncodeChar_closing : String.utf8EncodeChar '\x7d' = [0x7d] := rfl

theorem utf8EncodeChar_feed : String.utf8EncodeChar '\n' = [10] := rfl

/-! ### Lines in the bytes -/

/-- Just past the line feed that ends the line of byte `n`, or the end of the bytes. -/
def lineStop (bs : List UInt8) (n : Nat) : Nat := min (n + (bs.drop n).idxOf 10 + 1) bs.length

theorem size_firstLine (t : Text) : size (firstLine t) = min ((bytes t).idxOf 10 + 1) t.size := by
  induction t with
  | nil => rfl
  | cons c t ih =>
    rw [firstLine, bytes_cons]
    split
    · next feed =>
      obtain rfl := eq_of_beq feed
      have feed_size : Char.utf8Size '\n' = 1 := rfl
      rw [utf8EncodeChar_feed, List.singleton_append, List.idxOf_cons_self, size_cons, size_cons, size_nil, feed_size]
      omega
    · next other =>
      have absent : (10 : UInt8) ∉ String.utf8EncodeChar c := fun member =>
        other (beq_iff_eq.mpr (eq_of_mem_utf8EncodeChar utf8EncodeChar_feed (by decide) member))
      rw [List.idxOf_append_of_notMem absent, String.length_utf8EncodeChar, size_cons, size_cons, ih]
      omega

/-- The end of a line is found on the bytes. -/
theorem IsPlace.lineEnd_eq (place : t.IsPlace n) : t.lineEnd n = lineStop (bytes t) n := by
  obtain ⟨front, back, rfl, rfl⟩ := place
  have dropped : (bytes front ++ bytes back).drop front.size = bytes back := by
    rw [← length_bytes, List.drop_left]
  rw [Text.lineEnd, after_size_append, size_firstLine, lineStop, length_bytes, bytes_append, dropped, size_append]
  omega

/-! ### Braces in the bytes -/

/-- As many braces are opened as are closed. -/
def Level (bs : List UInt8) : Prop := bs.count 0x7b = bs.count 0x7d

instance (bs : List UInt8) : Decidable (Level bs) := inferInstanceAs (Decidable (_ = _))

/-- The bytes do not come to as many closed braces as are open, not before their end. -/
def Open (bs : List UInt8) : Prop := ∀ p, p <+: bs → p ≠ [] → p ≠ bs → ¬Level p

/-- While the search goes on, more braces are open than closed, in whatever bytes have been read. -/
theorem count_lt_of_prefix (open_ : closing? depth t = none) (positive : 0 < depth) {q : List UInt8}
    (front : q <+: bytes t) : q.count 0x7d < depth + q.count 0x7b := by
  induction t generalizing depth q with
  | nil =>
    obtain rfl := List.prefix_nil.mp front
    simpa using positive
  | cons c t ih =>
    rw [← Option.isNone_iff_eq_none, ← Option.not_isSome, closing?_cons_isSome] at open_
    rw [bytes_cons] at front
    split_ifs at open_ with opens closes
    · subst opens
      rw [utf8EncodeChar_opening] at front
      rcases List.prefix_cons_iff.mp front with rfl | ⟨rest, rfl, tail⟩
      · simpa using positive
      · have later := ih (by simpa using open_) (Nat.succ_pos depth) tail
        rw [List.count_cons_self, List.count_cons_of_ne (by decide)]
        omega
    · subst closes
      simp only [Bool.not_or, Bool.and_eq_true, Bool.not_eq_true', decide_eq_false_iff_not] at open_
      rw [utf8EncodeChar_closing] at front
      rcases List.prefix_cons_iff.mp front with rfl | ⟨rest, rfl, tail⟩
      · simpa using positive
      · have later := ih (by simpa using open_.2) (by omega) tail
        rw [List.count_cons_self, List.count_cons_of_ne (by decide)]
        omega
    · have none_ := count_utf8EncodeChar utf8EncodeChar_opening (by decide) opens
      have none' := count_utf8EncodeChar utf8EncodeChar_closing (by decide) closes
      rcases List.prefix_or_prefix_of_prefix front (List.prefix_append ..) with short | ⟨rest, rfl⟩
      · have few := short.count_le 0x7d
        omega
      · have later := ih (by simpa using open_) positive ((List.prefix_append_right_inj _).mp front)
        simp only [List.count_append]
        omega

/-- The brace that is found closes those that are open, and no brace in front of it does. -/
theorem exists_of_closing? (found : closing? depth t = some n) (positive : 0 < depth) :
    ∃ u v, t = u ++ '\x7d' :: v ∧ n = size u + 1 ∧ closing? depth u = none ∧
      u.count '\x7d' + 1 = depth + u.count '\x7b' := by
  have width : Char.utf8Size '\x7d' = 1 := rfl
  induction t generalizing depth n with
  | nil => simp [closing?] at found
  | cons c t ih =>
    rw [closing?] at found
    split at found
    · next opens =>
      obtain rfl := eq_of_beq opens
      obtain ⟨k, inner, rfl⟩ := Option.map_eq_some_iff.mp found
      obtain ⟨u, v, rfl, rfl, open_, counts⟩ := ih inner (Nat.succ_pos depth)
      refine ⟨'\x7b' :: u, v, rfl, by rw [size_cons, Nat.add_assoc], by simp [closing?, open_], ?_⟩
      rw [List.count_cons_self, List.count_cons_of_ne (by decide)]
      omega
    · next other =>
      split at found
      · next closes =>
        obtain rfl := eq_of_beq closes
        split at found
        · next last =>
          obtain rfl := Option.some.inj found
          exact ⟨[], t, rfl, by rw [width, size_nil], rfl, by simp; omega⟩
        · next more =>
          obtain ⟨k, inner, rfl⟩ := Option.map_eq_some_iff.mp found
          obtain ⟨u, v, rfl, rfl, open_, counts⟩ := ih inner (by omega)
          refine ⟨'\x7d' :: u, v, rfl, by rw [size_cons, Nat.add_assoc], by
            simp [closing?, more, open_], ?_⟩
          rw [List.count_cons_self, List.count_cons_of_ne (by decide)]
          omega
      · next other' =>
        obtain ⟨k, inner, rfl⟩ := Option.map_eq_some_iff.mp found
        obtain ⟨u, v, rfl, rfl, open_, counts⟩ := ih inner positive
        refine ⟨c :: u, v, rfl, by rw [size_cons, Nat.add_assoc], by
          simp only [closing?, other, other', open_]; rfl, ?_⟩
        rw [List.count_cons_of_ne (by simpa using other'), List.count_cons_of_ne (by simpa using other)]
        exact counts

/-! ### A counter over the bytes -/

/-- The bytes up to the brace that brings a counter of open braces back to zero, itself included. When a
brace is closed and the counter is zero already, the search fails. -/
def countDown : Nat → List UInt8 → Except Unit (Option Nat)
  | _, [] => .ok none
  | depth, b :: rest =>
    if b = 0x7b then (countDown (depth + 1) rest).map (Option.map (1 + ·))
    else if b = 0x7d then
      if depth = 0 then .error ()
      else if depth = 1 then .ok (some 1)
      else (countDown (depth - 1) rest).map (Option.map (1 + ·))
    else (countDown depth rest).map (Option.map (1 + ·))

/-- Bytes without braces are passed over. -/
theorem countDown_append {bs : List UInt8} (unopened : 0x7b ∉ bs) (unclosed : 0x7d ∉ bs)
    (rest : List UInt8) :
    countDown depth (bs ++ rest) = (countDown depth rest).map (Option.map (bs.length + ·)) := by
  induction bs with
  | nil =>
    rw [List.nil_append]
    cases countDown depth rest with
    | error => rfl
    | ok closing => simp [Except.map]
  | cons b bs ih =>
    simp only [List.mem_cons, not_or] at unopened unclosed
    rw [List.cons_append, countDown, if_neg (Ne.symm unopened.1), if_neg (Ne.symm unclosed.1),
      ih unopened.2 unclosed.2]
    cases countDown depth rest with
    | error => rfl
    | ok closing =>
      simp only [Except.map, Option.map_map, List.length_cons, Function.comp_def, Nat.add_assoc,
        Nat.add_comm]

/-- With a brace open the counter does what the search does. -/
theorem countDown_bytes (positive : 0 < depth) : countDown depth (bytes t) = .ok (closing? depth t) := by
  induction t generalizing depth with
  | nil => rfl
  | cons c t ih =>
    rw [bytes_cons, closing?]
    split
    · next opens =>
      rw [eq_of_beq opens, utf8EncodeChar_opening, List.singleton_append, countDown, if_pos rfl,
        ih (Nat.succ_pos depth)]
      rfl
    · next other =>
      split
      · next closes =>
        rw [eq_of_beq closes, utf8EncodeChar_closing, List.singleton_append, countDown, if_neg (by decide),
          if_pos rfl, if_neg (Nat.ne_of_gt positive)]
        by_cases last : depth = 1
        · rw [if_pos last, if_pos (Nat.le_of_eq last)]
          rfl
        · rw [if_neg last, if_neg (by omega), ih (by omega)]
          rfl
      · next other' =>
        have unopened : (0x7b : UInt8) ∉ String.utf8EncodeChar c := fun member =>
          other (beq_iff_eq.mpr (eq_of_mem_utf8EncodeChar utf8EncodeChar_opening (by decide) member))
        have unclosed : (0x7d : UInt8) ∉ String.utf8EncodeChar c := fun member =>
          other' (beq_iff_eq.mpr (eq_of_mem_utf8EncodeChar utf8EncodeChar_closing (by decide) member))
        rw [countDown_append unopened unclosed, ih positive, String.length_utf8EncodeChar]
        rfl

/-! ### The end of a block -/

theorem blockEnd?_at (front rest : Text) : blockEnd? (front ++ '\x7b' :: rest) front.size =
    (closing? 1 rest).map fun n => lineEnd (front ++ '\x7b' :: rest) (front.size + 1 + n) := by
  rw [blockEnd?, before_size_append, if_neg (by simp), after_size_append]
  rfl

/-- A block begins at a brace. -/
theorem exists_of_blockEnd? (found : t.blockEnd? place = some stop) : ∃ front rest n,
    t = front ++ '\x7b' :: rest ∧ place = front.size ∧ closing? 1 rest = some n ∧
      stop = t.lineEnd (front.size + 1 + n) := by
  have whole := before_append_after place t
  rw [blockEnd?] at found
  split at found
  · simp at found
  · next reached =>
    split at found
    · simp at found
    · next c rest after_ =>
      split at found
      · next opens =>
        obtain rfl := eq_of_beq opens
        obtain ⟨n, closed, rfl⟩ := Option.map_eq_some_iff.mp found
        have size_eq : (t.before place).size = place := by simpa using reached
        rw [after_] at whole
        exact ⟨_, rest, n, whole.symm, size_eq.symm, closed, by rw [size_eq]; rfl⟩
      · simp at found

/-- The bytes that end a block: the first ones in which as many braces are closed as are opened. -/
structure FirstLevel (p bs : List UInt8) : Prop where
  some_ : p ≠ []
  front : p <+: bs
  level : Level p
  first : Open p

/-- The brace that is found ends the first bytes that are level. -/
theorem firstLevel_bytes {u : Text} (open_ : closing? 1 u = none)
    (counts : u.count '\x7d' + 1 = 1 + u.count '\x7b') (v : Text) :
    FirstLevel (bytes ('\x7b' :: (u ++ ['\x7d']))) (bytes ('\x7b' :: (u ++ '\x7d' :: v))) := by
  have text : bytes ('\x7b' :: (u ++ ['\x7d'])) = 0x7b :: (bytes u ++ [0x7d]) := by
    rw [bytes_cons, bytes_append, bytes_cons, utf8EncodeChar_opening, utf8EncodeChar_closing]
    rfl
  refine ⟨by simp [text], ⟨bytes v, by simp⟩, ?_, fun p front some_ short level => ?_⟩
  · rw [Level, count_bytes utf8EncodeChar_opening (by decide),
      count_bytes utf8EncodeChar_closing (by decide)]
    simp only [List.count_cons, List.count_append, List.count_nil, beq_iff_eq, Char.reduceEq, if_true,
      if_false]
    omega
  · rw [text] at front short
    rcases List.prefix_cons_iff.mp front with rfl | ⟨q, rfl, tail⟩
    · exact some_ rfl
    · rcases List.prefix_concat_iff.mp tail with rfl | inside
      · exact short rfl
      · have less := count_lt_of_prefix open_ (by decide) inside
        rw [Level, List.count_cons_self, List.count_cons_of_ne (by decide)] at level
        omega

theorem drop_bytes (front rest : Text) : (bytes (front ++ rest)).drop front.size = bytes rest := by
  rw [bytes_append, ← length_bytes, List.drop_left]

/-- A block that ends is one on the bytes, and its end is a place of the text behind the brace. -/
theorem exists_firstLevel_of_blockEnd? (found : t.blockEnd? place = some stop) : ∃ p,
    (bytes t)[place]? = some 0x7b ∧ FirstLevel p ((bytes t).drop place) ∧
      stop = lineStop (bytes t) (place + p.length) ∧ t.IsPlace (place + p.length) ∧ t.IsPlace stop ∧
        place < stop := by
  obtain ⟨front, rest, n, rfl, rfl, closed, rfl⟩ := exists_of_blockEnd? found
  obtain ⟨u, v, rfl, rfl, open_, counts⟩ := exists_of_closing? closed (by decide)
  have width : (bytes ('\x7b' :: (u ++ ['\x7d']))).length = 1 + (size u + 1) := by
    rw [length_bytes, size_cons, size_append]
    rfl
  have brace : IsPlace (front ++ '\x7b' :: (u ++ '\x7d' :: v)) (front.size + 1 + (size u + 1)) :=
    ⟨front ++ '\x7b' :: (u ++ ['\x7d']), v, by simp, by
      rw [size_append, ← length_bytes ('\x7b' :: _), width, Nat.add_assoc]⟩
  refine ⟨bytes ('\x7b' :: (u ++ ['\x7d'])), ?_, ?_, ?_, ?_, brace.lineEnd, ?_⟩
  · rw [bytes_append, ← length_bytes, List.getElem?_append_right (Nat.le_refl _), Nat.sub_self]
    rfl
  · rw [drop_bytes]
    exact firstLevel_bytes open_ counts v
  · rw [brace.lineEnd_eq, width, Nat.add_assoc]
  · rwa [width, ← Nat.add_assoc]
  · have behind := le_lineEnd (front ++ '\x7b' :: (u ++ '\x7d' :: v)) (front.size + 1 + (size u + 1))
    omega

/-- The end of a block is that of the line of its closing brace. On the bytes: a block has an end if a
brace is opened and bytes from it on are level, and then the first of them reach to the brace that closes
it; the end is a place of the text behind the brace. The bytes can be searched with a counter that starts
at zero and never falls below it. -/
theorem blockEnd?_matches (t : Text) (place : Nat) :
    ((t.blockEnd? place).isSome ↔ (bytes t)[place]? = some 0x7b ∧
      ∃ p, p ≠ [] ∧ p <+: (bytes t).drop place ∧ Level p) ∧
    (∀ stop, t.blockEnd? place = some stop → ∃ p, FirstLevel p ((bytes t).drop place) ∧
      stop = lineStop (bytes t) (place + p.length) ∧ t.IsPlace stop ∧ place < stop ∧ stop ≤ t.size) ∧
    ((bytes t)[place]? = some 0x7b → ∃ closing, countDown 0 ((bytes t).drop place) = .ok closing ∧
      t.blockEnd? place = closing.map fun n => t.lineEnd (place + n)) := by
  refine ⟨⟨fun some_ => ?_, fun ⟨at_, p, some_, front, level⟩ => ?_⟩, fun stop found => ?_,
    fun at_ => ?_⟩
  · obtain ⟨stop, found⟩ := Option.isSome_iff_exists.mp some_
    obtain ⟨p, at_, closes, -⟩ := exists_firstLevel_of_blockEnd? found
    exact ⟨at_, p, closes.some_, closes.front, closes.level⟩
  · obtain ⟨front', rest, rfl, rfl⟩ := exists_of_getElem?_bytes utf8EncodeChar_opening (by decide) at_
    rw [blockEnd?_at, Option.isSome_map]
    by_contra open_
    rw [drop_bytes, bytes_cons, utf8EncodeChar_opening] at front
    rcases List.prefix_cons_iff.mp front with rfl | ⟨q, rfl, inside⟩
    · exact some_ rfl
    · have less := count_lt_of_prefix (by simpa using open_) (by decide) inside
      rw [Level, List.count_cons_self, List.count_cons_of_ne (by decide)] at level
      omega
  · obtain ⟨p, -, closes, stop_eq, -, stop_place, behind⟩ := exists_firstLevel_of_blockEnd? found
    exact ⟨p, closes, stop_eq, stop_place, behind, stop_place.le⟩
  · obtain ⟨front, rest, rfl, rfl⟩ := exists_of_getElem?_bytes utf8EncodeChar_opening (by decide) at_
    refine ⟨(closing? 1 rest).map (1 + ·), ?_, ?_⟩
    · rw [drop_bytes, bytes_cons, utf8EncodeChar_opening, List.singleton_append, countDown, if_pos rfl,
        countDown_bytes (by decide)]
      rfl
    · rw [blockEnd?_at, Option.map_map]
      simp only [Function.comp_def, Nat.add_assoc]

/-- The inner braces are passed over, and the line feed belongs to the block. -/
example : blockEnd? "a\x7bé\x7b\x7d\x7d\nb".toList 1 = some 8 := by decide +kernel

end Registrar.Text
