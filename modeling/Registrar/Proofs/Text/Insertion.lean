import Registrar.Proofs.Sorted
import Registrar.Proofs.Text.Search
import Registrar.Text.Splice

/-!
Insertions into a text. What is inserted before the end of a text leaves alone what is put behind
it, so the edit that is given last and goes to the end comes out last; lines that are inserted leave
the text one of whole lines.
-/

namespace Registrar

namespace Text

variable {s t back : Text} {n : Nat}

theorem before_append (inside : n ≤ size t) (back : Text) : before n (t ++ back) = before n t := by
  induction t generalizing n with
  | nil =>
    obtain rfl : n = 0 := by simpa using inside
    simp
  | cons c t ih =>
    cases n with
    | zero => simp
    | succ n =>
      simp only [size_cons] at inside
      rw [List.cons_append, before, before, ih (by omega)]

/-- What begins before a place behind a part has that part at its front. -/
theorem exists_before_append (behind : size s ≤ n) (t : Text) : ∃ u, before n (s ++ t) = s ++ u := by
  induction s generalizing n with
  | nil => exact ⟨before n t, rfl⟩
  | cons c s ih =>
    have := c.utf8Size_pos
    simp only [size_cons] at behind
    obtain ⟨k, rfl⟩ : ∃ k, n = k + 1 := ⟨n - 1, by omega⟩
    obtain ⟨u, split⟩ := ih (n := k + 1 - c.utf8Size) (by omega)
    exact ⟨u, by rw [List.cons_append, before, split, List.cons_append]⟩

theorem after_append (inside : n ≤ size t) (back : Text) : after n (t ++ back) = after n t ++ back := by
  have whole := before_append_after n (t ++ back)
  rw [before_append inside] at whole
  have split : before n t ++ after n (t ++ back) = before n t ++ (after n t ++ back) := by
    rw [whole, ← List.append_assoc, before_append_after]
  exact List.append_cancel_left split

theorem slice_middle (front old back : Text) :
    slice ⟨front.size, Text.size (front ++ old)⟩ (front ++ (old ++ back)) = old := by
  rw [slice, after_size_append, size_append, Nat.add_sub_cancel_left, before_size_append]

theorem size_before_le (n : Nat) (t : Text) : size (before n t) ≤ size t := by
  have whole := congrArg size (before_append_after n t)
  simp only [size_append] at whole
  omega

/-- What begins before a place reaches it. -/
theorem le_size_before (inside : n ≤ size t) : n ≤ size (before n t) := by
  induction t generalizing n with
  | nil =>
    obtain rfl : n = 0 := by simpa using inside
    simp
  | cons c t ih =>
    cases n with
    | zero => simp
    | succ n =>
      simp only [size_cons] at inside
      have later := ih (n := n + 1 - c.utf8Size) (by omega)
      rw [before, size_cons]
      omega

/-- Byte `n` of the text is where a character begins, or its end. -/
def IsPlace (t : Text) (n : Nat) : Prop := ∃ a b, t = a ++ b ∧ n = a.size

theorem isPlace_size (t : Text) : t.IsPlace t.size := ⟨t, [], by simp, rfl⟩

theorem IsPlace.le (place : t.IsPlace n) : n ≤ t.size := by
  obtain ⟨a, b, rfl, rfl⟩ := place
  simp

theorem IsPlace.size_before (place : t.IsPlace n) : (t.before n).size = n := by
  obtain ⟨a, b, rfl, rfl⟩ := place
  rw [before_size_append]

theorem IsPlace.lineEnd (place : t.IsPlace n) : t.IsPlace (t.lineEnd n) := by
  obtain ⟨a, b, rfl, rfl⟩ := place
  obtain ⟨rest, split⟩ := firstLine_isPrefix b
  exact ⟨a ++ firstLine b, rest, by rw [List.append_assoc, split], by
    rw [Text.lineEnd, after_size_append, size_append]⟩

theorem isPlace_lineStart (t : Text) (n : Nat) : t.IsPlace (t.lineStart n) := by
  have kept : (((t.before n).reverse.dropWhile (· != '\n')).reverse) <+: t.before n := by
    rw [← List.reverse_suffix, List.reverse_reverse]
    exact List.dropWhile_suffix _
  obtain ⟨rest, split⟩ := kept
  refine ⟨_, rest ++ t.after n, ?_, rfl⟩
  rw [← List.append_assoc, split, before_append_after]

/-- A text that begins a line where it ends goes on doing so at the end of a part. -/
theorem AtLine.of_append (whole : AtLine (s ++ t)) (some_ : t ≠ []) : AtLine t := by
  rcases whole with none_ | ⟨u, ends⟩
  · exact absurd (List.append_eq_nil_iff.mp none_).2 some_
  · rcases List.eq_nil_or_concat t with rfl | ⟨v, x, rfl⟩
    · exact absurd rfl some_
    · rw [List.concat_eq_append, ← List.append_assoc] at ends
      obtain ⟨_, last⟩ := List.append_inj' ends rfl
      exact .inr ⟨v, by rw [List.concat_eq_append, last]⟩

/-- Inside a line a line feed is needed. -/
theorem breakBefore_of_not_atLine (inside : ¬AtLine s) (back : Text) :
    breakBefore (s ++ back) (size s) = ['\n'] := by
  rw [breakBefore, before_size_append, if_neg]
  intro free
  rcases Bool.or_eq_true_iff.mp free with none_ | ends
  · cases s with
    | nil => exact inside atLine_nil
    | cons c s =>
      have := c.utf8Size_pos
      have : size (c :: s) = 0 := by simpa using none_
      simp only [size_cons] at this
      omega
  · obtain ⟨u, split⟩ := List.isSuffixOf_iff_suffix.mp ends
    exact inside (.inr ⟨u, split.symm⟩)

/-- A line feed where one is needed makes the end of a text the start of a line. -/
theorem atLine_append_breakBefore (t : Text) : AtLine (t ++ t.breakBefore (size t)) := by
  by_cases whole : AtLine t
  · have none_ := breakBefore_between whole []
    rw [List.append_nil] at none_
    rwa [none_, List.append_nil]
  · have feed := breakBefore_of_not_atLine whole []
    rw [List.append_nil] at feed
    exact .inr ⟨t, by rw [feed]⟩

/-- Up to byte `n` the text is the same as another one. -/
structure SameUpTo (n : Nat) (s t : Text) : Prop where
  inside : n ≤ s.size
  before_ : s.before n = t.before n

theorem before_before {k : Nat} (inside : n ≤ size t) (less : k ≤ n) :
    before k (before n t) = before k t := by
  rw [← before_append (Nat.le_trans less (le_size_before inside)) (after n t), before_append_after]

/-- What stands before a place goes on to a later one. -/
theorem exists_before_eq {k : Nat} (inside : n ≤ size t) (less : k ≤ n) :
    ∃ r, before n t = before k t ++ r :=
  ⟨after k (before n t), by rw [← before_before inside less, before_append_after]⟩

theorem SameUpTo.le {k : Nat} (same : SameUpTo n s t) (less : k ≤ n) : SameUpTo k s t := by
  have inside : n ≤ (before n t).size := same.before_ ▸ le_size_before same.inside
  refine ⟨Nat.le_trans less same.inside, ?_⟩
  rw [← before_before same.inside less, same.before_,
    before_before (Nat.le_trans inside (size_before_le n t)) less]

theorem SameUpTo.before_append (inside : n ≤ size t) (back : Text) :
    SameUpTo n (before n t ++ back) t := by
  have reached := le_size_before inside
  refine ⟨by rw [size_append]; omega, ?_⟩
  rw [Text.before_append reached, before_before inside (Nat.le_refl _)]

end Text

namespace Edit

variable {edits : List Edit} {e : Edit} {t : Text}

/-- The edit inserts lines at a place of a text. -/
structure InsertsLines (e : Edit) (t : Text) : Prop where
  empty : e.stop = e.start
  inside : e.start ≤ t.size
  lines : Text.AtLine e.new

theorem InsertsLines.apply_eq (inserts : e.InsertsLines t) :
    e.apply t = t.before e.start ++ e.new ++ t.after e.start := by
  rw [apply, if_pos (by simp [inserts.empty, inserts.inside]), inserts.empty]

theorem InsertsLines.size_le (inserts : e.InsertsLines t) : t.size ≤ (e.apply t).size := by
  have whole := congrArg Text.size (Text.before_append_after e.start t)
  rw [inserts.apply_eq]
  simp only [Text.size_append] at whole ⊢
  omega

/-- Lines in a text of whole lines leave it one. -/
theorem InsertsLines.atLine (inserts : e.InsertsLines t) (whole : Text.AtLine t) :
    Text.AtLine (e.apply t) := by
  have split := Text.before_append_after e.start t
  rw [inserts.apply_eq]
  by_cases last : t.after e.start = []
  · rw [last, List.append_nil] at split
    rw [last, List.append_nil, split]
    exact whole.append inserts.lines
  · rw [← split] at whole
    have rest := whole.of_append last
    rcases rest with none_ | ⟨u, ends⟩
    · exact absurd none_ last
    · exact .inr ⟨t.before e.start ++ e.new ++ u, by rw [ends, List.append_assoc _ u]⟩

/-- Insertions before the end of a text leave alone what is put behind it, and leave a text of whole
lines one. -/
theorem foldl_apply_lines (inserts : ∀ e ∈ edits, e.InsertsLines t) (back : Text) :
    edits.foldl (fun t e => e.apply t) (t ++ back) =
        edits.foldl (fun t e => e.apply t) t ++ back ∧
      (Text.AtLine t → Text.AtLine (edits.foldl (fun t e => e.apply t) t)) := by
  induction edits generalizing t with
  | nil => exact ⟨rfl, id⟩
  | cons e rest ih =>
    have first := inserts e (by simp)
    have grown : ∀ e' ∈ rest, e'.InsertsLines (e.apply t) := by
      intro e' member
      have later := inserts e' (by simp [member])
      exact ⟨later.empty, Nat.le_trans later.inside first.size_le, later.lines⟩
    have here : e.apply (t ++ back) = e.apply t ++ back := by
      have longer : t.size ≤ (t ++ back).size := by simp
      have first' : e.InsertsLines (t ++ back) :=
        ⟨first.empty, Nat.le_trans first.inside longer, first.lines⟩
      rw [first.apply_eq, first'.apply_eq, Text.before_append first.inside,
        Text.after_append first.inside, List.append_assoc _ _ back]
    obtain ⟨later, lines⟩ := ih grown
    refine ⟨?_, fun whole => lines (first.atLine whole)⟩
    rw [List.foldl_cons, here, later, List.foldl_cons]

theorem mem_backToFront : e ∈ backToFront edits ↔ e ∈ edits :=
  (sorted_perm _ _).mem_iff.trans List.mem_reverse

/-- An edit that is given last and stands last is made first. -/
theorem backToFront_concat {last : Edit} (least : ∀ e ∈ edits, e.start ≤ last.start) :
    backToFront (edits ++ [last]) = last :: backToFront edits := by
  have split : backToFront (edits ++ [last]) =
      insertSorted (fun a b => b.start ≤ a.start) last (backToFront edits) := by
    simp [backToFront, sorted]
  rw [split]
  cases list : backToFront edits with
  | nil => rfl
  | cons e rest =>
    have member : e ∈ edits := mem_backToFront.mp (by simp [list])
    rw [insertSorted, if_pos (by simpa using least e member)]

theorem backToFront_pairwise (edits : List Edit) :
    (backToFront edits).Pairwise fun a b => b.start ≤ a.start := by
  refine (sorted_pairwise ?_ ?_ edits.reverse).imp fun order => by simpa using order
  · intro a b
    simpa using Nat.le_total b.start a.start
  · intro a b c
    simpa using fun first second => Nat.le_trans second first

/-- Of two edits in order the later one is made first. -/
theorem applyAll_pair {a b : Edit} (order : a.start ≤ b.start) (t : Text) :
    applyAll [a, b] t = a.apply (b.apply t) := by
  have sorted_ : backToFront ([a] ++ [b]) = b :: backToFront [a] :=
    backToFront_concat (by simpa using order)
  have alone : backToFront [a] = [a] := rfl
  rw [applyAll, ← List.singleton_append, sorted_, alone]
  rfl

/-- What stands before an edit is left alone. -/
theorem exists_apply_behind {front : Text} (behind : front.size ≤ e.start) (back : Text) :
    ∃ w, e.apply (front ++ back) = front ++ w := by
  rw [apply]
  split
  · obtain ⟨u, split⟩ := Text.exists_before_append behind back
    exact ⟨_, by rw [split, List.append_assoc, List.append_assoc]⟩
  · exact ⟨back, rfl⟩

/-- An insertion into a text that is as it was up to its place. -/
theorem InsertsLines.apply_of_sameUpTo {s : Text} (inserts : e.InsertsLines t)
    (same : Text.SameUpTo e.start s t) :
    e.apply s = t.before e.start ++ (e.new ++ s.after e.start) := by
  have here : e.InsertsLines s := ⟨inserts.empty, same.inside, inserts.lines⟩
  rw [here.apply_eq, same.before_, List.append_assoc]

/-- What holds of a text and is kept by every insertion holds in the end. Insertions are made from the
last place to the first, so what stands before the place of one is what stood there at the beginning. -/
theorem foldl_apply_keeps {motive : List Edit → Text → Prop} {s : Text} {n : Nat}
    (ordered : edits.Pairwise fun a b => b.start ≤ a.start) (inserts : ∀ e ∈ edits, e.InsertsLines t)
    (same : Text.SameUpTo n s t) (below : ∀ e ∈ edits, e.start ≤ n)
    (step : ∀ e ∈ edits, ∀ rest back, (∀ x ∈ rest, x ∈ edits ∧ x.start ≤ e.start) →
      motive (e :: rest) (t.before e.start ++ back) → motive rest (t.before e.start ++ (e.new ++ back)))
    (base : motive edits s) : motive [] (edits.foldl (fun t e => e.apply t) s) := by
  induction edits generalizing s n with
  | nil => exact base
  | cons e rest ih =>
    obtain ⟨least, ordered⟩ := List.pairwise_cons.mp ordered
    have first := inserts e (by simp)
    have here := same.le (below e (by simp))
    have split := Text.before_append_after e.start s
    rw [List.foldl_cons, first.apply_of_sameUpTo here]
    refine ih ordered (fun x member => inserts x (by simp [member])) (.before_append first.inside _) least
      (fun x member rest back later => step x (by simp [member]) rest back fun y inside =>
        ⟨by simp [(later y inside).1], (later y inside).2⟩) ?_
    refine step e (by simp) rest _ (fun x member => ⟨by simp [member], least x member⟩) ?_
    rwa [← here.before_, split]

/-- What is put at the end of a text comes first. -/
theorem applyAll_concat (inserts : ∀ e ∈ edits, e.InsertsLines t) (new : Text) :
    applyAll (edits ++ [.insert t.size new]) t =
      (backToFront edits).foldl (fun t e => e.apply t) (t ++ new) := by
  have last : (Edit.insert t.size new).apply t = t ++ new := by
    have before_ := Text.before_size_append t []
    have after_ := Text.after_size_append t []
    rw [List.append_nil] at before_ after_
    simp [apply, insert, before_, after_]
  rw [applyAll, backToFront_concat fun e member => (inserts e member).inside, List.foldl_cons, last]

/-- Lines inserted before the end of a text, and what is put at the end. -/
theorem exists_applyAll_concat (inserts : ∀ e ∈ edits, e.InsertsLines t) (new : Text) :
    ∃ front, applyAll (edits ++ [.insert t.size new]) t = front ++ new ∧
      (Text.AtLine t → Text.AtLine front) := by
  have order : ∀ e ∈ backToFront edits, e.InsertsLines t := fun e member =>
    inserts e (mem_backToFront.mp member)
  obtain ⟨kept, lines⟩ := foldl_apply_lines order new
  exact ⟨_, by rw [applyAll_concat inserts, kept], lines⟩

end Edit
end Registrar
