import Registrar.Proofs.Text.Search
import Registrar.Registry.Zones

/-!
Blocks in braces. A text in which every brace is closed is passed over as a whole by the search for
the brace that closes a block, so the block ends where its own brace stands.
-/

namespace Registrar.Text


/-- A text in which every brace is closed. -/
def Balanced (t : Text) : Prop :=
  ∀ depth rest, 0 < depth → closing? depth (t ++ rest) = (closing? depth rest).map (t.size + ·)

theorem Balanced.append {s t : Text} (first : Balanced s) (second : Balanced t) :
    Balanced (s ++ t) := by
  intro depth rest positive
  rw [List.append_assoc, first depth _ positive, second depth _ positive, Option.map_map]
  congr 1
  funext n
  simp only [Function.comp_apply, size_append, Nat.add_assoc]

theorem balanced_of_not_mem {t : Text} (noOpening : '\x7b' ∉ t) (noClosing : '\x7d' ∉ t) :
    Balanced t := by
  intro depth rest _
  induction t with
  | nil => simp
  | cons c t ih =>
    have other : c ≠ '\x7b' := fun same => noOpening (by simp [same])
    have other' : c ≠ '\x7d' := fun same => noClosing (by simp [same])
    have later := ih (fun member => noOpening (by simp [member]))
      (fun member => noClosing (by simp [member]))
    rw [List.cons_append, closing?, if_neg (by simpa using other), if_neg (by simpa using other'),
      later, Option.map_map]
    congr 1
    funext n
    simp only [Function.comp_apply, size_cons, Nat.add_assoc]

/-- Braces around a balanced text leave it balanced. -/
theorem Balanced.block {t : Text} (inner : Balanced t) : Balanced ('\x7b' :: t ++ ['\x7d']) := by
  intro depth rest positive
  have open_ : closing? depth ('\x7b' :: (t ++ '\x7d' :: rest)) =
      (closing? (depth + 1) (t ++ '\x7d' :: rest)).map (Char.utf8Size '\x7b' + ·) := by
    rw [closing?, if_pos (beq_self_eq_true _)]
  have close : closing? (depth + 1) ('\x7d' :: rest) =
      (closing? depth rest).map (Char.utf8Size '\x7d' + ·) := by
    rw [closing?, if_neg (by decide), if_pos (beq_self_eq_true _), if_neg (by omega),
      Nat.add_sub_cancel]
  have text_eq : '\x7b' :: t ++ ['\x7d'] ++ rest = '\x7b' :: (t ++ '\x7d' :: rest) := by simp
  rw [text_eq, open_, inner _ _ (by omega), close, Option.map_map, Option.map_map]
  congr 1
  funext n
  simp only [Function.comp_apply, size_cons, size_append, size_nil]
  omega

/-! ### Blocks that stay closed -/

section
variable {s d t : Text} {depth depth' : Nat}

/-- One character of the search. -/
theorem closing?_cons_isSome (c : Char) (t : Text) : (closing? depth (c :: t)).isSome =
    if c = '\x7b' then (closing? (depth + 1) t).isSome
    else if c = '\x7d' then decide (depth ≤ 1) || (closing? (depth - 1) t).isSome
    else (closing? depth t).isSome := by
  rw [closing?]
  simp only [beq_iff_eq]
  split
  · rw [Option.isSome_map]
  · split
    · split <;> simp [*]
    · rw [Option.isSome_map]

/-- A block stays closed when the text is put into it. -/
def Spares (d : Text) : Prop :=
  ∀ depth s t, 0 < depth → (closing? depth (s ++ t)).isSome → (closing? depth (s ++ (d ++ t))).isSome

theorem spares_of_front (front : ∀ depth t, 0 < depth → (closing? depth t).isSome →
    (closing? depth (d ++ t)).isSome) : Spares d := by
  intro depth s t positive closed
  induction s generalizing depth with
  | nil => exact front depth t positive closed
  | cons c s ih =>
    rw [List.cons_append, closing?_cons_isSome] at closed ⊢
    split_ifs at closed ⊢ with opens closes
    · exact ih _ (by omega) closed
    · rcases Bool.or_eq_true_iff.mp closed with last | closed
      · simp [last]
      · by_cases last : depth ≤ 1
        · simp [last]
        · simp [ih (depth - 1) (by omega) closed]
    · exact ih _ positive closed

theorem Balanced.spares (balanced : Balanced d) : Spares d :=
  spares_of_front fun depth t positive closed => by
    rwa [balanced depth t positive, Option.isSome_map]

theorem Spares.append {d' : Text} (first : Spares d) (second : Spares d') : Spares (d ++ d') := by
  intro depth s t positive closed
  rw [List.append_assoc]
  exact first depth s _ positive (second depth s t positive closed)

/-- A block stays closed whatever is put behind it. -/
theorem closing?_isSome_behind (closed : (closing? depth s).isSome) (t : Text) :
    (closing? depth (s ++ t)).isSome := by
  induction s generalizing depth with
  | nil => simp [closing?] at closed
  | cons c s ih =>
    rw [List.cons_append, closing?_cons_isSome]
    rw [closing?_cons_isSome] at closed
    split_ifs at closed ⊢ with opens closes
    · exact ih closed
    · rcases Bool.or_eq_true_iff.mp closed with last | closed
      · simp [last]
      · simp [ih closed]
    · exact ih closed

/-- A search that does not end in a text goes on behind it for as many braces more as the text opens and
does not close. -/
theorem closing?_append_isSome (open_ : closing? depth s = none) (t : Text) :
    (closing? depth (s ++ t)).isSome = (closing? (depth + s.count '\x7b' - s.count '\x7d') t).isSome := by
  induction s generalizing depth with
  | nil => rfl
  | cons c s ih =>
    rw [← Option.isNone_iff_eq_none, ← Option.not_isSome, closing?_cons_isSome] at open_
    rw [List.cons_append, closing?_cons_isSome]
    split_ifs at open_ ⊢ with opens closes
    · subst opens
      simp only [List.count_cons, beq_iff_eq, Char.reduceEq, if_true, if_false]
      rw [ih (by simpa using open_)]
      congr 2
      omega
    · subst closes
      simp only [List.count_cons, beq_iff_eq, Char.reduceEq, if_true, if_false]
      simp only [Bool.not_or, Bool.and_eq_true, Bool.not_eq_true', decide_eq_false_iff_not] at open_
      rw [decide_eq_false open_.1, Bool.false_or, ih (by simpa using open_.2)]
      congr 2
      omega
    · rw [ih (by simpa using open_), List.count_cons_of_ne opens, List.count_cons_of_ne closes]

/-- A search that does not end in a text does not come to as many braces that close as are open. -/
theorem count_lt_of_closing? (open_ : closing? depth t = none) (positive : 0 < depth) :
    t.count '\x7d' < depth + t.count '\x7b' := by
  induction t generalizing depth with
  | nil => simpa using positive
  | cons c t ih =>
    rw [← Option.isNone_iff_eq_none, ← Option.not_isSome, closing?_cons_isSome] at open_
    split_ifs at open_ with opens closes
    · subst opens
      have later := ih (by simpa using open_) (Nat.succ_pos depth)
      simp only [List.count_cons, beq_iff_eq, Char.reduceEq, if_true, if_false]
      omega
    · subst closes
      simp only [Bool.not_or, Bool.and_eq_true, Bool.not_eq_true', decide_eq_false_iff_not] at open_
      have later := ih (by simpa using open_.2) (by omega)
      simp only [List.count_cons, beq_iff_eq, Char.reduceEq, if_true, if_false]
      omega
    · rw [List.count_cons_of_ne opens, List.count_cons_of_ne closes]
      exact ih (by simpa using open_) positive

/-- In a text in which every brace is closed, each one is. -/
theorem Balanced.closing?_isSome (balanced : Balanced d) (split : d = s ++ '\x7b' :: t) :
    (closing? 1 t).isSome := by
  have none_ : closing? 1 d = none := by
    have whole := balanced 1 [] (by decide)
    rwa [List.append_nil] at whole
  by_contra open_
  have before_ : closing? 1 s = none := by
    by_contra closed
    have closed := closing?_isSome_behind (Option.isSome_iff_ne_none.mpr closed) ('\x7b' :: t)
    rw [← split, none_] at closed
    cases closed
  have less := count_lt_of_closing? before_ (by decide)
  have less' := count_lt_of_closing? (by simpa using open_) (by decide)
  -- So more braces are opened than closed, but one more that closes ends the search.
  have last := closing?_append_isSome none_ ['\x7d']
  rw [balanced 1 _ (by decide)] at last
  have more : 2 ≤ 1 + d.count '\x7b' - d.count '\x7d' := by
    rw [split]
    simp only [List.count_append, List.count_cons, beq_iff_eq, Char.reduceEq, if_true, if_false]
    omega
  have closed : (closing? 1 ['\x7d']).isSome := by decide
  rw [Option.isSome_map, closed, closing?_cons_isSome, if_neg (by decide), if_pos rfl,
    decide_eq_false (by omega)] at last
  cases last

/-- Two texts close the same blocks. -/
def ClosesAlike (s t : Text) : Prop :=
  ∀ depth, 0 < depth → (closing? depth s).isSome = (closing? depth t).isSome

theorem ClosesAlike.refl (t : Text) : ClosesAlike t t := fun _ _ => rfl

theorem ClosesAlike.trans {u : Text} (first : ClosesAlike s t) (second : ClosesAlike t u) : ClosesAlike s u :=
  fun depth positive => (first depth positive).trans (second depth positive)

/-- What stands before both texts does not matter. -/
theorem ClosesAlike.append_left (alike : ClosesAlike s t) (front : Text) :
    ClosesAlike (front ++ s) (front ++ t) := by
  induction front with
  | nil => exact alike
  | cons c front ih =>
    intro depth positive
    rw [List.cons_append, List.cons_append, closing?_cons_isSome, closing?_cons_isSome]
    split_ifs
    · exact ih _ (by omega)
    · by_cases last : depth ≤ 1
      · simp [last]
      · rw [ih _ (by omega)]
    · exact ih _ positive

theorem Balanced.closesAlike (balanced : Balanced d) (t : Text) : ClosesAlike (d ++ t) t :=
  fun depth positive => by rw [balanced depth t positive, Option.isSome_map]

/-- What follows a text and closes no block does not matter. -/
theorem closesAlike_of_not_mem (free : '\x7d' ∉ d) (t : Text) : ClosesAlike (t ++ d) t := by
  have none_ : ∀ {d : Text} {depth}, '\x7d' ∉ d → closing? depth d = none := by
    intro d
    induction d with
    | nil => exact fun _ => rfl
    | cons c d ih =>
      intro depth free
      simp only [List.mem_cons, not_or] at free
      rw [closing?, if_neg (show ¬(c == '\x7d') = true by simpa using Ne.symm free.1), ih free.2, ih free.2]
      simp
  intro depth _
  cases found : closing? depth t with
  | none => rw [closing?_append_isSome found, none_ free]
  | some n => exact closing?_isSome_behind (by rw [found]; rfl) d

end

/-- The line of the closing brace is the end of a block. -/
theorem blockEnd?_between {inner : Text} (balanced : Balanced inner) (front back : Text) :
    blockEnd? (front ++ ('\x7b' :: (inner ++ '\x7d' :: '\n' :: back))) front.size =
      some (Text.size (front ++ '\x7b' :: inner ++ ['\x7d', '\n'])) := by
  have close : closing? 1 (inner ++ '\x7d' :: '\n' :: back) = some (inner.size + 1) := by
    rw [balanced 1 _ (by decide), closing?, if_neg (by decide), if_pos (beq_self_eq_true _),
      if_pos (by decide)]
    rfl
  have place : front.size + Char.utf8Size '\x7b' + (inner.size + 1) =
      Text.size (front ++ '\x7b' :: inner ++ ['\x7d']) := by
    simp only [size_append, size_cons, size_nil]
    have brace : Char.utf8Size '\x7d' = 1 := rfl
    omega
  have text_eq : front ++ ('\x7b' :: (inner ++ '\x7d' :: '\n' :: back)) =
      (front ++ '\x7b' :: inner ++ ['\x7d']) ++ ([] ++ '\n' :: back) := by simp
  have line := lineEnd_between (front ++ '\x7b' :: inner ++ ['\x7d']) back
    (List.not_mem_nil (a := '\n'))
  rw [blockEnd?, before_size_append, if_neg (by simp), after_size_append]
  simp only [beq_self_eq_true, if_true, close, Option.map_some, place]
  rw [text_eq, line]
  simp


end Registrar.Text
