import Registrar.Proofs.Pattern.Ends

/-!
What a pattern takes from the front of a text, and where it refuses. `Takes` says which part the
preferred match has, `Refuses` that there is no match; both are built up along the pattern, so that
a match of a long pattern is read off its parts in their order.
-/

namespace Registrar.Pattern

/-- The preferred match after `front` has the characters `taken`, with `back` behind it. -/
def Takes (p : Pattern) (front taken back : Text) (g g' : Groups) : Prop :=
  (p.ends (.between front (taken ++ back)) g).head? = some (.between (front ++ taken) back, g')

/-- There is no match between two parts of a text. -/
def Refuses (p : Pattern) (front back : Text) : Prop := ∀ g, p.ends (.between front back) g = []

variable {p q : Pattern} {front taken taken' back : Text} {g g' g'' : Groups}

/-- The first hit of a search through joined lists, when the lists before it are empty. -/
theorem head?_flatMap_append {α β : Type} {f : α → List β} {l l' : List α} {a : α} {b : β}
    (empty : ∀ x ∈ l, f x = []) (found : (f a).head? = some b) :
    ((l ++ a :: l').flatMap f).head? = some b := by
  have gone : l.flatMap f = [] := List.flatMap_eq_nil_iff.mpr empty
  rw [List.flatMap_append, gone, List.nil_append, List.flatMap_cons, List.head?_append, found]
  rfl

theorem exists_cons_of_head? {α : Type} {l : List α} {a : α} (h : l.head? = some a) :
    ∃ rest, l = a :: rest := by
  cases l with
  | nil => simp at h
  | cons b rest => exact ⟨rest, by simpa using h⟩

/-- A match that is taken is the match at its place. -/
theorem Takes.matchAt? (h : p.Takes front taken back [] g) :
    p.matchAt? (.between front (taken ++ back)) =
      some ⟨.between front (taken ++ back), .between (front ++ taken) back, g⟩ := by
  rw [matchAt?_eq, h]
  rfl

theorem Refuses.matchAt? (h : p.Refuses front back) : p.matchAt? (.between front back) = none := by
  rw [matchAt?_eq, h]
  rfl

/-! ### Taking -/

theorem takes_nothing : nothing.Takes front [] back g g := by
  simp [Takes, ends]

theorem takes_one {accepts : Char → Bool} {x : Char} (h : accepts x = true) :
    (one accepts).Takes front [x] back g g := by
  simp [Takes, ends, Cursor.advance_between_cons, h]

theorem takes_char {c : Char} : (char c).Takes front [c] back g g := takes_one (beq_self_eq_true c)

theorem takes_place {holds : Cursor → Bool} (h : holds (.between front back) = true) :
    (place holds).Takes front [] back g g := by
  simp [Takes, ends, h]

theorem Takes.next (first : p.Takes front taken (taken' ++ back) g g')
    (second : q.Takes (front ++ taken) taken' back g' g'') :
    (next p q).Takes front (taken ++ taken') back g g'' := by
  obtain ⟨others, first⟩ := exists_cons_of_head? first
  rw [Takes, List.append_assoc] at second
  rw [Takes, ends, List.append_assoc, first, List.flatMap_cons, List.head?_append, second]
  rfl

theorem Takes.left (h : p.Takes front taken back g g') :
    (either p q).Takes front taken back g g' := by
  rw [Takes] at h
  simp [Takes, ends, List.head?_append, h]

theorem Refuses.right (h : p.Refuses front (taken ++ back)) (take : q.Takes front taken back g g') :
    (either p q).Takes front taken back g g' := by
  rw [Takes, ends, h g]
  exact take

theorem Takes.optional (h : p.Takes front taken back g g') :
    (optional p).Takes front taken back g g' := h.left

theorem Refuses.optional (h : p.Refuses front back) : (optional p).Takes front [] back g g :=
  Refuses.right h takes_nothing

theorem Takes.group {label : String} (h : p.Takes front taken back g g') :
    (group label p).Takes front taken back g
      ((label, .between front (taken ++ back), .between (front ++ taken) back) :: g') := by
  obtain ⟨others, h⟩ := exists_cons_of_head? h
  simp [Takes, ends, h]

/-! ### Literals -/

theorem ends_char_cons (c x : Char) :
    (char c).ends (.between front (x :: back)) g =
      if x == c then [(.between (front ++ [x]) back, g)] else [] := by
  simp only [char, ends, Cursor.advance_between_cons]

theorem all_cons (p : Pattern) {rest : List Pattern} (h : rest ≠ []) :
    all (p :: rest) = next p (all rest) := by
  cases rest with
  | nil => exact absurd rfl h
  | cons q rest => rfl

/-- A literal ends behind itself. -/
theorem ends_literal_append (front t : Text) :
    (literal t).ends (.between front (t ++ back)) g = [(.between (front ++ t) back, g)] := by
  induction t generalizing front with
  | nil => simp [literal, all, ends]
  | cons c rest ih =>
    cases rest with
    | nil => simp [literal, all, ends_char_cons]
    | cons d rest =>
      have later := ih (front ++ [c])
      rw [literal, List.map_cons, all_cons _ (by simp), ends, List.cons_append, ends_char_cons]
      simpa [literal] using later

theorem takes_literal (t : Text) : (literal t).Takes front t back g g := by
  simp [Takes, ends_literal_append]

/-- A literal ends nowhere else. -/
theorem mem_ends_literal {t : Text} {e : Cursor × Groups}
    (member : e ∈ (literal t).ends (.between front back) g) :
    ∃ rest, back = t ++ rest ∧ e = (.between (front ++ t) rest, g) := by
  induction t generalizing front back with
  | nil =>
    obtain rfl := List.mem_singleton.mp member
    exact ⟨back, rfl, by simp⟩
  | cons c t ih =>
    cases back with
    | nil =>
      cases t with
      | nil => simp [literal, all, char, ends] at member
      | cons d t => simp [literal, all, char, ends] at member
    | cons x back =>
      cases t with
      | nil =>
        rw [literal, List.map_singleton, all, ends_char_cons] at member
        split at member
        · next same =>
          obtain rfl := List.mem_singleton.mp member
          obtain rfl := eq_of_beq same
          exact ⟨back, rfl, rfl⟩
        · simp at member
      | cons d t =>
        rw [literal, List.map_cons, all_cons _ (by simp), ends, ends_char_cons] at member
        split at member
        · next same =>
          obtain rfl := eq_of_beq same
          obtain ⟨rest, rfl, rfl⟩ := ih (by simpa [literal] using member)
          exact ⟨rest, rfl, by simp⟩
        · simp at member

/-! ### Repetitions of one character -/

theorem ends_one_cons (accepts : Char → Bool) (x : Char) :
    (one accepts).ends (.between front (x :: back)) g =
      if accepts x = true then [(.between (front ++ [x]) back, g)] else [] := by
  simp only [ends, Cursor.advance_between_cons]

theorem offset_lt_append (front back back' piece : Text) (some_ : piece ≠ []) :
    (Cursor.between front back).offset < (Cursor.between (front ++ piece) back').offset := by
  cases piece with
  | nil => exact absurd rfl some_
  | cons x piece =>
    have := x.utf8Size_pos
    simp only [Cursor.between_offset, Text.size_append, Text.size_cons]
    omega

theorem offset_lt (front back back' : Text) (x : Char) :
    (Cursor.between front back).offset < (Cursor.between (front ++ [x]) back').offset :=
  offset_lt_append _ _ _ _ (by simp)

/-- A repetition ends behind characters of its class. -/
theorem mem_ends_many_one {greedy : Bool} {accepts : Char → Bool} {e : Cursor × Groups}
    (member : e ∈ (many greedy (one accepts)).ends (.between front back) g) :
    ∃ taken rest, back = taken ++ rest ∧ (∀ x ∈ taken, accepts x = true) ∧
      e = (.between (front ++ taken) rest, g) := by
  have rounds : ∀ fuel front back,
      e ∈ roundEnds greedy (one accepts).ends fuel (.between front back) g →
        ∃ taken rest, back = taken ++ rest ∧ (∀ x ∈ taken, accepts x = true) ∧
          e = (.between (front ++ taken) rest, g) := by
    intro fuel
    induction fuel with
    | zero =>
      intro front back member
      obtain rfl := List.mem_singleton.mp member
      exact ⟨[], back, rfl, by simp, by simp⟩
    | succ fuel ih =>
      intro front back member
      rcases mem_roundEnds_succ.mp member with rfl | ⟨middle, first, _, second⟩
      · exact ⟨[], back, rfl, by simp, by simp⟩
      · cases back with
        | nil => simp [ends] at first
        | cons x back =>
          rw [ends_one_cons] at first
          split at first
          · next accepted =>
            obtain rfl := List.mem_singleton.mp first
            obtain ⟨taken, rest, rfl, all, rfl⟩ := ih _ _ second
            refine ⟨x :: taken, rest, rfl, ?_, by simp⟩
            simpa [accepted] using all
          · simp at first
  exact rounds _ _ _ member

/-- A greedy repetition prefers all characters of its class. -/
theorem takes_many {accepts : Char → Bool} (all : ∀ x ∈ taken, accepts x = true)
    (stop : ∀ x, back.head? = some x → accepts x = false) :
    (many true (one accepts)).Takes front taken back g g := by
  have rounds : ∀ (taken front : Text) (fuel : Nat), (∀ x ∈ taken, accepts x = true) →
      taken.length ≤ fuel →
        (roundEnds true (one accepts).ends fuel (.between front (taken ++ back)) g).head? =
          some (.between (front ++ taken) back, g) := by
    intro taken
    induction taken with
    | nil =>
      intro front fuel _ _
      have still : (one accepts).ends (.between front back) g = [] := by
        cases back with
        | nil => rfl
        | cons x back => simp [ends_one_cons, stop x rfl]
      cases fuel with
      | zero => simp [roundEnds]
      | succ fuel => simp [roundEnds, still]
    | cons x taken ih =>
      intro front fuel all enough
      cases fuel with
      | zero => simp at enough
      | succ fuel =>
        have later := ih (front ++ [x]) fuel (fun y member => all y (by simp [member]))
          (by simpa using enough)
        rw [roundEnds, if_pos rfl, List.cons_append, ends_one_cons, if_pos (all x (by simp)),
          List.flatMap_singleton, if_pos (offset_lt ..), List.head?_append, later]
        simp
  exact rounds taken front _ all (by simp)

theorem takes_atLeastOnce {accepts : Char → Bool} (some_ : taken ≠ [])
    (all : ∀ x ∈ taken, accepts x = true)
    (stop : ∀ x, back.head? = some x → accepts x = false) :
    (atLeastOnce (one accepts)).Takes front taken back g g := by
  cases taken with
  | nil => exact absurd rfl some_
  | cons x taken =>
    exact (takes_one (all x (by simp))).next
      (takes_many (fun y member => all y (by simp [member])) stop)

/-- A greedy repetition prefers all the rounds that can be had. -/
theorem takes_many_times {piece : Text} (some_ : piece ≠ [])
    (take : ∀ front back g, p.Takes front piece back g g) (stop : ∀ front, p.Refuses front back)
    (n : Nat) : (many true p).Takes front (List.replicate n piece).flatten back g g := by
  have rounds : ∀ (n : Nat) (front : Text) (fuel : Nat), n ≤ fuel →
      (roundEnds true p.ends fuel
        (.between front ((List.replicate n piece).flatten ++ back)) g).head? =
          some (.between (front ++ (List.replicate n piece).flatten) back, g) := by
    intro n
    induction n with
    | zero =>
      intro front fuel _
      cases fuel with
      | zero => simp [roundEnds]
      | succ fuel => simp [roundEnds, stop front g]
    | succ n ih =>
      intro front fuel enough
      cases fuel with
      | zero => simp at enough
      | succ fuel =>
        have later := ih (front ++ piece) fuel (by simpa using enough)
        obtain ⟨others, first⟩ := exists_cons_of_head?
          (take front ((List.replicate n piece).flatten ++ back) g)
        rw [List.replicate_succ, List.flatten_cons, roundEnds, if_pos rfl, List.append_assoc,
          first, List.flatMap_cons, if_pos (offset_lt_append _ _ _ _ some_), List.head?_append, List.head?_append, later]
        simp
  refine rounds n front _ ?_
  have positive := List.length_pos_iff.mpr some_
  have enough : n ≤ n * piece.length := Nat.le_mul_of_pos_right n positive
  simp only [Cursor.between_rest, List.length_append, List.length_flatten, List.map_replicate,
    List.sum_replicate_nat]
  omega

/-- The ends of a reluctant repetition through characters of its class. -/
theorem ends_many_reluctant {accepts : Char → Bool} (front back : Text) (g : Groups)
    (all : ∀ x ∈ taken, accepts x = true) :
    ∃ before after,
      (many false (one accepts)).ends (.between front (taken ++ back)) g =
        before ++ (.between (front ++ taken) back, g) :: after ∧
      ∀ e ∈ before, ∃ part x rest, taken = part ++ x :: rest ∧
        e = (.between (front ++ part) (x :: rest ++ back), g) := by
  have rounds : ∀ (taken front : Text) (fuel : Nat), (∀ x ∈ taken, accepts x = true) →
      taken.length ≤ fuel → ∃ before after,
        roundEnds false (one accepts).ends fuel (.between front (taken ++ back)) g =
          before ++ (.between (front ++ taken) back, g) :: after ∧
        ∀ e ∈ before, ∃ part x rest, taken = part ++ x :: rest ∧
          e = (.between (front ++ part) (x :: rest ++ back), g) := by
    intro taken
    induction taken with
    | nil =>
      intro front fuel _ _
      cases fuel with
      | zero => exact ⟨[], [], by simp [roundEnds], by simp⟩
      | succ fuel => exact ⟨[], _, by simp [roundEnds]; rfl, by simp⟩
    | cons x taken ih =>
      intro front fuel all enough
      cases fuel with
      | zero => simp at enough
      | succ fuel =>
        obtain ⟨before, after, equal, early⟩ := ih (front ++ [x]) fuel
          (fun y member => all y (by simp [member])) (by simpa using enough)
        refine ⟨(.between front (x :: taken ++ back), g) :: before, after, ?_, ?_⟩
        · rw [roundEnds, if_neg Bool.false_ne_true, List.cons_append, ends_one_cons,
            if_pos (all x (by simp)), List.flatMap_singleton, if_pos (offset_lt ..), equal]
          simp
        · intro e member
          rcases List.mem_cons.mp member with rfl | member
          · exact ⟨[], x, taken, rfl, by simp⟩
          · obtain ⟨part, y, rest, rfl, rfl⟩ := early e member
            exact ⟨x :: part, y, rest, rfl, by simp⟩
  exact rounds taken front _ all (by simp)

/-- A remembered part that is as short as possible ends where what follows it can go on. -/
theorem takes_reluctant {accepts : Char → Bool} {label : String} {x : Char}
    (first : accepts x = true) (all : ∀ y ∈ taken, accepts y = true)
    (early : ∀ part y rest, taken = part ++ y :: rest →
      q.Refuses (front ++ x :: part) (y :: rest ++ (taken' ++ back)))
    (last : q.Takes (front ++ x :: taken) taken' back
      ((label, .between front (x :: taken ++ (taken' ++ back)),
        .between (front ++ x :: taken) (taken' ++ back)) :: g) g') :
    (next (group label (next (one accepts) (many false (one accepts)))) q).Takes
      front (x :: taken ++ taken') back g g' := by
  obtain ⟨before, after, equal, short⟩ :=
    ends_many_reluctant (front ++ [x]) (taken' ++ back) g all
  have ends_eq : (group label (next (one accepts) (many false (one accepts)))).ends
      (.between front (x :: taken ++ (taken' ++ back))) g =
        (before ++ (.between (front ++ [x] ++ taken) (taken' ++ back), g) :: after).map fun e =>
          (e.1, (label, .between front (x :: taken ++ (taken' ++ back)), e.1) :: e.2) := by
    rw [ends, ends, List.cons_append, ends_one_cons, if_pos first, List.flatMap_singleton, equal]
  rw [Takes, ends, List.append_assoc, ends_eq, List.map_append, List.map_cons]
  refine head?_flatMap_append ?_ ?_
  · intro e member
    obtain ⟨inner, inside, rfl⟩ := List.mem_map.mp member
    obtain ⟨part, y, rest, split, rfl⟩ := short inner inside
    simpa using early part y rest split _
  · simpa [Takes] using last

/-! ### Refusing -/

theorem refuses_one {accepts : Char → Bool}
    (h : ∀ x, back.head? = some x → accepts x = false) : (one accepts).Refuses front back := by
  intro g
  cases back with
  | nil => rfl
  | cons x back => simp [ends_one_cons, h x rfl]

theorem refuses_literal {t : Text} (h : ¬t <+: back) : (literal t).Refuses front back := by
  intro g
  refine List.eq_nil_iff_forall_not_mem.mpr fun e member => ?_
  obtain ⟨rest, rfl, _⟩ := mem_ends_literal member
  exact h ⟨rest, rfl⟩

theorem refuses_place {holds : Cursor → Bool} (h : holds (.between front back) = false) :
    (place holds).Refuses front back := by
  intro g
  simp [ends, h]

theorem Refuses.next_left (h : p.Refuses front back) : (next p q).Refuses front back := by
  intro g
  simp [ends, h g]

/-- A sequence refuses where its second part does behind every end of the first. -/
theorem refuses_next
    (h : ∀ g, ∀ e ∈ p.ends (.between front back) g, q.ends e.1 e.2 = []) :
    (next p q).Refuses front back := fun g => List.flatMap_eq_nil_iff.mpr (h g)

theorem Refuses.group {label : String} (h : p.Refuses front back) :
    (group label p).Refuses front back := by
  intro g
  simp [ends, h g]

theorem Refuses.place_next {holds : Cursor → Bool} (h : q.Refuses front back) :
    (next (place holds) q).Refuses front back := by
  refine refuses_next fun g e member => ?_
  rw [ends] at member
  split at member
  · obtain rfl := List.mem_singleton.mp member
    exact h g
  · simp at member

theorem refuses_many_next {greedy : Bool} {accepts : Char → Bool}
    (h : ∀ taken rest, back = taken ++ rest → (∀ x ∈ taken, accepts x = true) →
      q.Refuses (front ++ taken) rest) :
    (next (many greedy (one accepts)) q).Refuses front back := by
  refine refuses_next fun g e member => ?_
  obtain ⟨taken, rest, split, all, rfl⟩ := mem_ends_many_one member
  exact h taken rest split all g

theorem refuses_one_next {accepts : Char → Bool}
    (h : ∀ x rest, back = x :: rest → accepts x = true → q.Refuses (front ++ [x]) rest) :
    (next (one accepts) q).Refuses front back := by
  refine refuses_next fun g e member => ?_
  cases back with
  | nil => simp [ends] at member
  | cons x back =>
    rw [ends_one_cons] at member
    split at member
    · next accepted =>
      obtain rfl := List.mem_singleton.mp member
      exact h x back rfl accepted g
    · simp at member

theorem refuses_literal_next {t : Text}
    (h : ∀ rest, back = t ++ rest → q.Refuses (front ++ t) rest) :
    (next (literal t) q).Refuses front back := by
  refine refuses_next fun g e member => ?_
  obtain ⟨rest, split, rfl⟩ := mem_ends_literal member
  exact h rest split g

/-- Behind an optional part that cannot be had, everything hangs on what follows. -/
theorem Refuses.optional_next (absent : p.Refuses front back) (h : q.Refuses front back) :
    (next (Pattern.optional p) q).Refuses front back := by
  refine refuses_next fun g e member => ?_
  rw [Pattern.optional, ends, absent g, List.nil_append, ends] at member
  obtain rfl := List.mem_singleton.mp member
  exact h g

end Registrar.Pattern
