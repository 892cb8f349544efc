import Registrar.Proofs.Pattern.Echo
import Registrar.Proofs.Pattern.Found

/-!
What a pattern reaches. Patterns in a row reach what their parts reach one after another. A pattern
that looks only to the character before a place reaches the same characters wherever they stand, and
no line feed is ever taken by a pattern that avoids it.
-/

namespace Registrar.Pattern

open Cursor

/-- The places of the pattern hang on the character before them. -/
def LooksBack : Pattern → Prop
  | nothing | one _ => True
  | place holds => ∀ c c' : Cursor, edge c.previous = edge c'.previous → holds c = holds c'
  | next p q | either p q => p.LooksBack ∧ q.LooksBack
  | many _ p | group _ p => p.LooksBack

variable {p q : Pattern} {ps qs : List Pattern} {bars : Char → Bool}
  {f f' b y y' taken taken' rest rest' : Text} {g h : Groups} {e : Cursor × Groups}

/-! ### Patterns in a row -/

theorem ends_all_cons (p : Pattern) (ps : List Pattern) (c : Cursor) (g : Groups) :
    (all (p :: ps)).ends c g = (next p (all ps)).ends c g := by
  cases ps with
  | nil => simp [all, ends]
  | cons q ps => rfl

theorem ends_all_append (ps qs : List Pattern) (c : Cursor) (g : Groups) :
    (all (ps ++ qs)).ends c g = (next (all ps) (all qs)).ends c g := by
  induction ps generalizing c g with
  | nil => simp [all, ends]
  | cons p ps ih =>
    rw [List.cons_append, ends_all_cons, ends]
    simp only [ih]
    rw [ends, ends_all_cons, ends, List.flatMap_assoc]
    rfl

theorem Echoes.all_append (first : (all ps).Echoes f f' b y y')
    (second : ∀ taken rest, b = taken ++ rest → (all ps).Reaches f taken (rest ++ y) →
      (all qs).Echoes (f ++ taken) (f' ++ taken) rest y y') :
    (all (ps ++ qs)).Echoes f f' b y y' := by
  intro g g' like
  rw [ends_all_append, ends_all_append]
  exact first.next second g g' like

theorem Reaches.exists_of_next (reached : (next p q).Reaches f taken rest) :
    ∃ t t', taken = t ++ t' ∧ p.Reaches f t (t' ++ rest) ∧ q.Reaches (f ++ t) t' rest := by
  obtain ⟨g, g', ended⟩ := reached
  obtain ⟨⟨_, h⟩, first, second⟩ := List.mem_flatMap.mp ended
  obtain ⟨t, r, split, at_⟩ := mem_ends first
  dsimp only at at_ second
  subst at_
  obtain ⟨t', r', rfl, at_'⟩ := mem_ends second
  obtain rfl : rest = r' := congrArg Cursor.rest at_'
  obtain rfl : taken = t ++ t' := List.append_cancel_right (split.trans (List.append_assoc ..).symm)
  rw [List.append_assoc] at first
  exact ⟨t, t', rfl, ⟨g, h, first⟩, h, g', by rwa [List.append_assoc]⟩

theorem Reaches.exists_of_all_append (reached : (all (ps ++ qs)).Reaches f taken rest) :
    ∃ t t', taken = t ++ t' ∧ (all ps).Reaches f t (t' ++ rest) ∧
      (all qs).Reaches (f ++ t) t' rest := by
  obtain ⟨g, g', ended⟩ := reached
  rw [ends_all_append] at ended
  exact Reaches.exists_of_next ⟨g, g', ended⟩

theorem Reaches.eq_of_char {c : Char} (reached : (char c).Reaches f taken rest) : taken = [c] := by
  obtain ⟨g, g', ended⟩ := reached
  cases whole : taken ++ rest with
  | nil => simp [whole, char, ends] at ended
  | cons x back =>
    rw [whole, ends_char_cons] at ended
    split at ended
    · next same =>
      obtain rfl : rest = back := congrArg (Cursor.rest ∘ Prod.fst) (List.mem_singleton.mp ended)
      obtain rfl := eq_of_beq same
      exact List.append_cancel_right whole
    · simp at ended

/-! ### The same characters elsewhere -/

/-- What is reached somewhere is reached wherever the place before it looks the same, whatever is
remembered by then and whatever follows. -/
def Recurs (p : Pattern) : Prop :=
  ∀ ⦃f b : Text⦄ ⦃g : Groups⦄ ⦃e : Cursor × Groups⦄, e ∈ p.ends (.between f b) g →
    ∃ taken rest, b = taken ++ rest ∧ e.1 = .between (f ++ taken) rest ∧
      ∀ f' rest' g', edge f.getLast? = edge f'.getLast? →
        ∃ h', (Cursor.between (f' ++ taken) rest', h') ∈ p.ends (.between f' (taken ++ rest')) g'

theorem recurs_one (accepts : Char → Bool) : (one accepts).Recurs := by
  intro f b g e ended
  cases b with
  | nil => simp [ends] at ended
  | cons x b =>
    rw [ends_one_cons] at ended
    split at ended
    · next accepted =>
      obtain rfl := List.mem_singleton.mp ended
      refine ⟨[x], b, rfl, rfl, fun f' rest' g' _ => ⟨g', ?_⟩⟩
      rw [List.singleton_append, ends_one_cons, if_pos accepted]
      simp
    · simp at ended

theorem LooksBack.recurs_place {holds : Cursor → Bool} (looks : (place holds).LooksBack) :
    (place holds).Recurs := by
  intro f b g e ended
  rw [ends] at ended
  split at ended
  · next here =>
    obtain rfl := List.mem_singleton.mp ended
    refine ⟨[], b, rfl, by simp, fun f' rest' g' sides => ⟨g', ?_⟩⟩
    have there : holds (.between f' ([] ++ rest')) = true := by
      rw [← here]
      exact (looks _ _ sides).symm
    rw [ends, if_pos there]
    simp
  · simp at ended

theorem Recurs.next (first : p.Recurs) (second : q.Recurs) : (next p q).Recurs := by
  intro f b g e ended
  obtain ⟨⟨_, k⟩, inside, later⟩ := List.mem_flatMap.mp ended
  obtain ⟨t, r, rfl, rfl, again⟩ := first inside
  obtain ⟨t', r', rfl, at_, again'⟩ := second later
  refine ⟨t ++ t', r', by simp, by simp [at_], fun f' rest' g' sides => ?_⟩
  obtain ⟨k', inside'⟩ := again f' (t' ++ rest') g' sides
  obtain ⟨h', later'⟩ := again' (f' ++ t) rest' k' (edge_append sides t)
  rw [List.append_assoc] at later' ⊢
  exact ⟨h', List.mem_flatMap.mpr ⟨_, inside', later'⟩⟩

theorem Recurs.either (first : p.Recurs) (second : q.Recurs) : (either p q).Recurs := by
  intro f b g e ended
  rcases List.mem_append.mp ended with left | right
  · obtain ⟨t, r, split, at_, again⟩ := first left
    refine ⟨t, r, split, at_, fun f' rest' g' sides => ?_⟩
    obtain ⟨h', left'⟩ := again f' rest' g' sides
    exact ⟨h', List.mem_append_left _ left'⟩
  · obtain ⟨t, r, split, at_, again⟩ := second right
    refine ⟨t, r, split, at_, fun f' rest' g' sides => ?_⟩
    obtain ⟨h', right'⟩ := again f' rest' g' sides
    exact ⟨h', List.mem_append_right _ right'⟩

/-- The rounds may end where they start. -/
theorem mem_roundEnds_nil (greedy : Bool) (fuel : Nat) (f rest : Text) (g : Groups) :
    (Cursor.between (f ++ []) rest, g) ∈ roundEnds greedy p.ends fuel (.between f ([] ++ rest)) g := by
  cases fuel with
  | zero => simp [roundEnds]
  | succ fuel => exact mem_roundEnds_succ.mpr (.inl (by simp))

/-- What rounds reach they reach elsewhere, too; as many rounds are enough as there are characters. -/
theorem Recurs.roundEnds (recurs : p.Recurs) {greedy : Bool} (fuel : Nat) :
    ∀ ⦃f b : Text⦄ ⦃g : Groups⦄ ⦃e : Cursor × Groups⦄,
      e ∈ roundEnds greedy p.ends fuel (.between f b) g →
        ∃ taken rest, b = taken ++ rest ∧ e.1 = .between (f ++ taken) rest ∧
          ∀ f' rest' g' fuel', edge f.getLast? = edge f'.getLast? → taken.length ≤ fuel' →
            ∃ h', (Cursor.between (f' ++ taken) rest', h') ∈
              roundEnds greedy p.ends fuel' (.between f' (taken ++ rest')) g' := by
  induction fuel with
  | zero =>
    intro f b g e ended
    obtain rfl := List.mem_singleton.mp ended
    exact ⟨[], b, rfl, by simp, fun f' rest' g' fuel' _ _ => ⟨g', mem_roundEnds_nil ..⟩⟩
  | succ fuel more =>
    intro f b g e ended
    rcases mem_roundEnds_succ.mp ended with rfl | ⟨⟨_, k⟩, first, moved, later⟩
    · exact ⟨[], b, rfl, by simp, fun f' rest' g' fuel' _ _ => ⟨g', mem_roundEnds_nil ..⟩⟩
    · obtain ⟨t, r, rfl, rfl, again⟩ := recurs first
      obtain ⟨t', r', rfl, at_, again'⟩ := more later
      refine ⟨t ++ t', r', by simp, by simp [at_], fun f' rest' g' fuel' sides enough => ?_⟩
      have some_ : t ≠ [] := by
        rintro rfl
        simp at moved
      have positive := List.length_pos_iff.mpr some_
      rw [List.length_append] at enough
      obtain ⟨fuel', rfl⟩ : ∃ n, fuel' = n + 1 := ⟨fuel' - 1, by omega⟩
      obtain ⟨k', first'⟩ := again f' (t' ++ rest') g' sides
      obtain ⟨h', later'⟩ := again' (f' ++ t) rest' k' fuel' (edge_append sides t) (by omega)
      rw [List.append_assoc] at later' ⊢
      exact ⟨h', mem_roundEnds_succ.mpr
        (.inr ⟨_, first', offset_lt_append _ _ _ _ some_, later'⟩)⟩

theorem Recurs.many (recurs : p.Recurs) (greedy : Bool) : (many greedy p).Recurs := by
  intro f b g e ended
  obtain ⟨t, r, split, at_, again⟩ := recurs.roundEnds _ ended
  exact ⟨t, r, split, at_, fun f' rest' g' sides => again f' rest' g' _ sides (by simp)⟩

theorem Recurs.group (recurs : p.Recurs) (label : String) : (group label p).Recurs := by
  intro f b g e ended
  obtain ⟨inner, inside, rfl⟩ := List.mem_map.mp ended
  obtain ⟨t, r, split, at_, again⟩ := recurs inside
  refine ⟨t, r, split, at_, fun f' rest' g' sides => ?_⟩
  obtain ⟨h', inside'⟩ := again f' rest' g' sides
  exact ⟨_, List.mem_map.mpr ⟨_, inside', rfl⟩⟩

theorem LooksBack.recurs (looks : p.LooksBack) : p.Recurs := by
  induction p with
  | nothing =>
    intro f b g e ended
    obtain rfl := List.mem_singleton.mp ended
    exact ⟨[], b, rfl, by simp, fun f' rest' g' _ => ⟨g', by simp [ends]⟩⟩
  | one accepts => exact recurs_one accepts
  | place holds => exact looks.recurs_place
  | next p q ihp ihq => exact (ihp looks.1).next (ihq looks.2)
  | either p q ihp ihq => exact (ihp looks.1).either (ihq looks.2)
  | many greedy p ih => exact (ih looks).many greedy
  | group label p ih => exact (ih looks).group label

theorem Reaches.exists_end (reached : p.Reaches f taken rest) (looks : p.LooksBack)
    (sides : edge f.getLast? = edge f'.getLast?) (rest' : Text) (g' : Groups) :
    ∃ h', (Cursor.between (f' ++ taken) rest', h') ∈ p.ends (.between f' (taken ++ rest')) g' := by
  obtain ⟨g, h, ended⟩ := reached
  obtain ⟨t, r, split, at_, again⟩ := looks.recurs ended
  obtain rfl : rest = r := congrArg Cursor.rest at_
  obtain rfl := List.append_cancel_right split
  exact again f' rest' g' sides

/-- What is reached hangs on nothing behind it. -/
theorem Reaches.behind (reached : p.Reaches f taken rest) (looks : p.LooksBack) (rest' : Text) :
    p.Reaches f taken rest' := by
  obtain ⟨h, ended⟩ := reached.exists_end looks rfl rest' []
  exact ⟨[], h, ended⟩

theorem Reaches.next (first : p.Reaches f taken (taken' ++ rest)) (looks : q.LooksBack)
    (second : q.Reaches (f ++ taken) taken' rest) : (next p q).Reaches f (taken ++ taken') rest := by
  obtain ⟨g, h, first⟩ := first
  obtain ⟨h', second⟩ := second.exists_end looks rfl rest h
  rw [← List.append_assoc] at first
  rw [List.append_assoc f] at second
  exact ⟨g, h', List.mem_flatMap.mpr ⟨_, first, second⟩⟩

theorem Reaches.of_optional (reached : (optional p).Reaches f taken rest) :
    p.Reaches f taken rest ∨ taken = [] := by
  obtain ⟨g, h, ended⟩ := reached
  rcases List.mem_append.mp ended with ended | ended
  · exact .inl ⟨g, h, ended⟩
  · have still := congrArg (List.length ∘ Cursor.rest ∘ Prod.fst) (List.mem_singleton.mp ended)
    simp only [Function.comp_apply, between_rest, List.length_append] at still
    exact .inr (List.length_eq_zero_iff.mp (by omega))

theorem reaches_optional_nil : (optional p).Reaches f [] rest :=
  ⟨[], [], List.mem_append_right _ (by simp [ends])⟩

theorem Takes.reaches (takes : p.Takes f taken rest g h) : p.Reaches f taken rest :=
  ⟨g, h, List.mem_of_head? takes⟩

/-! ### Patterns that are built of others -/

@[simp] theorem avoids_all : (all ps).Avoids bars ↔ ∀ p ∈ ps, p.Avoids bars := by
  induction ps with
  | nil => simp [all, Avoids]
  | cons p ps ih =>
    cases ps with
    | nil => simp [all]
    | cons q ps => rw [all_cons p (by simp), Avoids, ih, ← List.forall_mem_cons (p := Avoids bars)]

@[simp] theorem avoids_char {c : Char} : (char c).Avoids bars ↔ bars c = false := by
  constructor
  · intro avoids
    by_contra bar
    simpa using avoids c (by simpa using bar)
  · intro free x bar
    simp only [beq_eq_false_iff_ne, ne_eq]
    rintro rfl
    rw [free] at bar
    cases bar

@[simp] theorem avoids_optional : (optional p).Avoids bars ↔ p.Avoids bars := by
  simp [Pattern.optional, Avoids]

@[simp] theorem avoids_next : (next p q).Avoids bars ↔ p.Avoids bars ∧ q.Avoids bars := Iff.rfl

@[simp] theorem avoids_group {label : String} : (group label p).Avoids bars ↔ p.Avoids bars := Iff.rfl

@[simp] theorem avoids_many {greedy : Bool} : (many greedy p).Avoids bars ↔ p.Avoids bars := Iff.rfl

@[simp] theorem avoids_atLeastOnce : (atLeastOnce p).Avoids bars ↔ p.Avoids bars := by
  simp [atLeastOnce]

@[simp] theorem avoids_literal {t : Text} :
    (literal t).Avoids bars ↔ ∀ c ∈ t, bars c = false := by
  simp [literal]

@[simp] theorem looksBack_all : (all ps).LooksBack ↔ ∀ p ∈ ps, p.LooksBack := by
  induction ps with
  | nil => simp [all, LooksBack]
  | cons p ps ih =>
    cases ps with
    | nil => simp [all]
    | cons q ps => rw [all_cons p (by simp), LooksBack, ih, ← List.forall_mem_cons (p := LooksBack)]

@[simp] theorem looksBack_one {accepts : Char → Bool} : (one accepts).LooksBack := trivial

@[simp] theorem looksBack_char {c : Char} : (char c).LooksBack := trivial

@[simp] theorem looksBack_next : (next p q).LooksBack ↔ p.LooksBack ∧ q.LooksBack := Iff.rfl

@[simp] theorem looksBack_optional : (optional p).LooksBack ↔ p.LooksBack := by
  simp [Pattern.optional, LooksBack]

@[simp] theorem looksBack_group {label : String} : (group label p).LooksBack ↔ p.LooksBack := Iff.rfl

@[simp] theorem looksBack_many {greedy : Bool} : (many greedy p).LooksBack ↔ p.LooksBack := Iff.rfl

@[simp] theorem looksBack_atLeastOnce : (atLeastOnce p).LooksBack ↔ p.LooksBack := by
  simp [atLeastOnce]

@[simp] theorem looksBack_literal {t : Text} : (literal t).LooksBack := by
  simp [literal]

end Registrar.Pattern
