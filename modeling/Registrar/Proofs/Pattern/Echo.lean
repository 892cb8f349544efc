import Mathlib.Data.List.Forall2
import Registrar.Proofs.Pattern.Scan

/-!
The same characters at two places. A pattern that takes none of the characters in a class does not
see beyond the first of them, so at two places where the same characters come before such a one its
ends are the same but for where the places are. Nor do its places look farther than to the characters
beside them, where a line feed is as good as the edge of the text.
-/

namespace Registrar

/-- A line feed beside a place says no more than the edge of the text. -/
def Cursor.edge : Option Char → Option Char
  | some '\n' => none
  | side => side

namespace Pattern

open Cursor

/-- The pattern takes none of the characters, and looks no farther than to the characters beside a
place. -/
def Avoids (bars : Char → Bool) : Pattern → Prop
  | nothing => True
  | one accepts => ∀ x, bars x = true → accepts x = false
  | place holds => ∀ c c' : Cursor, edge c.previous = edge c'.previous →
      edge c.rest.head? = edge c'.rest.head? → holds c = holds c'
  | next p q | either p q => p.Avoids bars ∧ q.Avoids bars
  | many _ p | group _ p => p.Avoids bars

/-- The groups remember the same characters, as far from two places. -/
def Like (here there : Nat) : Groups → Groups → Prop :=
  List.Forall₂ fun a b => a.1 = b.1 ∧ a.2.1.upTo a.2.2 = b.2.1.upTo b.2.2 ∧
    a.2.1.offset + there = b.2.1.offset + here ∧ a.2.2.offset + there = b.2.2.offset + here

/-- The ends lie behind the same characters of `b`, with the same remembered. -/
def Twin (f f' b y y' : Text) (e e' : Cursor × Groups) : Prop :=
  ∃ taken rest, b = taken ++ rest ∧ e.1 = .between (f ++ taken) (rest ++ y) ∧
    e'.1 = .between (f' ++ taken) (rest ++ y') ∧ Like f.size f'.size e.2 e'.2

/-- Behind `f` and behind `f'` the pattern has the same ends, all of them in `b`. -/
def Echoes (p : Pattern) (f f' b y y' : Text) : Prop :=
  ∀ g g', Like f.size f'.size g g' →
    List.Forall₂ (Twin f f' b y y') (p.ends (.between f (b ++ y)) g)
      (p.ends (.between f' (b ++ y')) g')

/-- The texts begin with characters of the class, or are empty, and look the same from outside. -/
structure Rim (bars : Char → Bool) (y y' : Text) : Prop where
  left : ∀ x, y.head? = some x → bars x = true
  right : ∀ x, y'.head? = some x → bars x = true
  edges : edge y.head? = edge y'.head?

/-- The pattern can take the characters. -/
def Reaches (p : Pattern) (f taken rest : Text) : Prop :=
  ∃ g g', (Cursor.between (f ++ taken) rest, g') ∈ p.ends (.between f (taken ++ rest)) g

variable {p q : Pattern} {bars : Char → Bool} {f f' b y y' taken rest : Text} {g g' : Groups}
  {e e' : Cursor × Groups}

theorem like_append : Like (f ++ taken).size (f' ++ taken).size g g' ↔ Like f.size f'.size g g' := by
  have same : ∀ a b : Nat, a + (f' ++ taken).size = b + (f ++ taken).size ↔
      a + f'.size = b + f.size := by
    intro a b
    simp only [Text.size_append]
    omega
  simp only [Like, same]

theorem Like.refl (n : Nat) (g : Groups) : Like n n g g := by
  induction g with
  | nil => exact .nil
  | cons a g ih => exact .cons ⟨rfl, rfl, rfl, rfl⟩ ih

/-- Two places behind the same characters see the same before them if the fronts do. -/
theorem edge_append (sides : edge f.getLast? = edge f'.getLast?) (taken : Text) :
    edge (f ++ taken).getLast? = edge (f' ++ taken).getLast? := by
  rcases List.eq_nil_or_concat taken with rfl | ⟨front, x, rfl⟩
  · simpa using sides
  · simp [List.concat_eq_append, ← List.append_assoc]

theorem Rim.edge_append (rim : Rim bars y y') (b : Text) :
    edge (b ++ y).head? = edge (b ++ y').head? := by
  cases b with
  | nil => exact rim.edges
  | cons x b => rfl

theorem Twin.later (twin : Twin (f ++ taken) (f' ++ taken) rest y y' e e') :
    Twin f f' (taken ++ rest) y y' e e' := by
  obtain ⟨taken', rest', rfl, here, there, like⟩ := twin
  exact ⟨taken ++ taken', rest', by simp, by simp [here], by simp [there], like_append.mp like⟩

theorem forall₂_flatMap {α β γ δ : Type} {r : α → β → Prop} {s : γ → δ → Prop} {l : List α}
    {l' : List β} {h : α → List γ} {h' : β → List δ} (first : List.Forall₂ r l l')
    (each : ∀ a ∈ l, ∀ b, r a b → List.Forall₂ s (h a) (h' b)) :
    List.Forall₂ s (l.flatMap h) (l'.flatMap h') := by
  induction first with
  | nil => exact .nil
  | cons same _ ih =>
    rw [List.flatMap_cons, List.flatMap_cons]
    exact List.rel_append (each _ (by simp) _ same) (ih fun a member => each a (by simp [member]))

/-- One pattern and then another: the second goes on where the first has got to. -/
theorem Echoes.next (first : p.Echoes f f' b y y')
    (second : ∀ taken rest, b = taken ++ rest → p.Reaches f taken (rest ++ y) →
      q.Echoes (f ++ taken) (f' ++ taken) rest y y') :
    (next p q).Echoes f f' b y y' := by
  intro g g' like
  refine forall₂_flatMap (first g g' like) ?_
  rintro ⟨_, h⟩ member ⟨_, h'⟩ ⟨taken, rest, rfl, rfl, rfl, like'⟩
  have reached : p.Reaches f taken (rest ++ y) := ⟨g, h, by simpa using member⟩
  exact (second taken rest rfl reached h h' (like_append.mpr like')).imp fun _ _ => Twin.later

theorem Echoes.either (left : p.Echoes f f' b y y') (right : q.Echoes f f' b y y') :
    (either p q).Echoes f f' b y y' :=
  fun g g' like => List.rel_append (left g g' like) (right g g' like)

theorem echoes_nothing : nothing.Echoes f f' b y y' :=
  fun _ _ like => .cons ⟨[], b, rfl, by simp, by simp, like⟩ .nil

theorem Echoes.optional (echoes : p.Echoes f f' b y y') : (optional p).Echoes f f' b y y' :=
  echoes.either echoes_nothing

theorem Echoes.group {label : String} (echoes : p.Echoes f f' b y y') :
    (group label p).Echoes f f' b y y' := by
  intro g g' like
  refine List.forall₂_map_left_iff.mpr (List.forall₂_map_right_iff.mpr ((echoes g g' like).imp ?_))
  rintro ⟨_, h⟩ ⟨_, h'⟩ ⟨taken, rest, rfl, rfl, rfl, like'⟩
  refine ⟨taken, rest, rfl, rfl, rfl, .cons ⟨rfl, ?_, ?_, ?_⟩ like'⟩
  · simp only [List.append_assoc, upTo_between]
  · simp only [between_offset]
    omega
  · simp only [between_offset, Text.size_append]
    omega

/-- One character is seen where there is one. -/
theorem echoes_one {accepts : Char → Bool} (some_ : b ≠ []) :
    (one accepts).Echoes f f' b y y' := by
  intro g g' like
  obtain ⟨x, b, rfl⟩ := List.exists_cons_of_ne_nil some_
  rw [List.cons_append, List.cons_append, ends_one_cons, ends_one_cons]
  split
  · exact .cons ⟨[x], b, rfl, rfl, rfl, like⟩ .nil
  · exact .nil

theorem echoes_one_rim {accepts : Char → Bool} (avoids : (one accepts).Avoids bars)
    (rim : Rim bars y y') : (one accepts).Echoes f f' b y y' := by
  cases b with
  | cons x b => exact echoes_one (by simp)
  | nil =>
    have none_ : ∀ f y g, (∀ x, y.head? = some x → bars x = true) →
        (one accepts).ends (.between f ([] ++ y)) g = [] := by
      intro f y g stops
      cases y with
      | nil => rfl
      | cons x y =>
        rw [List.nil_append, ends_one_cons, if_neg (by simp [avoids x (stops x rfl)])]
    intro g g' like
    rw [none_ f y g rim.left, none_ f' y' g' rim.right]
    exact .nil

theorem exists_of_forall₂ {α β : Type} {r : α → β → Prop} {l : List α} {l' : List β}
    (all : List.Forall₂ r l l') : (∀ a ∈ l, ∃ b ∈ l', r a b) ∧ ∀ b ∈ l', ∃ a ∈ l, r a b := by
  induction all with
  | nil => simp
  | @cons a b l l' same _ ih =>
    constructor
    · rintro a' (_ | ⟨_, member⟩)
      · exact ⟨b, by simp, same⟩
      · obtain ⟨b', member', same'⟩ := ih.1 a' member
        exact ⟨b', by simp [member'], same'⟩
    · rintro b' (_ | ⟨_, member⟩)
      · exact ⟨a, by simp, same⟩
      · obtain ⟨a', member', same'⟩ := ih.2 b' member
        exact ⟨a', by simp [member'], same'⟩

/-- The ends behind `f` lie in the part that is seen. -/
theorem Echoes.exists_of_mem_left (echoes : p.Echoes f f' b y y') (like : Like f.size f'.size g g')
    (member : e ∈ p.ends (.between f (b ++ y)) g) :
    ∃ taken rest, b = taken ++ rest ∧ e.1 = .between (f ++ taken) (rest ++ y) := by
  obtain ⟨_, _, taken, rest, split, here, _⟩ := (exists_of_forall₂ (echoes g g' like)).1 e member
  exact ⟨taken, rest, split, here⟩

theorem Echoes.exists_of_mem_right (echoes : p.Echoes f f' b y y') (like : Like f.size f'.size g g')
    (member : e ∈ p.ends (.between f' (b ++ y')) g') :
    ∃ taken rest, b = taken ++ rest ∧ e.1 = .between (f' ++ taken) (rest ++ y') := by
  obtain ⟨_, _, taken, rest, split, _, there, _⟩ :=
    (exists_of_forall₂ (echoes g g' like)).2 e member
  exact ⟨taken, rest, split, there⟩

theorem Echoes.offset_eq (echoes : p.Echoes f f' [] y y') (like : Like f.size f'.size g g') :
    (∀ e ∈ p.ends (.between f y) g, e.1.offset = f.size) ∧
      ∀ e ∈ p.ends (.between f' y') g', e.1.offset = f'.size := by
  constructor
  · intro e member
    obtain ⟨taken, rest, none_, here⟩ := echoes.exists_of_mem_left like member
    obtain ⟨rfl, rfl⟩ := List.append_eq_nil_iff.mp none_.symm
    simp [here]
  · intro e member
    obtain ⟨taken, rest, none_, there⟩ := echoes.exists_of_mem_right like member
    obtain ⟨rfl, rfl⟩ := List.append_eq_nil_iff.mp none_.symm
    simp [there]

/-- Rounds that do not move on are no rounds. -/
theorem roundEnds_eq_of_still {greedy : Bool} (fuel : Nat)
    (still : ∀ e ∈ p.ends (.between f y) g, e.1.offset = f.size) :
    roundEnds greedy p.ends fuel (.between f y) g = [(.between f y, g)] := by
  cases fuel with
  | zero => rfl
  | succ fuel =>
    have more : ((p.ends (.between f y) g).flatMap fun e =>
        if (Cursor.between f y).offset < e.1.offset then roundEnds greedy p.ends fuel e.1 e.2
        else []) = [] := by
      refine List.flatMap_eq_nil_iff.mpr fun e member => if_neg ?_
      rw [still e member]
      exact Nat.lt_irrefl _
    rw [roundEnds, more]
    cases greedy <;> rfl

/-- A repetition goes through the same rounds, however many are allowed. -/
theorem echoes_many {greedy : Bool} (sides : edge f.getLast? = edge f'.getLast?)
    (once : ∀ f f' b, edge f.getLast? = edge f'.getLast? → p.Echoes f f' b y y') :
    (many greedy p).Echoes f f' b y y' := by
  have none_ : ∀ f f' fuel fuel' g g', edge f.getLast? = edge f'.getLast? →
      Like f.size f'.size g g' →
        List.Forall₂ (Twin f f' [] y y') (roundEnds greedy p.ends fuel (.between f y) g)
          (roundEnds greedy p.ends fuel' (.between f' y') g') := by
    intro f f' fuel fuel' g g' sides like
    obtain ⟨still, still'⟩ := (once f f' [] sides).offset_eq like
    rw [roundEnds_eq_of_still fuel still, roundEnds_eq_of_still fuel' still']
    exact .cons ⟨[], [], rfl, by simp, by simp, like⟩ .nil
  have rounds : ∀ (n : Nat) (b f f' : Text) (fuel fuel' : Nat) (g g' : Groups), b.length ≤ n →
      b.length ≤ fuel → b.length ≤ fuel' → edge f.getLast? = edge f'.getLast? →
      Like f.size f'.size g g' →
        List.Forall₂ (Twin f f' b y y') (roundEnds greedy p.ends fuel (.between f (b ++ y)) g)
          (roundEnds greedy p.ends fuel' (.between f' (b ++ y')) g') := by
    intro n
    induction n with
    | zero =>
      intro b f f' fuel fuel' g g' short _ _ sides like
      obtain rfl : b = [] := List.length_eq_zero_iff.mp (Nat.le_zero.mp short)
      exact none_ f f' fuel fuel' g g' sides like
    | succ n ih =>
      intro b f f' fuel fuel' g g' short enough enough' sides like
      cases b with
      | nil => exact none_ f f' fuel fuel' g g' sides like
      | cons x b =>
        obtain ⟨fuel, rfl⟩ : ∃ k, fuel = k + 1 := ⟨fuel - 1, by simp at enough; omega⟩
        obtain ⟨fuel', rfl⟩ : ∃ k, fuel' = k + 1 := ⟨fuel' - 1, by simp at enough'; omega⟩
        have stop : Twin f f' (x :: b) y y' (.between f (x :: b ++ y), g)
            (.between f' (x :: b ++ y'), g') := ⟨[], x :: b, rfl, by simp, by simp, like⟩
        have more : List.Forall₂ (Twin f f' (x :: b) y y')
            ((p.ends (.between f (x :: b ++ y)) g).flatMap fun e =>
              if (Cursor.between f (x :: b ++ y)).offset < e.1.offset then
                roundEnds greedy p.ends fuel e.1 e.2 else [])
            ((p.ends (.between f' (x :: b ++ y')) g').flatMap fun e =>
              if (Cursor.between f' (x :: b ++ y')).offset < e.1.offset then
                roundEnds greedy p.ends fuel' e.1 e.2 else []) := by
          refine forall₂_flatMap (once f f' (x :: b) sides g g' like) ?_
          rintro ⟨_, h⟩ _ ⟨_, h'⟩ ⟨taken, rest, split, rfl, rfl, like'⟩
          by_cases moved : taken = []
          · subst moved
            simp
          · have shorter : rest.length + 1 ≤ (x :: b).length := by
              rw [split, List.length_append]
              have := List.length_pos_iff.mpr moved
              omega
            simp only [List.length_cons] at shorter short enough enough'
            rw [if_pos (offset_lt_append _ _ _ _ moved), if_pos (offset_lt_append _ _ _ _ moved)]
            rw [split]
            refine (ih rest _ _ _ _ _ _ (by omega) (by omega) (by omega) (edge_append sides taken)
              (like_append.mpr like')).imp fun _ _ => Twin.later
        cases greedy
        · exact .cons stop more
        · exact List.rel_append more (.cons stop .nil)
  exact fun g g' like => rounds b.length b f f' _ _ g g' (Nat.le_refl _) (by simp) (by simp) sides like

/-- A pattern that avoids the characters at which two texts end echoes. -/
theorem echoes_rim (avoids : p.Avoids bars) (sides : edge f.getLast? = edge f'.getLast?)
    (rim : Rim bars y y') : p.Echoes f f' b y y' := by
  induction p generalizing f f' b with
  | nothing => exact echoes_nothing
  | one accepts => exact echoes_one_rim avoids rim
  | place holds =>
    intro g g' like
    have same : holds (.between f (b ++ y)) = holds (.between f' (b ++ y')) :=
      avoids _ _ sides (rim.edge_append b)
    rw [ends, ends, same]
    split
    · exact .cons ⟨[], b, rfl, by simp, by simp, like⟩ .nil
    · exact .nil
  | next p q ihp ihq =>
    exact (ihp avoids.1 sides).next fun taken _ _ _ => ihq avoids.2 (edge_append sides taken)
  | either p q ihp ihq => exact (ihp avoids.1 sides).either (ihq avoids.2 sides)
  | many greedy p ih => exact echoes_many sides fun _ _ _ sides => ih avoids sides
  | group label p ih => exact (ih avoids sides).group

/-- What is seen before a part of a text is seen before all of it. -/
theorem Echoes.widen {z : Text} (echoes : p.Echoes f f' b (z ++ y) (z ++ y')) :
    p.Echoes f f' (b ++ z) y y' := by
  intro g g' like
  have all := echoes g g' like
  rw [← List.append_assoc, ← List.append_assoc] at all
  refine all.imp ?_
  rintro e e' ⟨taken, rest, rfl, here, there, like'⟩
  exact ⟨taken, rest ++ z, by simp, by simp [here], by simp [there], like'⟩

/-- A pattern does not see beyond a character that it avoids. -/
theorem echoes_bar (avoids : p.Avoids bars) (sides : edge f.getLast? = edge f'.getLast?)
    {x : Char} (member : x ∈ b) (bar : bars x = true) : p.Echoes f f' b y y' := by
  obtain ⟨front, back, rfl⟩ := List.append_of_mem member
  have rim : Rim bars (x :: back ++ y) (x :: back ++ y') :=
    ⟨by simpa using bar, by simpa using bar, rfl⟩
  exact (echoes_rim avoids sides rim).widen

/-- What a pattern takes holds none of the characters that it avoids. -/
theorem Reaches.avoided (avoids : p.Avoids bars) (reached : p.Reaches f taken rest) :
    ∀ x ∈ taken, bars x = false := by
  intro x member
  by_contra bar
  obtain ⟨front, back, rfl⟩ := List.append_of_mem member
  obtain ⟨g, g', ended⟩ := reached
  have rim : Rim bars (x :: back ++ rest) (x :: back ++ rest) :=
    ⟨by simpa using bar, by simpa using bar, rfl⟩
  rw [List.append_assoc] at ended
  obtain ⟨taken, rest', rfl, here⟩ :=
    (echoes_rim (f := f) (b := front) avoids rfl rim).exists_of_mem_left (Like.refl _ g) ended
  have short := congrArg (List.length ∘ Cursor.rest) here
  simp only [Function.comp_apply, between_rest, List.length_append, List.length_cons] at short
  omega

end Pattern
end Registrar
