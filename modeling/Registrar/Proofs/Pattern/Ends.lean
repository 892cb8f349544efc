import Mathlib.Data.List.Basic
import Registrar.Pattern.Basic

/-!
The ends of a pattern's matches at a place, as one list in order of preference. Running a pattern
asks its goal of each of them in turn, so the preferred match is the first of the list, and there is
no match where the list is empty. Every end lies at or after the start, in the same text.
-/

namespace Registrar

namespace Cursor

/-- The place between two parts of a text. -/
def between (front back : Text) : Cursor := ⟨Text.size front, front.getLast?, back⟩

variable {front back : Text}

@[simp] theorem between_offset : (between front back).offset = Text.size front := rfl

@[simp] theorem between_previous : (between front back).previous = front.getLast? := rfl

@[simp] theorem between_rest : (between front back).rest = back := rfl

@[simp] theorem start_eq_between (t : Text) : start t = between [] t := rfl

@[simp] theorem advance_between_nil (front : Text) : (between front []).advance = none := rfl

theorem advance_between_cons (front back : Text) (x : Char) :
    (between front (x :: back)).advance = some (x, between (front ++ [x]) back) := by
  simp [advance, between]

/-- What lies between two places of one text. -/
theorem upTo_between (front middle back front' : Text) :
    (between front (middle ++ back)).upTo (between front' back) = middle := by
  simp [upTo]

/-- A place begins a line at the start of the text and after a line feed. -/
theorem startsLine_between_iff :
    (between front back).startsLine = true ↔ front = [] ∨ ∃ t, front = t ++ ['\n'] := by
  rcases List.eq_nil_or_concat front with rfl | ⟨t, x, rfl⟩
  · simp [startsLine]
  · simp [startsLine]

end Cursor

namespace Pattern

/-- The ends of rounds, at most `fuel`, each of which has to move on. -/
def roundEnds (greedy : Bool) (once : Cursor → Groups → List (Cursor × Groups)) :
    Nat → Cursor → Groups → List (Cursor × Groups)
  | 0, c, g => [(c, g)]
  | fuel + 1, c, g =>
    let more := (once c g).flatMap fun e =>
      if c.offset < e.1.offset then roundEnds greedy once fuel e.1 e.2 else []
    if greedy then more ++ [(c, g)] else (c, g) :: more

/-- The ends of a pattern's matches at a place, the preferred one first. -/
def ends : Pattern → Cursor → Groups → List (Cursor × Groups)
  | nothing, c, g => [(c, g)]
  | one accepts, c, g =>
    match c.advance with
    | some (x, c') => if accepts x then [(c', g)] else []
    | none => []
  | place holds, c, g => if holds c then [(c, g)] else []
  | next p q, c, g => (p.ends c g).flatMap fun e => q.ends e.1 e.2
  | either p q, c, g => p.ends c g ++ q.ends c g
  | many greedy p, c, g => roundEnds greedy p.ends c.rest.length c g
  | group label p, c, g => (p.ends c g).map fun e => (e.1, (label, c, e.1) :: e.2)

attribute [grind =] roundEnds ends

/-- A search through lists joined is a search of searches. -/
theorem findSome?_flatMap {α β γ : Type} (f : α → List β) (goal : β → Option γ) (l : List α) :
    (l.flatMap f).findSome? goal = l.findSome? fun a => (f a).findSome? goal := by
  induction l with
  | nil => rfl
  | cons a rest ih =>
    rw [List.flatMap_cons, List.findSome?_append, ih, List.findSome?_cons]
    cases (f a).findSome? goal <;> rfl

theorem rounds_eq {β : Type} (greedy : Bool)
    {once : Cursor → Groups → Goal β → Option β}
    {onceEnds : Cursor → Groups → List (Cursor × Groups)}
    (agree : ∀ c g goal, once c g goal = (onceEnds c g).findSome? fun e => goal e.1 e.2)
    (fuel : Nat) (c : Cursor) (g : Groups) (goal : Goal β) :
    rounds greedy once fuel c g goal =
      (roundEnds greedy onceEnds fuel c g).findSome? fun e => goal e.1 e.2 := by
  induction fuel generalizing c g with
  | zero => simp [rounds, roundEnds]
  | succ fuel ih =>
    have more : (once c g fun c' g' =>
          if c.offset < c'.offset then rounds greedy once fuel c' g' goal else none) =
        ((onceEnds c g).flatMap fun e =>
          if c.offset < e.1.offset then roundEnds greedy onceEnds fuel e.1 e.2 else []).findSome?
          fun e => goal e.1 e.2 := by
      rw [agree, findSome?_flatMap]
      congr 1
      funext e
      split
      · exact ih e.1 e.2
      · rfl
    cases greedy
    · rw [rounds, roundEnds, if_neg Bool.false_ne_true, if_neg Bool.false_ne_true,
        List.findSome?_cons, more]
      cases goal c g <;> rfl
    · rw [rounds, roundEnds, if_pos rfl, if_pos rfl, List.findSome?_append, more]
      simp

/-- A run asks the goal of the ends in their order. -/
theorem run_eq {β : Type} (p : Pattern) (c : Cursor) (g : Groups) (goal : Goal β) :
    p.run c g goal = (p.ends c g).findSome? fun e => goal e.1 e.2 := by
  induction p generalizing c g goal with
  | nothing => simp [run, ends]
  | one accepts =>
    rw [run, ends]
    cases c.advance with
    | none => rfl
    | some step => by_cases accepted : accepts step.1 = true <;> simp [accepted]
  | place holds =>
    rw [run, ends]
    split <;> simp
  | next p q ihp ihq =>
    rw [run, ends, ihp, findSome?_flatMap]
    congr 1
    funext e
    exact ihq e.1 e.2 goal
  | either p q ihp ihq => simp [run, ends, ihp, ihq]
  | many greedy p ih => exact rounds_eq greedy ih _ c g goal
  | group label p ih => simp [run, ends, ih, List.findSome?_map, Function.comp_def]

/-- The preferred match is that of the first end. -/
theorem matchAt?_eq (p : Pattern) (c : Cursor) :
    p.matchAt? c = (p.ends c []).head?.map fun e => ⟨c, e.1, e.2⟩ := by
  rw [matchAt?, run_eq]
  cases p.ends c [] <;> rfl

/-! ### Where ends lie -/

section
variable {p : Pattern} {front back : Text} {g : Groups} {e : Cursor × Groups}

/-- Rounds end where they start or where more rounds end after one that has moved on. -/
theorem mem_roundEnds_succ {greedy : Bool} {once : Cursor → Groups → List (Cursor × Groups)}
    {fuel : Nat} {c : Cursor} :
    e ∈ roundEnds greedy once (fuel + 1) c g ↔ e = (c, g) ∨
      ∃ m ∈ once c g, c.offset < m.1.offset ∧ e ∈ roundEnds greedy once fuel m.1 m.2 := by
  have more : e ∈ ((once c g).flatMap fun m =>
        if c.offset < m.1.offset then roundEnds greedy once fuel m.1 m.2 else []) ↔
      ∃ m ∈ once c g, c.offset < m.1.offset ∧ e ∈ roundEnds greedy once fuel m.1 m.2 := by
    rw [List.mem_flatMap]
    refine exists_congr fun m => and_congr_right fun _ => ?_
    by_cases moved : c.offset < m.1.offset <;> simp [moved]
  cases greedy
  · rw [roundEnds, if_neg Bool.false_ne_true, List.mem_cons, more]
  · rw [roundEnds, if_pos rfl, List.mem_append, List.mem_singleton, more, or_comm]

/-- Every end lies behind a part of the text that follows the start. -/
theorem mem_ends (member : e ∈ p.ends (.between front back) g) :
    ∃ taken rest, back = taken ++ rest ∧ e.1 = .between (front ++ taken) rest := by
  induction p generalizing front back g e with
  | nothing =>
    obtain rfl := List.mem_singleton.mp member
    exact ⟨[], back, rfl, by simp⟩
  | one accepts =>
    cases back with
    | nil => simp [ends] at member
    | cons x rest =>
      simp only [ends, Cursor.advance_between_cons] at member
      split at member
      · obtain rfl := List.mem_singleton.mp member
        exact ⟨[x], rest, rfl, rfl⟩
      · simp at member
  | place holds =>
    rw [ends] at member
    split at member
    · obtain rfl := List.mem_singleton.mp member
      exact ⟨[], back, rfl, by simp⟩
    · simp at member
  | next p q ihp ihq =>
    obtain ⟨middle, first, second⟩ := List.mem_flatMap.mp member
    obtain ⟨taken, rest, rfl, at_⟩ := ihp first
    rw [at_] at second
    obtain ⟨taken', rest', rfl, at_'⟩ := ihq second
    exact ⟨taken ++ taken', rest', by simp, by simp [at_']⟩
  | either p q ihp ihq =>
    rcases List.mem_append.mp member with left | right
    · exact ihp left
    · exact ihq right
  | many greedy p ih =>
    have rounds : ∀ fuel front back (g : Groups) (e : Cursor × Groups),
        e ∈ roundEnds greedy p.ends fuel (.between front back) g →
          ∃ taken rest, back = taken ++ rest ∧ e.1 = .between (front ++ taken) rest := by
      intro fuel
      induction fuel with
      | zero =>
        intro front back g e member
        obtain rfl := List.mem_singleton.mp member
        exact ⟨[], back, rfl, by simp⟩
      | succ fuel again =>
        intro front back g e member
        rcases mem_roundEnds_succ.mp member with rfl | ⟨middle, first, _, second⟩
        · exact ⟨[], back, rfl, by simp⟩
        · obtain ⟨taken, rest, rfl, at_⟩ := ih first
          rw [at_] at second
          obtain ⟨taken', rest', rfl, at_'⟩ := again _ _ _ _ second
          exact ⟨taken ++ taken', rest', by simp, by simp [at_']⟩
    exact rounds _ _ _ _ _ member
  | group label p ih =>
    obtain ⟨inner, first, rfl⟩ := List.mem_map.mp member
    exact ih (e := inner) first

end

end Pattern
end Registrar
