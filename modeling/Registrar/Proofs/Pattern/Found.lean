import Registrar.Proofs.Pattern.Scan

/-!
Where patterns are found. The ends of patterns in a row are those of one after another, a match
among those of a text is the match at some place of it, and a pattern that can end somewhere occurs.
What is remembered under a label comes from the groups of that label only.
-/

namespace Registrar

namespace Pattern

variable {p q : Pattern} {c : Cursor} {g : Groups} {e : Cursor × Groups} {front back t : Text}

theorem mem_ends_all_cons {ps : List Pattern} : e ∈ (all (p :: ps)).ends c g ↔
    ∃ m ∈ p.ends c g, e ∈ (all ps).ends m.1 m.2 := by
  cases ps with
  | nil => simp [all, ends]
  | cons q ps => rw [all_cons p (by simp), ends, List.mem_flatMap]

theorem mem_ends_all_append {ps qs : List Pattern} : e ∈ (all (ps ++ qs)).ends c g ↔
    ∃ m ∈ (all ps).ends c g, e ∈ (all qs).ends m.1 m.2 := by
  induction ps generalizing c g with
  | nil => simp [all, ends]
  | cons p ps ih =>
    rw [List.cons_append, mem_ends_all_cons]
    simp only [ih, mem_ends_all_cons]
    constructor
    · rintro ⟨m, first, m', second, last⟩
      exact ⟨m', ⟨m, first, second⟩, last⟩
    · rintro ⟨m', ⟨m, first, second⟩, last⟩
      exact ⟨m, first, m', second, last⟩

theorem mem_onward_iff : c ∈ (Cursor.between front back).onward ↔
    ∃ middle rest, back = middle ++ rest ∧ c = .between (front ++ middle) rest := by
  induction back generalizing front with
  | nil =>
    have only : (Cursor.between front []).onward = [.between front []] := rfl
    simp [only]
  | cons x back ih =>
    rw [onward_between_cons, List.mem_cons, ih]
    constructor
    · rintro (rfl | ⟨middle, rest, rfl, rfl⟩)
      · exact ⟨[], x :: back, rfl, by simp⟩
      · exact ⟨x :: middle, rest, rfl, by simp⟩
    · rintro ⟨middle, rest, split, rfl⟩
      cases middle with
      | nil =>
        obtain rfl : x :: back = rest := split
        exact .inl (by simp)
      | cons y middle =>
        obtain ⟨rfl, rfl⟩ := List.cons.inj split
        exact .inr ⟨middle, rest, rfl, by simp⟩

/-- The leftmost match in a text is the match at some place of it. -/
theorem exists_of_find? {m : Match} (found : p.find? t = some m) :
    ∃ front back, t = front ++ back ∧ p.matchAt? (.between front back) = some m := by
  obtain ⟨c, inside, here⟩ := List.exists_of_findSome?_eq_some found
  rw [Cursor.start_eq_between] at inside
  obtain ⟨middle, rest, rfl, rfl⟩ := mem_onward_iff.mp inside
  exact ⟨middle, rest, rfl, by simpa using here⟩

/-- A match among those of a text is the match at some place of it. -/
theorem exists_of_mem_findAll {m : Match} (member : m ∈ p.findAll t) :
    ∃ front back, t = front ++ back ∧ p.matchAt? (.between front back) = some m := by
  have later : ∀ fuel front back, m ∈ p.findAllFrom fuel (.between front back) →
      ∃ front' back', front ++ back = front' ++ back' ∧
        p.matchAt? (.between front' back') = some m := by
    intro fuel
    induction fuel with
    | zero => simp [findAllFrom]
    | succ fuel ih =>
      intro front back member
      rw [findAllFrom] at member
      cases found : p.findFrom? (.between front back) with
      | none => simp [found] at member
      | some first =>
        obtain ⟨c, inside, here⟩ := List.exists_of_findSome?_eq_some found
        obtain ⟨middle, rest, rfl, rfl⟩ := mem_onward_iff.mp inside
        obtain ⟨_, taken, rest', rfl, stop⟩ := matchAt?_some here
        have itself : ∃ front' back', front ++ (middle ++ (taken ++ rest')) = front' ++ back' ∧
            p.matchAt? (.between front' back') = some first :=
          ⟨front ++ middle, taken ++ rest', by simp, here⟩
        rw [found] at member
        dsimp only at member
        split at member
        · rcases List.mem_cons.mp member with rfl | member
          · exact itself
          · rw [stop] at member
            obtain ⟨front', back', whole, here'⟩ := ih _ _ member
            exact ⟨front', back', by rw [← whole]; simp, here'⟩
        · rw [stop] at member
          cases rest' with
          | nil =>
            obtain rfl : m = first := by simpa using member
            exact itself
          | cons x rest' =>
            rw [Cursor.advance_between_cons] at member
            rcases List.mem_cons.mp member with rfl | member
            · exact itself
            · obtain ⟨front', back', whole, here'⟩ := ih _ _ member
              exact ⟨front', back', by rw [← whole]; simp, here'⟩
  simpa using later _ [] t member

/-- A pattern that can end somewhere occurs. -/
theorem occursIn_of_mem_ends (member : e ∈ p.ends (.between front back) []) :
    p.occursIn (front ++ back) = true := by
  have found : (p.matchAt? (.between front back)).isSome := by
    rw [matchAt?_eq, Option.isSome_map, List.isSome_head?]
    simpa using List.ne_nil_of_mem member
  rw [occursIn, find?, findFrom?, List.findSome?_isSome_iff]
  refine ⟨.between front back, ?_, found⟩
  rw [Cursor.start_eq_between, mem_onward_iff]
  exact ⟨front, back, rfl, rfl⟩

/-- The labels of the groups in a pattern. -/
def labels : Pattern → List String
  | nothing | one _ | place _ => []
  | next p q | either p q => p.labels ++ q.labels
  | many _ p => p.labels
  | group label p => label :: p.labels

/-- A pattern remembers parts under its own labels only. -/
theorem lookup_of_mem_ends {label : String} (foreign : label ∉ p.labels) (member : e ∈ p.ends c g) :
    e.2.lookup label = g.lookup label := by
  induction p generalizing c g e with
  | nothing =>
    obtain rfl := List.mem_singleton.mp member
    rfl
  | one accepts =>
    rw [ends] at member
    split at member
    · split at member
      · obtain rfl := List.mem_singleton.mp member
        rfl
      · simp at member
    · simp at member
  | place holds =>
    rw [ends] at member
    split at member
    · obtain rfl := List.mem_singleton.mp member
      rfl
    · simp at member
  | next p q ihp ihq =>
    simp only [labels, List.mem_append, not_or] at foreign
    obtain ⟨m, first, second⟩ := List.mem_flatMap.mp member
    rw [ihq foreign.2 second, ihp foreign.1 first]
  | either p q ihp ihq =>
    simp only [labels, List.mem_append, not_or] at foreign
    rcases List.mem_append.mp member with left | right
    · exact ihp foreign.1 left
    · exact ihq foreign.2 right
  | many greedy p ih =>
    have rounds : ∀ fuel c (g : Groups) (e : Cursor × Groups),
        e ∈ roundEnds greedy p.ends fuel c g → e.2.lookup label = g.lookup label := by
      intro fuel
      induction fuel with
      | zero =>
        intro c g e member
        obtain rfl := List.mem_singleton.mp member
        rfl
      | succ fuel again =>
        intro c g e member
        rcases mem_roundEnds_succ.mp member with rfl | ⟨m, first, _, second⟩
        · rfl
        · rw [again _ _ _ second, ih foreign first]
    exact rounds _ _ _ _ member
  | group name p ih =>
    simp only [labels, List.mem_cons, not_or] at foreign
    obtain ⟨inner, first, rfl⟩ := List.mem_map.mp member
    have other : (label == name) = false := by simpa using foreign.1
    rw [List.lookup_cons, other, ih foreign.2 first]

end Pattern
end Registrar
