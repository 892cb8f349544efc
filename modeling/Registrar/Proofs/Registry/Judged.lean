import Registrar.Registry.Addition

/-!
Judgements of candidates. What is accepted is the class of a file that is no registry; nothing of its
entry is in the registry, nor in the entries accepted before it.
-/

namespace Registrar

section
variable {h : Host} {z : Zones} {c : Candidate} {e : Entry}

/-- What is accepted is the class of a file that is no registry, imported by the way to the file. -/
theorem Host.of_judge {accepted : List Entry} (judged : h.judge z accepted c = .ok e) :
    c.isHost = false ∧ e = h.entry c.file e.className ∧ ∃ text, c.text? = some text ∧
      Recognition.isRegistry text = false ∧ Recognition.className? text = some e.className := by
  rw [judge] at judged
  split at judged
  · simp at judged
  · next text read =>
    split at judged
    · simp at judged
    · next other =>
      simp only [Bool.or_eq_true, not_or, Bool.not_eq_true] at other
      split at judged
      · simp at judged
      · next className declared =>
        dsimp only at judged
        split at judged
        · simp at judged
        · split at judged
          · simp at judged
          · obtain rfl := Except.ok.inj judged
            exact ⟨other.1, rfl, text, read, other.2, declared⟩

theorem Host.judge_of_mem_judgeAll {candidates : List Candidate} {accepted : List Entry}
    (member : (c, .ok e) ∈ candidates.zip (h.judgeAll z accepted candidates)) :
    ∃ accepted, h.judge z accepted c = .ok e := by
  induction candidates generalizing accepted with
  | nil => simp at member
  | cons c' rest ih =>
    rw [judgeAll] at member
    split at member
    · next e' judged =>
      rcases List.mem_cons.mp member with here | member
      · obtain ⟨rfl, same⟩ := Prod.mk.inj here
        obtain rfl := Except.ok.inj same
        exact ⟨accepted, judged⟩
      · exact ih member
    · rcases List.mem_cons.mp member with here | member
      · simp at here
      · exact ih member

theorem AdditionReport.mem_sort_iff {judgements : List (Except Skipped Entry)} :
    e ∈ (sort judgements).1 ↔ .ok e ∈ judgements := by
  rw [sort, List.mem_filterMap]
  constructor
  · rintro ⟨j, member, kept⟩
    split at kept
    · obtain rfl := Option.some.inj kept
      exact member
    · simp at kept
  · exact fun member => ⟨_, member, rfl⟩

end

end Registrar
