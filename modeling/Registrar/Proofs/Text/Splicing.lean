import Registrar.Proofs.Sorted
import Registrar.Text.Splice

/-!
Edits as patches of a text. A text is cut into patches, each a part that is kept and a part that is
replaced; the edits that replace these parts, applied from back to front in whatever order they were
given, leave the kept parts with the replacements between them.
-/

namespace Registrar

/-- A part of a text that is kept, and one behind it that is replaced. -/
structure Patch where
  kept : Text
  old : Text
  new : Text

namespace Patch

/-- The text that is cut into patches. -/
def source (patches : List Patch) : Text := patches.flatMap fun p => p.kept ++ p.old

/-- The text with the replacements. -/
def result (patches : List Patch) : Text := patches.flatMap fun p => p.kept ++ p.new

/-- The edits of patches that begin at byte `start`, the first place first. -/
def edits : Nat → List Patch → List Edit
  | _, [] => []
  | start, p :: rest =>
    let stop := start + p.kept.size + p.old.size
    ⟨start + p.kept.size, stop, p.new⟩ :: edits stop rest

/-- Every patch keeps or replaces something, so that the next one starts later. -/
def Apart (patches : List Patch) : Prop :=
  patches.Pairwise fun p q => p.old ≠ [] ∨ q.kept ≠ []

end Patch

namespace Text

theorem size_pos {t : Text} (some_ : t ≠ []) : 0 < size t := by
  cases t with
  | nil => exact absurd rfl some_
  | cons c t =>
    have := c.utf8Size_pos
    simp only [size_cons]
    omega

end Text

namespace Edit

/-- An edit of the middle of a text. -/
theorem apply_middle (front old back new : Text) :
    apply ⟨front.size, front.size + old.size, new⟩ (front ++ old ++ back) =
      front ++ new ++ back := by
  have stop : front.size + old.size = Text.size (front ++ old) := (Text.size_append ..).symm
  rw [apply, if_pos (by simp)]
  simp only
  rw [stop, Text.after_size_append, List.append_assoc front old back, Text.before_size_append]

theorem foldl_apply_edits (front back : Text) (patches : List Patch) :
    (Patch.edits front.size patches).reverse.foldl (fun t e => e.apply t)
        (front ++ Patch.source patches ++ back) =
      front ++ Patch.result patches ++ back := by
  induction patches generalizing front with
  | nil => simp [Patch.edits, Patch.source, Patch.result]
  | cons p rest ih =>
    have later := ih (front ++ p.kept ++ p.old)
    have stop : front.size + p.kept.size + p.old.size = Text.size (front ++ p.kept ++ p.old) := by
      simp only [Text.size_append]
    have here := apply_middle (front ++ p.kept) p.old (Patch.result rest ++ back) p.new
    have source : front ++ Patch.source (p :: rest) ++ back =
        front ++ p.kept ++ p.old ++ Patch.source rest ++ back := by
      simp [Patch.source]
    rw [Patch.edits, List.reverse_cons, List.foldl_append, source, stop, later]
    simpa [Patch.result, Nat.add_assoc] using here

theorem start_le_of_mem_edits {start : Nat} {patches : List Patch} {e : Edit}
    (member : e ∈ Patch.edits start patches) : start ≤ e.start := by
  induction patches generalizing start with
  | nil => simp [Patch.edits] at member
  | cons p rest ih =>
    rcases List.mem_cons.mp member with rfl | member
    · simp
    · have := ih member
      omega

/-- The places of patches that lie apart increase. -/
theorem edits_pairwise {start : Nat} {patches : List Patch} (apart : Patch.Apart patches) :
    (Patch.edits start patches).Pairwise fun a b => a.start < b.start := by
  induction patches generalizing start with
  | nil => exact .nil
  | cons p rest ih =>
    obtain ⟨first, tail⟩ := List.pairwise_cons.mp apart
    refine List.pairwise_cons.mpr ⟨fun e member => ?_, ih tail⟩
    have reached := start_le_of_mem_edits member
    cases rest with
    | nil => simp [Patch.edits] at member
    | cons q rest =>
      rcases first q (by simp) with some_ | some_
      · have := Text.size_pos some_
        simp only at reached ⊢
        omega
      · have := Text.size_pos some_
        rcases List.mem_cons.mp member with rfl | member
        · simp only
          omega
        · have := start_le_of_mem_edits member
          simp only
          omega

/-- Edits of patches that lie apart, in whatever order they are given, replace all the old parts. -/
theorem applyAll_eq {edits : List Edit} {patches : List Patch} (apart : Patch.Apart patches)
    (perm : edits.Perm (Patch.edits 0 patches)) (back : Text) :
    applyAll edits (Patch.source patches ++ back) = Patch.result patches ++ back := by
  have order : backToFront edits = (Patch.edits 0 patches).reverse := by
    refine sorted_eq_of_perm ?_ ?_ ?_ ?_
    · intro a b
      simpa using Nat.le_total b.start a.start
    · intro a b c first second
      simp only [decide_eq_true_eq] at first second ⊢
      omega
    · exact (List.reverse_perm edits).trans (perm.trans (List.reverse_perm _).symm)
    · refine List.pairwise_reverse.mpr ((edits_pairwise apart).imp fun less => ?_)
      simp only [decide_eq_true_eq]
      omega
  rw [applyAll, order]
  simpa using foldl_apply_edits [] back patches

end Edit
end Registrar
