import Mathlib.Data.List.Pairwise
import Registrar.Sorted

/-!
Sorting puts a list in order, and there is only one order when no two elements compare as equal.
-/

namespace Registrar

variable {α : Type} {le : α → α → Bool}

theorem insertSorted_pairwise (total : ∀ a b, le a b = true ∨ le b a = true)
    (trans : ∀ a b c, le a b = true → le b c = true → le a c = true) (a : α) {l : List α}
    (ordered : l.Pairwise fun a b => le a b = true) :
    (insertSorted le a l).Pairwise fun a b => le a b = true := by
  induction l with
  | nil => simp [insertSorted]
  | cons b rest ih =>
    obtain ⟨least, tail⟩ := List.pairwise_cons.mp ordered
    rw [insertSorted]
    split
    · next here =>
      refine List.pairwise_cons.mpr ⟨fun c member => ?_, ordered⟩
      rcases List.mem_cons.mp member with rfl | member
      · exact here
      · exact trans a b c here (least c member)
    · next later =>
      refine List.pairwise_cons.mpr ⟨fun c member => ?_, ih tail⟩
      rcases List.mem_cons.mp ((insertSorted_perm le a rest).mem_iff.mp member) with rfl | member
      · exact (total b c).resolve_right later
      · exact least c member

theorem sorted_pairwise (total : ∀ a b, le a b = true ∨ le b a = true)
    (trans : ∀ a b c, le a b = true → le b c = true → le a c = true) (l : List α) :
    (sorted le l).Pairwise fun a b => le a b = true := by
  induction l with
  | nil => exact .nil
  | cons a rest ih => exact insertSorted_pairwise total trans a ih

/-! ### The last element of a list -/

/-- A list in strict order is what sorting makes of any rearrangement of it. -/
theorem sorted_eq_of_perm (total : ∀ a b, le a b = true ∨ le b a = true)
    (trans : ∀ a b c, le a b = true → le b c = true → le a c = true) {l l' : List α}
    (perm : l.Perm l') (strict : l'.Pairwise fun a b => le a b = true ∧ ¬le b a = true) :
    sorted le l = l' := by
  have same : (sorted le l).Perm l' := (sorted_perm le l).trans perm
  have apart : l.Pairwise fun a b => ¬(le a b = true ∧ le b a = true) := by
    refine (perm.pairwise_iff fun h => fun both => h both.symm).mpr ?_
    exact strict.imp fun h both => h.2 both.2
  suffices once : ∀ a b, a ∈ sorted le l → b ∈ l' → le a b = true → le b a = true → a = b by
    exact List.Perm.eq_of_pairwise once (sorted_pairwise total trans l) (strict.imp fun h => h.1)
      same
  intro a b first second forth back
  have inside : a ∈ l' := same.mem_iff.mp first
  by_contra different
  have symmetric : l'.Pairwise fun a b => ¬(le a b = true ∧ le b a = true) :=
    strict.imp fun h both => h.2 both.2
  have : Std.Symm fun a b => ¬(le a b = true ∧ le b a = true) :=
    ⟨fun _ _ h both => h both.symm⟩
  exact symmetric.forall inside second different ⟨forth, back⟩

end Registrar
