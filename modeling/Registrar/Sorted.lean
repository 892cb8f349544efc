/-!
Stable sorting by insertion. It keeps the order of elements that compare as equal, and it reduces
by evaluation.
-/

namespace Registrar

/-- An element put before the first one that it may precede. -/
def insertSorted {α : Type} (le : α → α → Bool) (a : α) : List α → List α
  | [] => [a]
  | b :: rest => if le a b then a :: b :: rest else b :: insertSorted le a rest

/-- A list in the order of `le`; elements that are equal in it keep their places. -/
def sorted {α : Type} (le : α → α → Bool) (l : List α) : List α :=
  l.foldr (insertSorted le) []

theorem insertSorted_perm {α : Type} (le : α → α → Bool) (a : α) (l : List α) :
    (insertSorted le a l).Perm (a :: l) := by
  induction l with
  | nil => exact .refl _
  | cons b rest ih =>
    rw [insertSorted]
    split
    · exact .refl _
    · exact (ih.cons b).trans (.swap a b rest)

/-- Sorting only reorders. -/
theorem sorted_perm {α : Type} (le : α → α → Bool) (l : List α) : (sorted le l).Perm l := by
  induction l with
  | nil => exact .refl _
  | cons a rest ih => exact (insertSorted_perm le a _).trans (ih.cons a)

end Registrar
