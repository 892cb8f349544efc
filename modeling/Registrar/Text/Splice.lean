import Registrar.Sorted
import Registrar.Text.Basic

/-!
Edits of a text. A list of edits is applied from the last place to the first, so that the places of
those still to come keep their meaning; insertions at one place end up in the order given.
-/

namespace Registrar

/-- The characters of a span replaced by others. -/
structure Edit where
  start : Nat
  stop : Nat
  new : Text

namespace Edit

/-- New characters at a place. -/
def insert (place : Nat) (new : Text) : Edit := ⟨place, place, new⟩

/-- The characters of a span taken out. -/
def delete (s : Span) : Edit := ⟨s.start, s.stop, []⟩

/-- The characters of a span replaced. -/
def replace (s : Span) (new : Text) : Edit := ⟨s.start, s.stop, new⟩

/-- The edited text; an edit that does not lie in the text changes nothing. -/
def apply (e : Edit) (t : Text) : Text :=
  if e.start ≤ t.size && e.stop ≤ t.size && e.start ≤ e.stop then
    t.before e.start ++ e.new ++ t.after e.stop
  else t

/-- The edits with the last place first and, at one place, the last given first. -/
def backToFront (edits : List Edit) : List Edit :=
  sorted (fun a b => b.start ≤ a.start) edits.reverse

/-- The text after all the edits. -/
def applyAll (edits : List Edit) (t : Text) : Text :=
  (backToFront edits).foldl (fun t e => e.apply t) t

end Edit
end Registrar
