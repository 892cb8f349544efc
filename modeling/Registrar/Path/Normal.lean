import Registrar.Path.Basic

/-!
The normal form of a path: names alone, with the steps upward carried out. A step upward from the
top, or from nothing, stays where it is.
-/

namespace Registrar.Path

/-- The names after one more step. -/
def follow (names : List String) : Component → List String
  | .top => []
  | .here => names
  | .up => names.dropLast
  | .name n => names ++ [n]

/-- The names that the steps lead to. -/
def namesOf (steps : List Component) : List String := steps.foldl follow []

/-- The path with the steps upward carried out and nothing idle in it. -/
def normal (p : Path) : Path := ofNames p.isAbsolute (namesOf p.components)

/-- The path is its own normal form. -/
def IsNormal (p : Path) : Prop := p.normal = p

theorem namesOf_append (s t : List Component) :
    namesOf (s ++ t) = t.foldl follow (namesOf s) := by
  simp [namesOf]

end Registrar.Path
