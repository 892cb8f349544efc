/-!
Sets of characters and moves between them, given by ranges of code points.
-/

namespace Registrar.Letter

/-- Whether a code point lies in one of the inclusive ranges. -/
def inRanges (ranges : List (Nat × Nat)) (n : Nat) : Bool :=
  ranges.any fun r => r.1 ≤ n && n ≤ r.2

/-- Every `step`-th code point from `first` to `last`, each moved by `shift`. -/
structure Stretch where
  first : Nat
  last : Nat
  step : Nat
  shift : Int

/-- Whether a code point belongs to the stretch. -/
def Stretch.contains (s : Stretch) (n : Nat) : Bool :=
  s.first ≤ n && n ≤ s.last && (n - s.first) % s.step == 0

/-- The character that a character of the stretch moves to. -/
def Stretch.apply (s : Stretch) (c : Char) : Char :=
  Char.ofNat (Int.toNat (c.toNat + s.shift))

end Registrar.Letter
