import Registrar.Letter.Case
import Registrar.Text.Basic

/-!
Finding, splitting, trimming and replacing. Splitting at separators always gives one piece more than
there are separators, and joining the pieces gives the text back.
-/

namespace Registrar.Text

/-- Whether the text begins with `piece`. -/
def beginsWith (t piece : Text) : Bool := piece.isPrefixOf t

/-- Whether the text ends with `piece`. -/
def finishesWith (t piece : Text) : Bool := piece.isSuffixOf t

/-- What is left of the text without `piece` at its front. -/
def dropFront? (t piece : Text) : Option Text :=
  if t.beginsWith piece then some (t.drop piece.length) else none

/-- What is left of the text without `piece` at its end. -/
def dropBack? (t piece : Text) : Option Text :=
  if t.finishesWith piece then some (t.take (t.length - piece.length)) else none

/-- The text up to the first occurrence of `piece` and the text after that occurrence. -/
def cut? (piece : Text) : Text → Option (Text × Text)
  | [] => if piece.isEmpty then some ([], []) else none
  | c :: rest =>
    match dropFront? (c :: rest) piece with
    | some tail => some ([], tail)
    | none => (cut? piece rest).map fun (front, tail) => (c :: front, tail)

/-- The byte at which `piece` first occurs. -/
def find? (t piece : Text) : Option Nat := (cut? piece t).map fun (front, _) => size front

/-- Whether `piece` occurs in the text. -/
def holds (t piece : Text) : Bool := (cut? piece t).isSome

/-- The pieces between separators; there is always at least one. -/
def splitOn (isSeparator : Char → Bool) : Text → List Text
  | [] => [[]]
  | c :: rest =>
    match splitOn isSeparator rest with
    | [] => [[c]]
    | piece :: pieces =>
      if isSeparator c then [] :: piece :: pieces else (c :: piece) :: pieces

/-- The pieces with `separator` between neighbours. -/
def join (separator : Text) (pieces : List Text) : Text := separator.intercalate pieces

/-- Every occurrence of `piece` from the left replaced, at most `fuel` of them. -/
def replaceUpTo (piece new : Text) : Nat → Text → Text
  | 0, t => t
  | fuel + 1, t =>
    match cut? piece t with
    | some (front, tail) => front ++ new ++ replaceUpTo piece new fuel tail
    | none => t

/-- Every occurrence of a non-empty piece replaced, from the left. -/
def replaceAll (t piece new : Text) : Text := replaceUpTo piece new t.length t

/-- The text without white space at its front. -/
def trimFront (t : Text) : Text := t.dropWhile Letter.isBlank

/-- The text without white space at its end. -/
def trimBack (t : Text) : Text := (t.reverse.dropWhile Letter.isBlank).reverse

/-- The text without white space at either end. -/
def trim (t : Text) : Text := t.trimFront.trimBack

/-- Whether all of the text is white space. -/
def isBlank (t : Text) : Bool := t.all Letter.isBlank

theorem splitOn_ne_nil (isSeparator : Char → Bool) (t : Text) : splitOn isSeparator t ≠ [] := by
  induction t with
  | nil => simp [splitOn]
  | cons c rest ih =>
    rw [splitOn]
    split
    · contradiction
    · split <;> simp

/-- The pieces of a text that ends in a separator and another text are those of both. -/
theorem splitOn_append_cons {isSeparator : Char → Bool} {c : Char} (h : isSeparator c = true)
    (s t : Text) :
    splitOn isSeparator (s ++ c :: t) = splitOn isSeparator s ++ splitOn isSeparator t := by
  induction s with
  | nil =>
    cases ht : splitOn isSeparator t with
    | nil => exact absurd ht (splitOn_ne_nil _ _)
    | cons piece pieces => simp [splitOn, ht, h]
  | cons d rest ih =>
    rw [List.cons_append, splitOn, ih, splitOn]
    cases hs : splitOn isSeparator rest with
    | nil => exact absurd hs (splitOn_ne_nil _ _)
    | cons piece pieces => simp only [List.cons_append]; split <;> rfl

end Registrar.Text
