import Registrar.Text.Search

/-!
Text with weights and colours. It is shown with the control sequences of a terminal or without.
-/

namespace Registrar

/-- A colour of letters. -/
inductive Colour where
  | red
  | green
  | yellow
  | blue
  deriving DecidableEq, Repr

/-- The number of a colour. -/
def Colour.code : Colour → String
  | .red => "31"
  | .green => "32"
  | .yellow => "33"
  | .blue => "34"

/-- How letters are shown. -/
structure Style where
  bold : Bool := false
  dimmed : Bool := false
  colour? : Option Colour := none
  deriving DecidableEq, Repr

namespace Style

/-- The numbers of a style, the weight before the colour. -/
def codes (s : Style) : List String :=
  (if s.bold then ["1"] else []) ++ (if s.dimmed then ["2"] else []) ++
    (s.colour?.map Colour.code).toList

/-- The control sequence with the given numbers. -/
def sequence (codes : List String) : String := "\x1b[" ++ String.intercalate ";" codes ++ "m"

/-- The control sequence that ends every style. -/
def reset : String := sequence ["0"]

end Style

/-- A text in one style. -/
structure Piece where
  text : String
  style : Style := {}
  deriving DecidableEq, Repr

namespace Piece

/-- A text in bold letters. -/
def bold (text : String) (colour? : Option Colour := none) : Piece :=
  ⟨text, { bold := true, colour? }⟩

/-- A text in dimmed letters. -/
def dimmed (text : String) : Piece := ⟨text, { dimmed := true }⟩

/-- A text in a colour. -/
def coloured (colour : Colour) (text : String) : Piece := ⟨text, { colour? := some colour }⟩

/-- A piece with control sequences or without; where the text ends a style itself, the style of the
piece begins again. -/
def shown (withStyle : Bool) (p : Piece) : String :=
  if !withStyle || p.style.codes.isEmpty then p.text
  else
    let start := Style.sequence p.style.codes
    let inner := Text.replaceAll p.text.toList Style.reset.toList (Style.reset ++ start).toList
    start ++ String.ofList inner ++ Style.reset

end Piece

/-- Pieces one after another. -/
abbrev Styled := List Piece

/-- Pieces with control sequences or without. -/
def Styled.shown (withStyle : Bool) (s : Styled) : String := String.join (s.map (·.shown withStyle))

end Registrar
