import Registrar.Text.Search

/-!
Lines. A line ends just past its line feed, or where the text ends.
-/

namespace Registrar.Text

/-- The characters up to and including the first line feed. -/
def firstLine : Text → Text
  | [] => []
  | c :: rest => if c == '\n' then [c] else c :: firstLine rest

/-- Just past the line feed that ends the line of byte `n`, or the end of the text. -/
def lineEnd (t : Text) (n : Nat) : Nat := n + size (firstLine (t.after n))

/-- Where the line of byte `n` begins. -/
def lineStart (t : Text) (n : Nat) : Nat :=
  size ((t.before n).reverse.dropWhile (· != '\n')).reverse

/-- Where the 1-indexed line `line` begins, or the end of the text if it has fewer lines. -/
def lineOffset : Text → Nat → Nat
  | _, 0 => 0
  | _, 1 => 0
  | [], _ + 2 => 0
  | c :: rest, line + 2 =>
    c.utf8Size + (if c == '\n' then lineOffset rest (line + 1) else lineOffset rest (line + 2))

/-- A line without the carriage return that may end it. -/
def withoutReturn (line : Text) : Text := (line.dropBack? ['\r']).getD line

/-- The lines without their endings; nothing follows a last line feed. -/
def lines (t : Text) : List Text :=
  let pieces := t.splitOn (· == '\n')
  match pieces.getLast? with
  | some [] => pieces.dropLast.map withoutReturn
  | some last => pieces.dropLast.map withoutReturn ++ [last]
  | none => []

/-- A line feed where the line of byte `n` has begun before it, and nothing at a line's start. -/
def breakBefore (t : Text) (n : Nat) : Text :=
  if n == 0 || (t.before n).finishesWith ['\n'] then [] else ['\n']

/-- `n` moved over the one white-space line that may follow it. -/
def skipBlankLine (t : Text) (n : Nat) : Nat :=
  let next := t.lineEnd n
  if n < next && (t.slice ⟨n, next⟩).isBlank then next else n

theorem firstLine_isPrefix (t : Text) : firstLine t <+: t := by
  induction t with
  | nil => exact List.prefix_refl _
  | cons c rest ih =>
    rw [firstLine]
    split
    · exact ⟨rest, rfl⟩
    · exact (List.prefix_cons_inj c).2 ih

theorem le_lineEnd (t : Text) (n : Nat) : n ≤ t.lineEnd n := Nat.le_add_right ..

end Registrar.Text
