import Registrar.Letter.Word
import Registrar.Text.Basic

/-!
A cursor is a place in a text together with what a pattern may look at from there: the character
before it and the characters after it.
-/

namespace Registrar

/-- A place in a text. -/
structure Cursor where
  /-- The bytes before the place. -/
  offset : Nat
  /-- The character before the place. -/
  previous : Option Char
  /-- The characters from the place on. -/
  rest : Text
  deriving DecidableEq, Repr

namespace Cursor

/-- The place before the first character. -/
def start (t : Text) : Cursor := ⟨0, none, t⟩

/-- The place after the next character. -/
def advance (c : Cursor) : Option (Char × Cursor) :=
  match c.rest with
  | [] => none
  | x :: rest => some (x, ⟨c.offset + x.utf8Size, some x, rest⟩)

/-- The places from one with the given view on, in order. -/
def places (offset : Nat) (previous : Option Char) : Text → List Cursor
  | [] => [⟨offset, previous, []⟩]
  | x :: rest => ⟨offset, previous, x :: rest⟩ :: places (offset + x.utf8Size) (some x) rest

/-- This place and all later ones. -/
def onward (c : Cursor) : List Cursor := places c.offset c.previous c.rest

/-- The characters between a place and a later one. -/
def upTo (c later : Cursor) : Text := c.rest.take (c.rest.length - later.rest.length)

/-- The bytes between a place and a later one. -/
def spanTo (c later : Cursor) : Span := ⟨c.offset, later.offset⟩

/-- The place begins a line. -/
def startsLine (c : Cursor) : Bool := c.previous.all (· == '\n')

/-- The place ends a line. -/
def endsLine (c : Cursor) : Bool := c.rest.head?.all (· == '\n')

/-- A word character stands before the place. -/
def afterWord (c : Cursor) : Bool := c.previous.any Letter.isWord

/-- A word character stands after the place. -/
def beforeWord (c : Cursor) : Bool := c.rest.head?.any Letter.isWord

/-- A word begins or ends at the place. -/
def splitsWord (c : Cursor) : Bool := c.afterWord != c.beforeWord

end Cursor
end Registrar
