import Registrar.Text.Basic

/-!
Globs over whole paths. A star stands for any characters, slashes included; two stars stand for any
folders and have to fill the place between two slashes; a question mark and a bracket stand for one
character.
-/

namespace Registrar

/-- One element of a glob. -/
inductive Glob.Token where
  | char (c : Char)
  /-- Any one character. -/
  | any
  /-- One character of the ranges. -/
  | within (ranges : List (Char × Char))
  /-- One character outside the ranges. -/
  | outside (ranges : List (Char × Char))
  /-- Any characters. -/
  | anything
  /-- Any number of folders, each with its slash. -/
  | folders
  deriving DecidableEq, Repr

/-- A description of paths. -/
structure Glob where
  tokens : List Glob.Token
  deriving DecidableEq, Repr

namespace Glob

/-- Why a text is no glob. -/
inductive Fault where
  /-- More than two stars in a row. -/
  | stars
  /-- Two stars beside something other than a slash. -/
  | partOfName
  /-- A bracket that is not closed or has nothing in it. -/
  | bracket
  deriving DecidableEq, Repr

/-- What the user is told. -/
def Fault.message : Fault → String
  | .stars => "more than two stars in a row"
  | .partOfName => "two stars have to stand between slashes"
  | .bracket => "unfinished bracket"

/-- The ranges between brackets; a character alone is a range of its own. -/
def ranges : Text → List (Char × Char)
  | [] => []
  | a :: '-' :: b :: rest => (a, b) :: ranges rest
  | a :: rest => (a, a) :: ranges rest

/-- What stands between an open bracket and the bracket that closes it, and what follows. -/
def bracket? : Text → Option (Token × Text)
  | '!' :: first :: rest =>
    if rest.contains ']' then
      some (.outside (ranges (first :: rest.takeWhile (· != ']'))),
        (rest.dropWhile (· != ']')).tail)
    else none
  | ['!'] => none
  | first :: rest =>
    if rest.contains ']' then
      some (.within (ranges (first :: rest.takeWhile (· != ']'))),
        (rest.dropWhile (· != ']')).tail)
    else none
  | [] => none

/-- The elements of a text that follows the character `previous`, at most `fuel` of them. -/
def readFrom : Nat → Option Char → Text → Except Fault (List Token)
  | 0, _, _ => .ok []
  | _, _, [] => .ok []
  | fuel + 1, _, '?' :: rest => return .any :: (← readFrom fuel (some '?') rest)
  | fuel + 1, previous, '*' :: rest =>
    match rest with
    | '*' :: '*' :: _ => .error .stars
    | '*' :: rest' =>
      if previous.all (· == '/') then
        match rest' with
        | [] => .ok [.folders]
        | '/' :: rest'' => return .folders :: (← readFrom fuel (some '/') rest'')
        | _ => .error .partOfName
      else .error .partOfName
    | _ => return .anything :: (← readFrom fuel (some '*') rest)
  | fuel + 1, _, '[' :: rest =>
    match bracket? rest with
    | some (token, rest') => return token :: (← readFrom fuel (some ']') rest')
    | none => .error .bracket
  | fuel + 1, _, c :: rest => return .char c :: (← readFrom fuel (some c) rest)

/-- The glob that a text writes. -/
def read (t : Text) : Except Fault Glob := Glob.mk <$> readFrom t.length none t

/-- The character lies in one of the ranges. -/
def inRanges (ranges : List (Char × Char)) (c : Char) : Bool :=
  ranges.any fun (a, b) => a ≤ c && c ≤ b

/-- The text and everything that follows a slash in it. -/
def afterSlashes : Text → List Text
  | [] => []
  | c :: rest => if c == '/' then rest :: afterSlashes rest else afterSlashes rest

/-- The text and everything that is left of it after some characters. -/
def endings : Text → List Text
  | [] => [[]]
  | c :: rest => (c :: rest) :: endings rest

/-- Whether the elements describe the text. -/
def acceptsFrom : List Token → Text → Bool
  | [], t => t.isEmpty
  | .anything :: tokens, t => (endings t).any (acceptsFrom tokens)
  | .folders :: tokens, t =>
    tokens.isEmpty || acceptsFrom tokens t || (afterSlashes t).any (acceptsFrom tokens)
  | _ :: _, [] => false
  | .char d :: tokens, c :: rest => c == d && acceptsFrom tokens rest
  | .any :: tokens, _ :: rest => acceptsFrom tokens rest
  | .within ranges :: tokens, c :: rest => inRanges ranges c && acceptsFrom tokens rest
  | .outside ranges :: tokens, c :: rest => !inRanges ranges c && acceptsFrom tokens rest

/-- Whether the glob describes the whole of a path. -/
def accepts (g : Glob) (path : Text) : Bool := acceptsFrom g.tokens path

end Glob
end Registrar
