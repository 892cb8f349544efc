import Registrar.Pattern.Cursor

/-!
Patterns over texts, with preference. `run` tries the ways of matching in order of preference and
hands each end to a continuation until one is accepted: the left alternative goes first, a greedy
repetition prefers one more round and a lazy one prefers to stop. `find?` gives the leftmost match
and, at its place, the preferred one.
-/

namespace Registrar

/-- A description of texts. -/
inductive Pattern where
  /-- The empty text. -/
  | nothing
  /-- One character of a class. -/
  | one (accepts : Char → Bool)
  /-- The empty text, at places with a property. -/
  | place (holds : Cursor → Bool)
  /-- One pattern and then another. -/
  | next (p q : Pattern)
  /-- One pattern or, failing that, another. -/
  | either (p q : Pattern)
  /-- A pattern any number of times, as often as possible or as rarely as possible. -/
  | many (greedy : Bool) (p : Pattern)
  /-- A pattern whose match is remembered under a label. -/
  | group (label : String) (p : Pattern)

namespace Pattern

/-- The remembered parts of a match, the latest first. -/
abbrev Groups := List (String × Cursor × Cursor)

/-- What is asked of each end of a match. -/
abbrev Goal (β : Type) := Cursor → Groups → Option β

/-- Rounds of `once`, at most `fuel`, each of which has to move on. -/
def rounds {β : Type} (greedy : Bool) (once : Cursor → Groups → Goal β → Option β) :
    Nat → Cursor → Groups → Goal β → Option β
  | 0, c, g, goal => goal c g
  | fuel + 1, c, g, goal =>
    let more (_ : Unit) := once c g fun c' g' =>
      if c.offset < c'.offset then rounds greedy once fuel c' g' goal else none
    let stop (_ : Unit) := goal c g
    if greedy then (more ()).orElse stop else (stop ()).orElse more

/-- The first end of a match at the cursor, in order of preference, that meets the goal. -/
def run {β : Type} : Pattern → Cursor → Groups → Goal β → Option β
  | nothing, c, g, goal => goal c g
  | one accepts, c, g, goal =>
    match c.advance with
    | some (x, c') => if accepts x then goal c' g else none
    | none => none
  | place holds, c, g, goal => if holds c then goal c g else none
  | next p q, c, g, goal => p.run c g fun c' g' => q.run c' g' goal
  | either p q, c, g, goal => (p.run c g goal).orElse fun _ => q.run c g goal
  | many greedy p, c, g, goal => rounds greedy p.run c.rest.length c g goal
  | group label p, c, g, goal => p.run c g fun c' g' => goal c' ((label, c, c') :: g')

/-- A match: where it starts and stops, and its remembered parts. -/
structure Match where
  start : Cursor
  stop : Cursor
  groups : Groups

/-- The bytes of a match. -/
def Match.span (m : Match) : Span := m.start.spanTo m.stop

/-- The bytes of a remembered part. -/
def Match.spanOf? (m : Match) (label : String) : Option Span :=
  (m.groups.lookup label).map fun (start, stop) => start.spanTo stop

/-- The characters of a remembered part. -/
def Match.textOf? (m : Match) (label : String) : Option Text :=
  (m.groups.lookup label).map fun (start, stop) => start.upTo stop

/-- The preferred match at a place. -/
def matchAt? (p : Pattern) (c : Cursor) : Option Match :=
  p.run c [] fun c' g => some ⟨c, c', g⟩

/-- The leftmost match at a place or after it. -/
def findFrom? (p : Pattern) (c : Cursor) : Option Match := c.onward.findSome? p.matchAt?

/-- The leftmost match in a text. -/
def find? (p : Pattern) (t : Text) : Option Match := p.findFrom? (.start t)

/-- Whether a text has a match. -/
def occursIn (p : Pattern) (t : Text) : Bool := (p.find? t).isSome

/-- Successive matches from a place on, at most `fuel`; each begins where the last one stopped, or
one character later if that was empty. -/
def findAllFrom (p : Pattern) : Nat → Cursor → List Match
  | 0, _ => []
  | fuel + 1, c =>
    match p.findFrom? c with
    | none => []
    | some m =>
      if m.start.offset < m.stop.offset then m :: findAllFrom p fuel m.stop
      else
        match m.stop.advance with
        | some (_, c') => m :: findAllFrom p fuel c'
        | none => [m]

/-- The successive matches in a text, from the left, none overlapping another. -/
def findAll (p : Pattern) (t : Text) : List Match := p.findAllFrom (t.length + 1) (.start t)

/-- The text with every match replaced by `new`. -/
def replaceAll (p : Pattern) (new t : Text) : Text :=
  let rec pieces (last : Cursor) : List Match → Text
    | [] => last.rest
    | m :: rest => last.upTo m.start ++ new ++ pieces m.stop rest
  pieces (.start t) (p.findAll t)

/-! ### Building patterns -/

/-- The patterns one after another. -/
def all : List Pattern → Pattern
  | [] => nothing
  | [p] => p
  | p :: rest => next p (all rest)

/-- The patterns as alternatives, the first preferred. -/
def anyOf : List Pattern → Pattern
  | [] => one fun _ => false
  | [p] => p
  | p :: rest => either p (anyOf rest)

/-- One given character. -/
def char (c : Char) : Pattern := one (· == c)

/-- A given text. -/
def literal (t : Text) : Pattern := all (t.map char)

/-- A pattern or nothing, preferring the pattern. -/
def optional (p : Pattern) : Pattern := either p nothing

/-- A pattern once or more often, preferring more. -/
def atLeastOnce (p : Pattern) : Pattern := next p (many true p)

/-- A pattern `n` times. -/
def times (n : Nat) (p : Pattern) : Pattern := all (List.replicate n p)

end Pattern
end Registrar
