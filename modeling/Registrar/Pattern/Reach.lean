import Registrar.Pattern.Basic

/-!
Whether a pattern matches anywhere in a text, by sets of places. Preferences do not matter here, so
all ways are followed at once and each place is kept only once: the work stays bounded where trying
one way after another would not.
-/

namespace Registrar.Pattern

/-- The places without those that are in another list already. -/
def fresh (seen : List Cursor) (places : List Cursor) : List Cursor :=
  places.foldl
    (fun kept c =>
      if seen.any (·.offset == c.offset) || kept.any (·.offset == c.offset) then kept
      else kept ++ [c])
    []

/-- The places that rounds of `once` reach from `edge`, with those reached before. -/
def closure (once : List Cursor → List Cursor) : Nat → List Cursor → List Cursor → List Cursor
  | 0, reached, _ => reached
  | fuel + 1, reached, edge =>
    match fresh reached (once edge) with
    | [] => reached
    | edge' => closure once fuel (reached ++ edge') edge'

/-- The places at which a match from one of the given places can stop. -/
def reach : Pattern → List Cursor → List Cursor
  | nothing, cs => cs
  | one accepts, cs =>
    cs.filterMap fun c =>
      match c.advance with
      | some (x, c') => if accepts x then some c' else none
      | none => none
  | place holds, cs => cs.filter holds
  | next p q, cs => q.reach (p.reach cs)
  | either p q, cs =>
    let left := p.reach cs
    left ++ fresh left (q.reach cs)
  | many _ p, cs =>
    closure p.reach ((cs.map (·.rest.length)).foldl max 0 + 1) cs cs
  | group _ p, cs => p.reach cs

/-- Whether the pattern matches somewhere in the text. -/
def accepts (p : Pattern) (t : Text) : Bool := !(p.reach (Cursor.start t).onward).isEmpty

end Registrar.Pattern
