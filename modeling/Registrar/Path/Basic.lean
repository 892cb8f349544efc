import Registrar.Text.Search

/-!
Paths. A path keeps the text it was written with, and is compared by its components: repeated
slashes, a slash at the end and dots inside it do not count.
-/

namespace Registrar

/-- A path as it is written. -/
structure Path where
  text : String
  deriving DecidableEq, Repr

/-- One step of a path. -/
inductive Component where
  /-- The top folder. -/
  | top
  /-- The folder itself, only at the front of a relative path. -/
  | here
  /-- The folder above. -/
  | up
  | name (n : String)
  deriving DecidableEq, Repr

namespace Path

/-- The piece between two slashes says nothing. -/
def isIdle (piece : Text) : Bool := piece.isEmpty || piece == ['.']

/-- A path begins at the top. -/
def isAbsolute (p : Path) : Bool := p.text.toList.head? == some '/'

/-- What stands between the slashes, the one at the top left out. -/
def pieces (p : Path) : List Text :=
  Text.splitOn (· == '/') (if p.isAbsolute then p.text.toList.tail else p.text.toList)

/-- The path with the given pieces. -/
def ofPieces (absolute : Bool) (pieces : List Text) : Path :=
  ⟨String.ofList ((if absolute then ['/'] else []) ++ Text.join ['/'] pieces)⟩

/-- The path with the given names. -/
def ofNames (absolute : Bool) (names : List String) : Path :=
  ofPieces absolute (names.map String.toList)

/-- The step that a piece stands for. -/
def component? (piece : Text) : Option Component :=
  if isIdle piece then none
  else if piece == ['.', '.'] then some .up
  else some (.name (String.ofList piece))

/-- The steps of a path. -/
def components (p : Path) : List Component :=
  if p.isAbsolute then .top :: p.pieces.filterMap component?
  else if p.pieces.head? == some ['.'] then .here :: p.pieces.filterMap component?
  else p.pieces.filterMap component?

/-- The paths have the same steps. -/
def same (p q : Path) : Bool := p.components == q.components

/-- The first path lies below the second or is the same. -/
def isUnder (p top : Path) : Bool := top.components.isPrefixOf p.components

/-- The pieces without the idle ones at the end; a dot that is all of a relative path stays. -/
def withoutIdleEnd (absolute : Bool) (pieces : List Text) : List Text :=
  match (pieces.reverse.dropWhile isIdle).reverse with
  | [] => if !absolute && pieces.head? == some ['.'] then [['.']] else []
  | kept => kept

/-- The path without its last step. -/
def parent? (p : Path) : Option Path :=
  match withoutIdleEnd p.isAbsolute p.pieces with
  | [] => none
  | kept => some (ofPieces p.isAbsolute (withoutIdleEnd p.isAbsolute kept.dropLast))

/-- The path, its parent, the parent of that and so on, `fuel` times. -/
def ancestorsUpTo : Nat → Path → List Path
  | 0, p => [p]
  | fuel + 1, p =>
    match p.parent? with
    | none => [p]
    | some q => p :: ancestorsUpTo fuel q

/-- The path and all that is above it. -/
def ancestors (p : Path) : List Path := ancestorsUpTo p.components.length p

/-- The last step, when it is a name. -/
def fileName? (p : Path) : Option String :=
  match p.components.getLast? with
  | some (.name n) => some n
  | _ => none

/-- A path read from the folder `p`. -/
def join (p q : Path) : Path :=
  if q.isAbsolute || p.text.isEmpty then q
  else if p.text.toList.getLast? == some '/' then ⟨p.text ++ q.text⟩
  else ⟨p.text ++ "/" ++ q.text⟩

/-- The entry `name` of the folder `p`. -/
def child (p : Path) (name : String) : Path := p.join ⟨name⟩

/-- The pieces after the first `n` that say something. -/
def dropSteps : Nat → List Text → List Text
  | 0, pieces => pieces.dropWhile isIdle
  | n + 1, pieces => dropSteps n (pieces.dropWhile isIdle).tail

/-- The rest of a path that lies below `top`, as it is written. -/
def below? (p top : Path) : Option Path :=
  if !p.isUnder top then none
  else
    match top.components with
    | [] => some (ofPieces p.isAbsolute (withoutIdleEnd p.isAbsolute p.pieces))
    | .top :: steps => some (ofPieces false (withoutIdleEnd true (dropSteps steps.length p.pieces)))
    | .here :: steps =>
      some (ofPieces false (withoutIdleEnd true (dropSteps steps.length p.pieces.tail)))
    | steps => some (ofPieces false (withoutIdleEnd true (dropSteps steps.length p.pieces)))

end Path

/-! ### Order -/

/-- The place of a kind of step: the top, the folder itself, the folder above, names. -/
def Component.rank : Component → Nat
  | .top => 0
  | .here => 1
  | .up => 2
  | .name _ => 3

/-- The order of two steps: by kind, and names by their characters. -/
def Component.order : Component → Component → Ordering
  | .name a, .name b => compare a b
  | a, b => compare a.rank b.rank

/-- The order of two lists of steps: that of the first steps that differ. -/
def Component.orderAll : List Component → List Component → Ordering
  | [], [] => .eq
  | [], _ => .lt
  | _, [] => .gt
  | a :: rest, b :: rest' => (a.order b).then (orderAll rest rest')

/-- Paths in the order of their steps; a path comes before what is below it. -/
def Path.order (p q : Path) : Ordering := Component.orderAll p.components q.components

end Registrar
