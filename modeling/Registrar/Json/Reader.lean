import Registrar.Json.Value

/-!
Reading JSON. White space may stand around every value; nothing else may follow the value of a
document.
-/

namespace Registrar.Json

/-- The text without the white space at its front. -/
def skipGap (t : Text) : Text :=
  t.dropWhile fun c => c == ' ' || c == '\n' || c == '\t' || c == '\r'

/-- Digits at the front, at least one, and the rest. -/
def digits? (t : Text) : Option (Text × Text) :=
  let digits := t.takeWhile Char.isDigit
  if digits.isEmpty then none else some (digits, t.drop digits.length)

/-- Digits at the front of which the first is no zero, or a zero alone. -/
def whole? : Text → Option (Text × Text)
  | '0' :: rest => some (['0'], rest)
  | t => digits? t

/-- The fraction at the front, if a point stands there. -/
def fraction? : Text → Option (Text × Text)
  | '.' :: rest => (digits? rest).map fun (digits, rest) => ('.' :: digits, rest)
  | t => some ([], t)

/-- The exponent at the front, if its letter stands there. -/
def exponent? : Text → Option (Text × Text)
  | [] => some ([], [])
  | c :: rest =>
    if c == 'e' || c == 'E' then
      let sign := rest.takeWhile (fun s => s == '+' || s == '-') |>.take 1
      (digits? (rest.drop sign.length)).map fun (digits, rest) => (c :: sign ++ digits, rest)
    else some ([], c :: rest)

/-- A number. -/
def readNumber (t : Text) : Option (Value × Text) := do
  let sign := if t.head? == some '-' then ['-'] else []
  let (whole, rest) ← whole? (t.drop sign.length)
  let (fraction, rest) ← fraction? rest
  let (exponent, rest) ← exponent? rest
  return (.number (sign ++ whole ++ fraction ++ exponent), rest)

/-- A value that is a fixed word. -/
def readWord (word : Text) (v : Value) (t : Text) : Option (Value × Text) :=
  (Text.dropFront? t word).map fun rest => (v, rest)

/-- The items of a list, the first one included, up to the bracket. -/
def readItems (readValue : Text → Option (Value × Text)) : Nat → Text → Option (List Value × Text)
  | 0, _ => none
  | fuel + 1, t => do
    let (v, rest) ← readValue t
    match skipGap rest with
    | ',' :: rest =>
      let (vs, rest) ← readItems readValue fuel rest
      return (v :: vs, rest)
    | ']' :: rest => return ([v], rest)
    | _ => none

/-- The members of an object, the first one included, up to the brace. -/
def readMembers (readValue : Text → Option (Value × Text)) :
    Nat → Text → Option (List (Text × Value) × Text)
  | 0, _ => none
  | fuel + 1, t => do
    match skipGap t with
    | '"' :: rest =>
      let (name, rest) ← cutQuoted? rest
      match skipGap rest with
      | ':' :: rest =>
        let (v, rest) ← readValue rest
        match skipGap rest with
        | ',' :: rest =>
          let (members, rest) ← readMembers readValue fuel rest
          return ((name, v) :: members, rest)
        | '\x7d' :: rest => return ([(name, v)], rest)
        | _ => none
      | _ => none
    | _ => none

/-- A value with at most `fuel` lists and objects inside one another. -/
def readValue : Nat → Text → Option (Value × Text)
  | 0, _ => none
  | fuel + 1, t =>
    match skipGap t with
    | '"' :: rest => (cutQuoted? rest).map fun (written, rest) => (.string written, rest)
    | '[' :: rest =>
      match skipGap rest with
      | ']' :: rest => some (.array [], rest)
      | _ => (readItems (readValue fuel) (rest.length + 1) rest).map
          fun (items, rest) => (.array items, rest)
    | '\x7b' :: rest =>
      match skipGap rest with
      | '\x7d' :: rest => some (.object [], rest)
      | _ => (readMembers (readValue fuel) (rest.length + 1) rest).map
          fun (members, rest) => (.object members, rest)
    | 'n' :: rest => readWord "ull".toList .null rest
    | 't' :: rest => readWord "rue".toList (.boolean true) rest
    | 'f' :: rest => readWord "alse".toList (.boolean false) rest
    | t => readNumber t

/-- The value of a document. -/
def read (t : Text) : Option Value := do
  let (v, rest) ← readValue (t.length + 1) t
  if (skipGap rest).isEmpty then return v else none

end Registrar.Json
