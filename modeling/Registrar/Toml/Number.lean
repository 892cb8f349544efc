import Registrar.Text.Search
import Registrar.Toml.Value

/-!
Numbers, dates and times. Digits may be grouped by single underscores between them; integers have 64
bits; a date is one of the calendar.
-/

namespace Registrar.Toml

/-- The digits without the underscores between them, if every one stands between two digits. -/
def ungroup? (isDigit : Char → Bool) (t : Text) : Option Text :=
  let pieces := Text.splitOn (· == '_') t
  if pieces.all fun p => !p.isEmpty && p.all isDigit then some pieces.flatten else none

/-- The value of digits to a base. -/
def valueOf (base : Nat) (digits : Text) : Nat :=
  digits.foldl (fun n c => base * n + digit c) 0
where
  /-- The value of a digit. -/
  digit (c : Char) : Nat :=
    if c.isDigit then c.toNat - '0'.toNat else c.toLower.toNat - 'a'.toNat + 10

/-- A hexadecimal digit. -/
def isHexDigit (c : Char) : Bool := c.isDigit || ('a' ≤ c.toLower && c.toLower ≤ 'f')

/-- A number in 64 bits. -/
def inRange? (n : Int) : Option Value :=
  if Int64.minValue.toInt ≤ n && n ≤ Int64.maxValue.toInt then some (.integer n) else none

/-- The sign of a number and what follows it. -/
def sign : Text → Bool × Text
  | '-' :: rest => (true, rest)
  | '+' :: rest => (false, rest)
  | t => (false, t)

/-- Decimal digits of a whole number: none but a zero alone begins with a zero. -/
def wholeDigits? (t : Text) : Option Text :=
  (ungroup? Char.isDigit t).bind fun digits =>
    if 1 < digits.length && digits.head? == some '0' then none else some digits

/-- An integer, with a sign, or to another base without one. -/
def integer? (t : Text) : Option Value :=
  match t with
  | '0' :: 'x' :: rest => (ungroup? isHexDigit rest).bind fun d => inRange? (valueOf 16 d)
  | '0' :: 'o' :: rest =>
    (ungroup? (fun c => '0' ≤ c && c ≤ '7') rest).bind fun d => inRange? (valueOf 8 d)
  | '0' :: 'b' :: rest =>
    (ungroup? (fun c => c == '0' || c == '1') rest).bind fun d => inRange? (valueOf 2 d)
  | _ =>
    let (negative, rest) := sign t
    (wholeDigits? rest).bind fun d =>
      let n : Int := valueOf 10 d
      inRange? (if negative then -n else n)

/-- Whether `digits` followed by a point `shift` places to the right goes beyond every double. -/
def overflows (digits : Text) (shift : Int) : Bool :=
  let digits := digits.dropWhile (· == '0')
  let magnitude : Int := digits.length + shift
  if digits.isEmpty || magnitude ≤ 300 then false
  else if 400 < magnitude then true
  else
    let limit := Nat.pow 2 1024 - Nat.pow 2 970
    let n := valueOf 10 digits
    if 0 ≤ shift then limit ≤ n * Nat.pow 10 shift.toNat
    else limit * Nat.pow 10 (-shift).toNat ≤ n

/-- A number with a fraction or an exponent, or one of the special ones. -/
def float? (t : Text) : Option Value :=
  let (negative, rest) := sign t
  if rest == "inf".toList then if negative then some (.float "-inf") else some (.float "inf")
  else if rest == "nan".toList then some (.float "nan")
  else
    let whole := rest.takeWhile fun c => c.isDigit || c == '_'
    let afterWhole := rest.drop whole.length
    let fraction := match afterWhole with
      | '.' :: more => more.takeWhile fun c => c.isDigit || c == '_'
      | _ => []
    let hasFraction := afterWhole.head? == some '.'
    let afterFraction := if hasFraction then afterWhole.drop (fraction.length + 1) else afterWhole
    let exponent? := match afterFraction with
      | c :: more =>
        if c == 'e' || c == 'E' then
          let (down, digits) := sign more
          (ungroup? Char.isDigit digits).map fun d =>
            if down then -(valueOf 10 d : Int) else (valueOf 10 d : Int)
        else none
      | [] => some 0
    let fraction? := if hasFraction then ungroup? Char.isDigit fraction else some []
    match wholeDigits? whole, fraction?, exponent? with
    | some w, some f, some e =>
      if !hasFraction && afterFraction.isEmpty then none
      else if !negative && overflows (w ++ f) (e - f.length) then none
      else some (.float (String.ofList t))
    | _, _, _ => none

/-! ### Dates and times -/

/-- A number of exactly `width` decimal digits at the front. -/
def fixed? (width : Nat) (t : Text) : Option (Nat × Text) :=
  let digits := t.take width
  if digits.length == width && digits.all Char.isDigit then some (valueOf 10 digits, t.drop width)
  else none

/-- The character `c` at the front. -/
def sign? (c : Char) : Text → Option Text
  | d :: rest => if d == c then some rest else none
  | [] => none

/-- The days of a month. -/
def daysOf (year month : Nat) : Nat :=
  if month == 2 then
    if year % 4 == 0 && (year % 100 != 0 || year % 400 == 0) then 29 else 28
  else if month == 4 || month == 6 || month == 9 || month == 11 then 30
  else 31

/-- A date of the calendar at the front. -/
def date? (t : Text) : Option Text := do
  let (year, t) ← fixed? 4 t
  let t ← sign? '-' t
  let (month, t) ← fixed? 2 t
  let t ← sign? '-' t
  let (day, t) ← fixed? 2 t
  guard (1 ≤ month && month ≤ 12 && 1 ≤ day && day ≤ daysOf year month)
  return t

/-- A time of the day at the front. -/
def time? (t : Text) : Option Text := do
  let (hour, t) ← fixed? 2 t
  let t ← sign? ':' t
  let (minute, t) ← fixed? 2 t
  let t ← sign? ':' t
  let (second, t) ← fixed? 2 t
  guard (hour ≤ 23 && minute ≤ 59 && second ≤ 60)
  match t with
  | '.' :: more =>
    let digits := more.takeWhile Char.isDigit
    guard !digits.isEmpty
    return more.drop digits.length
  | _ => return t

/-- The distance from universal time, to the end. -/
def offset? (t : Text) : Option Unit :=
  match t with
  | [] => some ()
  | ['Z'] => some ()
  | ['z'] => some ()
  | c :: rest => do
    guard (c == '+' || c == '-')
    let (hour, t) ← fixed? 2 rest
    let t ← sign? ':' t
    let (minute, t) ← fixed? 2 t
    guard (hour ≤ 23 && minute ≤ 59 && t.isEmpty)

/-- A date, a time, or both with or without a distance from universal time. -/
def moment? (t : Text) : Option Value :=
  let whole := match date? t with
    | some [] => some ()
    | some (c :: rest) =>
      if c == 'T' || c == 't' || c == ' ' then (time? rest).bind offset? else none
    | none => match time? t with
      | some [] => some ()
      | _ => none
  whole.map fun _ => .moment (String.ofList t)

/-- A value that is written without quotation marks or brackets. -/
def scalar? (t : Text) : Option Value :=
  if t == "true".toList then some (.boolean true)
  else if t == "false".toList then some (.boolean false)
  else ((integer? t).or (float? t)).or (moment? t)

end Registrar.Toml
