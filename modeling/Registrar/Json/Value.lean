import Registrar.Json.Quoted

/-!
JSON values and their layout: every item and every member on a line of its own, two spaces deeper
than what it belongs to, and nothing between the brackets of an empty list.
-/

namespace Registrar.Json

/-- A value; numbers, strings and the names of members are kept as they are written. -/
inductive Value where
  | null
  | boolean (b : Bool)
  | number (written : Text)
  | string (written : Text)
  | array (items : List Value)
  | object (members : List (Text × Value))

/-- The value of decimal digits. -/
def valueOf (digits : Text) : Nat := digits.foldl (fun n c => 10 * n + (c.toNat - '0'.toNat)) 0

namespace Value

/-- A whole number. -/
def ofNat (n : Nat) : Value := .number (Nat.toDigits 10 n)

/-- A string. -/
def ofString (s : String) : Value := .string (escaped s)

/-- An object with the given names. -/
def ofMembers (members : List (String × Value)) : Value :=
  .object (members.map fun (name, v) => (escaped name, v))

/-- The whole number that a value is, if it has no sign, no fraction and no exponent. -/
def nat? : Value → Option Nat
  | .number written => if written.all Char.isDigit then some (valueOf written) else none
  | _ => none

/-- The string that a value is, unless half of a pair of codes stands alone in it. -/
def string? : Value → Option String
  | .string written => (unescape? written).map String.ofList
  | _ => none

end Value

/-- A string between quotation marks. -/
def quoted (written : Text) : Text := '"' :: written ++ ['"']

/-- The spaces before what lies `level` deep. -/
def margin (level : Nat) : Text := List.replicate (2 * level) ' '

/-- Texts on lines of their own between brackets. -/
def block (level : Nat) (opening closing : Char) (lines : List Text) : Text :=
  if lines.isEmpty then [opening, closing]
  else
    opening :: '\n' :: Text.join [',', '\n'] (lines.map (margin (level + 1) ++ ·)) ++
      '\n' :: margin level ++ [closing]

mutual

/-- A value that lies `level` deep, laid out. -/
def Value.layout (level : Nat) : Value → Text
  | .null => "null".toList
  | .boolean true => "true".toList
  | .boolean false => "false".toList
  | .number written => written
  | .string written => quoted written
  | .array items => block level '[' ']' (layoutItems (level + 1) items)
  | .object members => block level '\x7b' '\x7d' (layoutMembers (level + 1) members)

/-- The items of a list, laid out. -/
def layoutItems (level : Nat) : List Value → List Text
  | [] => []
  | v :: rest => v.layout level :: layoutItems level rest

/-- The members of an object, laid out. -/
def layoutMembers (level : Nat) : List (Text × Value) → List Text
  | [] => []
  | (name, v) :: rest =>
    (quoted name ++ ": ".toList ++ v.layout level) :: layoutMembers level rest

end

/-- The text of a value. -/
def Value.text (v : Value) : Text := v.layout 0

end Registrar.Json
