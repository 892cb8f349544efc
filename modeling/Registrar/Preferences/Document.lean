import Registrar.Json.Reader
import Registrar.Preferences.Basic

/-!
What is remembered as a JSON document. A record may also be read from the list of its values;
members with unknown names are passed over, known ones may not be repeated.
-/

namespace Registrar.Json

/-- Why a text is no document of the expected shape. -/
inductive Fault where
  /-- The text is no JSON. -/
  | malformed
  /-- A value is of the wrong kind. -/
  | mistyped
  /-- A member is missing. -/
  | missing (name : String)
  /-- A member stands twice. -/
  | repeated (name : String)
  deriving DecidableEq, Repr

/-- What the user is told. -/
def Fault.message : Fault → String
  | .malformed => "not a JSON document"
  | .mistyped => "invalid type"
  | .missing name => "missing field " ++ name
  | .repeated name => "duplicate field " ++ name

namespace Value

/-- The string that a value has to be. -/
def needString : Value → Except Fault String
  | .string written => match unescape? written with
    | some s => .ok (String.ofList s)
    | none => .error .malformed
  | _ => .error .mistyped

/-- The values of the members with a name, in an object whose names can all be read. -/
def membersNamed (members : List (Text × Value)) (name : String) : List Value :=
  (members.filter fun (written, _) => unescape? written == some name.toList).map (·.2)

/-- The value of the one member with a name, if there is any. -/
def member? (members : List (Text × Value)) (name : String) : Except Fault (Option Value) :=
  match membersNamed members name with
  | [] => .ok none
  | [v] => .ok (some v)
  | _ => .error (.repeated name)

/-- The values of a record with the given names, from an object or from a list of at most as many
values. -/
def fields (names : List String) : Value → Except Fault (List (Option Value))
  | .object members =>
    if members.all fun (written, _) => (unescape? written).isSome then
      names.mapM (member? members)
    else .error .malformed
  | .array items =>
    if items.length ≤ names.length then
      .ok (items.map some ++ List.replicate (names.length - items.length) none)
    else .error .mistyped
  | _ => .error .mistyped

end Value
end Registrar.Json

namespace Registrar

open Json

/-- The value that a registry is written as. -/
def Remembered.value (r : Remembered) : Value :=
  .ofMembers [("path", .ofString r.path.text), ("label", .ofString r.label),
    ("last_used", .ofNat r.lastUsed.toNat)]

/-- The registry that a value stands for. -/
def Remembered.ofValue (v : Value) : Except Fault Remembered := do
  match ← v.fields ["path", "label", "last_used"] with
  | [some path, some label, some lastUsed] =>
    match lastUsed.nat? with
    | some n =>
      if n < UInt64.size then
        return ⟨⟨← path.needString⟩, ← label.needString, UInt64.ofNat n⟩
      else throw .mistyped
    | none => throw .mistyped
  | [path, label, _] =>
    throw (.missing (if path.isNone then "path" else if label.isNone then "label" else "last_used"))
  | _ => throw .mistyped

/-- The order that a value stands for: its word, alone or as the name of a member with nothing. -/
def HelperOrder.ofValue (v : Value) : Except Fault HelperOrder :=
  let key? := match v with
    | .object [(written, .null)] => (unescape? written).map String.ofList
    | v => v.string?
  match key?.bind HelperOrder.ofKey? with
  | some order => .ok order
  | none => .error .mistyped

namespace Preferences

/-- The value that all is written as. -/
def value (p : Preferences) : Value :=
  .ofMembers [("registries", .array (p.registries.map Remembered.value)),
    ("sort_order", .ofString p.order.key)]

/-- What a value stands for. -/
def ofValue (v : Value) : Except Fault Preferences := do
  match ← v.fields ["registries", "sort_order"] with
  | [registries?, order?] =>
    let registries ← match registries? with
      | none => pure []
      | some (.array items) => items.mapM Remembered.ofValue
      | some _ => throw .mistyped
    let order ← match order? with
      | none => pure .name
      | some v => HelperOrder.ofValue v
    return ⟨registries, order⟩
  | _ => throw .mistyped

/-- The document. -/
def text (p : Preferences) : Text := p.value.text

/-- What a document says. -/
def read (t : Text) : Except Fault Preferences :=
  match Json.read t with
  | some v => ofValue v
  | none => .error .malformed

end Preferences
end Registrar
