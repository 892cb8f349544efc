import Registrar.Registry.Zones

/-!
Where new fragments go in a registry's text. Each place has fallbacks, so that every text has all of
them.
-/

namespace Registrar

/-- Where fields go. -/
structure FieldAnchor where
  offset : Nat
  /-- A blank line goes before the first new field. -/
  separated : Bool
  deriving DecidableEq, Repr

/-- Where accessors go. -/
structure AccessorAnchor where
  offset : Nat
  /-- The place is that of the remark, which stays below. -/
  atMark : Bool
  deriving DecidableEq, Repr

/-- Where the fragments of a helper go. -/
structure Anchors where
  imports : Nat
  fields : FieldAnchor
  accessors : AccessorAnchor
  deriving DecidableEq, Repr

namespace Anchors

/-- The end of the line on which the first class opens its body. -/
def bodyStart? (t : Text) : Option Nat :=
  (Recognition.classDeclaration.find? t).bind fun m =>
    (Text.find? m.stop.rest ['\x7b']).map fun n => t.lineEnd (m.stop.offset + n + 1)

/-- Fields go after the last helper field, or after the context field, or after the first static
field, or where the class opens. -/
def fieldsOf (t : Text) (z : Zones) (contextField : String) : FieldAnchor :=
  match z.fields.reverse.find? fun f => !f.isStatic && f.name != contextField with
  | some f => ⟨f.span.stop, false⟩
  | none =>
    match z.fields.find? (·.name == contextField) with
    | some f => ⟨f.span.stop, true⟩
    | none =>
      match z.fields.find? (·.isStatic) with
      | some f => ⟨f.span.stop, true⟩
      | none => ⟨(bodyStart? t).getD t.size, false⟩

/-- Accessors go before the remark that marks their place, or before the last brace that starts a
line. -/
def accessorsOf (t : Text) : AccessorAnchor :=
  match t.find? Source.accessorMark.toList with
  | some n => ⟨t.lineStart n, true⟩
  | none =>
    match (Recognition.closingBrace.findAll t).getLast? with
    | some m => ⟨m.start.offset, false⟩
    | none => ⟨t.size, false⟩

/-- Where fragments go in a text. -/
def ofText (t : Text) (contextField : String) : Anchors :=
  let z := Zones.ofText t
  ⟨z.lastImportEnd.getD 0, fieldsOf t z contextField, accessorsOf t⟩

end Anchors
end Registrar
