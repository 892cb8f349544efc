/-!
The values of a TOML document and the rules by which its keys fill tables: no key is given twice, a
table is opened by one header at most, and a closed table is not added to.
-/

namespace Registrar.Toml

/-- How a table came about. -/
inductive Origin where
  /-- Written in braces, and closed by them. -/
  | inline
  /-- Opened by a header of its own. -/
  | header
  /-- Passed through by the header of a table inside it. -/
  | implied
  /-- Passed through by a dotted key. -/
  | dotted
  deriving DecidableEq, Repr

/-- A value. -/
inductive Value where
  | string (s : String)
  | boolean (b : Bool)
  | integer (n : Int)
  /-- A number with a point or an exponent, as written. -/
  | float (text : String)
  /-- A date, a time or both, as written. -/
  | moment (text : String)
  | array (items : List Value)
  | table (origin : Origin) (entries : List (String × Value))
  /-- The tables under one repeated header. -/
  | tables (items : List Value)

/-- The keys of a table with their values, in the order of the document. -/
abbrev Entries := List (String × Value)

/-- Why a text is no document. -/
inductive Fault where
  /-- Something stands where nothing of the kind may stand. -/
  | malformed
  /-- A key is given twice or reopens what is closed. -/
  | duplicate (key : String)
  /-- A value is not of the kind that its key needs. -/
  | mistyped (key : String)
  deriving DecidableEq, Repr

/-- What the user is told. -/
def Fault.message : Fault → String
  | .malformed => "TOML parse error"
  | .duplicate key => "TOML parse error: duplicate key " ++ key
  | .mistyped key => "TOML parse error: invalid type for " ++ key

namespace Entries

/-- The entries with a changed value under a key, at its old place or at the end. -/
def alter (key : String) (change : Option Value → Except Fault Value) :
    Entries → Except Fault Entries
  | [] => (change none).map fun v => [(key, v)]
  | (k, v) :: rest =>
    if k == key then (change (some v)).map fun v => (k, v) :: rest
    else (alter key change rest).map ((k, v) :: ·)

/-- A list of tables with the last one changed. -/
def alterLast (change : Entries → Except Fault Entries) : List Value → Except Fault (List Value)
  | [] => .error .malformed
  | [.table origin es] => (change es).map fun es => [.table origin es]
  | v :: rest => (alterLast change rest).map (v :: ·)

/-- A value put under a key, behind dotted keys. -/
def put (value : Value) : List String → String → Entries → Except Fault Entries
  | [], key, es =>
    es.alter key fun
      | none => .ok value
      | some _ => .error (.duplicate key)
  | k :: path, key, es =>
    es.alter k fun
      | none => (put value path key []).map (.table .dotted ·)
      | some (.table .dotted inner) => (put value path key inner).map (.table .dotted ·)
      | some (.table .implied inner) =>
        if path.isEmpty then .error (.duplicate k)
        else (put value path key inner).map (.table .implied ·)
      | some (.tables items) =>
        if path.isEmpty then .error (.duplicate k)
        else (alterLast (put value path key) items).map .tables
      | some _ => .error (.duplicate k)

/-- The entries with a table opened by a header. -/
def openTable : List String → Entries → Except Fault Entries
  | [], _ => .error .malformed
  | [key], es =>
    es.alter key fun
      | none => .ok (.table .header [])
      | some (.table .implied inner) => .ok (.table .header inner)
      | some _ => .error (.duplicate key)
  | k :: path, es =>
    es.alter k fun
      | none => (openTable path []).map (.table .implied ·)
      | some (.table .inline _) => .error (.duplicate k)
      | some (.table origin inner) => (openTable path inner).map (.table origin ·)
      | some (.tables items) => (alterLast (openTable path) items).map .tables
      | some _ => .error (.duplicate k)

/-- The entries with one more table under a repeated header. -/
def addTable : List String → Entries → Except Fault Entries
  | [], _ => .error .malformed
  | [key], es =>
    es.alter key fun
      | none => .ok (.tables [.table .header []])
      | some (.tables items) => .ok (.tables (items ++ [.table .header []]))
      | some _ => .error (.duplicate key)
  | k :: path, es =>
    es.alter k fun
      | none => (addTable path []).map (.table .implied ·)
      | some (.table .inline _) => .error (.duplicate k)
      | some (.table origin inner) => (addTable path inner).map (.table origin ·)
      | some (.tables items) => (alterLast (addTable path) items).map .tables
      | some _ => .error (.duplicate k)

/-- The entries with the table of a header changed. -/
def within (change : Entries → Except Fault Entries) : List String → Entries → Except Fault Entries
  | [], es => change es
  | k :: path, es =>
    es.alter k fun
      | some (.table origin inner) => (within change path inner).map (.table origin ·)
      | some (.tables items) => (alterLast (within change path) items).map .tables
      | _ => .error .malformed

end Entries
end Registrar.Toml
