import Registrar.Toml.Number

/-!
Reading a TOML document: lines with a key and a value, or with the header of a table, or with
nothing but a remark.
-/

namespace Registrar.Toml

/-- A character that may stand in a remark or a string. -/
def isPlain (c : Char) : Bool := c == '\t' || (32 ≤ c.toNat && c.toNat != 127)

/-- The text without the spaces and tabs at its front. -/
def skipGap (t : Text) : Text := t.dropWhile fun c => c == ' ' || c == '\t'

/-- The text without the remark at its front. -/
def skipRemark : Text → Text
  | '#' :: rest => rest.dropWhile isPlain
  | t => t

/-- The text after the line ending at its front. -/
def lineFeed? : Text → Option Text
  | '\n' :: rest => some rest
  | '\r' :: '\n' :: rest => some rest
  | _ => none

/-- The text after any gaps, remarks and line endings, at most `fuel` of them. -/
def skipLines : Nat → Text → Text
  | 0, t => t
  | fuel + 1, t =>
    let t := skipRemark (skipGap t)
    match lineFeed? t with
    | some rest => skipLines fuel rest
    | none => t

/-! ### Strings -/

/-- The character of `width` hexadecimal digits. -/
def readCode (width : Nat) (t : Text) : Except Fault (Char × Text) :=
  let digits := t.take width
  let n := valueOf 16 digits
  if digits.length == width && digits.all isHexDigit && (n < 0xd800 || (0xe000 ≤ n && n < 0x110000))
  then .ok (Char.ofNat n, t.drop width)
  else .error .malformed

/-- What follows a backslash in a string. -/
def readEscape : Text → Except Fault (Char × Text)
  | 'b' :: rest => .ok ('\x08', rest)
  | 't' :: rest => .ok ('\t', rest)
  | 'n' :: rest => .ok ('\n', rest)
  | 'f' :: rest => .ok ('\x0c', rest)
  | 'r' :: rest => .ok ('\r', rest)
  | '"' :: rest => .ok ('"', rest)
  | '\\' :: rest => .ok ('\\', rest)
  | 'u' :: rest => readCode 4 rest
  | 'U' :: rest => readCode 8 rest
  | _ => .error .malformed

/-- A string with escapes, up to its quotation mark. -/
def readBasic : Nat → Text → Text → Except Fault (Text × Text)
  | 0, _, _ => .error .malformed
  | fuel + 1, done, t =>
    match t with
    | '"' :: rest => .ok (done, rest)
    | '\\' :: rest => do
      let (c, rest) ← readEscape rest
      readBasic fuel (done ++ [c]) rest
    | c :: rest => if isPlain c then readBasic fuel (done ++ [c]) rest else .error .malformed
    | [] => .error .malformed

/-- A string without escapes, up to its quotation mark. -/
def readLiteral (t : Text) : Except Fault (Text × Text) :=
  let inner := t.takeWhile fun c => isPlain c && c != '\''
  match t.drop inner.length with
  | '\'' :: rest => .ok (inner, rest)
  | _ => .error .malformed

/-- The quotation marks at the front that end a string over several lines: the last three close it
and up to two before them belong to it. -/
def closing? (mark : Char) (t : Text) : Option (Text × Text) :=
  let marks := t.takeWhile (· == mark)
  if 3 ≤ marks.length then
    let kept := min (marks.length - 3) 2
    some (marks.take kept, t.drop (kept + 3))
  else none

/-- The text after white space and line endings that a backslash at the end of a line hides. -/
def skipHidden : Nat → Text → Text
  | 0, t => t
  | fuel + 1, t =>
    let t := skipGap t
    match lineFeed? t with
    | some rest => skipHidden fuel rest
    | none => t

/-- A string over several lines, with escapes or without. -/
def readLong (mark : Char) : Nat → Text → Text → Except Fault (Text × Text)
  | 0, _, _ => .error .malformed
  | fuel + 1, done, t =>
    match closing? mark t with
    | some (kept, rest) => .ok (done ++ kept, rest)
    | none =>
      match lineFeed? t with
      | some rest => readLong mark fuel (done ++ ['\n']) rest
      | none =>
        match t with
        | '\\' :: rest =>
          if mark == '"' then
            match lineFeed? (skipGap rest) with
            | some rest => readLong mark fuel done (skipHidden rest.length rest)
            | none => do
              let (c, rest) ← readEscape rest
              readLong mark fuel (done ++ [c]) rest
          else readLong mark fuel (done ++ ['\\']) rest
        | c :: rest =>
          if isPlain c then readLong mark fuel (done ++ [c]) rest else .error .malformed
        | [] => .error .malformed

/-- A string over several lines without the line ending right behind its opening. -/
def readLongFrom (mark : Char) (t : Text) : Except Fault (Text × Text) :=
  readLong mark (t.length + 1) [] ((lineFeed? t).getD t)

/-! ### Keys -/

/-- How many keys dots may join, and how deep arrays and tables may lie inside one another. -/
def depthLimit : Nat := 79

/-- A character of a key without quotation marks. -/
def isBare (c : Char) : Bool := c.isAlphanum || c == '_' || c == '-'

/-- One key. -/
def readKey (t : Text) : Except Fault (String × Text) :=
  match t with
  | '"' :: rest =>
    (readBasic (rest.length + 1) [] rest).map fun (k, rest) => (String.ofList k, rest)
  | '\'' :: rest => (readLiteral rest).map fun (k, rest) => (String.ofList k, rest)
  | _ =>
    let k := t.takeWhile isBare
    if k.isEmpty then .error .malformed else .ok (String.ofList k, t.drop k.length)

/-- At most `limit` keys with dots between them. -/
def readKeys : Nat → Text → Except Fault (List String × Text)
  | 0, _ => .error .malformed
  | limit + 1, t => do
    let (k, rest) ← readKey (skipGap t)
    match skipGap rest with
    | '.' :: rest => (readKeys limit rest).map fun (ks, rest) => (k :: ks, rest)
    | rest => return ([k], rest)

/-- Keys with dots between them, and the value behind an equals sign. -/
def readPair (readValue : Text → Except Fault (Value × Text)) (t : Text) :
    Except Fault ((List String × Value) × Text) := do
  let (keys, rest) ← readKeys depthLimit t
  match rest with
  | '=' :: rest => (readValue (skipGap rest)).map fun (v, rest) => ((keys, v), rest)
  | _ => throw .malformed

/-- A value put under dotted keys. -/
def putKeys (keys : List String) (v : Value) (es : Entries) : Except Fault Entries :=
  match keys.getLast? with
  | some key => es.put v keys.dropLast key
  | none => .error .malformed

/-! ### Values -/

/-- The items of an array up to its bracket. -/
def readItems (readValue : Text → Except Fault (Value × Text)) :
    Nat → Text → Except Fault (List Value × Text)
  | 0, _ => .error .malformed
  | fuel + 1, t =>
    match skipLines t.length.succ t with
    | ']' :: rest => .ok ([], rest)
    | t => do
      let (v, rest) ← readValue t
      match skipLines rest.length.succ rest with
      | ',' :: rest => (readItems readValue fuel rest).map fun (vs, rest) => (v :: vs, rest)
      | ']' :: rest => return ([v], rest)
      | _ => throw .malformed

/-- The pairs of a table in braces, the first one included, up to the brace. -/
def readPairs (readValue : Text → Except Fault (Value × Text)) :
    Nat → Entries → Text → Except Fault (Entries × Text)
  | 0, _, _ => .error .malformed
  | fuel + 1, es, t => do
    let ((keys, v), rest) ← readPair readValue t
    let es ← putKeys keys v es
    match skipGap rest with
    | ',' :: rest => readPairs readValue fuel es rest
    | '\x7d' :: rest => return (es, rest)
    | _ => throw .malformed

/-- A character of a value without quotation marks or brackets. -/
def isScalar (c : Char) : Bool :=
  c.isAlphanum || c == '_' || c == '+' || c == '-' || c == '.' || c == ':'

/-- A value without quotation marks or brackets; a date and a time may have a space between them. -/
def readScalar (t : Text) : Except Fault (Value × Text) :=
  let first := t.takeWhile isScalar
  let rest := t.drop first.length
  let second := match date? first, rest with
    | some [], ' ' :: more =>
      let time := more.takeWhile isScalar
      if ((time.drop 2).head? == some ':') then ' ' :: time else []
    | _, _ => []
  match scalar? (first ++ second) with
  | some v => .ok (v, rest.drop second.length)
  | none => .error .malformed

/-- A value with no other values in it. -/
def readPlain (t : Text) : Except Fault (Value × Text) :=
  match t with
  | '"' :: '"' :: '"' :: rest =>
    (readLongFrom '"' rest).map fun (s, rest) => (.string (String.ofList s), rest)
  | '\'' :: '\'' :: '\'' :: rest =>
    (readLongFrom '\'' rest).map fun (s, rest) => (.string (String.ofList s), rest)
  | '"' :: rest =>
    (readBasic (rest.length + 1) [] rest).map fun (s, rest) => (.string (String.ofList s), rest)
  | '\'' :: rest => (readLiteral rest).map fun (s, rest) => (.string (String.ofList s), rest)
  | _ => readScalar t

/-- A value, with at most `depth` arrays and tables inside one another. -/
def readValue : Nat → Text → Except Fault (Value × Text)
  | 0, t => readPlain t
  | depth + 1, t =>
    match t with
    | '[' :: rest =>
      (readItems (readValue depth) (rest.length + 1) rest).map fun (vs, rest) => (.array vs, rest)
    | '\x7b' :: rest =>
      match skipGap rest with
      | '\x7d' :: rest => .ok (.table .inline [], rest)
      | rest =>
        (readPairs (readValue depth) (rest.length + 1) [] rest).map
          fun (es, rest) => (.table .inline es, rest)
    | _ => readPlain t

/-! ### Documents -/

/-- The end of a line, a remark before it, or the end of the text. -/
def readLineEnd (t : Text) : Except Fault Text :=
  match skipRemark (skipGap t) with
  | [] => .ok []
  | t =>
    match lineFeed? t with
    | some rest => .ok rest
    | none => .error .malformed

/-- The lines of a document; `header` leads to the table that pairs go to. -/
def readLines : Nat → List String → Entries → Text → Except Fault Entries
  | 0, _, es, _ => .ok es
  | fuel + 1, header, es, t =>
    match skipLines t.length.succ t with
    | [] => .ok es
    | '[' :: '[' :: rest => do
      let (keys, rest) ← readKeys depthLimit rest
      match rest with
      | ']' :: ']' :: rest =>
        let es ← es.addTable keys
        readLines fuel keys es (← readLineEnd rest)
      | _ => throw .malformed
    | '[' :: rest => do
      let (keys, rest) ← readKeys depthLimit rest
      match rest with
      | ']' :: rest =>
        let es ← es.openTable keys
        readLines fuel keys es (← readLineEnd rest)
      | _ => throw .malformed
    | t => do
      let ((keys, v), rest) ← readPair (readValue depthLimit) t
      let es ← es.within (putKeys keys v) header
      readLines fuel header es (← readLineEnd rest)

/-- The entries of a document; a byte order mark at its front is not part of it. -/
def read (t : Text) : Except Fault Entries :=
  let t := if t.head? == some '\ufeff' then t.tail else t
  readLines (t.length + 1) [] [] t

end Registrar.Toml
