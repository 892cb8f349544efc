import Registrar.Letter.Blank
import Registrar.Letter.Kind
import Registrar.Pattern.Basic
import Registrar.Text.Search

/-!
The written form of patterns. A name pattern in the settings is a regular expression: literals,
classes with ranges, nesting and set operations, groups with flags, places, and repetition by sign
or by count. References back to a group and views ahead or behind are refused.
-/

namespace Registrar.Pattern

/-- Why a text is no pattern. -/
inductive Fault where
  | groupNotClosed
  | groupNotOpened
  | classNotClosed
  /-- A range whose ends are not characters or are out of order. -/
  | classRange
  /-- A sign of repetition with nothing before it. -/
  | nothingToRepeat
  /-- A count that is missing, unfinished or out of order. -/
  | count
  | escape
  | flag
  /-- A group name that is empty, unfinished, malformed or used twice. -/
  | groupName
  /-- A view ahead or behind. -/
  | lookAround
  /-- A reference to a group. -/
  | backreference
  /-- A character code that is no character. -/
  | code
  | unknownProperty
  | tooLarge
  deriving DecidableEq, Repr

/-- What the user is told. -/
def Fault.message : Fault → String
  | groupNotClosed => "unclosed group"
  | groupNotOpened => "unopened group"
  | classNotClosed => "unclosed character class"
  | classRange => "invalid range of characters"
  | nothingToRepeat => "nothing to repeat"
  | count => "invalid repetition count"
  | escape => "unknown escape"
  | flag => "unknown flag"
  | groupName => "invalid group name"
  | lookAround => "views ahead or behind are not supported"
  | backreference => "references to groups are not supported"
  | code => "invalid character code"
  | unknownProperty => "unknown property"
  | tooLarge => "the pattern is too large"

namespace Reader

/-- What the flags of a group change. -/
structure Flags where
  ignoreCase : Bool := false
  /-- Line ends count as ends of the text. -/
  multiLine : Bool := false
  /-- A dot stands for line feeds too. -/
  dotAll : Bool := false
  /-- Greedy signs are lazy and lazy ones greedy. -/
  swapGreed : Bool := false
  /-- Classes go beyond ASCII. -/
  unicode : Bool := true
  /-- White space and remarks are skipped. -/
  extended : Bool := false

/-- A class of characters. -/
abbrev Class := Char → Bool

/-- The class with all case variants of its characters. -/
def caseless (flags : Flags) (accepts : Class) : Class :=
  if flags.ignoreCase then fun c =>
    accepts c || accepts (Letter.folded c) ||
      (Letter.raise (Letter.folded c)).all accepts || (Letter.lower c).all accepts
  else accepts

/-- The class of one character. -/
def only (flags : Flags) (x : Char) : Class :=
  if flags.ignoreCase then fun c => c == x || Letter.folded c == Letter.folded x else (· == x)

/-- What an escape stands for. -/
inductive Escape where
  | literal (c : Char)
  | set (accepts : Class)
  | place (holds : Cursor → Bool)

/-- The text without the white space and remarks that the flags let it skip. -/
def skip (flags : Flags) : Nat → Text → Text
  | 0, t => t
  | fuel + 1, t =>
    if !flags.extended then t
    else
      match t with
      | '#' :: rest => skip flags fuel (rest.dropWhile (· != '\n'))
      | c :: rest => if Letter.isBlank c then skip flags fuel rest else t
      | [] => t

/-- The value of a hexadecimal digit. -/
def hexValue? (c : Char) : Option Nat :=
  if c.isDigit then some (c.toNat - '0'.toNat)
  else if 'a' ≤ c && c ≤ 'f' then some (c.toNat - 'a'.toNat + 10)
  else if 'A' ≤ c && c ≤ 'F' then some (c.toNat - 'A'.toNat + 10)
  else none

/-- The number that hexadecimal digits write. -/
def hexNumber? (digits : Text) : Option Nat :=
  if digits.isEmpty then none
  else digits.foldlM (fun n c => (hexValue? c).map (16 * n + ·)) 0

/-- The character with the given code. -/
def charOf? (n : Nat) : Option Char :=
  if n < 0xd800 || (0xe000 ≤ n && n < 0x110000) then some (Char.ofNat n) else none

/-- The character that a code of `width` digits, or of any number in braces, writes. -/
def readCode (width : Nat) (t : Text) : Except Fault (Char × Text) :=
  let (digits, rest) :=
    match t with
    | '{' :: t' => (t'.takeWhile (· != '}'), (t'.dropWhile (· != '}')).tail?.getD ['{'])
    | _ => (t.take width, t.drop width)
  let closed := match t with
    | '{' :: t' => t'.contains '}'
    | _ => digits.length == width
  match closed, (hexNumber? digits).bind charOf? with
  | true, some c => .ok (c, rest)
  | _, _ => .error .code

/-- The name of a property without case, spaces, dashes and underscores. -/
def plainName (name : Text) : String :=
  let letters := (name.filter fun c => !(c == ' ' || c == '-' || c == '_')).map Char.toLower
  String.ofList ((Text.dropFront? letters "is".toList).getD letters)

/-- The class of a property. -/
def property? (name : Text) : Option Class :=
  match plainName name with
  | "any" => some fun _ => true
  | "ascii" => some (·.toNat < 128)
  | "l" | "letter" => some Letter.isLetter
  | "lu" | "uppercaseletter" => some Letter.isCapital
  | "ll" | "lowercaseletter" => some Letter.isSmall
  | "n" | "number" => some Letter.isNumber
  | "nd" | "decimalnumber" | "digit" => some Letter.isDigit
  | "alphabetic" | "alpha" => some Letter.isAlphabetic
  | "uppercase" | "upper" => some Letter.isUpper
  | "lowercase" | "lower" => some Letter.isLower
  | "whitespace" | "wspace" | "space" => some Letter.isBlank
  | _ => none

/-- A class of characters, or of all others. -/
def orOthers (negated : Bool) (accepts : Class) : Class := fun c => negated != accepts c

/-- The class of the property that follows the letter of its escape: one letter, or a name in
braces. -/
def readProperty (flags : Flags) (negated : Bool) : Text → Except Fault (Class × Text)
  | '{' :: rest =>
    let name := rest.takeWhile (· != '}')
    let (inner, name) := match name with
      | '^' :: name => (true, name)
      | _ => (false, name)
    match rest.contains '}', property? name with
    | true, some accepts =>
      .ok (orOthers (negated != inner) (caseless flags accepts),
        (rest.dropWhile (· != '}')).tail)
    | _, _ => .error .unknownProperty
  | c :: rest =>
    match property? [c] with
    | some accepts => .ok (orOthers negated (caseless flags accepts), rest)
    | none => .error .unknownProperty
  | [] => .error .unknownProperty

/-- The class that a letter stands for: digits, white space and word characters. -/
def shorthand? (flags : Flags) : Char → Option Class
  | 'd' => some (if flags.unicode then Letter.isDigit else Char.isDigit)
  | 's' => some fun c => Letter.isBlank c && (flags.unicode || c.toNat < 128)
  | 'w' => some fun c => Letter.isWord c && (flags.unicode || c.toNat < 128)
  | _ => none

/-- The kind of word place named in braces after its letter, if one is. -/
def wordPlace? (t : Text) : Option ((Cursor → Bool) × Text) :=
  let starts (c : Cursor) := !c.afterWord && c.beforeWord
  let ends (c : Cursor) := c.afterWord && !c.beforeWord
  let named := [("{start}", starts), ("{end}", ends),
    ("{start-half}", fun c => !c.afterWord), ("{end-half}", fun c => !c.beforeWord)]
  named.findSome? fun (name, holds) =>
    if name.toList.isPrefixOf t then some (holds, t.drop name.length) else none

/-- What follows a backslash. -/
def readEscape (flags : Flags) : Text → Except Fault (Escape × Text)
  | [] => .error .escape
  | c :: rest =>
    if c.isDigit then .error .backreference
    else if c == 'x' then (readCode 2 rest).map fun (x, rest) => (.literal x, rest)
    else if c == 'u' then (readCode 4 rest).map fun (x, rest) => (.literal x, rest)
    else if c == 'U' then (readCode 8 rest).map fun (x, rest) => (.literal x, rest)
    else if c == 'p' || c == 'P' then
      (readProperty flags (c == 'P') rest).map fun (s, rest) => (.set s, rest)
    else
      match shorthand? flags c, shorthand? flags c.toLower with
      | some s, _ => .ok (.set s, rest)
      | none, some s => .ok (.set (orOthers true s), rest)
      | none, none =>
        match c with
        | 'a' => .ok (.literal '\x07', rest)
        | 'f' => .ok (.literal '\x0c', rest)
        | 't' => .ok (.literal '\t', rest)
        | 'n' => .ok (.literal '\n', rest)
        | 'r' => .ok (.literal '\r', rest)
        | 'v' => .ok (.literal '\x0b', rest)
        | 'A' => .ok (.place fun c => c.previous.isNone, rest)
        | 'z' => .ok (.place fun c => c.rest.isEmpty, rest)
        | 'B' => .ok (.place fun c => !c.splitsWord, rest)
        | '<' => .ok (.place fun c => !c.afterWord && c.beforeWord, rest)
        | '>' => .ok (.place fun c => c.afterWord && !c.beforeWord, rest)
        | 'b' =>
          match wordPlace? rest with
          | some (holds, rest') => .ok (.place holds, rest')
          | none => .ok (.place Cursor.splitsWord, rest)
        | _ =>
          if c.toNat < 128 && !c.isAlphanum then .ok (.literal c, rest) else .error .escape

/-! ### Classes in brackets -/

/-- The named classes of ASCII characters. -/
def asciiClass? : String → Option Class
  | "alnum" => some Char.isAlphanum
  | "alpha" => some Char.isAlpha
  | "ascii" => some (·.toNat < 128)
  | "blank" => some fun c => c == ' ' || c == '\t'
  | "cntrl" => some fun c => c.toNat < 32 || c.toNat == 127
  | "digit" => some Char.isDigit
  | "graph" => some fun c => 33 ≤ c.toNat && c.toNat ≤ 126
  | "lower" => some Char.isLower
  | "print" => some fun c => 32 ≤ c.toNat && c.toNat ≤ 126
  | "punct" => some fun c => 33 ≤ c.toNat && c.toNat ≤ 126 && !c.isAlphanum
  | "space" => some fun c => c == ' ' || (9 ≤ c.toNat && c.toNat ≤ 13)
  | "upper" => some Char.isUpper
  | "word" => some fun c => c.isAlphanum || c == '_'
  | "xdigit" => some fun c => (hexValue? c).isSome
  | _ => none

/-- A named class with its brackets and colons, if one stands here. -/
def asciiName? (flags : Flags) (t : Text) : Option (Class × Text) :=
  match t with
  | '[' :: ':' :: rest =>
    let (negated, rest) := match rest with
      | '^' :: rest => (true, rest)
      | _ => (false, rest)
    let name := rest.takeWhile (· != ':')
    match rest.dropWhile (· != ':'), asciiClass? (String.ofList name) with
    | ':' :: ']' :: rest', some accepts => some (orOthers negated (caseless flags accepts), rest')
    | _, _ => none
  | _ => none

/-- How two classes are combined. -/
inductive Combination where
  | both
  | without
  | oneOf

/-- The combined class. -/
def Combination.apply : Combination → Class → Class → Class
  | both, s, t => fun c => s c && t c
  | without, s, t => fun c => s c && !t c
  | oneOf, s, t => fun c => s c != t c

/-- The class so far: what was combined before the last sign, and what was listed since. -/
def settled (pending : Option (Combination × Class)) (listed : Class) : Class :=
  match pending with
  | some (how, before) => how.apply before listed
  | none => listed

/-- One character or escape inside brackets. -/
def readMember (flags : Flags) : Text → Except Fault (Escape × Text)
  | '\\' :: rest => readEscape flags rest
  | c :: rest => .ok (.literal c, rest)
  | [] => .error .classNotClosed

/-- One member of a class, or a range of characters. -/
def readRange (flags : Flags) (t : Text) : Except Fault (Class × Text) := do
  let (first, rest) ← readMember flags t
  let rest := skip flags rest.length rest
  let alone : Except Fault (Class × Text) :=
    match first with
    | .literal c => .ok (only flags c, rest)
    | .set s => .ok (s, rest)
    | .place _ => .error .escape
  match rest with
  | [] => .error .classNotClosed
  | '-' :: rest' =>
    let rest' := skip flags rest'.length rest'
    match rest' with
    | ']' :: _ => alone
    | '-' :: _ => alone
    | [] => .error .classNotClosed
    | _ => do
      let (last, rest'') ← readMember flags rest'
      match first, last with
      | .literal a, .literal b =>
        if a ≤ b then .ok (caseless flags fun c => a ≤ c && c ≤ b, rest'') else .error .classRange
      | _, _ => .error .classRange
  | _ => alone

/-- The members up to the bracket that closes the class; `readInner` reads a class inside it. -/
def readMembers (flags : Flags) (readInner : Text → Except Fault (Class × Text)) :
    Nat → Option (Combination × Class) → Class → Text → Except Fault (Class × Text)
  | 0, _, _, _ => .error .classNotClosed
  | fuel + 1, pending, listed, t =>
    match skip flags t.length t with
    | [] => .error .classNotClosed
    | ']' :: rest => .ok (settled pending listed, rest)
    | '&' :: '&' :: rest =>
      readMembers flags readInner fuel (some (.both, settled pending listed)) (fun _ => false) rest
    | '-' :: '-' :: rest =>
      readMembers flags readInner fuel (some (.without, settled pending listed)) (fun _ => false)
        rest
    | '~' :: '~' :: rest =>
      readMembers flags readInner fuel (some (.oneOf, settled pending listed)) (fun _ => false) rest
    | '[' :: rest => do
      let (inner, rest') ←
        match asciiName? flags ('[' :: rest) with
        | some (accepts, rest') => .ok (accepts, rest')
        | none => readInner rest
      readMembers flags readInner fuel pending (fun c => listed c || inner c) rest'
    | t => do
      let (member, rest) ← readRange flags t
      readMembers flags readInner fuel pending (fun c => listed c || member c) rest

/-- The class that follows an open bracket, with at most `depth` classes inside one another. -/
def readClass (flags : Flags) : Nat → Text → Except Fault (Class × Text)
  | 0, _ => .error .tooLarge
  | depth + 1, t => do
    let (negated, t) := match skip flags t.length t with
      | '^' :: rest => (true, skip flags rest.length rest)
      | t => (false, t)
    let dashes := t.takeWhile (· == '-')
    let t := t.drop dashes.length
    let (first, t) := match dashes, t with
      | [], ']' :: rest => ([']'], rest)
      | _, _ => (dashes, t)
    if t.isEmpty then throw .classNotClosed
    let (accepts, rest) ←
      readMembers flags (readClass flags depth) (t.length + 1) none (fun c => first.contains c) t
    return (orOthers negated accepts, rest)

/-! ### Groups and repetition -/

/-- The flags after one letter, set or cleared. -/
def Flags.set (flags : Flags) (on : Bool) : Char → Option Flags
  | 'i' => some { flags with ignoreCase := on }
  | 'm' => some { flags with multiLine := on }
  | 's' => some { flags with dotAll := on }
  | 'U' => some { flags with swapGreed := on }
  | 'u' => some { flags with unicode := on }
  | 'x' => some { flags with extended := on }
  | 'R' => some flags
  | _ => none

/-- The flags up to the colon or parenthesis that ends them, with the letters read so far. -/
def readFlags : Text → Flags → (on : Bool) → (letters : Text) → Except Fault (Flags × Text)
  | [], _, _, _ => .error .groupNotClosed
  | c :: rest, flags, on, letters =>
    if c == ':' || c == ')' then
      if letters.getLast? == some '-' then .error .flag else .ok (flags, c :: rest)
    else if letters.contains c then .error .flag
    else if c == '-' then readFlags rest flags false (letters ++ [c])
    else
      match flags.set on c with
      | some flags => readFlags rest flags on (letters ++ [c])
      | none => .error .flag

/-- The name of a group and what follows the bracket that ends it. -/
def readName (t : Text) : Except Fault (Text × Text) :=
  let name := t.takeWhile (· != '>')
  let isStart (c : Char) := c == '_' || (Letter.isWord c && !Letter.isDigit c)
  let isNext (c : Char) := Letter.isWord c || c == '.' || c == '[' || c == ']'
  match name, t.dropWhile (· != '>') with
  | c :: more, _ :: rest =>
    if isStart c && more.all isNext then .ok (name, rest) else .error .groupName
  | _, _ => .error .groupName

/-- A decimal count with white space around it. -/
def readCount (t : Text) : Except Fault (Option Nat × Text) :=
  let t := t.dropWhile Letter.isBlank
  let digits := t.takeWhile Char.isDigit
  let rest := (t.dropWhile Char.isDigit).dropWhile Letter.isBlank
  let n := digits.foldl (fun n c => 10 * n + (c.toNat - '0'.toNat)) 0
  if digits.isEmpty then .ok (none, rest)
  else if n < UInt32.size then .ok (some n, rest)
  else .error .count

/-- The bounds that follow an open brace. -/
def readBounds (t : Text) : Except Fault ((Nat × Option Nat) × Text) := do
  let (least, rest) ← readCount t
  match rest with
  | ',' :: rest =>
    match rest, least with
    | '}' :: rest, some least => .ok ((least, none), rest)
    | _, some least =>
      let (most, rest) ← readCount rest
      match most, rest with
      | some most, '}' :: rest =>
        if least ≤ most then .ok ((least, some most), rest) else .error .count
      | _, _ => .error .count
    | _, none => .error .count
  | '}' :: rest =>
    match least with
    | some n => .ok ((n, some n), rest)
    | none => .error .count
  | _ => .error .count

/-- The number of places and characters in a pattern. -/
def weight : Pattern → Nat
  | .nothing => 0
  | .one _ => 1
  | .place _ => 1
  | .next p q => weight p + weight q
  | .either p q => weight p + weight q
  | .many _ p => weight p + 1
  | .group _ p => weight p + 1

/-- A pattern repeated between two bounds. -/
def between (greedy : Bool) (least : Nat) (most : Option Nat) (p : Pattern) : Pattern :=
  match most with
  | none => .next (.times least p) (.many greedy p)
  | some most =>
    let step (tail : Pattern) : Pattern :=
      if greedy then .either (.next p tail) .nothing else .either .nothing (.next p tail)
    .next (.times least p) (Nat.repeat step (most - least) .nothing)

/-- What has been read of a group: finished alternatives and the items of the last one, both with
the latest first; a change of flags is an item without a pattern. -/
structure Progress where
  flags : Flags
  done : List Pattern := []
  items : List (Option Pattern) := []
  names : List Text := []

/-- The last alternative so far. -/
def Progress.last (s : Progress) : Pattern := .all (s.items.reverse.filterMap id)

/-- The whole group. -/
def Progress.whole (s : Progress) : Pattern := .anyOf (s.last :: s.done).reverse

/-- One more item. -/
def Progress.push (s : Progress) (p : Pattern) : Progress := { s with items := some p :: s.items }

/-- The last item repeated. -/
def Progress.repeatLast (s : Progress) (least : Nat) (most : Option Nat) (rest : Text) :
    Except Fault (Progress × Text) :=
  match s.items with
  | some p :: items =>
    let (isLazy, rest) := match rest with
      | '?' :: rest => (true, rest)
      | _ => (false, rest)
    let repeated := between (isLazy == s.flags.swapGreed) least most p
    if 250000 < weight p * (most.getD least + 1) then .error .tooLarge
    else .ok ({ s with items := some repeated :: items }, rest)
  | _ => .error .nothingToRepeat

/-- The items of a group up to the parenthesis that closes it or the end of the text. -/
def readGroup : Nat → Progress → Text → Except Fault (Progress × Text)
  | 0, s, t => .ok (s, t)
  | fuel + 1, s, t =>
    match skip s.flags t.length t with
    | [] => .ok (s, [])
    | ')' :: rest => .ok (s, ')' :: rest)
    | '|' :: rest => readGroup fuel { s with done := s.last :: s.done, items := [] } rest
    | '(' :: '?' :: '=' :: _ => .error .lookAround
    | '(' :: '?' :: '!' :: _ => .error .lookAround
    | '(' :: '?' :: '<' :: '=' :: _ => .error .lookAround
    | '(' :: '?' :: '<' :: '!' :: _ => .error .lookAround
    | '(' :: rest => do
      let (flags, names, rest) ←
        match rest with
        | '?' :: 'P' :: '<' :: rest => named s rest
        | '?' :: '<' :: rest => named s rest
        | '?' :: ')' :: _ => .error .nothingToRepeat
        | '?' :: rest => do
          let (f, rest) ← readFlags rest s.flags true []
          .ok (some f, s.names, rest)
        | _ => .ok (some s.flags, s.names, ':' :: rest)
      match flags, rest with
      | some flags, ')' :: rest =>
        readGroup fuel { s with flags := flags, items := none :: s.items } rest
      | some flags, _ :: rest =>
        let (inner, rest') ← readGroup fuel { flags := flags, names := names } rest
        match rest' with
        | ')' :: rest' =>
          readGroup fuel { s.push inner.whole with names := inner.names } rest'
        | _ => .error .groupNotClosed
      | _, _ => .error .groupNotClosed
    | '*' :: rest => do
      let (s, rest) ← s.repeatLast 0 none rest
      readGroup fuel s rest
    | '+' :: rest => do
      let (s, rest) ← s.repeatLast 1 none rest
      readGroup fuel s rest
    | '?' :: rest => do
      let (s, rest) ← s.repeatLast 0 (some 1) rest
      readGroup fuel s rest
    | '{' :: rest => do
      if !(s.items.head?.join).isSome then throw .nothingToRepeat
      let ((least, most), rest) ← readBounds rest
      let (s, rest) ← s.repeatLast least most rest
      readGroup fuel s rest
    | '[' :: rest => do
      let (accepts, rest) ← readClass s.flags (rest.length + 1) rest
      readGroup fuel (s.push (.one accepts)) rest
    | '.' :: rest =>
      let all := s.flags.dotAll
      readGroup fuel (s.push (.one fun c => all || c != '\n')) rest
    | '^' :: rest =>
      let lines := s.flags.multiLine
      readGroup fuel (s.push (.place fun c => c.previous.isNone || (lines && c.startsLine))) rest
    | '$' :: rest =>
      let lines := s.flags.multiLine
      readGroup fuel (s.push (.place fun c => c.rest.isEmpty || (lines && c.endsLine))) rest
    | '\\' :: rest => do
      let (what, rest) ← readEscape s.flags rest
      let item : Pattern := match what with
        | .literal c => .one (only s.flags c)
        | .set accepts => .one accepts
        | .place holds => .place holds
      readGroup fuel (s.push item) rest
    | c :: rest => readGroup fuel (s.push (.one (only s.flags c))) rest
where
  /-- The flags and names of a group with a name, and its items behind a colon. -/
  named (s : Progress) (t : Text) : Except Fault (Option Flags × List Text × Text) := do
    let (name, rest) ← readName t
    if s.names.contains name then throw .groupName
    return (some s.flags, name :: s.names, ':' :: rest)

end Reader

/-- The pattern that a text writes. -/
def read (t : Text) : Except Fault Pattern := do
  let (s, rest) ← Reader.readGroup (t.length + 1) { flags := {} } t
  if rest.isEmpty then return s.whole else throw .groupNotOpened

end Registrar.Pattern
