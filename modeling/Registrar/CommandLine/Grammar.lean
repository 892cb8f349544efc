/-!
The words of a command line. A command has flags, some of which take a value, and operands, or
commands of its own; a word behind two dashes is always an operand.
-/

namespace Registrar.CommandLine

/-- What a value has to look like. -/
inductive ValueKind where
  | word
  /-- Anything but nothing. -/
  | path
  /-- A whole number in 64 bits. -/
  | count
  /-- One of the words. -/
  | among (words : List String)
  deriving DecidableEq, Repr

/-- A flag: its long name, perhaps a letter, and the kind of its value if it takes one. -/
structure Flag where
  name : String
  letter? : Option Char := none
  value? : Option ValueKind := none
  deriving DecidableEq, Repr

/-- A value that stands for itself. -/
structure Operand where
  kind : ValueKind
  required : Bool := false
  deriving DecidableEq, Repr

/-- What may stand behind the name of a command. -/
structure Grammar where
  flags : List Flag := []
  operands : List Operand := []
  /-- The last operand may be repeated. -/
  repeats : Bool := false
  /-- The names of the commands of the command. -/
  commands : List String := []
  deriving DecidableEq, Repr

/-- Why the words were not read to the end. -/
inductive Stop where
  /-- They make no sense. -/
  | usage
  /-- The user asked for help. -/
  | help
  deriving DecidableEq, Repr

/-- The value of decimal digits, a plus sign before them or not. -/
def countOf? (s : String) : Option Nat :=
  let digits := match s.toList with
    | '+' :: rest => rest
    | t => t
  let n := digits.foldl (fun n c => 10 * n + (c.toNat - '0'.toNat)) 0
  if !digits.isEmpty && digits.all Char.isDigit && n < UInt64.size then some n else none

/-- A value is of the kind. -/
def ValueKind.accepts (s : String) : ValueKind → Bool
  | .word => true
  | .path => !s.isEmpty
  | .count => (countOf? s).isSome
  | .among words => words.contains s

/-- What has been read of a command. -/
structure Reading where
  /-- The flags that were given, with their values; a flag without a value has an empty one. -/
  flags : List (String × String) := []
  operands : List String := []
  /-- The command of the command, with the words behind its name. -/
  command? : Option (String × List String) := none
  deriving DecidableEq, Repr

namespace Reading

/-- The value of a flag. -/
def value? (r : Reading) (name : String) : Option String := r.flags.lookup name

/-- A flag was given. -/
def has (r : Reading) (name : String) : Bool := (r.value? name).isSome

/-- One more flag, which must not have been given before. -/
def give (r : Reading) (flag : Flag) (value : String) : Except Stop Reading :=
  if r.has flag.name || !(flag.value?.all (·.accepts value)) then .error .usage
  else .ok { r with flags := r.flags ++ [(flag.name, value)] }

/-- One more operand, if there is a place for it. -/
def push (g : Grammar) (r : Reading) (value : String) : Except Stop Reading :=
  let place := r.operands.length
  match g.operands[if g.repeats then min place (g.operands.length - 1) else place]? with
  | none => .error .usage
  | some operand =>
    if operand.kind.accepts value then .ok { r with operands := r.operands ++ [value] }
    else .error .usage

end Reading

/-- A word that begins with a dash and goes on is no value of a flag. -/
def looksLikeFlag (s : String) : Bool :=
  match s.toList with
  | '-' :: _ :: _ => true
  | _ => false

/-- What a word with dashes stands for. -/
structure Flagged where
  /-- The flags that are complete, with their values. -/
  complete : List (Flag × String) := []
  /-- The flag whose value is the next word. -/
  pending? : Option Flag := none

namespace Grammar

/-- The flag with a name. -/
def flag? (g : Grammar) (name : String) : Option Flag := g.flags.find? (·.name == name)

/-- The flags of a word with two dashes, which are left out. -/
def long (g : Grammar) (word : List Char) : Except Stop Flagged :=
  let name := String.ofList (word.takeWhile (· != '='))
  match g.flag? name, word.dropWhile (· != '=') with
  | some flag, [] =>
    if flag.value?.isSome then .ok { pending? := some flag } else .ok { complete := [(flag, "")] }
  | some flag, _ :: value =>
    if flag.value?.isSome then .ok { complete := [(flag, String.ofList value)] } else .error .usage
  | none, value => if name == "help" && value.isEmpty then .error .help else .error .usage

/-- The flags of a word with one dash, which is left out: letters, the last of which may take the
rest of the word as its value. -/
def letters (g : Grammar) : List Char → Except Stop Flagged
  | [] => .ok {}
  | c :: rest =>
    match g.flags.find? (·.letter? == some c) with
    | none => if c == 'h' then .error .help else .error .usage
    | some flag =>
      if flag.value?.isSome then
        match rest with
        | [] => .ok { pending? := some flag }
        | '=' :: value => .ok { complete := [(flag, String.ofList value)] }
        | value => .ok { complete := [(flag, String.ofList value)] }
      else
        match letters g rest with
        | .ok more => .ok { more with complete := (flag, "") :: more.complete }
        | .error stop => .error stop

/-- The words behind the name of a command, `bare` when they are all operands. -/
def readWords (g : Grammar) (bare : Bool) (r : Reading) : List String → Except Stop Reading
  | [] => .ok r
  | word :: rest =>
    if bare then
      match r.push g word with
      | .ok r => readWords g bare r rest
      | .error stop => .error stop
    else if g.commands.contains word then .ok { r with command? := some (word, rest) }
    else if word == "--" then readWords g true r rest
    else if !looksLikeFlag word then
      if word == "help" && !g.commands.isEmpty then .error .help
      else
        match r.push g word with
        | .ok r => readWords g bare r rest
        | .error stop => .error stop
    else
      let flagged := match word.toList with
        | '-' :: '-' :: name => g.long name
        | _ :: letters => g.letters letters
        | [] => .error .usage
      match flagged with
      | .error stop => .error stop
      | .ok flagged =>
        match flagged.complete.foldlM (fun r (flag, value) => r.give flag value) r with
        | .error stop => .error stop
        | .ok r =>
          match flagged.pending?, rest with
          | none, rest => readWords g bare r rest
          | some _, [] => .error .usage
          | some flag, value :: rest =>
            if looksLikeFlag value then .error .usage
            else
              match r.give flag value with
              | .ok r => readWords g bare r rest
              | .error stop => .error stop

/-- The words behind the name of a command; no operand that is required may be missing. -/
def read (g : Grammar) (words : List String) : Except Stop Reading := do
  let r ← g.readWords false {} words
  if (g.operands.drop r.operands.length).any (·.required) then throw .usage
  return r

end Grammar
end Registrar.CommandLine
