import Registrar.Session.Basic

/-!
Questions put to the user. An answer to another kind of question, a place that is none of an item
and a missing answer end the inquiry.
-/

namespace Registrar.Inquiry

/-- The number of questions that can still be answered. -/
def patience : Inquiry Nat := return (← get).respondent.patience

/-- The next answer to a question that has been put, taken apart by `accept`. -/
def take {α : Type} (q : Question) (accept : Answer → Except AnswerFault α) : Inquiry α := do
  match (← Talk.answer q) >>= accept with
  | .ok a => return a
  | .error why => throw (.answer why)

/-- The answer to a question. -/
def ask {α : Type} (q : Question) (accept : Answer → Except AnswerFault α) : Inquiry α := do
  Talk.record (.asked q)
  take q accept

/-- A folder, read from the root. -/
def folder (words : String) : Inquiry (Option Path) := do
  let w ← read
  let q := Question.folder words w.root
  let answer? ← ask q fun
    | .folder path? => .ok path?
    | a => .error (.mismatch q a)
  return answer?.map w.resolve

/-- A file, read from the root. -/
def file (words : String) : Inquiry (Option Path) := do
  let w ← read
  let q := Question.file words
  let answer? ← ask q fun
    | .file path? => .ok path?
    | a => .error (.mismatch q a)
  return answer?.map w.resolve

/-- Some of the items, as they are named; none of them is as good as no answer. -/
def several {α : Type} (words : String) (name : α → String) (items : List α) :
    Inquiry (Option (List α)) :=
  let q := Question.several words (items.map name)
  ask q fun
    | .several none => .ok none
    | .several (some places) =>
      match places.find? (items.length ≤ ·) with
      | some place => .error (.outOfRange q place)
      | none => .ok (if places.isEmpty then none else some (places.filterMap (items[·]?)))
    | a => .error (.mismatch q a)

/-- One of the items, as they are named. -/
def one {α : Type} (words : String) (name : α → String) (items : List α) : Inquiry (Option α) :=
  let q := Question.one words (items.map name)
  ask q fun
    | .one none => .ok none
    | .one (some place) =>
      match items[place]? with
      | some item => .ok (some item)
      | none => .error (.outOfRange q place)
    | a => .error (.mismatch q a)

/-- A yes or a no. -/
def confirmation (words : String) (offered : Bool) : Inquiry Bool :=
  let q := Question.confirmation words offered
  ask q fun
    | .confirmation yes => .ok yes
    | a => .error (.mismatch q a)

/-- A text that `check` accepts, asked for at most `tries` times. -/
def textWithin (q : Question) (check : String → Except NameFault Unit) :
    Nat → Inquiry (Option String)
  | 0 => throw (.answer (.unanswered q))
  | tries + 1 => do
    let answer? ← take q fun
      | .text text? => .ok text?
      | a => .error (.mismatch q a)
    match answer? with
    | none => return none
    | some answer =>
      let trimmed := String.ofList (Text.trim answer.toList)
      match check trimmed with
      | .ok () => return if trimmed.isEmpty then none else some trimmed
      | .error why => do
        Talk.say .error why.message
        textWithin q check tries

/-- A text that `check` accepts; whoever gives another one is told why and asked again. -/
def text (words : String) (check : String → Except NameFault Unit) : Inquiry (Option String) := do
  let q := Question.text words
  Talk.record (.asked q)
  textWithin q check ((← patience) + 1)

end Registrar.Inquiry
