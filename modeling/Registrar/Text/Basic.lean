import Registrar.Letter.Blank

/-!
A text is the list of its characters. Places in it are counted in bytes of its UTF-8 form, so
`before n` and `after n` cut at a byte; every text is what stands before a place followed by what
stands after it.
-/

namespace Registrar

/-- The characters of a text. -/
abbrev Text := List Char

/-- A range of bytes, from `start` up to but not including `stop`. -/
structure Span where
  start : Nat
  stop : Nat
  deriving DecidableEq, Repr

namespace Text

/-- The number of bytes. -/
def size : Text → Nat
  | [] => 0
  | c :: rest => c.utf8Size + size rest

/-- The characters that begin before byte `n`. -/
def before : Nat → Text → Text
  | 0, _ => []
  | _, [] => []
  | n + 1, c :: rest => c :: before (n + 1 - c.utf8Size) rest

/-- The characters that begin at byte `n` or later. -/
def after : Nat → Text → Text
  | 0, t => t
  | _, [] => []
  | n + 1, c :: rest => after (n + 1 - c.utf8Size) rest

/-- The characters of a span. -/
def slice (s : Span) (t : Text) : Text := (t.after s.start).before (s.stop - s.start)

@[simp] theorem size_nil : size [] = 0 := rfl

@[simp] theorem size_cons (c : Char) (t : Text) : size (c :: t) = c.utf8Size + size t := rfl

@[simp] theorem size_append (s t : Text) : size (s ++ t) = size s + size t := by
  induction s with
  | nil => simp
  | cons c s ih => simp [ih, Nat.add_assoc]

@[simp] theorem before_zero (t : Text) : before 0 t = [] := by
  cases t <;> rfl

@[simp] theorem after_zero (t : Text) : after 0 t = t := by
  cases t <;> rfl

/-- A cut loses nothing. -/
theorem before_append_after (n : Nat) (t : Text) : before n t ++ after n t = t := by
  induction t generalizing n with
  | nil => cases n <;> rfl
  | cons c rest ih =>
    cases n with
    | zero => rfl
    | succ n => simp [before, after, ih]

/-- A cut at the end of a part gives that part. -/
theorem before_size_append (s t : Text) : before (size s) (s ++ t) = s := by
  induction s with
  | nil => simp
  | cons c rest ih =>
    have h : size (c :: rest) = (size rest + c.utf8Size - 1) + 1 := by
      have := c.utf8Size_pos
      simp; omega
    have hrest : size rest + c.utf8Size - 1 + 1 - c.utf8Size = size rest := by
      have := c.utf8Size_pos
      omega
    rw [h, List.cons_append, before, hrest, ih]

/-- A cut at the end of a part leaves what follows it. -/
theorem after_size_append (s t : Text) : after (size s) (s ++ t) = t := by
  have h := before_append_after (size s) (s ++ t)
  rw [before_size_append] at h
  exact List.append_cancel_left h

end Text
end Registrar
