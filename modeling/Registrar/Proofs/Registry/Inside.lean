import Registrar.Proofs.Registry.Exported
import Registrar.Proofs.Registry.Lined
import Registrar.Proofs.Text.Splicing

/-!
New members and the class. The anchors do not look for the brace that closes the class: fields follow a
field, accessors the first remark or the last brace that starts a line. They lie inside the class where the
text is laid out as one expects, and a second class draws the accessors to itself.
-/

namespace Registrar

open Pattern Recognition

namespace Text

/-- Every brace that a text closes was opened before, and all are closed. -/
def Nested (t : Text) : Prop :=
  (∀ n < t.length, (t.take n).count '\x7d' ≤ (t.take n).count '\x7b') ∧ t.count '\x7d' = t.count '\x7b'

instance (t : Text) : Decidable t.Nested := inferInstanceAs (Decidable (_ ∧ _))

/-- A text with a class: what goes before the first brace behind the name of the first class, what stands
between that brace and the one that closes it, and what follows. -/
structure ClassBlock (t lead body rest : Text) : Prop where
  text : t = lead ++ '\x7b' :: (body ++ '\x7d' :: rest)
  declared : ∃ head between, lead = head ++ between ∧ '\x7b' ∉ between ∧
    (classDeclaration.find? t).map (·.stop.offset) = some head.size
  matched : body.Nested

/-- A character is found where it first stands. -/
theorem cut?_singleton {t : Text} {c : Char} (free : c ∉ t) (back : Text) :
    cut? [c] (t ++ c :: back) = some (t, back) := by
  induction t with
  | nil => exact cut?_append (by simp) back
  | cons x t ih =>
    have other : ¬[c] <+: x :: (t ++ c :: back) := by
      rw [List.cons_prefix_cons]
      rintro ⟨rfl, -⟩
      simp at free
    rw [List.cons_append, cut?_cons_of_not_begins other, ih fun member => free (by simp [member])]
    rfl

/-- The line of a place begins behind every line feed before it. -/
theorem lt_lineStart {t x y : Text} {n : Nat} (split : t.before n = x ++ '\n' :: y) :
    x.size < t.lineStart n := by
  have reversed : (t.before n).reverse = y.reverse ++ '\n' :: x.reverse := by simp [split]
  have kept : ∃ z, (t.before n).reverse.dropWhile (· != '\n') = z ++ '\n' :: x.reverse := by
    rw [reversed, List.dropWhile_append]
    split
    · exact ⟨[], by simp⟩
    · exact ⟨_, rfl⟩
  obtain ⟨z, kept⟩ := kept
  have := size_pos (t := '\n' :: z.reverse) (by simp)
  rw [lineStart, kept]
  simp only [List.reverse_append, List.reverse_cons, List.reverse_reverse, size_append, size_cons,
    size_nil] at this ⊢
  omega

theorem IsPlace.lineStart_le {t : Text} {n : Nat} (place : t.IsPlace n) : t.lineStart n ≤ n := by
  have kept : ((t.before n).reverse.dropWhile (· != '\n')).reverse <+: t.before n := by
    rw [← List.reverse_suffix, List.reverse_reverse]
    exact List.dropWhile_suffix _
  obtain ⟨rest, split⟩ := kept
  have size := congrArg Text.size split
  rw [place.size_before, size_append] at size
  rw [lineStart]
  omega

end Text

namespace Pattern

variable {p : Pattern} {front back : Text}

/-- Where the pattern is refused at every place, nothing is found on the way. -/
theorem scan_of_refused (refused : ∀ a b, back = a ++ b → b ≠ [] → p.matchAt? (.between (front ++ a) b) = none) :
    Scan p (.between front back) [] (.between (front ++ back) []) := by
  induction back generalizing front with
  | nil => simpa using .stay _
  | cons x back ih =>
    have here := refused [] (x :: back) rfl (by simp)
    rw [List.append_nil] at here
    have later : Scan p (.between (front ++ [x]) back) [] (.between (front ++ [x] ++ back) []) :=
      ih fun a b split some_ => by simpa using refused (x :: a) b (by simp [split]) some_
    exact .skip here (by simpa using later)

end Pattern

namespace Anchors

variable {t lead body rest : Text} {context : String}

/-- The field that new fields follow. -/
def fieldBefore? (z : Zones) (context : String) : Option Field :=
  ((z.fields.reverse.find? fun f => !f.isStatic && f.name != context).or
    (z.fields.find? (·.name == context))).or (z.fields.find? (·.isStatic))

theorem offset_fieldsOf (t : Text) (z : Zones) (context : String) : (fieldsOf t z context).offset =
    match fieldBefore? z context with
    | some f => f.span.stop
    | none => (bodyStart? t).getD t.size := by
  rw [fieldsOf, fieldBefore?]
  cases z.fields.reverse.find? fun f => !f.isStatic && f.name != context with
  | some f => rfl
  | none =>
    cases z.fields.find? (·.name == context) with
    | some f => rfl
    | none => cases z.fields.find? (·.isStatic) <;> rfl

/-- Without a field to follow, fields go where the line of the opening brace ends. -/
theorem bodyStart?_of_classBlock (block : t.ClassBlock lead body rest) :
    bodyStart? t = some (t.lineEnd (lead ++ ['\x7b']).size) := by
  obtain ⟨text, ⟨head, between, rfl, free, declared⟩, -⟩ := block
  obtain ⟨m, found, stop⟩ := Option.map_eq_some_iff.mp declared
  obtain ⟨front, back, split, here⟩ := exists_of_find? found
  obtain ⟨-, taken, behind, rfl, stop_eq⟩ := matchAt?_some here
  have whole : front ++ taken ++ behind = head ++ (between ++ '\x7b' :: (body ++ '\x7d' :: rest)) := by
    rw [← List.append_assoc] at split
    rw [← split, text]
    simp
  have same : front ++ taken = head := by
    have cut := Text.before_size_append head (between ++ '\x7b' :: (body ++ '\x7d' :: rest))
    rw [← whole, ← stop, stop_eq, Cursor.between_offset, Text.before_size_append] at cut
    exact cut
  have behind_eq : behind = between ++ '\x7b' :: (body ++ '\x7d' :: rest) := by
    rw [same] at whole
    exact List.append_cancel_left whole
  have cut := Text.cut?_singleton free (body ++ '\x7d' :: rest)
  have brace : Text.find? m.stop.rest ['\x7b'] = some between.size := by
    rw [stop_eq, Cursor.between_rest, behind_eq, Text.find?, cut, Option.map_some]
  have wide : Char.utf8Size '\x7b' = 1 := rfl
  rw [bodyStart?, found, Option.bind_some, brace, Option.map_some, stop]
  simp [Nat.add_assoc, wide]

theorem lt_size_block (lead body : Text) : lead.size < (lead ++ '\x7b' :: body).size := by
  rw [Text.size_append]
  exact Nat.lt_add_of_pos_right (Text.size_pos (by simp))

/-- A line feed behind the opening brace ends its line before the class ends. -/
theorem lineEnd_inside (block : t.ClassBlock lead body rest) (opened : '\n' ∈ body) :
    lead.size < t.lineEnd (lead ++ ['\x7b']).size ∧
      t.lineEnd (lead ++ ['\x7b']).size ≤ (lead ++ '\x7b' :: body).size := by
  obtain ⟨line, more, rfl, whole⟩ := List.eq_append_cons_of_mem opened
  have ended := Text.lineEnd_between (lead ++ ['\x7b']) (more ++ '\x7d' :: rest) whole
  have text : t = lead ++ ['\x7b'] ++ (line ++ '\n' :: (more ++ '\x7d' :: rest)) := by
    rw [block.text]
    simp
  rw [← text] at ended
  have wide : Char.utf8Size '\x7b' = 1 := rfl
  rw [ended]
  simp only [Text.size_append, Text.size_cons, Text.size_nil, wide]
  omega

/-- The last brace that starts a line is the one that closes the class. -/
theorem accessorsOf_of_classBlock (block : t.ClassBlock lead body rest)
    (unmarked : t.find? Source.accessorMark.toList = none) (closed : (lead ++ '\x7b' :: body).AtLine)
    (last : ¬['\n', '\x7d'] <:+: rest) :
    (accessorsOf t).offset = (lead ++ '\x7b' :: body).size := by
  have text : t = lead ++ '\x7b' :: body ++ '\x7d' :: rest := by
    rw [block.text]
    simp
  generalize lead ++ '\x7b' :: body = x at closed text
  have moves_ : closingBrace.moves = true := rfl
  have local_ : closingBrace.Avoids fun _ => false := by simp [closingBrace]
  have avoids : closingBrace.Avoids (· == '\n') := by simp [closingBrace]
  obtain ⟨ms, ms', joined, -, moved⟩ := ((settles_lines moves_ avoids closed).steady moves_).findAll_append
    moves_ local_ closed.edge_eq ('\x7d' :: rest)
  have takes : closingBrace.Takes [] ['\x7d'] rest [] [] :=
    (takes_lineStart rfl).next takes_char
  have first := scan_hit (by simp) takes
  have others : Scan closingBrace (.between ['\x7d'] rest) [] (.between (['\x7d'] ++ rest) []) := by
    refine scan_of_refused fun a b split some_ => Refuses.matchAt? ?_
    by_cases begins : (Cursor.between (['\x7d'] ++ a) b).startsLine = true
    · refine (refuses_one ?_).place_next
      intro x head
      simp only [beq_eq_false_iff_ne, ne_eq]
      rintro rfl
      obtain ⟨b, rfl⟩ : ∃ more, b = '\x7d' :: more := by
        cases b with
        | nil => simp at some_
        | cons y b => exact ⟨b, by simpa using head⟩
      rcases Cursor.startsLine_between_iff.mp begins with none_ | ⟨front, ended⟩
      · simp at none_
      · rcases List.eq_nil_or_concat a with rfl | ⟨above, c, rfl⟩
        · simpa using congrArg List.getLast? ended
        · rw [List.concat_eq_append, ← List.append_assoc] at ended
          obtain rfl : c = '\n' := by simpa using (List.append_inj' ended rfl).2
          exact last ⟨above, b, by simp [split]⟩
    · exact (refuses_place (by simpa using begins)).next_left
  have found := (first.trans others).findAll_eq (matchAt?_eq_none_of_moves moves_)
  rw [List.singleton_append] at found
  rw [found] at moved
  obtain ⟨m, rfl, here⟩ : ∃ m, ms' = [m] ∧ Match.Moved x.size [] _ m := by
    cases moved with
    | cons here later =>
      cases later
      exact ⟨_, rfl, here⟩
  have start : m.start.offset = x.size := by simpa using here.start
  rw [← text] at joined
  rw [accessorsOf, unmarked]
  simp [joined, start]

/-- A class is laid out as expected: its body begins and ends with its own lines, the members that new ones
go next to are its own, and without the remark no brace starts a line behind it. -/
structure LaidOut (t lead body rest : Text) (context : String) : Prop where
  field : ∀ f, fieldBefore? (Zones.ofText t) context = some f →
    lead.size < f.span.start ∧ f.span.stop ≤ (lead ++ '\x7b' :: body).size
  opened : fieldBefore? (Zones.ofText t) context = none → '\n' ∈ body
  mark : ∀ n, t.find? Source.accessorMark.toList = some n → ∃ above front back,
    body = above ++ '\n' :: (front ++ back) ∧ n = (lead ++ '\x7b' :: (above ++ '\n' :: front)).size
  closed : t.find? Source.accessorMark.toList = none → (lead ++ '\x7b' :: body).AtLine
  last : t.find? Source.accessorMark.toList = none → ¬['\n', '\x7d'] <:+: rest

theorem mem_fields_of_fieldBefore? {z : Zones} {f : Field} (before_ : fieldBefore? z context = some f) :
    f ∈ z.fields := by
  rw [fieldBefore?, Option.or_eq_some_iff, Option.or_eq_some_iff] at before_
  rcases before_ with (found | ⟨-, found⟩) | ⟨-, found⟩
  · exact List.mem_reverse.mp (List.mem_of_find?_eq_some found)
  · exact List.mem_of_find?_eq_some found
  · exact List.mem_of_find?_eq_some found

theorem span_le_of_mem_fields {f : Field} (member : f ∈ (Zones.ofText t).fields) :
    f.span.start ≤ f.span.stop := by
  obtain ⟨m, found, rfl⟩ := List.mem_map.mp member
  obtain ⟨front, back, rfl, here⟩ := exists_of_mem_findAll found
  obtain ⟨start, taken, rest, rfl, stop⟩ := matchAt?_some here
  simp only [Zones.field, Match.span, Cursor.spanTo, start, stop, Cursor.between_offset, Text.size_append]
  omega

/-- New members go inside a class that is laid out as expected. -/
theorem inside (block : t.ClassBlock lead body rest) (laid : LaidOut t lead body rest context) :
    let a := ofText t context
    let closing := (lead ++ '\x7b' :: body).size
    (lead.size < a.fields.offset ∧ a.fields.offset ≤ closing) ∧
      lead.size < a.accessors.offset ∧ a.accessors.offset ≤ closing := by
  intro a closing
  constructor
  · have offset : a.fields.offset = _ := offset_fieldsOf t (Zones.ofText t) context
    cases before_ : fieldBefore? (Zones.ofText t) context with
    | some f =>
      have inner := laid.field f before_
      have order := span_le_of_mem_fields (mem_fields_of_fieldBefore? before_)
      rw [before_] at offset
      dsimp only at offset
      rw [offset]
      exact ⟨by omega, inner.2⟩
    | none =>
      rw [before_, bodyStart?_of_classBlock block] at offset
      rw [offset]
      exact lineEnd_inside block (laid.opened before_)
  · have accessors : a.accessors = accessorsOf t := rfl
    rw [accessors]
    cases marked : t.find? Source.accessorMark.toList with
    | some n =>
      obtain ⟨above, front, back, rfl, rfl⟩ := laid.mark n marked
      have text : t = lead ++ '\x7b' :: (above ++ '\n' :: front) ++ (back ++ '\x7d' :: rest) := by
        rw [block.text]
        simp
      have before_ : t.before (lead ++ '\x7b' :: (above ++ '\n' :: front)).size =
          (lead ++ '\x7b' :: above) ++ '\n' :: front := by
        rw [text, Text.before_size_append]
        simp
      have place : t.IsPlace (lead ++ '\x7b' :: (above ++ '\n' :: front)).size := ⟨_, _, text, rfl⟩
      have lower := Text.lt_lineStart before_
      have upper := place.lineStart_le
      have offset : (accessorsOf t).offset =
          t.lineStart (lead ++ '\x7b' :: (above ++ '\n' :: front)).size := by
        rw [accessorsOf, marked]
      rw [offset]
      constructor
      · exact Nat.lt_trans (lt_size_block lead above) lower
      · refine Nat.le_trans upper ?_
        simp only [closing, Text.size_append, Text.size_cons]
        omega
    | none =>
      rw [accessorsOf_of_classBlock block marked (laid.closed marked) (laid.last marked)]
      exact ⟨lt_size_block lead body, Nat.le_refl _⟩

/-- A class with the remark and another class behind it. -/
theorem inside_marked :
    let lead : Text := "export class A ".toList
    let body : Text := "\n    // page-registry: accessors\n".toList
    let rest : Text := "\n\nclass B \x7b\n\x7d\n".toList
    let t : Text := lead ++ '\x7b' :: (body ++ '\x7d' :: rest)
    t.ClassBlock lead body rest ∧ LaidOut t lead body rest "page" ∧
      (ofText t "page").fields.offset = 17 ∧ (ofText t "page").accessors.offset = 17 ∧
      lead.size < 17 ∧ 17 ≤ (lead ++ '\x7b' :: body).size := by
  intro lead body rest t
  have block : t.ClassBlock lead body rest :=
    ⟨rfl, ⟨"export class A".toList, [' '], by decide, by decide, by decide +kernel⟩, by decide +kernel⟩
  have follows : fieldBefore? (Zones.ofText t) "page" = none := by decide +kernel
  have marked : t.find? Source.accessorMark.toList = some 21 := by decide +kernel
  have laid : LaidOut t lead body rest "page" := by
    refine ⟨fun f found => ?_, fun _ => by decide, fun n found => ?_, fun none_ => ?_, fun none_ => ?_⟩
    · rw [follows] at found
      contradiction
    · obtain rfl : 21 = n := Option.some.inj (marked.symm.trans found)
      exact ⟨[], "    ".toList, "// page-registry: accessors\n".toList, by decide, by decide⟩
    · rw [marked] at none_
      contradiction
    · rw [marked] at none_
      contradiction
  obtain ⟨⟨lower, upper⟩, -⟩ := inside block laid
  have offset : (ofText t "page").fields.offset = 17 := by decide +kernel
  rw [offset] at lower upper
  exact ⟨block, laid, offset, by decide +kernel, lower, upper⟩

/-- A class behind the first one has the last brace that starts a line. -/
theorem not_inside_second : ¬∀ (t lead body rest : Text) (context : String), t.ClassBlock lead body rest →
    let a := ofText t context
    let closing := (lead ++ '\x7b' :: body).size
    (lead.size < a.fields.offset ∧ a.fields.offset ≤ closing) ∧
      lead.size < a.accessors.offset ∧ a.accessors.offset ≤ closing := by
  intro claim
  have block : Text.ClassBlock "class A \x7b\n\x7d\nclass B \x7b\n\x7d\n".toList "class A ".toList ['\n']
      "\nclass B \x7b\n\x7d\n".toList :=
    ⟨by decide, ⟨"class A".toList, [' '], by decide, by decide, by decide +kernel⟩, by decide +kernel⟩
  exact absurd (claim _ _ _ _ "page" block).2.2 (by decide +kernel)

end Anchors
end Registrar
