import Mathlib.Data.List.Infix
import Registrar.Proofs.Registry.Reanchored

/-!
Where accessors go in a registry with new entries. The remark that marks their place is the one it was, and so
is the last brace that starts a line; what has been put in stands before it.
-/

namespace Registrar

open Recognition Pattern

namespace Text

variable {piece t x front back : Text}

/-- What is found in a text is found when it goes on. -/
theorem cut?_append_of_cut? (some_ : piece ≠ []) (cut : cut? piece t = some (front, back)) (y : Text) :
    cut? piece (t ++ y) = some (front, back ++ y) := by
  induction t generalizing front with
  | nil =>
    rw [cut?, if_neg (by simpa using some_)] at cut
    cases cut
  | cons c t ih =>
    by_cases here : piece <+: c :: t
    · obtain ⟨rest, split⟩ := here
      rw [← split, cut?_append some_] at cut
      obtain ⟨rfl, rfl⟩ := Prod.mk.inj (Option.some.inj cut)
      rw [← split, List.append_assoc, cut?_append some_]
    · rw [cut?_cons_of_not_begins here] at cut
      obtain ⟨⟨front', back'⟩, found, same⟩ := Option.map_eq_some_iff.mp cut
      obtain ⟨rfl, rfl⟩ := Prod.mk.inj same
      -- The piece is not so long that it could go on over the end.
      have text := congrArg List.length (eq_append_of_cut? found)
      have other : ¬piece <+: c :: (t ++ y) := fun begins => here
        (List.prefix_of_prefix_length_le begins (List.prefix_append (c :: t) y) (by simp at text ⊢; omega))
      rw [List.cons_append, cut?_cons_of_not_begins other, ih found]
      rfl

/-- What is found on the first line is found whatever the other lines are. -/
theorem exists_cut?_of_first {a line y z z' : Text} (some_ : piece ≠ []) (single : '\n' ∉ piece)
    (single' : '\n' ∉ line) (cut : cut? piece (a ++ z) = some (line, y)) (first : z = [] ∨ a ≠ [] ∧ a.AtLine) :
    ∃ y', cut? piece (a ++ z') = some (line, y') := by
  rcases first with rfl | ⟨moved, whole⟩
  · rw [List.append_nil] at cut
    exact ⟨_, cut?_append_of_cut? some_ cut z'⟩
  · by_cases inside : piece <:+: a
    · obtain ⟨⟨front, back⟩, here⟩ := Option.isSome_iff_exists.mp (holds_of_inside inside)
      have again := cut?_append_of_cut? some_ here z
      rw [cut] at again
      obtain rfl : line = front := (Prod.mk.inj (Option.some.inj again)).1
      exact ⟨_, cut?_append_of_cut? some_ here z'⟩
    · rw [cut?_append_of_atLine some_ single whole inside] at cut
      obtain ⟨⟨front, back⟩, -, same⟩ := Option.map_eq_some_iff.mp cut
      obtain ⟨rfl, rfl⟩ := Prod.mk.inj same
      obtain ⟨u, rfl⟩ := whole.resolve_left moved
      exact absurd (by simp) single'

end Text

/-- The brace at the start of a line. -/
theorem Recognition.exists_of_closingBrace {front back : Text} {m : Match}
    (found : closingBrace.matchAt? (.between front back) = some m) :
    front.AtLine ∧ ∃ z, back = '\x7d' :: z := by
  rw [matchAt?_eq] at found
  obtain ⟨e, first, -⟩ := Option.map_eq_some_iff.mp found
  have member := List.mem_of_head? first
  simp only [closingBrace, lineStart, ends, List.mem_flatMap] at member
  obtain ⟨e', start, here⟩ := member
  split at start
  · next begins =>
    obtain rfl := List.mem_singleton.mp start
    refine ⟨Cursor.startsLine_between_iff.mp begins, ?_⟩
    cases back with
    | nil => simp [char, ends] at here
    | cons c z =>
      rw [ends_char_cons] at here
      split at here
      · next same => exact ⟨z, by rw [eq_of_beq same]⟩
      · cases here
  · cases start

theorem Recognition.findAll_closingBrace_append {x : Text} (whole : x.AtLine) (y : Text) :
    ∃ ms ms', closingBrace.findAll (x ++ y) = ms ++ ms' ∧
      List.Forall₂ (Match.Moved x.size []) (closingBrace.findAll y) ms' := by
  have moves_ : closingBrace.moves = true := rfl
  have local_ : closingBrace.Avoids fun _ => false := by simp [closingBrace]
  have avoids : closingBrace.Avoids (· == '\n') := by simp [closingBrace]
  obtain ⟨ms, ms', joined, -, moved⟩ := ((settles_lines moves_ avoids whole).steady moves_).findAll_append
    moves_ local_ whole.edge_eq y
  exact ⟨ms, ms', joined, moved⟩

/-- In a text that begins with a brace it is the first one, and the others come later. -/
theorem Recognition.exists_findAll_closingBrace (z : Text) : ∃ m ms, closingBrace.findAll ('\x7d' :: z) = m :: ms ∧
    m.start.offset = 0 ∧ ∀ m' ∈ ms, 0 < m'.start.offset := by
  have takes : closingBrace.Takes [] ['\x7d'] z [] [] := (takes_lineStart rfl).next takes_char
  have first := scan_hit (by simp) takes
  obtain ⟨ms, all_⟩ := first.exists_findAll
  have scan := exists_scan_findAll (p := closingBrace) rfl (by simp [closingBrace]) ('\x7d' :: z)
  rw [List.singleton_append, List.singleton_append] at all_
  rw [all_, ← List.nil_append (_ :: ms)] at scan
  obtain ⟨taken, rest, -, -, -, later⟩ := scan.exists_place
  refine ⟨_, ms, all_, rfl, fun m' member => ?_⟩
  have bounds := (later.bounds.2 m' member).1
  exact Nat.lt_of_lt_of_le (Text.size_pos (List.cons_ne_nil '\x7d' [])) bounds

namespace Anchors

variable {t x y z line : Text}

/-- Accessors go before the line of the first remark. -/
theorem accessorsOf_of_mark (whole : x.AtLine) (absent : ¬Source.accessorMark.toList <:+: x)
    (single : '\n' ∉ line) (cut : Text.cut? Source.accessorMark.toList y = some (line, z)) :
    accessorsOf (x ++ y) = ⟨x.size, true⟩ := by
  have split := Text.eq_append_of_cut? cut
  have found : (x ++ y).find? Source.accessorMark.toList = some (x ++ line).size := by
    rw [Text.find?, Text.cut?_append_of_atLine (by decide) (by decide) whole absent, cut]
    rfl
  have start := Text.lineStart_between (Source.accessorMark.toList ++ z) whole single
  rw [accessorsOf, found]
  dsimp only
  rw [split, List.append_assoc, ← List.append_assoc x, start]

/-- Accessors go before the last brace that starts a line. -/
theorem accessorsOf_of_brace (unmarked : ¬Source.accessorMark.toList <:+: x ++ '\x7d' :: z) (whole : x.AtLine)
    (last : closings ('\x7d' :: z) = [()]) : accessorsOf (x ++ '\x7d' :: z) = ⟨x.size, false⟩ := by
  have unmarked' : (x ++ '\x7d' :: z).find? Source.accessorMark.toList = none := by
    rw [Text.find?, Text.cut?_eq_none unmarked]
    rfl
  obtain ⟨m, ms, found, start, -⟩ := exists_findAll_closingBrace z
  rw [closings, found, List.map_cons, List.cons.injEq, List.map_eq_nil_iff] at last
  obtain ⟨ns, ns', joined, moved⟩ := findAll_closingBrace_append whole ('\x7d' :: z)
  rw [found, last.2] at moved
  obtain ⟨m', rfl, here⟩ : ∃ m', ns' = [m'] ∧ Match.Moved x.size [] m m' := by
    cases moved with
    | cons here later =>
      cases later
      exact ⟨_, rfl, here⟩
  have place : m'.start.offset = x.size := by
    rw [here.start, start, Nat.zero_add]
  rw [accessorsOf, unmarked', joined, List.getLast?_append]
  simp [place]

/-- A text with the remark is cut up before the line of the first one. -/
theorem exists_mark (marked : Source.accessorMark.toList <:+: t) : ∃ x y line z, t = x ++ y ∧ x.AtLine ∧
    ¬Source.accessorMark.toList <:+: x ∧ '\n' ∉ line ∧
    Text.cut? Source.accessorMark.toList y = some (line, z) := by
  have some_ : Source.accessorMark.toList ≠ [] := by decide
  obtain ⟨⟨front, back⟩, cut⟩ := Option.isSome_iff_exists.mp (Text.holds_of_inside marked)
  obtain ⟨x, line, rfl, whole, single⟩ := front.exists_last_line
  have text := Text.eq_append_of_cut? cut
  have absent : ¬Source.accessorMark.toList <:+: x := by
    intro inside
    obtain ⟨⟨front', back'⟩, first⟩ := Option.isSome_iff_exists.mp (Text.holds_of_inside inside)
    have again := Text.cut?_append_of_cut? some_ first (line ++ Source.accessorMark.toList ++ back)
    rw [← List.append_assoc, ← List.append_assoc, ← text, cut] at again
    have same := (Prod.mk.inj (Option.some.inj again)).1
    have length := congrArg List.length (Text.eq_append_of_cut? first)
    have length' := congrArg List.length same
    have positive := List.length_pos_iff.mpr some_
    simp only [List.length_append] at length length'
    omega
  refine ⟨x, line ++ Source.accessorMark.toList ++ back, line, back, by simpa using text, whole, absent, single, ?_⟩
  rw [text, List.append_assoc, List.append_assoc, Text.cut?_append_of_atLine some_ (by decide) whole absent] at cut
  obtain ⟨⟨front', back'⟩, found, same⟩ := Option.map_eq_some_iff.mp cut
  obtain ⟨first, rfl⟩ := Prod.mk.inj same
  obtain rfl : front' = line := List.append_cancel_left first
  rw [List.append_assoc, found]

/-- A text with a brace that starts a line is cut up before the last one. -/
theorem exists_brace (closed : closings t ≠ []) :
    ∃ x z, t = x ++ '\x7d' :: z ∧ x.AtLine ∧ closings ('\x7d' :: z) = [()] := by
  have some_ : closingBrace.findAll t ≠ [] := fun none_ => closed (by rw [closings, none_, List.map_nil])
  obtain ⟨ms, m, split⟩ := (List.eq_nil_or_concat _).resolve_left some_
  rw [List.concat_eq_append] at split
  have scan := exists_scan_findAll (p := closingBrace) rfl (by simp [closingBrace]) t
  rw [split] at scan
  obtain ⟨x, y, rfl, -, found, -⟩ := scan.exists_place
  rw [List.nil_append] at found
  obtain ⟨whole, z, rfl⟩ := exists_of_closingBrace found
  refine ⟨x, z, rfl, whole, ?_⟩
  obtain ⟨first, others, all_, -, later⟩ := exists_findAll_closingBrace z
  obtain ⟨ns, ns', joined, moved⟩ := findAll_closingBrace_append whole ('\x7d' :: z)
  rcases List.eq_nil_or_concat others with rfl | ⟨others, last, rfl⟩
  · rw [closings, all_, List.map_singleton]
  · -- The last brace would lie farther on than it does.
    exfalso
    rw [List.concat_eq_append] at all_ later
    have backwards := List.forall₂_reverse_iff.mpr moved
    rw [all_, ← List.cons_append, List.reverse_append] at backwards
    obtain ⟨last', tl, here, -, reversed⟩ := List.forall₂_cons_left_iff.mp backwards
    rw [List.reverse_eq_cons_iff] at reversed
    subst reversed
    rw [split, ← List.append_assoc] at joined
    obtain rfl : m = last' := by simpa using (List.append_inj' joined rfl).2
    have start := (matchAt?_some found).1
    have place : m.start.offset = x.size := by rw [start]; exact Cursor.between_offset ..
    have positive := later last (by simp)
    have moved_ := here.start
    omega

/-- A text has the remark that marks the place of accessors, or a line that starts with a brace. -/
def Marked (t : Text) : Prop :=
  Source.accessorMark.toList <:+: t ∨ ∃ x z, t = x ++ '\x7d' :: z ∧ x.AtLine

theorem closings_ne_nil_iff : closings t ≠ [] ↔ ∃ x z, t = x ++ '\x7d' :: z ∧ x.AtLine := by
  constructor
  · intro closed
    obtain ⟨x, z, text, whole, -⟩ := exists_brace closed
    exact ⟨x, z, text, whole⟩
  · rintro ⟨x, z, rfl, whole⟩
    obtain ⟨m, ms, found, -⟩ := exists_findAll_closingBrace z
    rw [linewise_closings.append whole, closings, closings, found]
    simp

instance (t : Text) : Decidable (Marked t) :=
  decidable_of_iff (Source.accessorMark.toList <:+: t ∨ closings t ≠ []) (or_congr_right closings_ne_nil_iff)

/-- Accessors go before the remark, or else before the last brace that starts a line. -/
theorem Marked.cases (marked : Marked t) :
    (∃ x y line z, t = x ++ y ∧ x.AtLine ∧ ¬Source.accessorMark.toList <:+: x ∧ '\n' ∉ line ∧
      Text.cut? Source.accessorMark.toList y = some (line, z)) ∨
    ¬Source.accessorMark.toList <:+: t ∧
      ∃ x z, t = x ++ '\x7d' :: z ∧ x.AtLine ∧ closings ('\x7d' :: z) = [()] := by
  by_cases remark : Source.accessorMark.toList <:+: t
  · exact .inl (exists_mark remark)
  · exact .inr ⟨remark, exists_brace (closings_ne_nil_iff.mpr (marked.resolve_left remark))⟩

end Anchors

namespace Host

variable {h : Host} {entries : List Entry} {ps qs : List (Text × Slot)} {kept rest : Text}

/-- The line behind the slot of accessors stays what it is. -/
theorem Parted.exists_first (parted : h.Parted (ps ++ (kept, .accessors) :: qs) rest) (entries : List Entry) :
    ∃ a z z', Text.unwoven qs rest = a ++ z ∧
      Text.woven (h.block entries) qs (rest ++ h.exportBlock entries) = a ++ z' ∧
      (z = [] ∨ a ≠ [] ∧ a.AtLine) := by
  have cut := parted.cut_back
  have later := (List.pairwise_append.mp parted.later).2.1
  have whole := parted.whole_back
  cases qs with
  | nil => exact ⟨rest, [], h.exportBlock entries, by simp, rfl, .inl rfl⟩
  | cons q qs =>
    refine ⟨q.1, _, _, Text.unwoven_cons .., Text.woven_cons .., .inr ⟨?_, whole q (by simp)⟩⟩
    intro none_
    have place := cut.1
    rw [none_, Text.size_nil] at place
    have behind := (List.pairwise_cons.mp later).1 q (by simp) rfl
    omega

namespace Receives

variable (receives : h.Receives entries)
include receives

/-- New accessors go behind those that have been put in. -/
theorem accessorsOf_withEntries (marked : Anchors.Marked h.text)
    (parted : h.Parted (ps ++ (kept, .accessors) :: qs) rest) :
    Anchors.accessorsOf (h.withEntries entries) = ⟨Text.size (Text.woven (h.block entries) ps kept ++
      entries.flatMap (h.fragment .accessors)), (Anchors.accessorsOf h.text).atMark⟩ := by
  have block : h.block entries .accessors = entries.flatMap (h.fragment .accessors) := by
    rw [block_eq (breakBefore_place receives.clear .accessors)]
    simp [lead, trail]
  have whole : (Text.woven (h.block entries) ps kept ++ h.block entries .accessors).AtLine :=
    (Text.atLine_woven parted.whole_front (fun p _ => h.atLine_block entries p.2) parted.whole_kept).append
      (h.atLine_block entries .accessors)
  -- The text is cut up at the slot.
  have cut_up : ∀ {x y}, h.text = x ++ y → (Anchors.accessorsOf h.text).offset = x.size →
      x = Text.unwoven ps kept ∧ y = Text.unwoven qs rest := by
    intro x y text place
    have place : h.place .accessors = x.size := place
    constructor
    · rw [← parted.before_eq, place, text, Text.before_size_append]
    · rw [← parted.after_eq, place, text, Text.after_size_append]
  obtain ⟨a, z₁, z₂, old, new_, first⟩ := parted.exists_first entries
  rw [parted.withEntries_eq, ← List.append_assoc, ← block]
  rcases marked.cases with ⟨x, y, line, z, text, whole', absent, single, cut⟩ | ⟨unmarked, x, z, text, whole', last⟩
  · have here := Anchors.accessorsOf_of_mark whole' absent single cut
    rw [← text] at here
    obtain ⟨rfl, rfl⟩ := cut_up text (by rw [here])
    rw [old] at cut
    obtain ⟨z', cut'⟩ : ∃ z', Text.cut? Source.accessorMark.toList (a ++ z₂) = some (line, z') :=
      Text.exists_cut?_of_first (by decide) (by decide) single cut first
    rw [here, new_]
    refine Anchors.accessorsOf_of_mark whole ?_ single cut'
    rw [← Text.markedLines_eq_nil_iff] at absent ⊢
    have front := content_before Text.linewise_markedLines parted fun s' _ e member =>
      (receives.proper e member).markedLines_piece (receives.unmarked e member) s'
    have lines := content_block Text.linewise_markedLines h entries .accessors
    have none_ : (entries.flatMap fun e => Text.markedLines (e.piece h.config .accessors)) = [] :=
      List.flatMap_eq_nil_iff.mpr fun e member =>
        (receives.proper e member).markedLines_piece (receives.unmarked e member) .accessors
    rw [Text.linewise_markedLines.append (Text.atLine_woven parted.whole_front (fun p _ => h.atLine_block entries p.2)
      parted.whole_kept), front, parted.before_eq, absent, lines, none_, List.append_nil]
  · have here := Anchors.accessorsOf_of_brace (text ▸ unmarked) whole' last
    rw [← text] at here
    obtain ⟨rfl, behind⟩ := cut_up text (by rw [here])
    obtain ⟨a', rfl⟩ : ∃ a', a = '\x7d' :: a' := by
      rw [old] at behind
      cases a with
      | nil =>
        rcases first with rfl | ⟨moved, -⟩
        · cases behind
        · exact absurd rfl moved
      | cons c a' => exact ⟨a', by rw [(List.cons.inj behind).1]⟩
    rw [here, new_, List.cons_append]
    refine Anchors.accessorsOf_of_brace ?_ whole ?_
    · have same := receives.markedLines_withEntries
      rw [parted.withEntries_eq, ← List.append_assoc, new_] at same
      rw [← Text.markedLines_eq_nil_iff] at unmarked ⊢
      rw [← List.cons_append, same, unmarked]
    · have same := content_behind linewise_closings parted fun s' _ e member =>
        (receives.proper e member).closings_piece s'
      have exports : (entries.flatMap fun e => closings (h.exportLine e)) = [] :=
        List.flatMap_eq_nil_iff.mpr fun e member => closings_exportLine (receives.proper e member) receives.spellable
      rw [exports, List.append_nil, parted.after_eq, ← behind, last, new_] at same
      exact same

end Receives

end Host

end Registrar
