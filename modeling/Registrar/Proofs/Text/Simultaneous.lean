import Mathlib.Data.List.Sort
import Registrar.Proofs.Text.Insertion
import Registrar.Proofs.Text.Splicing

/-!
Edits in place. Edits are made one after another in a text that changes under them, yet the outcome is
that of replacing all their spans at once: from left to right the gaps of the text, and in between what
is written, in the order of the places and at one place in the order given. A span of the text stays one
until its edit is made, as everything that is made before it lies behind it.
-/

namespace Registrar

/-- The first span ends where the second one begins, or before. -/
def Span.IsBefore (a b : Span) : Prop := a.stop ≤ b.start

instance (a b : Span) : Decidable (a.IsBefore b) := inferInstanceAs (Decidable (_ ≤ _))

namespace Text

variable {t : Text} {s : Span} {n m : Nat}

/-- Both ends of the span are places of the text, in order. -/
structure HasSpan (t : Text) (s : Span) : Prop where
  ordered : s.start ≤ s.stop
  start : t.IsPlace s.start
  stop : t.IsPlace s.stop

theorem isPlace_iff : t.IsPlace n ↔ (t.before n).size = n :=
  ⟨IsPlace.size_before, fun reached => ⟨_, _, (before_append_after n t).symm, reached.symm⟩⟩

instance : Decidable (t.IsPlace n) := decidable_of_iff _ isPlace_iff.symm

instance : Decidable (t.HasSpan s) :=
  decidable_of_iff (s.start ≤ s.stop ∧ t.IsPlace s.start ∧ t.IsPlace s.stop)
    ⟨fun ⟨ordered, start, stop⟩ => ⟨ordered, start, stop⟩,
      fun ⟨ordered, start, stop⟩ => ⟨ordered, start, stop⟩⟩

/-- A span cuts the text in three. -/
theorem HasSpan.exists_split (inside : t.HasSpan s) : ∃ front old back,
    t = front ++ (old ++ back) ∧ s = ⟨front.size, Text.size (front ++ old)⟩ := by
  obtain ⟨a, b, split, start⟩ := inside.start
  obtain ⟨c, d, split', stop⟩ := inside.stop
  obtain ⟨r, longer⟩ := exists_before_eq inside.stop.le inside.ordered
  rw [start, split, before_size_append] at longer
  rw [← split, stop, split', before_size_append] at longer
  refine ⟨a, r, d, by rw [split', longer, List.append_assoc], ?_⟩
  rw [← longer, ← start, ← stop]

/-- What begins at a span is the span and what follows it. -/
theorem HasSpan.after_start (inside : t.HasSpan s) :
    t.after s.start = t.slice s ++ t.after s.stop := by
  obtain ⟨front, old, back, rfl, rfl⟩ := inside.exists_split
  rw [slice_middle, after_size_append, ← List.append_assoc, after_size_append]

theorem HasSpan.size_slice (inside : t.HasSpan s) : s.start + (t.slice s).size = s.stop := by
  obtain ⟨front, old, back, rfl, rfl⟩ := inside.exists_split
  rw [slice_middle, size_append]

/-- A span stays one when what follows it is replaced. -/
theorem HasSpan.of_before (inside : t.HasSpan s) (back : Text) :
    (t.before s.stop ++ back).HasSpan s := by
  obtain ⟨front, old, rest, rfl, rfl⟩ := inside.exists_split
  rw [← List.append_assoc, before_size_append]
  exact ⟨by simp, ⟨front, old ++ back, by simp, rfl⟩, ⟨front ++ old, back, rfl, rfl⟩⟩

end Text

/-! ### Stable order -/

section
variable {α : Type} {p : α → Bool} {r : α → α → Prop} [DecidableRel r]

theorem sorted_eq_insertionSort (l : List α) :
    sorted (fun a b => decide (r a b)) l = l.insertionSort r := by
  have insert_eq : ∀ (a : α) (l : List α),
      insertSorted (fun a b => decide (r a b)) a l = l.orderedInsert r a := by
    intro a l
    induction l with
    | nil => rfl
    | cons b rest ih => simp [insertSorted, ih]
  induction l with
  | nil => rfl
  | cons a rest ih => rw [List.insertionSort_cons, ← ih, ← insert_eq, sorted, List.foldr_cons, sorted]

/-- Of elements that compare as equal sorting keeps the order. -/
theorem filter_insertionSort [Std.Total r] [IsTrans α r]
    (tied : ∀ a b, p a = true → p b = true → r a b) (l : List α) :
    (l.insertionSort r).filter p = l.filter p := by
  have ordered : (l.filter p).Pairwise r :=
    List.pairwise_filter.mpr (List.pairwise_of_forall fun {a b} => tied a b)
  have kept := (List.sublist_insertionSort ordered List.filter_sublist).filter p
  rw [List.filter_filter] at kept
  simp only [Bool.and_self] at kept
  exact (kept.eq_of_length ((List.perm_insertionSort r l).filter p).length_eq.symm).symm

/-- Lists in the order of a key are the same if they have the same elements of every key, in order. -/
theorem eq_of_filter_key {key : α → Nat} {l l' : List α}
    (ordered : l.Pairwise fun a b => key a ≤ key b) (ordered' : l'.Pairwise fun a b => key a ≤ key b)
    (same : ∀ k, l.filter (key · == k) = l'.filter (key · == k)) : l = l' := by
  induction l generalizing l' with
  | nil =>
    cases l' with
    | nil => rfl
    | cons b rest => simpa using same (key b)
  | cons a rest ih =>
    cases l' with
    | nil => simpa using same (key a)
    | cons b rest' =>
      obtain ⟨least, tail⟩ := List.pairwise_cons.mp ordered
      obtain ⟨least', tail'⟩ := List.pairwise_cons.mp ordered'
      have tied : key a = key b := by
        have first : a ∈ (b :: rest').filter (key · == key a) := by rw [← same]; simp
        have second : b ∈ (a :: rest).filter (key · == key b) := by rw [same]; simp
        rcases List.mem_cons.mp (List.mem_filter.mp first).1 with rfl | first
        · rfl
        · rcases List.mem_cons.mp (List.mem_filter.mp second).1 with rfl | second
          · rfl
          · exact Nat.le_antisymm (least b second) (least' a first)
      have head := same (key a)
      simp only [List.filter_cons, tied, beq_self_eq_true, if_true] at head
      obtain ⟨rfl, -⟩ := List.cons.inj head
      refine congrArg (a :: ·) (ih tail tail' fun k => ?_)
      have both := same k
      rw [List.filter_cons, List.filter_cons] at both
      split at both
      · exact (List.cons.inj both).2
      · exact both

end

namespace Edit

variable {edits : List Edit} {e : Edit} {t : Text} {n : Nat}

/-- The span that an edit replaces. -/
def span (e : Edit) : Span := ⟨e.start, e.stop⟩

/-- The edits from the first place to the last and, at one place, in the order given. -/
def frontToBack (edits : List Edit) : List Edit := edits.insertionSort fun a b => a.start ≤ b.start

/-- A text from byte `n` on with the spans of the edits replaced: the gap in front of a span, what is
written in its place, and what follows. -/
def replaced (t : Text) : Nat → List Edit → Text
  | n, [] => t.after n
  | n, e :: rest => t.slice ⟨n, e.start⟩ ++ e.new ++ replaced t e.stop rest

/-- The edits can be made together: they replace spans of the text, none of which overlap, and what is
inserted where a span that is not empty begins is given before it. -/
structure Together (edits : List Edit) (t : Text) : Prop where
  inside : ∀ e ∈ edits, t.HasSpan e.span
  apart : edits.Pairwise fun a b => a.span.IsBefore b.span ∨ b.span.IsBefore a.span
  inserted : edits.Pairwise fun a b => b.start = a.start → b.stop = b.start → a.stop = a.start

instance : Decidable (Together edits t) :=
  decidable_of_iff ((∀ e ∈ edits, t.HasSpan e.span) ∧
      (edits.Pairwise fun a b => a.span.IsBefore b.span ∨ b.span.IsBefore a.span) ∧
      edits.Pairwise fun a b => b.start = a.start → b.stop = b.start → a.stop = a.start)
    ⟨fun ⟨inside, apart, inserted⟩ => ⟨inside, apart, inserted⟩,
      fun ⟨inside, apart, inserted⟩ => ⟨inside, apart, inserted⟩⟩

/-- The edits are all made: when its turn comes, each finds its span in the text that the edits before it
have left. -/
def FindSpans (edits : List Edit) (t : Text) : Prop :=
  ∀ later e earlier, backToFront edits = later ++ e :: earlier →
    (later.foldl (fun t e => e.apply t) t).HasSpan e.span

/-! ### The order of the edits -/

theorem frontToBack_perm (edits : List Edit) : (frontToBack edits).Perm edits :=
  List.perm_insertionSort ..

theorem mem_frontToBack : e ∈ frontToBack edits ↔ e ∈ edits := (frontToBack_perm edits).mem_iff

theorem frontToBack_pairwise (edits : List Edit) :
    (frontToBack edits).Pairwise fun a b => a.start ≤ b.start := List.pairwise_insertionSort _ _

theorem filter_frontToBack (edits : List Edit) (k : Nat) :
    (frontToBack edits).filter (·.start == k) = edits.filter (·.start == k) :=
  filter_insertionSort (fun a b first second => by simp_all) edits

/-- The edits are made from back to front, those at one place as well. -/
theorem backToFront_eq (edits : List Edit) : backToFront edits = (frontToBack edits).reverse := by
  rw [← List.reverse_eq_iff]
  refine @eq_of_filter_key _ Edit.start _ _
    (List.pairwise_reverse.mpr (backToFront_pairwise edits)) (frontToBack_pairwise edits) fun k => ?_
  have kept : (backToFront edits).filter (·.start == k) = (edits.filter (·.start == k)).reverse := by
    rw [backToFront, sorted_eq_insertionSort, filter_insertionSort, List.filter_reverse]
    intro a b first second
    simp_all
  rw [List.filter_reverse, kept, List.reverse_reverse, filter_frontToBack]

/-- In order of their places, edits that can be made together have their spans one behind the other. -/
theorem Together.frontToBack_pairwise (together : Together edits t) :
    (frontToBack edits).Pairwise fun a b => a.span.IsBefore b.span := by
  have apart := ((frontToBack_perm edits).pairwise_iff fun h => h.symm).mpr together.apart
  rw [List.pairwise_iff_forall_sublist] at apart ⊢
  intro a b pair
  rcases apart pair with before_ | behind
  · exact before_
  · -- The second span is empty and begins where the first one does, so it is given later.
    have order := List.pairwise_iff_forall_sublist.mp (Edit.frontToBack_pairwise edits) pair
    have ordered := (together.inside b (mem_frontToBack.mp (pair.subset (by simp)))).ordered
    simp only [Span.IsBefore, span] at behind ordered ⊢
    have same : b.start = a.start := by omega
    have given := pair.filter (·.start == a.start)
    rw [filter_frontToBack] at given
    have pair' : [a, b].Sublist edits := by
      simpa [same] using given.trans List.filter_sublist
    have empty := List.pairwise_iff_forall_sublist.mp together.inserted pair' same (by omega)
    omega

/-! ### The text after the edits -/

/-- Spans one behind the other cut the text into patches. -/
theorem exists_patches (place : t.IsPlace n) (inside : ∀ e ∈ edits, t.HasSpan e.span)
    (ordered : edits.Pairwise fun a b => a.span.IsBefore b.span) (behind : ∀ e ∈ edits, n ≤ e.start) :
    ∃ patches back, t.after n = Patch.source patches ++ back ∧ Patch.edits n patches = edits ∧
      replaced t n edits = Patch.result patches ++ back := by
  induction edits generalizing n with
  | nil => exact ⟨[], t.after n, rfl, rfl, rfl⟩
  | cons e rest ih =>
    obtain ⟨first, ordered⟩ := List.pairwise_cons.mp ordered
    have here := inside e (by simp)
    have gap : t.HasSpan ⟨n, e.start⟩ := ⟨behind e (by simp), place, here.start⟩
    obtain ⟨patches, back, source, edits_eq, result⟩ := ih here.stop
      (fun x member => inside x (by simp [member])) ordered first
    have cut := gap.after_start
    have cut' := here.after_start
    have width := gap.size_slice
    have width' := here.size_slice
    simp only [span] at cut' width' source edits_eq result
    refine ⟨⟨t.slice ⟨n, e.start⟩, t.slice e.span, e.new⟩ :: patches, back, ?_, ?_, ?_⟩
    · rw [cut, cut', source]
      simp [Patch.source, span]
    · simp only [Patch.edits, span, width, width', edits_eq]
    · rw [replaced, result]
      simp [Patch.result]

/-- Spans one behind the other are replaced from the last one on, and what is before them stays. -/
theorem foldl_apply_eq_replaced (place : t.IsPlace n) (inside : ∀ e ∈ edits, t.HasSpan e.span)
    (ordered : edits.Pairwise fun a b => a.span.IsBefore b.span) (behind : ∀ e ∈ edits, n ≤ e.start) :
    edits.reverse.foldl (fun t e => e.apply t) t = t.before n ++ replaced t n edits := by
  obtain ⟨patches, back, source, edits_eq, result⟩ := exists_patches place inside ordered behind
  have whole := foldl_apply_edits (t.before n) back patches
  rw [place.size_before, edits_eq, List.append_assoc, ← source, Text.before_append_after] at whole
  rw [whole, result, List.append_assoc]

/-- What is made before an edit lies behind it and leaves its span alone. -/
theorem Together.findSpans (together : Together edits t) : FindSpans edits t := by
  intro later e earlier turn
  have ordered := together.frontToBack_pairwise
  have split : frontToBack edits = earlier.reverse ++ e :: later.reverse := by
    rw [← List.reverse_reverse (frontToBack edits), ← backToFront_eq, turn]
    simp
  have given : ∀ x ∈ e :: later.reverse, x ∈ edits := fun x member =>
    mem_frontToBack.mp (by rw [split]; exact List.mem_append_right _ member)
  rw [split] at ordered
  obtain ⟨behind, ordered⟩ := List.pairwise_cons.mp (List.pairwise_append.mp ordered).2.1
  have here := together.inside e (given e (by simp))
  have made := foldl_apply_eq_replaced here.stop
    (fun x member => together.inside x (given x (by simp [member]))) ordered behind
  rw [List.reverse_reverse] at made
  rw [made]
  exact here.of_before _

/-- Edits that can be made together are made at once: the outcome is the text with their spans replaced
from left to right, and none of them is left out. -/
theorem applyAll_eq_replaced (together : Together edits t) :
    applyAll edits t = replaced t 0 (frontToBack edits) ∧ FindSpans edits t := by
  refine ⟨?_, together.findSpans⟩
  have made := foldl_apply_eq_replaced (t := t) (n := 0) ⟨[], t, rfl, rfl⟩
    (fun e member => together.inside e (mem_frontToBack.mp member)) together.frontToBack_pairwise
    (fun e _ => Nat.zero_le _)
  rw [applyAll, backToFront_eq, made, Text.before_zero, List.nil_append]

/-- Two insertions and a span that is taken out at one place, behind a character of two bytes, given
before what comes first. -/
theorem applyAll_eq_replaced_mixed :
    let t : Text := "éa(bc)".toList
    let edits : List Edit := [insert 4 ['x'], insert 7 ['.'], insert 4 ['y'], delete ⟨4, 6⟩,
      replace ⟨0, 2⟩ "e".toList]
    Together edits t ∧ applyAll edits t = "ea(xy).".toList ∧ FindSpans edits t := by
  intro t edits
  have together : Together edits t := by decide +kernel
  obtain ⟨made, all_⟩ := applyAll_eq_replaced together
  exact ⟨together, made.trans (by decide +kernel), all_⟩

/-! ### Insertions and pairs -/

/-- Insertions at places of a text can be made together. -/
theorem together_of_insertions (inserts : ∀ e ∈ edits, e.stop = e.start ∧ t.IsPlace e.start) :
    Together edits t := by
  have pairs : ∀ {R : Edit → Edit → Prop}, (∀ a ∈ edits, ∀ b ∈ edits, R a b) → edits.Pairwise R :=
    fun all_ => List.Pairwise.imp_of_mem (fun first second _ => all_ _ first _ second)
      (List.pairwise_of_forall fun {_ _} => trivial)
  refine ⟨fun e member => ?_, pairs fun a first b second => ?_, pairs fun a first b _ _ _ => ?_⟩
  · obtain ⟨empty, place⟩ := inserts e member
    exact ⟨Nat.le_of_eq empty.symm, place, by rw [span, empty]; exact place⟩
  · have empty := (inserts a first).1
    have empty' := (inserts b second).1
    simp only [Span.IsBefore, span]
    omega
  · exact (inserts a first).1

/-- An edit and one behind it can be made together, unless the second is an insertion where the first
takes something out. -/
theorem together_pair {a b : Edit} (inside : t.HasSpan a.span) (inside' : t.HasSpan b.span)
    (order : a.span.IsBefore b.span) (apart : b.start = a.start → a.stop = a.start) :
    Together [a, b] t := by
  refine ⟨by simp [inside, inside'], by simp [order], ?_⟩
  simpa using fun same _ => apart same

end Edit
end Registrar
