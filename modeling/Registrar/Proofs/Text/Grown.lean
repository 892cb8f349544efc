import Mathlib.Data.List.Perm.Basic
import Registrar.Proofs.Text.Insertion
import Registrar.Proofs.Text.Splicing

/-!
Texts that have grown. A text that has grown is another one with blocks put in, each of them a list of
fragments that begin lines; without the blocks it is the other text again. Insertions of such blocks
let a text grow wherever their places are, also at one place or inside a line.
-/

namespace Registrar

namespace Text

/-- Line feeds and nothing else. -/
def IsFeeds (t : Text) : Prop := ∀ c ∈ t, c = '\n'

/-- Behind the front the block holds the fragments in their order, each at the start of a line, with
nothing but line feeds between them. -/
inductive Lists : Text → List Text → Text → Prop
  | done {front feeds : Text} (blank : IsFeeds feeds) : Lists front [] feeds
  | next {front feeds fragment block : Text} {fragments : List Text} (blank : IsFeeds feeds)
      (starts : AtLine (front ++ feeds)) (later : Lists (front ++ feeds ++ fragment) fragments block) :
      Lists front (fragment :: fragments) (feeds ++ fragment ++ block)

end Text

/-- Fragments that are put in at a place of a text. -/
structure Insertion where
  place : Nat
  fragments : List Text

/-- What follows `front` is the old text from its byte `n` on with blocks put in at their places, the
first place first. -/
inductive Text.Grows : Nat → Text → List Insertion → Text → Text → Prop
  | done {n : Nat} {front rest : Text} : Grows n front [] rest rest
  | next {n : Nat} {front kept block old new : Text} {i : Insertion} {insertions : List Insertion}
      (place : i.place = n + kept.size) (lists : Lists (front ++ kept) i.fragments block)
      (later : Grows i.place (front ++ kept ++ block) insertions old new) :
      Grows n front (i :: insertions) (kept ++ old) (kept ++ (block ++ new))

namespace Text

variable {front feeds block : Text} {fragments : List Text}

/-- Of two fronts of a text the longer one goes on from the shorter one. -/
theorem exists_of_append_eq {s t a b : Text} (same : a ++ b = s ++ t) (less : a.size ≤ s.size) :
    ∃ m, s = a ++ m ∧ b = m ++ t := by
  rcases List.append_eq_append_iff.mp same with ⟨m, rfl, rfl⟩ | ⟨r, rfl, rfl⟩
  · exact ⟨m, rfl, rfl⟩
  · rw [size_append] at less
    have none_ : r = [] := by
      by_contra some_
      have := size_pos some_
      omega
    subst none_
    exact ⟨[], by simp, by simp⟩

theorem isFeeds_nil : IsFeeds [] := by simp [IsFeeds]

theorem isFeeds_feed : IsFeeds ['\n'] := by simp [IsFeeds]

theorem IsFeeds.append {more : Text} (first : IsFeeds feeds) (second : IsFeeds more) :
    IsFeeds (feeds ++ more) := by
  intro c member
  rcases List.mem_append.mp member with member | member
  · exact first c member
  · exact second c member

theorem IsFeeds.atLine (blank : IsFeeds feeds) : AtLine feeds := by
  rcases List.eq_nil_or_concat feeds with rfl | ⟨t, c, rfl⟩
  · exact atLine_nil
  · rw [blank c (by simp)]
    exact .inr ⟨t, List.concat_eq_append⟩

theorem isFeeds_breakBefore (t : Text) (n : Nat) : IsFeeds (t.breakBefore n) := by
  unfold breakBefore
  split
  · exact isFeeds_nil
  · exact isFeeds_feed

/-- Line feeds in front of a block belong to it. -/
theorem Lists.feeds_append (blank : IsFeeds feeds) (lists : Lists (front ++ feeds) fragments block) :
    Lists front fragments (feeds ++ block) := by
  cases lists with
  | done blank' => exact .done (blank.append blank')
  | next blank' starts later =>
    rw [List.append_assoc] at starts
    rw [List.append_assoc front] at later
    simpa using Lists.next (blank.append blank') starts later

/-- Line feeds behind a block belong to it. -/
theorem Lists.append_feeds (lists : Lists front fragments block) (blank : IsFeeds feeds) :
    Lists front fragments (block ++ feeds) := by
  induction lists with
  | done blank' => exact .done (blank'.append blank)
  | next blank' starts later ih =>
    rw [List.append_assoc]
    exact .next blank' starts ih

/-- Fragments that end lines, with line feeds around each, make a block. -/
theorem lists_flatMap {before_ after_ : Text} (blank : IsFeeds before_) (blank' : IsFeeds after_)
    (whole : ∀ fragment ∈ fragments, AtLine fragment) (starts : AtLine front) :
    Lists front fragments (fragments.flatMap fun fragment => before_ ++ fragment ++ after_) := by
  induction fragments generalizing front with
  | nil => exact .done isFeeds_nil
  | cons fragment rest ih =>
    obtain ⟨first, whole⟩ := List.forall_mem_cons.mp whole
    have starts' : AtLine (front ++ before_) := starts.append blank.atLine
    have later := ih whole ((starts'.append first).append blank'.atLine)
    have split : (fragment :: rest).flatMap (fun fragment => before_ ++ fragment ++ after_) =
        before_ ++ fragment ++ (after_ ++ rest.flatMap fun fragment => before_ ++ fragment ++ after_) := by
      simp
    rw [split]
    exact .next blank starts' (later.feeds_append blank')

end Text

namespace Edit

/-- The edit puts a block of the fragments at the place, if a line feed is put where one is needed. -/
structure Inserts (t : Text) (e : Edit) (i : Insertion) : Prop where
  place : t.IsPlace e.start
  same : i.place = e.start
  lines : e.InsertsLines t
  lists : ∀ front, Text.AtLine (front ++ t.breakBefore e.start) → Text.Lists front i.fragments e.new

/-- An insertion between two parts of a text. -/
theorem InsertsLines.apply_between {e : Edit} {t front : Text} (inserts : e.InsertsLines t)
    (place : e.start = front.size) (back : Text) : e.apply (front ++ back) = front ++ (e.new ++ back) := by
  have middle := apply_middle front [] back e.new
  have same : e = ⟨front.size, front.size + Text.size [], e.new⟩ := by
    cases e
    simp only [Edit.mk.injEq, and_true]
    exact ⟨place, inserts.empty.trans place⟩
  rw [same]
  simpa using middle

/-- Insertions made from the last place to the first let a text grow. What is in front of the next place
of the old text is `a`, and in the new text `f`. -/
theorem exists_grows {edits : List Edit} {insertions : List Insertion} {t a b f : Text}
    (split : t = a ++ b) (inserts : List.Forall₂ (Inserts t) edits insertions)
    (ordered : edits.Pairwise fun x y => x.start ≤ y.start) (behind : ∀ e ∈ edits, a.size ≤ e.start)
    (side : Text.AtLine a → Text.AtLine f) : ∃ new,
      edits.reverse.foldl (fun t e => e.apply t) t = a ++ new ∧
        Text.Grows a.size f insertions b new := by
  induction inserts generalizing a b f with
  | nil => exact ⟨b, split, .done⟩
  | @cons e i edits insertions here later ih =>
    obtain ⟨least, ordered⟩ := List.pairwise_cons.mp ordered
    obtain ⟨front, back, cut, size⟩ := here.place
    obtain ⟨kept, rfl, rfl⟩ := Text.exists_of_append_eq (split.symm.trans cut)
      (size ▸ behind e (by simp))
    have side' : Text.AtLine (a ++ kept) → Text.AtLine (f ++ kept) := by
      intro whole
      by_cases none_ : kept = []
      · subst none_
        simpa using side (by simpa using whole)
      · rcases whole.of_append none_ with none' | ⟨u, ends⟩
        · exact absurd none' none_
        · exact .inr ⟨f ++ u, by rw [ends, List.append_assoc]⟩
    obtain ⟨new, folded, grows⟩ := ih cut ordered (fun x member => size ▸ least x member)
      (f := f ++ kept ++ e.new) fun whole => (side' whole).append here.lines.lines
    refine ⟨kept ++ (e.new ++ new), ?_, .next ?_ (here.lists _ ?_) ?_⟩
    · rw [List.reverse_cons, List.foldl_append, folded, List.foldl_cons, List.foldl_nil,
        here.lines.apply_between size, List.append_assoc]
    · rw [here.same, size, Text.size_append]
    · -- A line feed is put in where the old text has begun a line.
      by_cases whole : Text.AtLine (a ++ kept)
      · have none_ := Text.breakBefore_between whole back
        rw [← cut, ← size] at none_
        rw [none_, List.append_nil]
        exact side' whole
      · have feed := Text.breakBefore_of_not_atLine whole back
        rw [← cut, ← size] at feed
        rw [feed]
        exact .inr ⟨_, rfl⟩
    · rwa [here.same, size]

/-- A text grows by insertions in whatever order they are given, the one at the last place in the end. -/
theorem exists_grows_applyAll {edits : List Edit} {insertions : List Insertion} {t : Text}
    {last : Edit} {i : Insertion} (inserts : List.Forall₂ (Inserts t) edits insertions)
    (inserts' : last.Inserts t i) (least : ∀ e ∈ edits, e.start ≤ last.start) :
    ∃ order, order.Perm insertions ∧
      Text.Grows 0 [] (order ++ [i]) t (applyAll (edits ++ [last]) t) := by
  have perm : (backToFront edits).reverse.Perm edits :=
    ((List.reverse_perm _).trans (sorted_perm _ _)).trans (List.reverse_perm edits)
  obtain ⟨order, sorted_, perm'⟩ := List.perm_comp_forall₂ perm inserts
  have all_ : List.Forall₂ (Inserts t) (backToFront (edits ++ [last])).reverse (order ++ [i]) := by
    rw [backToFront_concat least, List.reverse_cons]
    exact List.rel_append sorted_ (.cons inserts' .nil)
  have ordered : (backToFront (edits ++ [last])).reverse.Pairwise fun x y => x.start ≤ y.start :=
    List.pairwise_reverse.mpr (backToFront_pairwise _)
  obtain ⟨new, folded, grows⟩ := exists_grows (a := []) (f := []) rfl all_ ordered (by simp) id
  rw [List.reverse_reverse] at folded
  refine ⟨order, perm', ?_⟩
  have whole : applyAll (edits ++ [last]) t = new := folded
  rw [whole]
  exact grows

end Edit
end Registrar
