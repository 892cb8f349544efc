import Mathlib.Data.List.Perm.Basic
import Registrar.Proofs.Text.Grown

/-!
Blocks woven into a text. A text is cut at some places, and a block is put at each of them. What is put in
later, each piece behind the first part of an earlier block, comes out as if it had been put in with that
block.
-/

namespace Registrar

/-- Sorting looks at nothing but the order of the elements. -/
theorem sorted_map {α β : Type} (le : β → β → Bool) (f : α → β) (l : List α) :
    sorted le (l.map f) = (sorted (fun a b => le (f a) (f b)) l).map f := by
  have inserted : ∀ (a : α) (l : List α),
      insertSorted le (f a) (l.map f) = (insertSorted (fun a b => le (f a) (f b)) a l).map f := by
    intro a l
    induction l with
    | nil => rfl
    | cons b l ih =>
      rw [List.map_cons, insertSorted, insertSorted]
      split
      · rfl
      · rw [ih, List.map_cons]
  induction l with
  | nil => rfl
  | cons a l ih =>
    show insertSorted le (f a) (sorted le (l.map f)) = _
    rw [ih, inserted]
    rfl

namespace Text

variable {ι : Type} {block u v : ι → Text} {place : ι → Nat} {parts ps qs : List (Text × ι)}
  {a b t kept rest : Text} {i : ι} {n : Nat}

/-- The parts of a text with the block of each behind it, and what is left of the text. -/
def woven (block : ι → Text) (parts : List (Text × ι)) (rest : Text) : Text :=
  (parts.flatMap fun p => p.1 ++ block p.2) ++ rest

/-- The parts of a text as they stand in it, and what is left of it. -/
def unwoven (parts : List (Text × ι)) (rest : Text) : Text := woven (fun _ => []) parts rest

@[simp] theorem woven_nil (block : ι → Text) (rest : Text) : woven block [] rest = rest := rfl

@[simp] theorem woven_cons (block : ι → Text) (p : Text × ι) (parts : List (Text × ι)) (rest : Text) :
    woven block (p :: parts) rest = p.1 ++ (block p.2 ++ woven block parts rest) := by
  simp [woven]

@[simp] theorem unwoven_nil (rest : Text) : unwoven ([] : List (Text × ι)) rest = rest := rfl

@[simp] theorem unwoven_cons (p : Text × ι) (parts : List (Text × ι)) (rest : Text) :
    unwoven (p :: parts) rest = p.1 ++ unwoven parts rest := by
  simp [unwoven]

theorem woven_rest (block : ι → Text) (parts : List (Text × ι)) (a b : Text) :
    woven block parts (a ++ b) = woven block parts a ++ b := by
  simp [woven]

theorem unwoven_rest (parts : List (Text × ι)) (a b : Text) :
    unwoven parts (a ++ b) = unwoven parts a ++ b := woven_rest _ _ _ _

/-- A woven text falls into what is before a block, the block and what is behind it. -/
theorem woven_split (block : ι → Text) (ps qs : List (Text × ι)) (kept rest : Text) (i : ι) :
    woven block (ps ++ (kept, i) :: qs) rest = woven block ps kept ++ (block i ++ woven block qs rest) := by
  simp [woven]

theorem unwoven_split (ps qs : List (Text × ι)) (kept rest : Text) (i : ι) :
    unwoven (ps ++ (kept, i) :: qs) rest = unwoven ps kept ++ unwoven qs rest := by
  simp [unwoven, woven]

/-- The parts end at the places, counted from byte `n` on. -/
def Cut (place : ι → Nat) : Nat → List (Text × ι) → Prop
  | _, [] => True
  | n, p :: parts => place p.2 = n + p.1.size ∧ Cut place (n + p.1.size) parts

theorem Cut.place_eq (cut : Cut place n (ps ++ (kept, i) :: qs)) :
    place i = n + (unwoven ps kept).size := by
  induction ps generalizing n with
  | nil => exact cut.1
  | cons p ps ih =>
    have later := ih cut.2
    rw [later, unwoven_cons, size_append]
    omega

theorem cut_append :
    Cut place n (ps ++ qs) ↔ Cut place n ps ∧ Cut place (n + (unwoven ps []).size) qs := by
  induction ps generalizing n with
  | nil => simp [Cut]
  | cons p ps ih =>
    rw [List.cons_append, Cut, Cut, ih, unwoven_cons, size_append, Nat.add_assoc, and_assoc]

/-- A text can be cut at places in order. -/
theorem exists_cut {order : List ι} (split : t = a ++ b)
    (ordered : order.Pairwise fun i j => place i ≤ place j) (places : ∀ i ∈ order, t.IsPlace (place i))
    (behind : ∀ i ∈ order, a.size ≤ place i) :
    ∃ parts rest, parts.map Prod.snd = order ∧ b = unwoven parts rest ∧ Cut place a.size parts := by
  induction order generalizing a b with
  | nil => exact ⟨[], b, rfl, rfl, trivial⟩
  | cons i order ih =>
    obtain ⟨least, ordered⟩ := List.pairwise_cons.mp ordered
    obtain ⟨front, back, split', size⟩ := places i (by simp)
    obtain ⟨kept, rfl, rfl⟩ := exists_of_append_eq (split.symm.trans split') (size ▸ behind i (by simp))
    obtain ⟨parts, rest, order_, rfl, cut⟩ := ih split' ordered
      (fun j member => places j (by simp [member])) fun j member => size ▸ least j member
    rw [size_append] at size cut
    refine ⟨(kept, i) :: parts, rest, by simp [order_], by simp, size, ?_⟩
    exact cut

/-- The patches that put the blocks behind the parts. -/
def patches (block : ι → Text) (parts : List (Text × ι)) : List Patch :=
  parts.map fun p => ⟨p.1, [], block p.2⟩

theorem source_patches (block : ι → Text) (parts : List (Text × ι)) (rest : Text) :
    Patch.source (patches block parts) ++ rest = unwoven parts rest := by
  simp [Patch.source, patches, unwoven, woven, List.flatMap_map]

theorem result_patches (block : ι → Text) (parts : List (Text × ι)) (rest : Text) :
    Patch.result (patches block parts) ++ rest = woven block parts rest := by
  simp [Patch.result, patches, woven, List.flatMap_map]

theorem edits_patches (block : ι → Text) (cut : Cut place n parts) :
    Patch.edits n (patches block parts) = parts.map fun p => .insert (place p.2) (block p.2) := by
  induction parts generalizing n with
  | nil => rfl
  | cons p parts ih =>
    obtain ⟨here, later⟩ := cut
    have rest := ih later
    simp only [patches] at rest
    simp [patches, Patch.edits, Edit.insert, here, rest]

/-- Blocks that are put at the places from the last one to the first. -/
theorem foldl_apply_woven (block : ι → Text) (cut : Cut place 0 parts) (rest : Text) :
    (parts.map fun p => Edit.insert (place p.2) (block p.2)).reverse.foldl (fun t e => e.apply t)
      (unwoven parts rest) = woven block parts rest := by
  have folded := Edit.foldl_apply_edits [] rest (patches block parts)
  rwa [List.nil_append, List.nil_append, size_nil, edits_patches block cut, source_patches,
    result_patches] at folded

/-! ### A second round -/

/-- Where every block has a first part and a second one, a woven text is cut behind the first parts: what
is put there is put between the two parts of the blocks. -/
theorem exists_woven_again (u v : ι → Text) (front : Text) (parts : List (Text × ι)) (rest : Text) :
    ∃ parts' rest', parts'.map Prod.snd = parts.map Prod.snd ∧
      (∀ new : ι → Text, front ++ woven (fun i => u i ++ (new i ++ v i)) parts rest =
        woven new parts' rest') ∧
      (∀ p ∈ parts', ∃ w, p.1 = w ++ u p.2) ∧
      ∀ (place : ι → Nat) (n : Nat), (∀ ps kept i qs, parts = ps ++ (kept, i) :: qs →
        place i = n + size (front ++ woven (fun i => u i ++ v i) ps (kept ++ u i))) →
          Cut place n parts' := by
  induction parts generalizing front with
  | nil => exact ⟨[], front ++ rest, rfl, fun _ => rfl, by simp, fun _ _ _ => trivial⟩
  | cons p parts ih =>
    obtain ⟨parts', rest', order, text, ends, cut⟩ := ih (v p.2)
    refine ⟨(front ++ p.1 ++ u p.2, p.2) :: parts', rest', by simp [order], fun new => ?_, ?_, ?_⟩
    · rw [woven_cons, woven_cons, ← text new]
      simp
    · exact List.forall_mem_cons.mpr ⟨⟨front ++ p.1, rfl⟩, ends⟩
    · intro place n places
      have here := places [] p.1 p.2 parts rfl
      rw [woven_nil, ← List.append_assoc] at here
      refine ⟨here, cut place _ fun ps kept i qs split => ?_⟩
      have there := places (p :: ps) kept i qs (by rw [split, List.cons_append])
      rw [there, woven_cons]
      simp only [size_append]
      omega

/-- Blocks that are put behind the first parts of the blocks of a woven text. -/
theorem applyAll_woven_again {slots : List ι} {new : ι → Text} (order : (parts.map Prod.snd).Perm slots)
    (some_ : ∀ i, u i ≠ [])
    (places : ∀ ps kept i qs, parts = ps ++ (kept, i) :: qs →
      place i = size (woven (fun i => u i ++ v i) ps (kept ++ u i))) (rest : Text) :
    Edit.applyAll (slots.map fun i => .insert (place i) (new i)) (woven (fun i => u i ++ v i) parts rest) =
      woven (fun i => u i ++ (new i ++ v i)) parts rest := by
  obtain ⟨parts', rest', order', text, ends, cut⟩ := exists_woven_again u v [] parts rest
  have cut := cut place 0 (by simpa using places)
  have kept : ∀ p ∈ parts', p.1 ≠ [] := by
    intro p member none_
    obtain ⟨w, ends⟩ := ends p member
    rw [none_] at ends
    exact some_ p.2 (List.append_eq_nil_iff.mp ends.symm).2
  have apart : Patch.Apart (patches new parts') := by
    refine List.pairwise_map.mpr (List.pairwise_iff_forall_sublist.mpr fun {p q} sub => .inr ?_)
    exact kept q (sub.subset (by simp))
  have perm : (slots.map fun i => Edit.insert (place i) (new i)).Perm
      (Patch.edits 0 (patches new parts')) := by
    have map_ : (parts'.map fun p => Edit.insert (place p.2) (new p.2)) =
        (parts'.map Prod.snd).map fun i => .insert (place i) (new i) := by
      rw [List.map_map]
      rfl
    rw [edits_patches new cut, map_, order']
    exact (order.map _).symm
  have before_ := text fun _ => []
  have behind := text new
  simp only [List.nil_append] at before_ behind
  have applied := Edit.applyAll_eq apart perm rest'
  rw [source_patches, result_patches] at applied
  rw [before_, behind]
  exact applied

end Text
end Registrar
