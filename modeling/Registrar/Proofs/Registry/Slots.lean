import Registrar.Proofs.Registry.Linewise

/-!
A registry's text as its parts between the places where fragments go. Whatever entries are put in, the parts
are the same and only the blocks between them differ: each of them is what leads it in, the fragments of the
entries one after the other, and what trails them.
-/

namespace Registrar

open Recognition

/-- An element that is put into a sorted list comes behind those that it may not precede. -/
theorem exists_insertSorted {α : Type} (le : α → α → Bool) (a : α) (l : List α) :
    ∃ front back, insertSorted le a l = front ++ a :: back ∧ ∀ b ∈ front, le a b = false := by
  induction l with
  | nil => exact ⟨[], [], rfl, by simp⟩
  | cons b l ih =>
    rw [insertSorted]
    split
    · exact ⟨[], b :: l, rfl, by simp⟩
    · next later =>
      obtain ⟨front, back, inserted, least⟩ := ih
      refine ⟨b :: front, back, by rw [inserted, List.cons_append], ?_⟩
      exact List.forall_mem_cons.mpr ⟨by simpa using later, least⟩

/-- Where the fragments of an entry go that do not go to the end. -/
inductive Slot where
  | imports
  | fields
  | accessors
  deriving DecidableEq

namespace Slot

/-- The slots in the order in which edits are given. -/
def all : List Slot := [imports, fields, accessors]

theorem mem_all (s : Slot) : s ∈ all := by cases s <;> simp [all]

theorem nodup_all : all.Nodup := by simp [all]

end Slot

namespace Host

variable {h : Host} {entries : List Entry} {parts : List (Text × Slot)} {rest : Text} {s : Slot}

/-- The byte of the text at which a slot lies. -/
def place (h : Host) : Slot → Nat
  | .imports => (Zones.ofText h.text).lastImportEnd.getD 0
  | .fields => (Anchors.fieldsOf h.text (Zones.ofText h.text) h.config.contextField).offset
  | .accessors => (Anchors.accessorsOf h.text).offset

/-- What is put at a slot for entries. -/
def block (h : Host) (entries : List Entry) : Slot → Text
  | .imports => h.importBlock (h.place .imports) entries
  | .fields => h.fieldBlock (Anchors.fieldsOf h.text (Zones.ofText h.text) h.config.contextField) entries
  | .accessors => h.accessorBlock (Anchors.accessorsOf h.text) entries

/-- What is put at a slot for one entry. -/
def fragment (h : Host) (s : Slot) (e : Entry) : Text :=
  match s with
  | .imports => (Source.importLine e.className e.specifier).toList
  | .fields => (Source.fieldLine e.field e.className).toList
  | .accessors =>
    let block := (Source.accessorBlock h.config e.accessor e.field e.className).toList
    if (Anchors.accessorsOf h.text).atMark then block ++ ['\n'] else '\n' :: block

/-- What stands before the fragments of a slot. -/
def lead (h : Host) : Slot → Text
  | .fields => if (Anchors.fieldsOf h.text (Zones.ofText h.text) h.config.contextField).separated then ['\n']
    else []
  | _ => []

/-- What stands behind the fragments of a slot. -/
def trail (h : Host) : Slot → Text
  | .imports => if (Zones.ofText h.text).imports.isEmpty then ['\n'] else []
  | _ => []

theorem inserts_eq_map (h : Host) (entries : List Entry) :
    h.inserts entries = Slot.all.map fun s => .insert (h.place s) (h.block entries s) := rfl

theorem place_mem_places (h : Host) (s : Slot) :
    h.place s ∈ (Anchors.ofText h.text h.config.contextField).places := by
  cases s with
  | imports => exact List.mem_cons_self
  | fields => exact List.mem_cons_of_mem _ List.mem_cons_self
  | accessors => exact List.mem_cons_of_mem _ (List.mem_cons_of_mem _ List.mem_cons_self)

theorem block_mem_inserts (h : Host) (entries : List Entry) (s : Slot) :
    Edit.insert (h.place s) (h.block entries s) ∈ h.inserts entries := by
  rw [inserts_eq_map]
  exact List.mem_map_of_mem s.mem_all

theorem atLine_block (h : Host) (entries : List Entry) (s : Slot) : (h.block entries s).AtLine :=
  atLine_of_mem (h.block_mem_inserts entries s)

theorem atLine_lead (h : Host) (s : Slot) : (h.lead s).AtLine := by
  cases s with
  | imports | accessors => exact Text.atLine_nil
  | fields =>
    show Text.AtLine (if _ then ['\n'] else [])
    split
    · exact Text.atLine_concat []
    · exact Text.atLine_nil

theorem atLine_fragment (h : Host) (s : Slot) (e : Entry) : (h.fragment s e).AtLine := by
  cases s with
  | imports => exact Source.atLine_importLine _ _
  | fields => exact Source.atLine_fieldLine _ _
  | accessors =>
    simp only [fragment]
    split
    · exact Text.atLine_concat _
    · exact (Text.atLine_concat []).append (Source.atLine_accessorBlock _ _ _ _)

theorem fragment_ne_nil (h : Host) (s : Slot) (e : Entry) : h.fragment s e ≠ [] := by
  cases s with
  | imports => simp [fragment, Source.importLine]
  | fields => simp [fragment, Source.fieldLine, Source.indent]
  | accessors =>
    simp only [fragment]
    split <;> simp

/-- Slots begin lines. -/
theorem breakBefore_place (clear : Anchors.Clear h.text h.config.contextField) (s : Slot) :
    h.text.breakBefore (h.place s) = [] := by
  have member := h.place_mem_places s
  have between := Text.breakBefore_between (clear.atLine _ member) (h.text.after (h.place s))
  rwa [Text.before_append_after, (Anchors.isPlace_of_mem member).size_before] at between

/-- Where a slot begins a line nothing is put before what leads its fragments in. -/
theorem block_eq (free : h.text.breakBefore (h.place s) = []) (entries : List Entry) :
    h.block entries s = h.lead s ++ (entries.flatMap (h.fragment s) ++ h.trail s) := by
  cases s with
  | imports =>
    show h.importBlock _ entries = _
    rw [importBlock, free]
    rfl
  | fields =>
    show h.fieldBlock _ entries = _
    have free : h.text.breakBefore
      (Anchors.fieldsOf h.text (Zones.ofText h.text) h.config.contextField).offset = [] := free
    rw [fieldBlock, free]
    simp only [lead, trail, List.nil_append, List.append_nil]
    rfl
  | accessors =>
    show h.accessorBlock _ entries = _
    have free : h.text.breakBefore (Anchors.accessorsOf h.text).offset = [] := free
    rw [accessorBlock, free]
    simp only [lead, trail, List.nil_append, List.append_nil]
    rfl

/-- The parts of a text between its slots: entries are put in between them. At one place, the slot of accessors
is the last one. -/
structure Parted (h : Host) (parts : List (Text × Slot)) (rest : Text) : Prop where
  order : (parts.map Prod.snd).Perm Slot.all
  text : h.text = Text.unwoven parts rest
  cut : Text.Cut h.place 0 parts
  whole : ∀ p ∈ parts, p.1.AtLine
  later : parts.Pairwise fun p q => p.2 = .accessors → h.place .accessors < h.place q.2
  made : ∀ entries, h.withEntries entries = Text.woven (h.block entries) parts (rest ++ h.exportBlock entries)

theorem exists_parted (clear : Anchors.Clear h.text h.config.contextField) :
    ∃ parts rest, h.Parted parts rest := by
  let le (i j : Slot) : Bool := h.place j ≤ h.place i
  let order := sorted le Slot.all.reverse
  have made : ∀ entries, Edit.backToFront (h.inserts entries) =
      order.map fun s => .insert (h.place s) (h.block entries s) := by
    intro entries
    rw [Edit.backToFront, inserts_eq_map, ← List.map_reverse, sorted_map]
    rfl
  have ordered : order.reverse.Pairwise fun i j => h.place i ≤ h.place j := by
    refine List.pairwise_reverse.mpr ((sorted_pairwise ?_ ?_ _).imp fun order => by simpa [le] using order)
    · intro i j
      simpa [le] using Nat.le_total (h.place j) (h.place i)
    · intro i j k first second
      simp only [le, decide_eq_true_eq] at first second ⊢
      omega
  obtain ⟨parts, rest, slots, text, cut⟩ := Text.exists_cut (a := []) (b := h.text) rfl ordered
    (fun s _ => Anchors.isPlace_of_mem (h.place_mem_places s)) (by simp)
  rw [Text.size_nil] at cut
  refine ⟨parts, rest, ?_, text, cut, ?_, ?_, fun entries => ?_⟩
  · rw [slots]
    exact ((List.reverse_perm _).trans (sorted_perm _ _)).trans (List.reverse_perm _)
  · rintro ⟨kept, s⟩ member
    obtain ⟨ps, qs, rfl⟩ := List.append_of_mem member
    have place := cut.place_eq
    rw [Nat.zero_add] at place
    have starts := clear.atLine _ (h.place_mem_places s)
    rw [text, Text.unwoven_split, place, Text.before_size_append, ← List.nil_append kept,
      Text.unwoven_rest] at starts
    by_cases none_ : kept = []
    · rw [none_]
      exact Text.atLine_nil
    · exact starts.of_append none_
  · -- The accessors are sorted in as the last ones.
    obtain ⟨front, back, inserted, above⟩ :=
      exists_insertSorted le .accessors (sorted le [.fields, .imports])
    have order_eq : order = front ++ .accessors :: back := inserted
    have nodup : order.Nodup := (sorted_perm le Slot.all.reverse).nodup_iff.mpr
      (List.nodup_reverse.mpr Slot.nodup_all)
    rw [order_eq] at nodup
    have apart := (List.nodup_cons.mp (List.nodup_middle.mp nodup)).1
    simp only [List.mem_append, not_or] at apart
    have others : ∀ {l : List Slot}, .accessors ∉ l →
        l.Pairwise fun i j => j = .accessors → h.place .accessors < h.place i := fun absent =>
      List.pairwise_of_forall_mem_list fun i _ j member same => absurd (same ▸ member) absent
    have descending : order.Pairwise fun i j => j = .accessors → h.place .accessors < h.place i := by
      rw [order_eq]
      refine List.pairwise_append.mpr ⟨others apart.1, List.pairwise_cons.mpr ⟨?_, others apart.2⟩,
        fun i member j _ _ => by simpa [le] using above i member⟩
      exact fun j member same => absurd (same ▸ member) apart.2
    have ascending := List.pairwise_reverse.mpr descending
    rw [← slots] at ascending
    exact List.pairwise_map.mp ascending
  · have edits : (order.map fun s => Edit.insert (h.place s) (h.block entries s)) =
        (parts.map fun p => Edit.insert (h.place p.2) (h.block entries p.2)).reverse := by
      rw [← List.reverse_reverse order, ← slots, ← List.map_reverse, ← List.map_reverse, List.map_map]
      rfl
    rw [withEntries_eq, made, edits, text, ← Text.unwoven_rest]
    exact Text.foldl_apply_woven (h.block entries) cut (rest ++ h.exportBlock entries)

/-! ### Around a slot -/

namespace Parted

variable {ps qs : List (Text × Slot)} {kept : Text}

theorem exists_slot (parted : h.Parted parts rest) (s : Slot) :
    ∃ ps kept qs, parts = ps ++ (kept, s) :: qs := by
  have member : s ∈ parts.map Prod.snd := parted.order.mem_iff.mpr s.mem_all
  obtain ⟨⟨kept, s⟩, inside, rfl⟩ := List.mem_map.mp member
  obtain ⟨ps, qs, split⟩ := List.append_of_mem inside
  exact ⟨ps, kept, qs, split⟩

variable (parted : h.Parted (ps ++ (kept, s) :: qs) rest)
include parted

/-- A slot comes once. -/
theorem other_slot : ∀ p ∈ ps ++ qs, p.2 ≠ s := by
  have nodup := (parted.order.nodup_iff).mpr Slot.nodup_all
  rw [List.map_append, List.map_cons] at nodup
  have apart := (List.nodup_cons.mp (List.nodup_middle.mp nodup)).1
  rw [← List.map_append] at apart
  intro p member same
  have inside := List.mem_map_of_mem (f := Prod.snd) member
  rw [same] at inside
  exact apart inside

theorem text_eq : h.text = Text.unwoven ps kept ++ Text.unwoven qs rest := by
  rw [parted.text, Text.unwoven_split]

theorem place_eq : h.place s = (Text.unwoven ps kept).size := by
  rw [parted.cut.place_eq, Nat.zero_add]

theorem before_eq : h.text.before (h.place s) = Text.unwoven ps kept := by
  rw [parted.place_eq, parted.text_eq, Text.before_size_append]

theorem after_eq : h.text.after (h.place s) = Text.unwoven qs rest := by
  rw [parted.place_eq, parted.text_eq, Text.after_size_append]

theorem cut_front : Text.Cut h.place 0 ps := (Text.cut_append.mp parted.cut).1

theorem cut_back : Text.Cut h.place (h.place s) qs := by
  have later := (Text.cut_append.mp parted.cut).2
  rw [later.1]
  exact later.2

theorem whole_front : ∀ p ∈ ps, p.1.AtLine := fun p member => parted.whole p (by simp [member])

theorem whole_kept : kept.AtLine := parted.whole (kept, s) (by simp)

theorem whole_back : ∀ p ∈ qs, p.1.AtLine := fun p member => parted.whole p (by simp [member])

end Parted

end Host
end Registrar
