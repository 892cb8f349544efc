import Registrar.Proofs.Registry.Remarked

/-!
Adding to a registry twice. The fragments of the later entries go right behind those of the earlier ones, so
the text is the one that comes about when all entries are added at once.
-/

namespace Registrar

open Recognition

namespace Host

variable {h : Host} {entries later : List Entry} {ps qs : List (Text × Slot)} {kept rest : Text} {s : Slot}

/-- The last line of a registry with new entries has its ending. -/
theorem atLine_withEntries (h : Host) (entries : List Entry) : (h.withEntries entries).AtLine := by
  obtain ⟨front, text, whole⟩ := h.exists_withEntries entries
  rw [text]
  exact whole.append (Text.atLine_flatMap (fun e => h.atLine_exportLine e) entries)

namespace Receives

variable (receives : h.Receives entries) (marked : Anchors.Marked h.text)
include receives

theorem exportBlock_grown : (h.grown entries).exportBlock later = h.exportLines later := by
  have free : (h.grown entries).text.breakBefore (h.grown entries).text.size = [] := by
    have between := Text.breakBefore_between (h.atLine_withEntries entries) []
    rwa [List.append_nil] at between
  rw [exportBlock, free, List.nil_append, receives.className_grown]
  rfl

include marked

/-- Slots lie behind what has been put in at them. -/
theorem place_grown (parted : h.Parted (ps ++ (kept, s) :: qs) rest) : (h.grown entries).place s =
    Text.size (Text.woven (h.block entries) ps (kept ++ (h.lead s ++ entries.flatMap (h.fragment s)))) := by
  rw [Text.woven_rest]
  cases s with
  | imports =>
    show (Zones.ofText (h.withEntries entries)).lastImportEnd.getD 0 = _
    rw [(receives.imports_withEntries parted).2]
    rfl
  | fields =>
    show (Anchors.fieldsOf (h.withEntries entries) _ _).offset = _
    exact congrArg FieldAnchor.offset (receives.fieldsOf_withEntries parted)
  | accessors =>
    show (Anchors.accessorsOf (h.withEntries entries)).offset = _
    rw [receives.accessorsOf_withEntries marked parted]
    rfl

/-- Where entries have been put in, more of them are put in without anything before or behind them. -/
theorem block_grown (s : Slot) : (h.grown entries).block later s = later.flatMap (h.fragment s) := by
  obtain ⟨parts, rest, parted⟩ := h.exists_parted receives.clear
  obtain ⟨ps, kept, qs, rfl⟩ := parted.exists_slot s
  have free : (h.grown entries).text.breakBefore ((h.grown entries).place s) = [] := by
    have whole : (Text.woven (h.block entries) ps (kept ++ (h.lead s ++ entries.flatMap (h.fragment s)))).AtLine :=
      Text.atLine_woven parted.whole_front (fun p _ => h.atLine_block entries p.2) (parted.whole_kept.append
        ((h.atLine_lead s).append (Text.atLine_flatMap (h.atLine_fragment s) entries)))
    have between := Text.breakBefore_between whole
      (h.trail s ++ Text.woven (h.block entries) qs (rest ++ h.exportBlock entries))
    rw [← receives.place_grown marked parted] at between
    have text : (h.grown entries).text = _ := parted.withEntries_eq entries
    rw [Text.woven_rest] at between
    rw [text, block_eq (breakBefore_place receives.clear s)]
    simpa using between
  rw [block_eq free]
  cases s with
  | imports =>
    have some_ : (Zones.ofText (h.grown entries).text).imports.isEmpty = false := by
      have last := (receives.imports_withEntries parted).2
      rw [Zones.lastImportEnd] at last
      show (Zones.ofText (h.withEntries entries)).imports.isEmpty = false
      cases none_ : (Zones.ofText (h.withEntries entries)).imports with
      | nil => simp [none_] at last
      | cons i is => rfl
    simp only [lead, trail, some_, List.nil_append, Bool.false_eq_true, if_false, List.append_nil]
    rfl
  | fields =>
    have last := receives.fieldsOf_withEntries parted
    have joined : (Anchors.fieldsOf (h.grown entries).text (Zones.ofText (h.grown entries).text)
      (h.grown entries).config.contextField).separated = false := congrArg FieldAnchor.separated last
    simp only [lead, trail, joined, List.nil_append, Bool.false_eq_true, if_false, List.append_nil]
    rfl
  | accessors =>
    have place := receives.accessorsOf_withEntries marked parted
    have same : (Anchors.accessorsOf (h.grown entries).text).atMark = (Anchors.accessorsOf h.text).atMark := by
      show (Anchors.accessorsOf (h.withEntries entries)).atMark = _
      rw [place]
    simp only [lead, trail, List.nil_append, List.append_nil]
    refine List.flatMap_congr fun e _ => ?_
    simp only [fragment, same]
    rfl

/-- Entries that are put in after others come to stand where they had come to stand with them. -/
theorem withEntries_grown (later : List Entry) :
    (h.grown entries).withEntries later = h.withEntries (entries ++ later) := by
  obtain ⟨parts, rest, parted⟩ := h.exists_parted receives.clear
  let u (s : Slot) : Text := h.lead s ++ entries.flatMap (h.fragment s)
  have block : ∀ new : List Entry, h.block (entries ++ new) =
      fun s => u s ++ (new.flatMap (h.fragment s) ++ h.trail s) := by
    intro new
    funext s
    rw [block_eq (breakBefore_place receives.clear s), List.flatMap_append]
    simp [u]
  have some_ : ∀ s, u s ≠ [] := by
    intro s none_
    obtain ⟨e, others, split⟩ := List.exists_cons_of_ne_nil receives.some_
    have empty := (List.append_eq_nil_iff.mp none_).2
    rw [split, List.flatMap_cons, List.append_eq_nil_iff] at empty
    exact h.fragment_ne_nil s e empty.1
  have inserts : (h.grown entries).inserts later =
      Slot.all.map fun s => .insert ((h.grown entries).place s) (later.flatMap (h.fragment s)) := by
    rw [inserts_eq_map]
    exact List.map_congr_left fun s _ => by rw [receives.block_grown marked s]
  have exports : h.exportBlock entries ++ h.exportLines later = h.exportBlock (entries ++ later) := by
    simp [exportBlock, exportLines]
  have text : (h.grown entries).text ++ h.exportLines later =
      Text.woven (fun s => u s ++ h.trail s) parts (rest ++ h.exportBlock (entries ++ later)) := by
    have made : (h.grown entries).text = _ := parted.made entries
    have alone := block []
    simp only [List.append_nil, List.flatMap_nil, List.nil_append] at alone
    rw [made, alone, ← Text.woven_rest, List.append_assoc, exports]
  have places : ∀ ps kept s qs, parts = ps ++ (kept, s) :: qs →
      (h.grown entries).place s = Text.size (Text.woven (fun s => u s ++ h.trail s) ps (kept ++ u s)) := by
    intro ps kept s qs split
    have alone := block []
    simp only [List.append_nil, List.flatMap_nil, List.nil_append] at alone
    rw [← alone]
    exact receives.place_grown marked (split ▸ parted)
  have applied : Edit.applyAll (Slot.all.map fun s => .insert ((h.grown entries).place s)
      (later.flatMap (h.fragment s))) (Text.woven (fun s => u s ++ h.trail s) parts _) = _ :=
    Text.applyAll_woven_again parted.order some_ places (rest ++ h.exportBlock (entries ++ later))
  rw [withEntries_eq, receives.exportBlock_grown, text, inserts, parted.made, block]
  exact applied

end Receives

end Host
end Registrar
