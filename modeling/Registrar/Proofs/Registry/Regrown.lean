import Registrar.Proofs.Registry.Declared

/-!
What is read off a registry with new entries. Its class is the old one; its imports, fields, accessors and
exports are the old ones and those of the entries, and nothing else.
-/

namespace Registrar

open Recognition Pattern

theorem Zones.accessorContents_flatMap {α : Type} {text : α → Text} {l : List α}
    (settled : ∀ a ∈ l, Settled (text a)) :
    accessorContents (l.flatMap text) = l.flatMap fun a => accessorContents (text a) := by
  induction l with
  | nil => exact accessorContents_before []
  | cons a l ih =>
    obtain ⟨here, later⟩ := List.forall_mem_cons.mp settled
    rw [List.flatMap_cons, here.append, ih later, List.flatMap_cons]

/-- Where no method begins in parts of a text none begins in any of them. -/
theorem findAll_eq_nil_of_unwoven {ι : Type} {parts : List (Text × ι)} {kept : Text}
    (steady : ∀ p ∈ parts, accessorSignature.Steady p.1) (whole : ∀ p ∈ parts, p.1.AtLine)
    (none_ : accessorSignature.findAll (Text.unwoven parts kept) = []) :
    (∀ p ∈ parts, accessorSignature.findAll p.1 = []) ∧ accessorSignature.findAll kept = [] := by
  induction parts with
  | nil => exact ⟨by simp, none_⟩
  | cons p parts ih =>
    obtain ⟨steady_, steady⟩ := List.forall_mem_cons.mp steady
    obtain ⟨whole_, whole⟩ := List.forall_mem_cons.mp whole
    obtain ⟨ms, ms', joined, first, second⟩ := steady_.findAll_append rfl Zones.local_accessorSignature
      whole_.edge_eq (Text.unwoven parts kept)
    rw [Text.unwoven_cons, joined, List.append_eq_nil_iff] at none_
    obtain ⟨rfl, rfl⟩ := none_
    obtain ⟨later, last⟩ := ih steady whole (List.forall₂_nil_right_iff.mp second)
    exact ⟨List.forall_mem_cons.mpr ⟨List.forall₂_nil_right_iff.mp first, later⟩, last⟩

theorem OnlyZone.settled {word : String} {d : Text} (only : OnlyZone word d) (other : word ≠ "public")
    (whole : d.AtLine) : Zones.Settled d where
  steady := only.steady_accessorSignature other
  whole := whole
  closed y := by
    have none_ := only.findAll_accessorSignature other
    rw [Zones.accessorContents_before, Zones.accessorContentsBefore_of_nil none_,
      Zones.accessorContentsBefore_of_nil none_]

namespace Host

variable {h : Host} {entries : List Entry} {ps qs : List (Text × Slot)} {kept rest : Text} {s : Slot}

/-- The registry with entries put in. -/
def grown (h : Host) (entries : List Entry) : Host := { h with text := h.withEntries entries }

theorem text_grown : (h.grown entries).text = h.withEntries entries := rfl

/-- Entries that a registry can be given so that its text is read as before and they are read in it. -/
structure Receives (h : Host) (entries : List Entry) : Prop where
  clear : Anchors.Clear h.text h.config.contextField
  braced : ∀ i, (Zones.ofText h.text).imports.getLast? = some i → i.bindingsSpan = none →
    Text.Shut '\x7b' '\x7d' (h.text.before i.span.start)
  spellable : h.Spellable
  some_ : entries ≠ []
  proper : ∀ e ∈ entries, e.Proper h.config
  words : ∀ e ∈ entries, ∀ c ∈ e.accessor.toList, Letter.isWord c = true
  apart : ∀ e ∈ entries, e.field ≠ h.config.contextField
  unmarked : ∀ e ∈ entries, ¬Source.accessorMark.toList <:+: e.specifier.toList
  /-- The specifiers have their braces in pairs, or no method begins above the imports. -/
  paired : (∀ e ∈ entries, Text.Balanced e.specifier.toList) ∨
    accessorSignature.findAll (h.text.before (h.place .imports)) = []

/-- The text with entries around a slot. -/
theorem Parted.withEntries_eq (parted : h.Parted (ps ++ (kept, s) :: qs) rest) (entries : List Entry) :
    h.withEntries entries = Text.woven (h.block entries) ps kept ++
      (h.block entries s ++ Text.woven (h.block entries) qs (rest ++ h.exportBlock entries)) := by
  rw [parted.made, Text.woven_split]

/-! ### Line by line -/

section
variable {α : Type} {content : Text → List α} (linewise : Text.Linewise content)
include linewise

/-- Blocks of lines in which nothing is read are passed over before a slot. -/
theorem content_before (parted : h.Parted (ps ++ (kept, s) :: qs) rest)
    (silent : ∀ s' ≠ s, ∀ e ∈ entries, content (e.piece h.config s') = []) :
    content (Text.woven (h.block entries) ps kept) = content (h.text.before (h.place s)) := by
  have none_ : ∀ p ∈ ps, content (h.block entries p.2) = [] := by
    intro p member
    rw [content_block linewise, List.flatMap_eq_nil_iff]
    exact silent p.2 (parted.other_slot p (by simp [member]))
  rw [parted.before_eq, linewise.woven_eq parted.whole_front (fun p _ => h.atLine_block entries p.2) none_,
    linewise.unwoven_eq parted.whole_front kept]

/-- Blocks of lines in which nothing is read are passed over behind a slot. -/
theorem content_behind (parted : h.Parted (ps ++ (kept, s) :: qs) rest)
    (silent : ∀ s' ≠ s, ∀ e ∈ entries, content (e.piece h.config s') = []) :
    content (Text.woven (h.block entries) qs (rest ++ h.exportBlock entries)) =
      content (h.text.after (h.place s)) ++ entries.flatMap fun e => content (h.exportLine e) := by
  have none_ : ∀ p ∈ qs, content (h.block entries p.2) = [] := by
    intro p member
    rw [content_block linewise, List.flatMap_eq_nil_iff]
    exact silent p.2 (parted.other_slot p (by simp [member]))
  have text : h.text = Text.unwoven (ps ++ (kept, s) :: qs) [] ++ rest := by
    rw [parted.text, ← Text.unwoven_rest, List.nil_append]
  have whole := Text.atLine_unwoven parted.whole Text.atLine_nil
  rw [parted.after_eq, linewise.woven_eq parted.whole_back (fun p _ => h.atLine_block entries p.2) none_,
    content_exportBlock linewise text whole, ← List.append_assoc, ← linewise.unwoven_eq parted.whole_back]

/-- What is read off a text with entries is read off the text, off the lines that are put in at a slot and off
the exports. -/
theorem content_withEntries (clear : Anchors.Clear h.text h.config.contextField) (s : Slot)
    (silent : ∀ s' ≠ s, ∀ e ∈ entries, content (e.piece h.config s') = []) :
    content (h.withEntries entries) = content (h.text.before (h.place s)) ++
      ((entries.flatMap fun e => content (e.piece h.config s)) ++
        (content (h.text.after (h.place s)) ++ entries.flatMap fun e => content (h.exportLine e))) := by
  obtain ⟨parts, rest, parted⟩ := h.exists_parted clear
  obtain ⟨ps, kept, qs, rfl⟩ := parted.exists_slot s
  have front : (Text.woven (h.block entries) ps kept).AtLine :=
    Text.atLine_woven parted.whole_front (fun p _ => h.atLine_block entries p.2) parted.whole_kept
  rw [parted.withEntries_eq, linewise.append front, linewise.append (h.atLine_block entries s),
    content_before linewise parted silent, content_behind linewise parted silent, content_block linewise]

/-- Text is read before and behind a slot. -/
theorem content_around (clear : Anchors.Clear h.text h.config.contextField) (s : Slot) :
    content h.text = content (h.text.before (h.place s)) ++ content (h.text.after (h.place s)) := by
  conv_lhs => rw [← Text.before_append_after (h.place s) h.text]
  exact linewise.append (clear.atLine _ (h.place_mem_places s)) _

theorem mem_content_withEntries (clear : Anchors.Clear h.text h.config.contextField) (s : Slot)
    (silent : ∀ s' ≠ s, ∀ e ∈ entries, content (e.piece h.config s') = []) (a : α) :
    a ∈ content (h.withEntries entries) ↔ a ∈ content h.text ∨
      (∃ e ∈ entries, a ∈ content (e.piece h.config s)) ∨ ∃ e ∈ entries, a ∈ content (h.exportLine e) := by
  rw [content_withEntries linewise clear s silent, content_around linewise clear s]
  simp only [List.mem_append, List.mem_flatMap]
  rw [← or_assoc, or_or_or_comm]

/-- Where nothing is read in the lines that are put in, the text and the exports are read. -/
theorem content_withEntries_of_silent (clear : Anchors.Clear h.text h.config.contextField)
    (silent : ∀ s, ∀ e ∈ entries, content (e.piece h.config s) = []) :
    content (h.withEntries entries) =
      content h.text ++ entries.flatMap fun e => content (h.exportLine e) := by
  have none_ : (entries.flatMap fun e => content (e.piece h.config .imports)) = [] :=
    List.flatMap_eq_nil_iff.mpr (silent .imports)
  rw [content_withEntries linewise clear .imports fun s _ => silent s, content_around linewise clear .imports,
    none_, List.nil_append, List.append_assoc]

end

namespace Receives

variable (receives : h.Receives entries)
include receives

theorem className?_withEntries : className? (h.withEntries entries) = className? h.text := by
  have none_ : (entries.flatMap fun e => classNames (h.exportLine e)) = [] :=
    List.flatMap_eq_nil_iff.mpr fun e member => classNames_exportLine (receives.proper e member) receives.spellable
  rw [className?_eq_classNames, className?_eq_classNames,
    content_withEntries_of_silent linewise_classNames receives.clear
      fun s e member => (receives.proper e member).classNames_piece s, none_, List.append_nil]

theorem className_grown : (h.grown entries).className = h.className := by
  have same := receives.className?_withEntries
  simp only [className, zones, Zones.ofText, grown] at same ⊢
  rw [same]

theorem markedLines_withEntries : Text.markedLines (h.withEntries entries) = Text.markedLines h.text := by
  have none_ : (entries.flatMap fun e => Text.markedLines (h.exportLine e)) = [] :=
    List.flatMap_eq_nil_iff.mpr fun e member => markedLines_exportLine (receives.proper e member) receives.spellable
  rw [content_withEntries_of_silent Text.linewise_markedLines receives.clear
    fun s e member => (receives.proper e member).markedLines_piece (receives.unmarked e member) s,
    none_, List.append_nil]

/-- The exports of a text with entries are those of the text and of the entries. -/
theorem exportSpan?_withEntries_isSome {accessor : String} (named : isIdentifier accessor.toList = true) :
    (exportSpan? (h.withEntries entries) accessor).isSome ↔
      (exportSpan? h.text accessor).isSome ∨ ∃ e ∈ entries, e.accessor = accessor := by
  have feedless : '\n' ∉ accessor.toList := not_mem_of_isIdentifier named (by decide)
  rw [exportSpan?_isSome_iff, exportSpan?_isSome_iff,
    content_withEntries_of_silent (linewise_exportsOf feedless) receives.clear
      fun s e member => (receives.proper e member).exportsOf_piece accessor s,
    ne_eq, List.append_eq_nil_iff, not_and_or, List.flatMap_eq_nil_iff]
  refine or_congr_right ?_
  rw [not_forall]
  refine exists_congr fun e => ?_
  rw [Classical.not_imp]
  exact and_congr_right fun member =>
    exportsOf_exportLine (receives.proper e member) receives.spellable (receives.words e member) named

/-- The fields of a text with entries are those of the text and of the entries. -/
theorem mem_fieldContents_withEntries (c : String × String × Bool) :
    c ∈ Zones.fieldContents (h.withEntries entries) ↔
      c ∈ Zones.fieldContents h.text ∨ ∃ e ∈ entries, c = e.fieldContent := by
  have none_ : ∀ e ∈ entries, Zones.fieldContents (h.exportLine e) = [] := fun e member =>
    fieldContents_exportLine (receives.proper e member) receives.spellable
  rw [mem_content_withEntries Zones.linewise_fieldContents receives.clear .fields fun s other e member => by
    rw [(receives.proper e member).fieldContents_piece, if_neg other]]
  have lines : ∀ e ∈ entries, Zones.fieldContents (e.piece h.config .fields) = [e.fieldContent] :=
    fun e member => by rw [(receives.proper e member).fieldContents_piece, if_pos rfl]
  constructor
  · rintro (old | ⟨e, member, inside⟩ | ⟨e, member, inside⟩)
    · exact .inl old
    · rw [lines e member] at inside
      exact .inr ⟨e, member, List.mem_singleton.mp inside⟩
    · rw [none_ e member] at inside
      cases inside
  · rintro (old | ⟨e, member, rfl⟩)
    · exact .inl old
    · exact .inr (.inl ⟨e, member, by rw [lines e member]; exact List.mem_singleton_self _⟩)

theorem hasField_withEntries (name : String) :
    (Zones.ofText (h.withEntries entries)).hasField name = true ↔
      (Zones.ofText h.text).hasField name = true ∨ ∃ e ∈ entries, e.field = name := by
  have named : ∀ t, (Zones.ofText t).hasField name = true ↔ ∃ c ∈ Zones.fieldContents t, c.1 = name := by
    intro t
    simp [Zones.hasField, Zones.fieldContents, Field.content]
  simp only [named, receives.mem_fieldContents_withEntries, or_and_right, exists_or]
  refine or_congr_right ?_
  constructor
  · rintro ⟨_, ⟨e, member, rfl⟩, same⟩
    exact ⟨e, member, same⟩
  · rintro ⟨e, member, same⟩
    exact ⟨_, ⟨e, member, rfl⟩, same⟩

/-! ### Accessors -/

/-- Where exports are sought to be methods none is found. -/
theorem scan_exportBlock (front : Text) : Scan accessorSignature (.between front (h.exportBlock entries)) []
    (.between (front ++ h.exportBlock entries) []) := by
  have lines : ∀ l : List Entry, (∀ e ∈ l, e.Proper h.config) → ∀ front,
      Scan accessorSignature (.between front (h.exportLines l)) [] (.between (front ++ h.exportLines l) []) := by
    intro l
    induction l with
    | nil => exact fun _ front => by simpa [exportLines] using .stay _
    | cons e l ih =>
      intro proper front
      have first : Scan accessorSignature (.between front (h.exportLine e ++ h.exportLines l)) [] _ :=
        scan_exportLine_keyworded (proper e (by simp)) receives.spellable (by simp [zoneWords]) front _
      have later := ih (fun e' member => proper e' (by simp [member])) (front ++ h.exportLine e)
      have all_ := first.trans later
      rw [List.append_assoc] at all_
      exact all_
  have break_ : Scan accessorSignature (.between front (h.text.breakBefore h.text.size ++ h.exportLines entries))
      [] (.between (front ++ h.text.breakBefore h.text.size) (h.exportLines entries)) :=
    (OnlyZone.breakBefore "import" h.text h.text.size).scan (by simp [zoneWords]) (by simp) front _
  have all_ := break_.trans (lines entries receives.proper _)
  rw [List.append_assoc] at all_
  exact all_

theorem brace_not_mem_exportBlock : '\x7d' ∉ h.exportBlock entries := by
  intro member
  rcases List.mem_append.mp member with inside | inside
  · have feed := Text.isFeeds_breakBefore h.text h.text.size _ inside
    cases feed
  · obtain ⟨e, inside, written⟩ := List.mem_flatMap.mp inside
    exact not_mem_exportLine (receives.proper e inside) receives.spellable.unclosed rfl (by decide) written

theorem accessorContents_exportBlock (continues : Text.Continues rest (h.exportBlock entries)) :
    Zones.accessorContents (rest ++ h.exportBlock entries) = Zones.accessorContents rest := by
  have assigns := h.assigns_exportBlock receives.some_ receives.proper
  obtain ⟨ms, scan, later⟩ := (Zones.settles_accessorSignature_before continues assigns).exists_scan
  obtain ⟨ms', scan', moved⟩ := later [] _ rfl (.inr rfl)
  rw [List.nil_append] at scan
  rw [List.nil_append, List.nil_append] at scan'
  have all_ := (scan'.trans (receives.scan_exportBlock rest)).findAll_eq (matchAt?_eq_none_of_moves rfl)
  rw [Zones.accessorContents_before rest, ← Zones.accessorContentsBefore_congr
    (Text.closesAlike_of_not_mem receives.brace_not_mem_exportBlock []), List.nil_append,
    Zones.accessorContents_eq, all_, List.append_nil,
    Zones.filterMap_opened?_of_moved moved, ← scan.findAll_eq (matchAt?_eq_none_of_moves rfl)]
  rfl

/-- Every block but that of imports closes its braces, and that of imports too if the specifiers do. -/
theorem balanced_block (s : Slot)
    (paired : s = .imports → ∀ e ∈ entries, Text.Balanced e.specifier.toList) :
    Text.Balanced (h.block entries s) := by
  cases s with
  | imports =>
    have lines : Text.Balanced (entries.flatMap fun e => (Source.importLine e.className e.specifier).toList) := by
      refine Text.balanced_flatMap fun e member => ?_
      have free := (receives.proper e member).names.not_mem (d := '\x7b') rfl
      have free' := (receives.proper e member).names.not_mem (d := '\x7d') rfl
      have inner : Text.Balanced (" " ++ e.className ++ " ").toList :=
        Text.balanced_of_not_mem (by simp [free.2.2.1]) (by simp [free'.2.2.1])
      have front : Text.Balanced "import ".toList := Text.balanced_of_not_mem (by simp) (by simp)
      have link : Text.Balanced " from '".toList := Text.balanced_of_not_mem (by simp) (by simp)
      have end_ : Text.Balanced "';\n".toList := Text.balanced_of_not_mem (by simp) (by simp)
      have all_ := (((front.append inner.block).append link).append (paired rfl e member)).append end_
      unfold Source.importLine
      simpa using all_
    have margin : Text.Balanced (if h.zones.imports.isEmpty then ['\n'] else []) := by
      split
      · exact Text.balanced_of_not_mem (by simp) (by simp)
      · exact Text.balanced_nil
    exact ((Text.balanced_breakBefore _ _).append lines).append margin
  | fields => exact h.balanced_fieldBlock receives.proper _
  | accessors => exact h.balanced_accessorBlock receives.proper _

theorem settled_block (s : Slot) : Zones.Settled (h.block entries s) := by
  cases s with
  | imports => exact (h.onlyZone_importBlock receives.proper _).settled (by simp) (h.atLine_block entries .imports)
  | fields => exact (h.onlyZone_fieldBlock receives.proper _).settled (by simp) (h.atLine_block entries .fields)
  | accessors =>
    exact ⟨h.steady_accessorBlock receives.proper _, h.atLine_block entries .accessors,
      Zones.accessorContentsBefore_of_balanced (h.balanced_accessorBlock receives.proper _)⟩

theorem accessorContents_fragment {e : Entry} (member : e ∈ entries) :
    Zones.accessorContents (h.fragment .accessors e) = [e.accessorContent] := by
  have feed : Zones.accessorContents ['\n'] = [] := by
    rw [Zones.accessorContents_eq, (OnlyZone.feed "import").findAll_accessorSignature (by simp)]
    rfl
  have settled_feed : Zones.Settled ['\n'] := (OnlyZone.feed "import").settled (by simp) (Text.atLine_concat [])
  have line : Zones.accessorContents (Source.accessorBlock h.config e.accessor e.field e.className).toList =
      [e.accessorContent] := by
    rw [Zones.accessorContents, Source.zones_accessorBlock (receives.proper e member).names]
    rfl
  have settled_line : Zones.Settled (Source.accessorBlock h.config e.accessor e.field e.className).toList :=
    ⟨(settles_accessorSignature (Source.atLine_accessorBlock _ _ _ _)
      (receives.proper e member).shut_accessorBlock).steady rfl, Source.atLine_accessorBlock _ _ _ _,
      Zones.accessorContentsBefore_of_balanced (receives.proper e member).balanced_accessorBlock⟩
  simp only [fragment]
  split
  · rw [settled_line.append, line, feed, List.append_nil]
  · rw [← List.singleton_append, settled_feed.append, line, feed, List.nil_append]

theorem settled_fragment {e : Entry} (member : e ∈ entries) : Zones.Settled (h.fragment .accessors e) := by
  have proper := receives.proper e member
  have feed : Text.Shut '(' ')' ['\n'] := Text.shut_of_not_mem (by simp)
  have feed' : Text.Balanced ['\n'] := Text.balanced_of_not_mem (by simp) (by simp)
  have parts : Text.Shut '(' ')' (h.fragment .accessors e) ∧ Text.Balanced (h.fragment .accessors e) := by
    simp only [fragment]
    split
    · exact ⟨proper.shut_accessorBlock.append feed, proper.balanced_accessorBlock.append feed'⟩
    · exact ⟨feed.append proper.shut_accessorBlock, feed'.append proper.balanced_accessorBlock⟩
  have whole := h.atLine_fragment .accessors e
  exact ⟨(settles_accessorSignature whole parts.1).steady rfl, whole,
    Zones.accessorContentsBefore_of_balanced parts.2⟩

/-- The accessors that are put in are those of the entries. -/
theorem accessorContents_block (s : Slot) : Zones.accessorContents (h.block entries s) =
    if s = .accessors then entries.map Entry.accessorContent else [] := by
  have none_ : ∀ {word : String} {d : Text}, OnlyZone word d → word ≠ "public" →
      Zones.accessorContents d = [] := by
    intro word d only other
    rw [Zones.accessorContents_eq, only.findAll_accessorSignature other]
    rfl
  cases s with
  | imports => exact none_ (h.onlyZone_importBlock receives.proper _) (by simp)
  | fields => exact none_ (h.onlyZone_fieldBlock receives.proper _) (by simp)
  | accessors =>
    rw [block_eq (breakBefore_place receives.clear .accessors)]
    simp only [lead, trail, List.nil_append, List.append_nil, if_true]
    rw [Zones.accessorContents_flatMap fun e member => receives.settled_fragment member,
      List.flatMap_congr fun e member => receives.accessorContents_fragment member, List.map_eq_flatMap]

/-- Behind a part of the text that may hold a method, every block closes its braces. -/
theorem paired_parts {parts : List (Text × Slot)} (parted : h.Parted parts rest)
    (steady : ∀ p ∈ parts, accessorSignature.Steady p.1) (split : parts = ps ++ (kept, s) :: qs) :
    accessorSignature.findAll kept = [] ∨
      ∀ q ∈ (kept, s) :: qs, Text.Balanced (h.block entries q.2) := by
  rcases receives.paired with balanced | none_
  · exact .inr fun q _ => receives.balanced_block q.2 fun _ => balanced
  · by_cases behind : ∀ q ∈ (kept, s) :: qs, q.2 ≠ .imports
    · exact .inr fun q member => receives.balanced_block q.2 fun same => absurd same (behind q member)
    · -- The imports go in behind the part.
      simp only [not_forall, Decidable.not_not] at behind
      obtain ⟨⟨kept', s'⟩, member, rfl⟩ := behind
      obtain ⟨as, bs, split'⟩ := List.append_of_mem member
      have text : parts = (ps ++ as) ++ (kept', .imports) :: bs := by
        rw [split, split', List.append_assoc]
      rw [text] at parted steady
      rw [parted.before_eq] at none_
      have silent : (∀ p ∈ ps ++ as, _ = []) ∧ accessorSignature.findAll kept' = [] := findAll_eq_nil_of_unwoven
        (fun p member => steady p (List.mem_append_left _ member)) parted.whole_front none_
      have inside : (kept, s) ∈ as ++ [(kept', Slot.imports)] := by
        cases as with
        | nil => simpa using (List.cons.inj split').1
        | cons a as => simp [(List.cons.inj split').1]
      rcases List.mem_append.mp inside with inside | inside
      · exact .inl (silent.1 _ (List.mem_append_right _ inside))
      · obtain rfl : kept = kept' := congrArg Prod.fst (List.mem_singleton.mp inside)
        exact .inl silent.2

/-- The accessors of a text with entries are those of the text and of the entries. -/
theorem mem_accessorContents_withEntries (c : String × Option String) :
    c ∈ Zones.accessorContents (h.withEntries entries) ↔
      c ∈ Zones.accessorContents h.text ∨ ∃ e ∈ entries, c = e.accessorContent := by
  obtain ⟨parts, rest, parted⟩ := h.exists_parted receives.clear
  have steady : ∀ p ∈ parts, accessorSignature.Steady p.1 := by
    rintro ⟨kept, s⟩ member
    obtain ⟨ps, qs, rfl⟩ := List.append_of_mem member
    have shut := receives.clear.parentheses _ (h.place_mem_places s)
    rw [parted.before_eq, ← List.nil_append kept, Text.unwoven_rest] at shut
    exact (settles_accessorSignature parted.whole_kept shut.of_append).steady rfl
  have continues : Text.Continues rest (h.exportBlock entries) := by
    have whole := h.continues_exportBlock entries
    rw [parted.text, ← List.nil_append rest, Text.unwoven_rest] at whole
    exact whole.of_append
  rw [parted.made, parted.text, Zones.mem_accessorContents_interwoven steady parted.whole
    (fun p _ => receives.settled_block p.2) (fun ps p qs split => receives.paired_parts parted steady split)
    (Text.closesAlike_of_not_mem receives.brace_not_mem_exportBlock rest)
    (receives.accessorContents_exportBlock continues)]
  refine or_congr_right ⟨?_, ?_⟩
  · rintro ⟨p, -, inside⟩
    rw [receives.accessorContents_block] at inside
    split at inside
    · obtain ⟨e, member, rfl⟩ := List.mem_map.mp inside
      exact ⟨e, member, rfl⟩
    · cases inside
  · rintro ⟨e, member, rfl⟩
    obtain ⟨ps, kept, qs, rfl⟩ := parted.exists_slot .accessors
    refine ⟨(kept, .accessors), by simp, ?_⟩
    rw [receives.accessorContents_block, if_pos rfl]
    exact List.mem_map_of_mem member

theorem accessorNamed?_withEntries_isSome (name : String) :
    ((Zones.ofText (h.withEntries entries)).accessorNamed? name).isSome ↔
      ((Zones.ofText h.text).accessorNamed? name).isSome ∨ ∃ e ∈ entries, e.accessor = name := by
  have named : ∀ t, ((Zones.ofText t).accessorNamed? name).isSome ↔
      ∃ c ∈ Zones.accessorContents t, c.1 = name := by
    intro t
    simp [Zones.accessorNamed?, Zones.accessorContents, Accessor.content, List.find?_isSome]
  simp only [named, receives.mem_accessorContents_withEntries, or_and_right, exists_or]
  refine or_congr_right ?_
  constructor
  · rintro ⟨_, ⟨e, member, rfl⟩, same⟩
    exact ⟨e, member, same⟩
  · rintro ⟨e, member, same⟩
    exact ⟨_, ⟨e, member, rfl⟩, same⟩

end Receives

end Host
end Registrar
