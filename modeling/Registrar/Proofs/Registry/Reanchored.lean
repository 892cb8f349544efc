import Registrar.Proofs.Registry.Lacking
import Registrar.Proofs.Registry.Regrown

/-!
Where fragments go in a registry with new entries: right behind the fragments of those entries, so that what
is added later comes to stand as if it had been added with them.
-/

namespace Registrar

open Recognition Pattern

namespace Text

variable {ι : Type} {place : ι → Nat} {parts : List (Text × ι)} {n k : Nat}

/-- Parts are cut off behind the places that precede them. -/
theorem Cut.shifted (cut : Cut place n parts) (less : k ≤ n) : Cut (fun i => place i - k) (n - k) parts := by
  induction parts generalizing n with
  | nil => trivial
  | cons p parts ih =>
    obtain ⟨here, later⟩ := cut
    have behind := ih later (by omega)
    have sum : n + p.1.size - k = n - k + p.1.size := by omega
    rw [sum] at behind
    refine ⟨?_, behind⟩
    show place p.2 - k = _
    omega

end Text

/-! ### The last field of a helper -/

/-- A field that new fields follow. -/
def Field.IsHelper (contextField : String) (f : Field) : Prop := (!f.isStatic && f.name != contextField) = true

theorem Field.isHelper_moved {contextField : String} {f : Field} (n : Nat) :
    (f.moved n).IsHelper contextField ↔ f.IsHelper contextField := Iff.rfl

namespace Anchors

variable {t x y : Text} {contextField : String} {fs gs : List Field} {f : Field}

theorem fieldsOf_of_last (fields : (Zones.ofText t).fields = fs ++ f :: gs) (here : f.IsHelper contextField)
    (none_ : ∀ g ∈ gs, ¬g.IsHelper contextField) :
    fieldsOf t (Zones.ofText t) contextField = ⟨f.span.stop, false⟩ := by
  have here : (!f.isStatic && f.name != contextField) = true := here
  have found : (Zones.ofText t).fields.reverse.find? (fun f => !f.isStatic && f.name != contextField) = some f := by
    rw [fields, List.reverse_append, List.reverse_cons, List.find?_append, List.find?_append,
      List.find?_eq_none.mpr fun g member => none_ g (List.mem_reverse.mp member), Option.none_or,
      List.find?_singleton, if_pos here, Option.some_or]
  rw [fieldsOf, found]

theorem stop_pos_of_mem_fields (member : f ∈ (Zones.ofText t).fields) : 0 < f.span.stop := by
  obtain ⟨m, found, rfl⟩ := List.mem_map.mp member
  have bounds := (exists_scan_findAll (p := fieldDeclaration) rfl Zones.local_fieldDeclaration t).bounds.2 m found
  show 0 < m.stop.offset
  omega

/-- New fields go behind every field of a helper. -/
theorem not_isHelper_behind (split : t = x ++ y) (whole : x.AtLine)
    (place : (fieldsOf t (Zones.ofText t) contextField).offset = x.size) :
    ∀ f ∈ (Zones.ofText y).fields, ¬f.IsHelper contextField := by
  subst split
  by_contra some_
  simp only [not_forall, Classical.not_not] at some_
  obtain ⟨f, member, helper⟩ := some_
  obtain ⟨fs, g, gs, split, here, none_⟩ : ∃ fs g gs, (Zones.ofText y).fields = fs ++ g :: gs ∧
      g.IsHelper contextField ∧ ∀ g' ∈ gs, ¬g'.IsHelper contextField := by
    obtain ⟨g, found⟩ := Option.isSome_iff_exists.mp (List.find?_isSome.mpr ⟨f, List.mem_reverse.mpr member, helper⟩ :
      ((Zones.ofText y).fields.reverse.find? fun f => !f.isStatic && f.name != contextField).isSome)
    obtain ⟨here, as, bs, reversed, none_⟩ := List.find?_eq_some_iff_append.mp found
    refine ⟨bs.reverse, g, as.reverse, ?_, here, fun g' member helper => ?_⟩
    · rw [← List.reverse_reverse (Zones.ofText y).fields, reversed]
      simp
    · have other := none_ g' (List.mem_reverse.mp member)
      rw [show (!g'.isStatic && g'.name != contextField) = true from helper] at other
      cases other
  have positive := stop_pos_of_mem_fields (f := g) (t := y) (by rw [split]; simp)
  have fields := Zones.fields_append whole y
  rw [split, List.map_append, List.map_cons, ← List.append_assoc] at fields
  rw [fieldsOf_of_last fields ((Field.isHelper_moved _).mpr here) fun g' member => by
    obtain ⟨g', inside, rfl⟩ := List.mem_map.mp member
    exact none_ g' inside] at place
  have stop : (g.moved x.size).span.stop = g.span.stop + x.size := rfl
  dsimp only at place
  omega

end Anchors

namespace Host

variable {h : Host} {entries : List Entry} {ps qs : List (Text × Slot)} {kept rest : Text} {s : Slot}

namespace Receives

variable (receives : h.Receives entries)
include receives

/-! ### Imports -/

theorem inert_block (other : s ≠ .imports) : Inert (h.block entries s) := by
  cases s with
  | imports => exact absurd rfl other
  | fields => exact h.inert_fieldBlock receives.proper _
  | accessors => exact h.inert_accessorBlock receives.proper _

theorem unquoted_exportBlock : ∀ c ∈ h.exportBlock entries, isQuote c = false := by
  intro c member
  by_contra quoted
  rw [Bool.not_eq_false] at quoted
  rcases List.mem_append.mp member with inside | inside
  · exact Text.quote_not_mem_breakBefore _ _ quoted inside
  · obtain ⟨e, inside, written⟩ := List.mem_flatMap.mp inside
    have registry : c ∉ h.className.toList := fun member => by
      rw [receives.spellable.unquoted c member] at quoted
      cases quoted
    have either : c = '\'' ∨ c = '"' := by simpa [isQuote] using quoted
    have other : isNamePart c = false := by rcases either with rfl | rfl <;> rfl
    refine not_mem_exportLine (receives.proper e inside) registry other ?_ written
    rcases either with rfl | rfl <;> decide

/-- Up to the slot of imports, the imports are read as they were. -/
theorem exists_scan_front (parted : h.Parted (ps ++ (kept, .imports) :: qs) rest) (w : Text) :
    ∃ ms, Scan importStatement (.between [] (Text.woven (h.block entries) ps kept ++ w)) ms
      (.between (Text.woven (h.block entries) ps kept) w) ∧
      (ms.filterMap Zones.import?).map Import.content = Zones.importContents h.text := by
  have clear := receives.clear
  obtain ⟨ms, scan, read⟩ := Zones.exists_scan_imports (t := h.text)
    (clear.atLine _ (h.place_mem_places .imports)) receives.braced w
  have before_ : h.text.before ((Zones.ofText h.text).lastImportEnd.getD 0) = Text.unwoven ps kept :=
    parted.before_eq
  rw [before_] at scan
  obtain ⟨ms', scan', same, -⟩ := Zones.exists_scan_interwoven (Text.atLine_nil : Text.AtLine [])
    parted.whole_front (fun p member => receives.inert_block (parted.other_slot p (List.mem_append_left _ member)))
    parted.cut_front scan fun p _ => read ▸ clear.outside _ (h.place_mem_places p.2)
  exact ⟨ms', scan', by rw [same, read]; rfl⟩

/-- Behind the slot of imports there are none. -/
theorem imports_back (parted : h.Parted (ps ++ (kept, .imports) :: qs) rest) :
    (Zones.ofText (Text.woven (h.block entries) qs (rest ++ h.exportBlock entries))).imports = [] := by
  have clear := receives.clear
  have whole := clear.atLine _ (h.place_mem_places .imports)
  obtain ⟨ms, scan, read⟩ := Zones.exists_scan_imports (t := h.text) whole receives.braced (Text.unwoven qs rest)
  have before_ : h.text.before ((Zones.ofText h.text).lastImportEnd.getD 0) = Text.unwoven ps kept :=
    parted.before_eq
  have whole' : (Text.unwoven ps kept).AtLine := before_ ▸ whole
  rw [before_] at scan
  have all_ := Zones.imports_of_scan whole' scan
  rw [← parted.text_eq, read, List.self_eq_append_right, List.map_eq_nil_iff] at all_
  have none_ := Zones.imports_append_eq_nil receives.unquoted_exportBlock all_
  rw [← Text.unwoven_rest] at none_
  have found := exists_scan_findAll (p := importStatement) rfl Zones.local_importStatement
    (Text.unwoven qs (rest ++ h.exportBlock entries))
  have cut := parted.cut_back.shifted (Nat.le_refl _)
  rw [Nat.sub_self] at cut
  have nothing : (importStatement.findAll (Text.unwoven qs (rest ++ h.exportBlock entries))).filterMap
      Zones.import? = [] := none_
  have whole_scan : Scan importStatement (.between [] ([] ++ (Text.unwoven qs (rest ++ h.exportBlock entries) ++ [])))
      (importStatement.findAll (Text.unwoven qs (rest ++ h.exportBlock entries)))
      (.between ([] ++ Text.unwoven qs (rest ++ h.exportBlock entries)) []) := by simpa using found
  obtain ⟨ms', scan', same, -⟩ := Zones.exists_scan_interwoven Text.atLine_nil parted.whole_back
    (fun p member => receives.inert_block (parted.other_slot p (List.mem_append_right _ member))) cut
    whole_scan (fun p _ i member => by rw [nothing] at member; cases member)
  rw [List.nil_append, List.append_nil, List.nil_append] at scan'
  rw [nothing, List.map_nil, List.map_eq_nil_iff] at same
  show (importStatement.findAll _).filterMap Zones.import? = []
  rw [scan'.findAll_eq (matchAt?_eq_none_of_moves rfl), same]

/-- The import lines of the entries are read behind the imports of the text, up to the end of the last one. -/
theorem exists_scan_lines {front : Text} (whole : front.AtLine) (w : Text) : ∃ ms i,
    Scan importStatement (.between front (entries.flatMap (h.fragment .imports) ++ w)) ms
      (.between (front ++ entries.flatMap (h.fragment .imports)) w) ∧
      (ms.filterMap Zones.import?).map Import.content = entries.map Entry.importContent ∧
      (ms.filterMap Zones.import?).getLast? = some i ∧
      i.span.stop = Text.size (front ++ entries.flatMap (h.fragment .imports)) := by
  obtain ⟨init, e, split⟩ := List.eq_nil_or_concat entries |>.resolve_left receives.some_
  have proper : ∀ e' ∈ init ++ [e], e'.Proper h.config := fun e' member =>
    receives.proper e' (by rw [split, List.concat_eq_append]; exact member)
  rw [List.concat_eq_append] at split
  have here := proper e (by simp)
  have line : h.fragment .imports e = importText false e.className.toList e.specifier.toList := by
    show (Source.importLine e.className e.specifier).toList = _
    unfold Source.importLine importText importLead
    simp [typeWord, Recognition.braced]
  have earlier : ∀ e' ∈ init, e'.Proper h.config := fun e' member => proper e' (List.mem_append_left _ member)
  obtain ⟨ms, first, found⟩ := exists_scan_importLines earlier whole (h.fragment .imports e ++ w)
  have whole' : (front ++ init.flatMap (h.fragment .imports)).AtLine :=
    whole.append (Text.atLine_flatMap (h.atLine_fragment .imports) init)
  obtain ⟨ms', second, found'⟩ : ∃ ms', Scan importStatement (.between _ (importText false _ _ ++ w)) ms' _ ∧ _ :=
    Part.exists_scan_importText false whole' here.names.className here.some_ here.unquoted
  rw [← line] at second
  refine ⟨ms ++ ms', Part.importAt (front ++ init.flatMap (h.fragment .imports)).size false e.className
    e.specifier, ?_, ?_, ?_, ?_⟩
  · rw [split, List.flatMap_append, List.flatMap_singleton, List.append_assoc, ← List.append_assoc front]
    exact first.trans second
  · rw [List.filterMap_append, List.map_append, found, found', split, List.map_append]
    rfl
  · rw [List.filterMap_append, found', List.getLast?_append_of_ne_nil _ (by simp)]
    rfl
  · rw [split, List.flatMap_append, List.flatMap_singleton, ← List.append_assoc, line]
    exact (Text.size_append _ _).symm

/-- The imports of the text stay, those of the entries follow, and the last one ends with the lines that are
put in. -/
theorem imports_withEntries (parted : h.Parted (ps ++ (kept, .imports) :: qs) rest) :
    Zones.importContents (h.withEntries entries) =
      Zones.importContents h.text ++ entries.map Entry.importContent ∧
    (Zones.ofText (h.withEntries entries)).lastImportEnd = some (Text.size
      (Text.woven (h.block entries) ps kept ++ entries.flatMap (h.fragment .imports))) := by
  have block : h.block entries .imports = entries.flatMap (h.fragment .imports) ++ h.trail .imports := by
    rw [block_eq (breakBefore_place receives.clear .imports)]
    rfl
  have front : (Text.woven (h.block entries) ps kept).AtLine :=
    Text.atLine_woven parted.whole_front (fun p _ => h.atLine_block entries p.2) parted.whole_kept
  have text := parted.withEntries_eq entries
  have trail : ∀ f y, Scan importStatement (.between f (h.trail .imports ++ y)) []
      (.between (f ++ h.trail .imports) y) := by
    have only : OnlyZone "public" (h.trail .imports) := by
      show OnlyZone "public" (if (Zones.ofText h.text).imports.isEmpty then ['\n'] else [])
      split
      · exact .feed _
      · exact .nil _
    exact only.scan (by simp [zoneWords]) (by simp)
  have none_ := receives.imports_back parted
  generalize Text.woven (h.block entries) qs (rest ++ h.exportBlock entries) = w at text none_
  obtain ⟨ms, first, old⟩ := receives.exists_scan_front parted (h.block entries .imports ++ w)
  obtain ⟨ms', i, second, new_, last, stop⟩ := receives.exists_scan_lines front (h.trail .imports ++ w)
  rw [block, List.append_assoc] at first
  have scan := (first.trans second).trans (trail _ w)
  rw [List.append_nil, List.append_assoc, ← block, ← List.append_assoc _ _ w, ← block, ← List.append_assoc] at scan
  have all_ := Zones.imports_of_scan (front.append (h.atLine_block entries .imports)) scan
  rw [none_, List.map_nil, List.append_nil, List.append_assoc, ← text, List.filterMap_append] at all_
  constructor
  · rw [Zones.importContents, all_, List.map_append, old, new_]
  · rw [Zones.lastImportEnd, all_, List.getLast?_append, last, Option.some_or, Option.map_some, stop]

theorem importsName_withEntries (name : String) :
    (Zones.ofText (h.withEntries entries)).importsName name = true ↔
      (Zones.ofText h.text).importsName name = true ∨ ∃ e ∈ entries, e.className = name := by
  obtain ⟨parts, rest, parted⟩ := h.exists_parted receives.clear
  obtain ⟨ps, kept, qs, rfl⟩ := parted.exists_slot .imports
  have named : ∀ t, (Zones.ofText t).importsName name = true ↔ ∃ c ∈ Zones.importContents t,
      (c.1 == some name || c.2.1.any fun b => b.imported == name || b.bound == name) = true := by
    intro t
    simp [Zones.importsName, Zones.importContents, Import.content, Import.binds]
  rw [named, named, (receives.imports_withEntries parted).1]
  simp only [List.mem_append, List.mem_map, or_and_right, exists_or]
  refine or_congr_right ?_
  constructor
  · rintro ⟨_, ⟨e, member, rfl⟩, binds⟩
    exact ⟨e, member, by simpa [Entry.importContent] using binds⟩
  · rintro ⟨e, member, rfl⟩
    exact ⟨_, ⟨e, member, rfl⟩, by simp [Entry.importContent]⟩

/-! ### Fields -/

theorem not_isHelper_back (parted : h.Parted (ps ++ (kept, .fields) :: qs) rest) :
    ∀ f ∈ (Zones.ofText (Text.woven (h.block entries) qs (rest ++ h.exportBlock entries))).fields,
      ¬f.IsHelper h.config.contextField := by
  intro f member helper
  have whole := receives.clear.atLine _ (h.place_mem_places .fields)
  have none_ := Anchors.not_isHelper_behind parted.text_eq (parted.before_eq ▸ whole) parted.place_eq
  have contents := content_behind Zones.linewise_fieldContents parted fun s' other e member => by
    rw [(receives.proper e member).fieldContents_piece, if_neg other]
  have exports : (entries.flatMap fun e => Zones.fieldContents (h.exportLine e)) = [] :=
    List.flatMap_eq_nil_iff.mpr fun e member => fieldContents_exportLine (receives.proper e member) receives.spellable
  rw [exports, List.append_nil, parted.after_eq] at contents
  obtain ⟨g, inside, same⟩ : ∃ g ∈ (Zones.ofText (Text.unwoven qs rest)).fields, g.content = f.content :=
    List.mem_map.mp (contents ▸ List.mem_map_of_mem member : f.content ∈ Zones.fieldContents (Text.unwoven qs rest))
  simp only [Field.content, Prod.mk.injEq] at same
  refine none_ g inside ?_
  rw [Field.IsHelper, same.1, same.2.2]
  exact helper

/-- New fields go behind those that have been put in. -/
theorem fieldsOf_withEntries (parted : h.Parted (ps ++ (kept, .fields) :: qs) rest) :
    Anchors.fieldsOf (h.withEntries entries) (Zones.ofText (h.withEntries entries)) h.config.contextField =
      ⟨Text.size (Text.woven (h.block entries) ps kept ++
        (h.lead .fields ++ entries.flatMap (h.fragment .fields))), false⟩ := by
  obtain ⟨init, e, split⟩ := List.eq_nil_or_concat entries |>.resolve_left receives.some_
  rw [List.concat_eq_append] at split
  have member : e ∈ entries := by simp [split]
  have here := receives.proper e member
  have line := Source.zones_fieldLine here.names.field here.names.className
  let front := Text.woven (h.block entries) ps kept ++ (h.lead .fields ++ init.flatMap (h.fragment .fields))
  have whole : front.AtLine :=
    (Text.atLine_woven parted.whole_front (fun p _ => h.atLine_block entries p.2) parted.whole_kept).append
      ((h.atLine_lead .fields).append (Text.atLine_flatMap (h.atLine_fragment .fields) init))
  have block : h.block entries .fields = h.lead .fields ++ entries.flatMap (h.fragment .fields) := by
    rw [block_eq (breakBefore_place receives.clear .fields)]
    simp only [trail, List.append_nil]
  have lines : entries.flatMap (h.fragment .fields) = init.flatMap (h.fragment .fields) ++ h.fragment .fields e := by
    rw [split, List.flatMap_append, List.flatMap_singleton]
  have text := parted.withEntries_eq entries
  have behind := receives.not_isHelper_back parted
  generalize Text.woven (h.block entries) qs (rest ++ h.exportBlock entries) = w at text behind
  have text : h.withEntries entries = front ++ (h.fragment .fields e ++ w) := by
    rw [text, block, lines]
    simp [front]
  have line' : (Zones.ofText (h.fragment .fields e ++ w)).fields = _ :=
    Zones.fields_append (Source.atLine_fieldLine e.field e.className) w
  have fields := Zones.fields_append whole (h.fragment .fields e ++ w)
  rw [line', line, ← text, List.map_append, List.map_cons, List.map_nil, List.singleton_append] at fields
  have helper : Field.IsHelper h.config.contextField ⟨e.field, e.className, false,
      Text.whole (Source.fieldLine e.field e.className).toList⟩ := by
    simp [Field.IsHelper, receives.apart e member]
  rw [Anchors.fieldsOf_of_last fields ((Field.isHelper_moved _).mpr helper) fun g inside => by
    obtain ⟨_, farther, rfl⟩ := List.mem_map.mp inside
    obtain ⟨g, old, rfl⟩ := List.mem_map.mp farther
    exact behind g old]
  have size : Text.size (Text.woven (h.block entries) ps kept ++ (h.lead .fields ++
      entries.flatMap (h.fragment .fields))) = (h.fragment .fields e).size + front.size := by
    rw [lines, ← List.append_assoc, ← List.append_assoc, Text.size_append, Nat.add_comm, List.append_assoc]
  rw [size]
  rfl

end Receives

end Host
end Registrar
