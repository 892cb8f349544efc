import Registrar.Proofs.Registry.Identifier
import Registrar.Proofs.Registry.Reading
import Registrar.Proofs.Text.Insertion
import Registrar.Registry.Addition

/-!
Exports of new entries. Whatever a text holds, the exports of new entries come out at its end, each
on a line of its own: all anchors lie in the text, and what is put there consists of whole lines. So
the export of an entry is found again, even where its import, field or accessor is not.
-/

namespace Registrar

open Pattern Recognition

/-! ### Anchors -/

namespace Anchors

variable {t : Text} {p : Pattern} {m : Match}

theorem isPlace_of_mem_findAll (member : m ∈ p.findAll t) :
    t.IsPlace m.start.offset ∧ t.IsPlace m.stop.offset := by
  obtain ⟨front, back, rfl, here⟩ := exists_of_mem_findAll member
  obtain ⟨start, taken, rest, rfl, stop⟩ := matchAt?_some here
  exact ⟨⟨front, taken ++ rest, rfl, by rw [start]; rfl⟩, ⟨front ++ taken, rest, by simp, by rw [stop]; rfl⟩⟩

theorem isPlace_of_bodyStart? {n : Nat} (found : bodyStart? t = some n) : t.IsPlace n := by
  obtain ⟨m, declared, opened⟩ := Option.bind_eq_some_iff.mp found
  obtain ⟨brace, here, rfl⟩ := Option.map_eq_some_iff.mp opened
  obtain ⟨⟨inner, rest⟩, cut, rfl⟩ := Option.map_eq_some_iff.mp here
  obtain ⟨front, back, rfl, at_⟩ := exists_of_find? declared
  obtain ⟨_, taken, behind, rfl, stop⟩ := matchAt?_some at_
  rw [stop, Cursor.between_rest] at cut
  obtain rfl := Text.eq_append_of_cut? cut
  have wide : Char.utf8Size '\x7b' = 1 := rfl
  refine Text.IsPlace.lineEnd ⟨front ++ taken ++ inner ++ ['\x7b'], rest, by simp, ?_⟩
  simp only [stop, Cursor.between_offset, Text.size_append, Text.size_cons, Text.size_nil, wide]

theorem isPlace_fieldsOf (t : Text) (contextField : String) :
    t.IsPlace (fieldsOf t (Zones.ofText t) contextField).offset := by
  have field : ∀ f ∈ (Zones.ofText t).fields, t.IsPlace f.span.stop := by
    intro f member
    obtain ⟨m, found, rfl⟩ := List.mem_map.mp member
    exact (isPlace_of_mem_findAll found).2
  rw [fieldsOf]
  split
  · next f found => exact field f (List.mem_reverse.mp (List.mem_of_find?_eq_some found))
  · split
    · next f found => exact field f (List.mem_of_find?_eq_some found)
    · split
      · next f found => exact field f (List.mem_of_find?_eq_some found)
      · cases found : bodyStart? t with
        | none => exact Text.isPlace_size t
        | some n => exact isPlace_of_bodyStart? found

theorem isPlace_accessorsOf (t : Text) : t.IsPlace (accessorsOf t).offset := by
  rw [accessorsOf]
  split
  · exact Text.isPlace_lineStart ..
  · split
    · next m last => exact (isPlace_of_mem_findAll (List.mem_of_getLast? last)).1
    · exact Text.isPlace_size t

theorem isPlace_importsOf (t : Text) : t.IsPlace ((Zones.ofText t).lastImportEnd.getD 0) := by
  rw [Zones.lastImportEnd]
  cases last : (Zones.ofText t).imports.getLast? with
  | none => exact ⟨[], t, rfl, rfl⟩
  | some i =>
    obtain ⟨m, found, read⟩ := List.mem_filterMap.mp (List.mem_of_getLast? last)
    rw [Zones.import?] at read
    split at read
    · simp at read
    · obtain rfl := Option.some.inj read
      exact (isPlace_of_mem_findAll found).2

end Anchors

/-! ### Blocks of lines -/

namespace Text

theorem atLine_concat (t : Text) : AtLine (t ++ ['\n']) := .inr ⟨t, rfl⟩

theorem atLine_breakBefore (t : Text) (n : Nat) : AtLine (t.breakBefore n) := by
  rw [breakBefore]
  split
  · exact atLine_nil
  · exact atLine_concat []

theorem atLine_flatMap {α : Type} {line : α → Text} (each : ∀ a, AtLine (line a)) (l : List α) :
    AtLine (l.flatMap line) := by
  induction l with
  | nil => exact atLine_nil
  | cons a rest ih => exact (each a).append ih

end Text

namespace Source

/-- Generated source that ends in a line feed. -/
theorem atLine_append {last : String} (ends : last.toList.getLast? = some '\n') (s : String) :
    Text.AtLine (s ++ last).toList := by
  obtain ⟨u, split⟩ := List.getLast?_eq_some_iff.mp ends
  exact .inr ⟨s.toList ++ u, by rw [String.toList_append, split, List.append_assoc]⟩

theorem atLine_importLine (name specifier : String) :
    Text.AtLine (importLine name specifier).toList :=
  atLine_append rfl _

theorem atLine_fieldLine (field className : String) :
    Text.AtLine (fieldLine field className).toList :=
  atLine_append rfl _

theorem atLine_accessorBlock (config : Config) (accessor field className : String) :
    Text.AtLine (accessorBlock config accessor field className).toList :=
  atLine_append rfl _

theorem atLine_exportLine (config : Config) (accessor className registryClass : String) :
    Text.AtLine (exportLine config accessor className registryClass).toList :=
  atLine_append rfl _

end Source

namespace Host

variable (h : Host) (entries : List Entry)

theorem atLine_importBlock (place : Nat) : Text.AtLine (h.importBlock place entries) := by
  refine ((Text.atLine_breakBefore _ _).append
    (Text.atLine_flatMap (fun e => Source.atLine_importLine _ _) entries)).append ?_
  split
  · exact Text.atLine_concat []
  · exact Text.atLine_nil

theorem atLine_fieldBlock (anchor : FieldAnchor) : Text.AtLine (h.fieldBlock anchor entries) := by
  refine ((Text.atLine_breakBefore _ _).append ?_).append
    (Text.atLine_flatMap (fun e => Source.atLine_fieldLine _ _) entries)
  split
  · exact Text.atLine_concat []
  · exact Text.atLine_nil

theorem atLine_accessorBlock (anchor : AccessorAnchor) :
    Text.AtLine (h.accessorBlock anchor entries) := by
  refine (Text.atLine_breakBefore _ _).append (Text.atLine_flatMap (fun e => ?_) entries)
  dsimp only
  have block := Source.atLine_accessorBlock h.config e.accessor e.field e.className
  split
  · exact Text.atLine_concat _
  · exact (Text.atLine_concat []).append block

/-- What is put in before the end of the text consists of whole lines. -/
theorem insertsLines_of_mem {e : Edit} (member : e ∈ (h.additionEdits entries).dropLast) :
    e.InsertsLines h.text := by
  have places := And.intro (Anchors.isPlace_importsOf h.text).le
    (And.intro (Anchors.isPlace_fieldsOf h.text h.config.contextField).le
      (Anchors.isPlace_accessorsOf h.text).le)
  simp only [additionEdits, List.dropLast_cons_cons, List.dropLast_singleton, List.mem_cons,
    List.not_mem_nil, or_false] at member
  rcases member with rfl | rfl | rfl
  · exact ⟨rfl, places.1, h.atLine_importBlock entries _⟩
  · exact ⟨rfl, places.2.1, h.atLine_fieldBlock entries _⟩
  · exact ⟨rfl, places.2.2, h.atLine_accessorBlock entries _⟩

/-- The exports of entries, one line each. -/
def exportLines (entries : List Entry) : Text :=
  entries.flatMap fun e => (Source.exportLine h.config e.accessor e.className h.className).toList

/-- The exports of entries stand at the end of the text, each on a line of its own. -/
theorem exists_withEntries :
    ∃ front, h.withEntries entries = front ++ h.exportLines entries ∧ Text.AtLine front := by
  have split : h.additionEdits entries =
      (h.additionEdits entries).dropLast ++ [.insert h.text.size (h.exportBlock entries)] := rfl
  obtain ⟨front, whole, lines⟩ :=
    Edit.exists_applyAll_concat (fun e member => h.insertsLines_of_mem entries member)
      (h.exportBlock entries)
  refine ⟨front ++ h.text.breakBefore h.text.size, ?_, ?_⟩
  · rw [withEntries, split, whole, exportBlock, exportLines, List.append_assoc]
  · have ends := Text.atLine_append_breakBefore h.text
    rw [Text.breakBefore] at ends ⊢
    split
    · next free =>
      rw [if_pos free, List.append_nil] at ends
      rw [List.append_nil]
      exact lines ends
    · exact Text.atLine_concat front

end Host

/-! ### Finding the exports -/

/-- The export of an entry is found on its line. -/
theorem exportSpan?_isSome_of_line (config : Config) {accessor className registryClass : String}
    {front : Text} (named : isIdentifier accessor.toList = true)
    (word_ : accessor.toList.getLast?.any Letter.isWord = true) (start : Text.AtLine front)
    (back : Text) :
    (exportSpan? (front ++ (Source.exportLine config accessor className registryClass).toList ++ back)
      accessor).isSome := by
  obtain ⟨rest, line⟩ : ∃ rest, (Source.exportLine config accessor className registryClass).toList =
      "export".toList ++ (' ' :: ("const".toList ++ ' ' :: accessor.toList)) ++ ' ' :: rest := by
    refine ⟨("= (" ++ config.contextField ++ "?: " ++ config.contextType ++ "): " ++ className ++
      " => " ++ registryClass ++ ".getInstance()." ++ accessor ++ "(" ++ config.contextField ++
        ");\n").toList, ?_⟩
    unfold Source.exportLine
    simp
  obtain ⟨x, name, split, first, _⟩ := exists_of_isIdentifier named
  have gapless : ∀ y, (accessor.toList ++ (' ' :: rest ++ back)).head? = some y →
      isGap y = false := by
    rw [split]
    rintro y ⟨⟩
    exact isGap_of_isPlain (isPlain_of_isNameStart first)
  have ends : (Cursor.between (' ' :: accessor.toList) (' ' :: rest ++ back)).splitsWord = true := by
    have last : (' ' :: accessor.toList).getLast? = accessor.toList.getLast? := by
      rw [split, List.getLast?_cons_cons]
    have space : Letter.isWord ' ' = false := rfl
    simp [Cursor.splitsWord, Cursor.afterWord, Cursor.beforeWord, last, word_, space]
  have takes := takes_exportOf (fun back => start.startsLine back) gapless ends
  have found := occursIn_of_mem_ends (List.mem_of_head? takes)
  rw [occursIn] at found
  rw [exportSpan?, Option.isSome_map, line]
  simpa using found

/-- The export of an entry that is put in is found again. -/
theorem Host.exportSpan?_withEntries (h : Host) {entries : List Entry} {e : Entry}
    (member : e ∈ entries) (named : isIdentifier e.accessor.toList = true)
    (word_ : e.accessor.toList.getLast?.any Letter.isWord = true) :
    (exportSpan? (h.withEntries entries) e.accessor).isSome := by
  obtain ⟨front, whole, start⟩ := h.exists_withEntries entries
  obtain ⟨before_, after_, rfl⟩ := List.append_of_mem member
  have lines : Text.AtLine (h.exportLines before_) :=
    Text.atLine_flatMap (fun e => Source.atLine_exportLine _ _ _ _) _
  have found := fun className registryClass => @exportSpan?_isSome_of_line h.config _ className
    registryClass _ named word_ (start.append lines) (h.exportLines after_)
  rw [whole]
  simpa [exportLines] using found e.className h.className

end Registrar
