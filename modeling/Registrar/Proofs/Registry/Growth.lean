import Registrar.Proofs.Registry.Anchored
import Registrar.Proofs.Text.Splicing

/-!
Registries that grow. New entries are put in at three anchors and at the end of the text; in terms
of parts, each zone gets the new parts of its kind behind the old ones.
-/

namespace Registrar

/-- The entry of a helper. -/
def Frame.entry (f : Frame) (l : Listing) : Entry where
  className := l.className
  field := f.fieldOf l.className
  accessor := Naming.accessor l.className
  specifier := l.specifier

open Part

namespace Layout

variable {f : Frame} {l : Layout}

/-- A blank line, if it is wanted. -/
def margin (wanted : Bool) : List Part := if wanted then [.blank] else []

/-- The layout with helpers put in behind the imports and behind the first fields. -/
def grown (imports blanks front back : List Part) (separated : Bool) (l : Layout)
    (new : List Listing) : Layout where
  head := imports ++ new.map .helperImport ++ margin imports.isEmpty ++ blanks
  fields := front ++ margin separated ++ new.map (.helperField ·.className) ++ back
  methods := l.methods ++ new.map (.helperAccessor ·.className)
  exports := l.exports ++ new.map (.helperExport ·.className)

/-- The imports are all in the head. -/
theorem Zoned.isImport_eq_false (zoned : l.Zoned) {imports : List Part} {n : Nat}
    (head : l.head = imports ++ List.replicate n Part.blank) {rest : List Part}
    (split : l.parts = imports ++ rest) : ∀ p ∈ rest, p.isImport = false := by
  have rest_eq : rest = List.replicate n Part.blank ++ [Part.opening, .instanceField] ++
      l.fields ++ [Part.constructor, .blank, .instanceMethod, .blank] ++ l.methods ++
      [Part.mark, .closing, .blank] ++ l.exports := by
    rw [← List.append_right_inj imports, ← split, parts, head]
    simp only [List.append_assoc]
  intro p member
  simp only [rest_eq, List.mem_append, List.mem_cons, List.not_mem_nil, or_false,
    List.mem_replicate] at member
  rcases member with (((((⟨_, rfl⟩ | rfl | rfl) | member) | rfl | rfl | rfl | rfl) | member) |
    rfl | rfl | rfl) | member
  all_goals first | rfl | skip
  · rcases zoned.fields p member with rfl | is_field
    · rfl
    · cases p <;> simp_all [isField, isImport]
  · have is_method := zoned.methods p member
    cases p <;> simp_all [isMethod, isImport]
  · have is_export := zoned.exports p member
    cases p <;> simp_all [isExport, isImport]

/-- The remark stands behind all zones but the last one. -/
theorem Zoned.mark_not_mem (zoned : l.Zoned) :
    .mark ∉ l.head ++ [Part.opening, .instanceField] ++ l.fields ++
      [Part.constructor, .blank, .instanceMethod, .blank] ++ l.methods := by
  obtain ⟨imports, n, head, all⟩ := zoned.head
  intro member
  simp only [head, List.mem_append, List.mem_cons, List.not_mem_nil, or_false, List.mem_replicate,
    reduceCtorEq, and_false] at member
  rcases member with (member | member) | member
  · exact absurd (all _ member) (by simp [isImport])
  · rcases zoned.fields _ member with same | is_field
    · contradiction
    · simp [isField] at is_field
  · exact absurd (zoned.methods _ member) (by simp [isMethod])

/-- The class is declared behind the head. -/
theorem Zoned.className? (zoned : l.Zoned) (plain : f.Plain) :
    Recognition.className? (l.text f) = some f.name := by
  obtain ⟨imports, n, head, all⟩ := zoned.head
  have sound : ∀ p ∈ l.head, p.IsSound := fun p member => zoned.sound p (by simp [parts, member])
  have leading : ∀ p ∈ l.head, p.keyword = some "import" ∨ p = .blank := by
    intro p member
    rw [head] at member
    rcases List.mem_append.mp member with member | member
    · have is_import := all p member
      cases p <;> simp_all [isImport, keyword]
    · exact .inr (List.eq_of_mem_replicate member)
  have found := className?_textOf plain.written.name
    (fun p member => not_mem_text plain (sound p member)) leading (textOf f (.instanceField ::
      l.fields ++ [Part.constructor, .blank, .instanceMethod, .blank] ++ l.methods ++
      [Part.mark, .closing, .blank] ++ l.exports))
  simpa [text, parts] using found

end Layout

namespace Host

variable {f : Frame} {h : Host} {l : Layout} (new : List Listing)

theorem importBlock_entries (place : Nat) (free : h.text.breakBefore place = []) :
    h.importBlock place (new.map f.entry) =
      textOf f (new.map .helperImport ++ Layout.margin h.zones.imports.isEmpty) := by
  have lines : (new.map f.entry).flatMap (fun e =>
      (Source.importLine e.className e.specifier).toList) = textOf f (new.map .helperImport) := by
    simp only [textOf, List.flatMap_map, text_helperImport]
    rfl
  rw [importBlock, free, lines, textOf_append]
  cases h.zones.imports.isEmpty <;> simp [Layout.margin, Part.text, Part.lines, Line.text]

theorem fieldBlock_entries (anchor : FieldAnchor) (free : h.text.breakBefore anchor.offset = []) :
    h.fieldBlock anchor (new.map f.entry) =
      textOf f (Layout.margin anchor.separated ++ new.map (.helperField ·.className)) := by
  have lines : (new.map f.entry).flatMap (fun e =>
      (Source.fieldLine e.field e.className).toList) =
        textOf f (new.map (.helperField ·.className)) := by
    simp only [textOf, List.flatMap_map, text_helperField]
    rfl
  rw [fieldBlock, free, lines, textOf_append]
  cases anchor.separated <;> simp [Layout.margin, Part.text, Part.lines, Line.text]

theorem accessorBlock_entries (anchor : AccessorAnchor) (config : h.config = f.config)
    (atMark : anchor.atMark = true) (free : h.text.breakBefore anchor.offset = []) :
    h.accessorBlock anchor (new.map f.entry) =
      textOf f (new.map (.helperAccessor ·.className)) := by
  rw [accessorBlock, free, config]
  simp only [atMark, if_true, textOf, List.flatMap_map, text_helperAccessor, List.nil_append]
  rfl

theorem exportBlock_entries (config : h.config = f.config) (name : h.className = f.name)
    (free : h.text.breakBefore h.text.size = []) :
    h.exportBlock (new.map f.entry) = textOf f (new.map (.helperExport ·.className)) := by
  rw [exportBlock, free, config, name]
  simp only [textOf, List.flatMap_map, text_helperExport, List.nil_append]
  rfl

/-- Where a part of a text begins no line feed is needed. -/
theorem breakBefore_textOf (before_ after_ : List Part)
    (text : h.text = textOf f (before_ ++ after_)) :
    h.text.breakBefore (textOf f before_).size = [] := by
  rw [text, textOf_append]
  exact Text.breakBefore_between (atLine_textOf before_) _

section
variable {imports middle methods rest : List Part} {separated : Bool}
  (config : h.config = f.config) (name : h.className = f.name)
  (text : h.text = textOf f (imports ++ (middle ++ (methods ++ rest))))
  (anchors : Anchors.ofText h.text h.config.contextField =
    ⟨(textOf f imports).size, ⟨(textOf f (imports ++ middle)).size, separated⟩,
      ⟨(textOf f (imports ++ middle ++ methods)).size, true⟩⟩)
  (none_ : h.zones.imports.isEmpty = imports.isEmpty)
include config name text anchors none_

/-- The edits that put entries in stand between four pieces of the text. -/
theorem additionEdits_textOf : h.additionEdits (new.map f.entry) = Patch.edits 0 [
    ⟨textOf f imports, [], textOf f (new.map .helperImport ++ Layout.margin imports.isEmpty)⟩,
    ⟨textOf f middle, [], textOf f (Layout.margin separated ++ new.map (.helperField ·.className))⟩,
    ⟨textOf f methods, [], textOf f (new.map (.helperAccessor ·.className))⟩,
    ⟨textOf f rest, [], textOf f (new.map (.helperExport ·.className))⟩] := by
  have freeImports := breakBefore_textOf imports _ text
  have freeFields := breakBefore_textOf (imports ++ middle) (methods ++ rest)
    (text.trans (congrArg (textOf f) (by rw [List.append_assoc])))
  have freeMethods := breakBefore_textOf (imports ++ middle ++ methods) rest
    (text.trans (congrArg (textOf f) (by simp only [List.append_assoc])))
  have freeExports := breakBefore_textOf (imports ++ middle ++ methods ++ rest) []
    (text.trans (congrArg (textOf f) (by simp only [List.append_assoc, List.append_nil])))
  have size_eq : h.text.size = (textOf f (imports ++ middle ++ methods ++ rest)).size := by
    rw [text]
    simp only [List.append_assoc]
  rw [← size_eq] at freeExports
  rw [additionEdits, anchors]
  simp only [importBlock_entries new _ freeImports, fieldBlock_entries new ⟨_, _⟩ freeFields,
    accessorBlock_entries new ⟨_, _⟩ config rfl freeMethods, exportBlock_entries new config name freeExports,
    none_, size_eq]
  simp [Patch.edits, Edit.insert, Nat.add_assoc]

/-- Entries put into a text of parts become parts. -/
theorem withEntries_textOf (someMiddle : middle ≠ []) (someMethods : methods ≠ [])
    (someRest : rest ≠ []) :
    h.withEntries (new.map f.entry) =
      textOf f (imports ++ new.map .helperImport ++ Layout.margin imports.isEmpty ++ middle ++
        Layout.margin separated ++ new.map (.helperField ·.className) ++ methods ++
        new.map (.helperAccessor ·.className) ++ rest ++ new.map (.helperExport ·.className)) := by
  have edits := additionEdits_textOf new config name text anchors none_
  have kept : ∀ {parts : List Part}, parts ≠ [] → textOf f parts ≠ [] := by
    intro parts some_
    obtain ⟨p, rest, rfl⟩ := List.exists_cons_of_ne_nil some_
    simp [text_ne_nil]
  have apart : Patch.Apart [
      ⟨textOf f imports, [], textOf f (new.map .helperImport ++ Layout.margin imports.isEmpty)⟩,
      ⟨textOf f middle, [],
        textOf f (Layout.margin separated ++ new.map (.helperField ·.className))⟩,
      ⟨textOf f methods, [], textOf f (new.map (.helperAccessor ·.className))⟩,
      ⟨textOf f rest, [], textOf f (new.map (.helperExport ·.className))⟩] := by
    simp [Patch.Apart, kept someMiddle, kept someMethods, kept someRest]
  have applied := Edit.applyAll_eq apart (List.Perm.of_eq edits) []
  rw [withEntries, text]
  simpa [Patch.source, Patch.result] using applied

end

/-- Entries put into a registry become parts of its zones. -/
theorem withEntries_zoned (plain : f.Plain) (zoned : l.Zoned) (config : h.config = f.config)
    (text : h.text = l.text f) {imports front back : List Part} {n : Nat} {separated : Bool}
    (head : l.head = imports ++ List.replicate n Part.blank) (all : ∀ p ∈ imports, p.isImport = true)
    (fields : l.fields = front ++ back)
    (anchor : Anchors.fieldsOf (l.text f) (Zones.ofText (l.text f)) f.config.contextField =
      ⟨(textOf f (l.head ++ [Part.opening, .instanceField] ++ front)).size, separated⟩) :
    h.withEntries (new.map f.entry) =
      (Layout.grown imports (List.replicate n Part.blank) front back separated l new).text f := by
  have name : h.className = f.name := by
    have declared : (Zones.ofText (l.text f)).className = some f.name := zoned.className? plain
    rw [className, zones, text, declared]
    rfl
  generalize middle_eq : List.replicate n Part.blank ++ [Part.opening, .instanceField] ++ front =
    middle
  generalize methods_eq : back ++ [Part.constructor, .blank, .instanceMethod, .blank] ++ l.methods =
    methods
  generalize rest_eq : [Part.mark, .closing, .blank] ++ l.exports = rest
  have parts_eq : l.parts = imports ++ (middle ++ (methods ++ rest)) := by
    simp only [Layout.parts, head, fields, ← middle_eq, ← methods_eq, ← rest_eq, List.append_assoc]
  have text' : h.text = textOf f (imports ++ (middle ++ (methods ++ rest))) := by
    rw [text, Layout.text, parts_eq]
  have sound := zoned.sound
  have noImport := zoned.isImport_eq_false head parts_eq
  rw [parts_eq] at sound
  have importsAt : (Zones.ofText h.text).lastImportEnd.getD 0 = (textOf f imports).size := by
    rw [text']
    exact lastImportEnd_textOf plain sound all noImport
  have none_ : h.zones.imports.isEmpty = imports.isEmpty := by
    rw [zones, text']
    exact imports_isEmpty_textOf plain sound all noImport
  have fieldsAt : Anchors.fieldsOf h.text (Zones.ofText h.text) h.config.contextField =
      ⟨(textOf f (imports ++ middle)).size, separated⟩ := by
    rw [text, config, anchor, head, ← middle_eq]
    simp only [List.append_assoc]
  have accessorsAt : Anchors.accessorsOf h.text =
      ⟨(textOf f (imports ++ middle ++ methods)).size, true⟩ := by
    have first := zoned.mark_not_mem
    have before_ : l.head ++ [Part.opening, .instanceField] ++ l.fields ++
        [Part.constructor, .blank, .instanceMethod, .blank] ++ l.methods =
          imports ++ middle ++ methods := by
      simp only [head, fields, ← middle_eq, ← methods_eq, List.append_assoc]
    have sound' : ∀ p ∈ imports ++ middle ++ methods, p.IsSound := fun p member =>
      sound p (by
        rw [← List.append_assoc, ← List.append_assoc]
        exact List.mem_append_left _ member)
    have all_eq : imports ++ (middle ++ (methods ++ rest)) =
        imports ++ middle ++ methods ++ .mark :: ([.closing, .blank] ++ l.exports) := by
      simp only [← rest_eq, List.append_assoc, List.cons_append, List.nil_append]
    rw [before_] at first
    rw [text', all_eq]
    exact accessorsOf_textOf plain sound' first
  have anchors : Anchors.ofText h.text h.config.contextField =
      ⟨(textOf f imports).size, ⟨(textOf f (imports ++ middle)).size, separated⟩,
        ⟨(textOf f (imports ++ middle ++ methods)).size, true⟩⟩ := by
    rw [Anchors.ofText, importsAt, fieldsAt, accessorsAt]
  have grown := withEntries_textOf new config name text' anchors none_
    (by simp [← middle_eq]) (by simp [← methods_eq]) (by simp [← rest_eq])
  rw [grown, Layout.text, Layout.parts, Layout.grown]
  refine congrArg (textOf f) ?_
  simp only [← middle_eq, ← methods_eq, ← rest_eq, List.append_assoc]

end Host
end Registrar
