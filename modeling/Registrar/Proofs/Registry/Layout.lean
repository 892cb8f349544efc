import Registrar.Proofs.Naming
import Registrar.Proofs.Pattern.Scan
import Registrar.Registry.Removal
import Registrar.Registry.Addition

/-!
Generated registries as lists of parts. A part is one fragment of a generated text, written as its
lines; a layout says which parts stand in each zone of a registry, and `Layout.text` puts them
together around the lines that every registry has. The layout of a list of helpers has one import,
one field, one accessor and one export for each of them, in the order of the list.
-/

namespace Registrar

/-- A module specifier that can be written between quotation marks on one line, and does not hold
the remark that marks the place of accessors. -/
structure IsSpecifier (s : String) : Prop where
  some_ : s.toList ≠ []
  unquoted : ∀ c ∈ s.toList, Recognition.isQuote c = false
  whole : '\n' ∉ s.toList
  unmarked : ¬Source.accessorMark.toList <:+: s.toList

/-! ### Lines -/

/-- A line of generated source. -/
structure Line where
  /-- The steps of indentation. -/
  depth : Nat
  code : String

/-- The characters of a line, without the line feed. -/
def Line.text (l : Line) : Text :=
  (List.replicate l.depth Source.indent.toList).flatten ++ l.code.toList

/-! ### Parts -/

/-- The settings and the class of a generated registry. -/
structure Frame where
  config : Config
  name : String

/-- What is asked of the settings: the usual template, plain names, and a module that can be
written between quotation marks. -/
structure Frame.Plain (f : Frame) : Prop where
  template : f.config.registryTemplate = none
  name : isClassName f.name.toList = true
  type : isPlainName f.config.contextType.toList = true
  field : isPlainName f.config.contextField.toList = true
  distinct : f.config.contextField ≠ "instance"
  module_ : f.config.contextModule.toList ≠ []
  unquoted : ∀ c ∈ f.config.contextModule.toList, Recognition.isQuote c = false
  unspaced : ∀ c ∈ f.config.contextModule.toList, Letter.isBlank c = false
  fieldPrefix : f.config.fieldPrefix = "" ∨ isPlainName f.config.fieldPrefix.toList = true

/-- A helper as a registry lists it. -/
structure Listing where
  className : String
  specifier : String
  deriving DecidableEq, Repr

/-- A fragment of a generated registry. -/
inductive Part where
  | contextImport
  | helperImport (l : Listing)
  | blank
  | opening
  | instanceField
  | contextField
  | helperField (className : String)
  | constructor
  | instanceMethod
  | setter
  | helperAccessor (className : String)
  | mark
  | closing
  | ownExport
  | helperExport (className : String)
  deriving DecidableEq, Repr

namespace Frame

/-- The field of a helper. -/
def fieldOf (f : Frame) (className : String) : String :=
  Naming.field f.config.fieldPrefix className

/-- The name of the method that sets the context. -/
def setterName (f : Frame) : String :=
  "set" ++ String.ofList (Letter.raiseFirst f.config.contextField.toList)

end Frame

namespace Part

/-- The lines of a part. A method ends with the blank line behind it. -/
def lines (f : Frame) : Part → List Line
  | contextImport =>
    [⟨0, "import type \x7b " ++ f.config.contextType ++ " \x7d from '" ++
      f.config.contextModule ++ "';"⟩]
  | helperImport l => [⟨0, "import \x7b " ++ l.className ++ " \x7d from '" ++ l.specifier ++ "';"⟩]
  | blank => [⟨0, ""⟩]
  | opening => [⟨0, "export class " ++ f.name ++ " \x7b"⟩]
  | instanceField => [⟨1, "private static instance: " ++ f.name ++ ";"⟩]
  | contextField =>
    [⟨1, "private " ++ f.config.contextField ++ "?: " ++ f.config.contextType ++ ";"⟩]
  | helperField className => [⟨1, "private " ++ f.fieldOf className ++ "?: " ++ className ++ ";"⟩]
  | constructor => [⟨1, "private constructor() \x7b\x7d"⟩]
  | instanceMethod =>
    [⟨1, "public static getInstance(): " ++ f.name ++ " \x7b"⟩,
      ⟨2, "if (!" ++ f.name ++ ".instance) \x7b"⟩,
      ⟨3, f.name ++ ".instance = new " ++ f.name ++ "();"⟩,
      ⟨2, "\x7d"⟩,
      ⟨2, "return " ++ f.name ++ ".instance;"⟩,
      ⟨1, "\x7d"⟩]
  | setter =>
    [⟨1, "public " ++ f.setterName ++ "(" ++ f.config.contextField ++ ": " ++
        f.config.contextType ++ "): void \x7b"⟩,
      ⟨2, "this." ++ f.config.contextField ++ " = " ++ f.config.contextField ++ ";"⟩,
      ⟨1, "\x7d"⟩,
      ⟨0, ""⟩]
  | helperAccessor className =>
    [⟨1, "public " ++ Naming.accessor className ++ "(" ++ f.config.contextField ++ "?: " ++
        f.config.contextType ++ "): " ++ className ++ " \x7b"⟩,
      ⟨2, "if (!this." ++ f.fieldOf className ++ ") \x7b"⟩,
      ⟨3, "this." ++ f.fieldOf className ++ " = new " ++ className ++ "(" ++
        f.config.contextField ++ " ?? this." ++ f.config.contextField ++ ");"⟩,
      ⟨2, "\x7d"⟩,
      ⟨2, "return this." ++ f.fieldOf className ++ ";"⟩,
      ⟨1, "\x7d"⟩,
      ⟨0, ""⟩]
  | mark => [⟨1, Source.accessorMark⟩]
  | closing => [⟨0, "\x7d"⟩]
  | ownExport =>
    [⟨0, "export const get" ++ f.name ++ " = (): " ++ f.name ++ " => " ++ f.name ++
      ".getInstance();"⟩]
  | helperExport className =>
    [⟨0, "export const " ++ Naming.accessor className ++ " = (" ++ f.config.contextField ++ "?: " ++
      f.config.contextType ++ "): " ++ className ++ " => " ++ f.name ++ ".getInstance()." ++
      Naming.accessor className ++ "(" ++ f.config.contextField ++ ");"⟩]

/-- The text of a part. -/
def text (f : Frame) (p : Part) : Text := Text.ofLines ((p.lines f).map Line.text)

/-- The lines of parts one after another. -/
def linesOf (f : Frame) (parts : List Part) : List Text :=
  parts.flatMap fun p => (p.lines f).map Line.text

/-- The text of parts one after another. -/
def textOf (f : Frame) (parts : List Part) : Text := parts.flatMap (text f)

/-- The names in a part are such as its patterns recognise. -/
def IsSound : Part → Prop
  | helperImport l => isClassName l.className.toList = true ∧ IsSpecifier l.specifier
  | helperField className | helperAccessor className | helperExport className =>
    isClassName className.toList = true
  | _ => True

/-- An import. -/
def isImport : Part → Bool
  | contextImport | helperImport _ => true
  | _ => false

/-- A field of the context or of a helper. -/
def isField : Part → Bool
  | contextField | helperField _ => true
  | _ => false

/-- A method with a parameter. -/
def isMethod : Part → Bool
  | setter | helperAccessor _ => true
  | _ => false

/-- An exported constant. -/
def isExport : Part → Bool
  | ownExport | helperExport _ => true
  | _ => false

variable {f : Frame}

@[simp] theorem textOf_nil : textOf f [] = [] := rfl

@[simp] theorem textOf_cons (p : Part) (parts : List Part) :
    textOf f (p :: parts) = p.text f ++ textOf f parts := rfl

@[simp] theorem textOf_append (parts parts' : List Part) :
    textOf f (parts ++ parts') = textOf f parts ++ textOf f parts' := by
  simp [textOf]

@[simp] theorem linesOf_cons (p : Part) (parts : List Part) :
    linesOf f (p :: parts) = (p.lines f).map Line.text ++ linesOf f parts := rfl

theorem textOf_eq_ofLines (parts : List Part) : textOf f parts = Text.ofLines (linesOf f parts) := by
  induction parts with
  | nil => rfl
  | cons p rest ih => rw [textOf_cons, linesOf_cons, Text.ofLines_append, ih, text]

/-- Every part ends with a line feed. -/
theorem exists_text_eq (p : Part) : ∃ t, p.text f = t ++ ['\n'] := by
  have some_ : p.lines f ≠ [] := by cases p <;> simp [lines]
  rcases List.eq_nil_or_concat (p.lines f) with none_ | ⟨front, last, split⟩
  · exact absurd none_ some_
  · refine ⟨Text.ofLines (front.map Line.text) ++ last.text, ?_⟩
    simp [text, split]

theorem text_ne_nil (p : Part) : p.text f ≠ [] := by
  obtain ⟨t, split⟩ := p.exists_text_eq (f := f)
  simp [split]

/-! The parts of a helper are the fragments that the generator writes. -/

theorem text_helperImport (l : Listing) :
    (helperImport l).text f = (Source.importLine l.className l.specifier).toList := by
  unfold Source.importLine
  simp [text, lines, Line.text]

theorem text_helperField (className : String) :
    (helperField className).text f =
      (Source.fieldLine (f.fieldOf className) className).toList := by
  unfold Source.fieldLine
  simp [text, lines, Line.text]

theorem text_helperAccessor (className : String) :
    (helperAccessor className).text f =
      (Source.accessorBlock f.config (Naming.accessor className) (f.fieldOf className)
        className).toList ++ ['\n'] := by
  unfold Source.accessorBlock
  simp [text, lines, Line.text]

theorem text_helperExport (className : String) :
    (helperExport className).text f =
      (Source.exportLine f.config (Naming.accessor className) className f.name).toList := by
  unfold Source.exportLine
  simp [text, lines, Line.text]

end Part

/-! ### Layouts -/

/-- Which parts a generated registry has in each of its zones. The blank lines behind the imports
belong to the head, and the blank line behind the fields to the fields. -/
structure Layout where
  head : List Part
  fields : List Part
  methods : List Part
  exports : List Part
  deriving DecidableEq, Repr

namespace Layout

/-- All parts of a registry, with what stands between the zones. -/
def parts (l : Layout) : List Part :=
  l.head ++ [Part.opening, .instanceField] ++ l.fields ++
    [Part.constructor, .blank, .instanceMethod, .blank] ++ l.methods ++
    [Part.mark, .closing, .blank] ++ l.exports

/-- Every part stands in the zone that it belongs to, and the names in it are such as the patterns
recognise. -/
structure Zoned (l : Layout) : Prop where
  head : ∃ imports margin, l.head = imports ++ List.replicate margin .blank ∧
    ∀ p ∈ imports, p.isImport = true
  fields : ∀ p ∈ l.fields, p = .blank ∨ p.isField = true
  methods : ∀ p ∈ l.methods, p.isMethod = true
  exports : ∀ p ∈ l.exports, p.isExport = true
  sound : ∀ p ∈ l.parts, p.IsSound

/-- The text of a registry. -/
def text (f : Frame) (l : Layout) : Text := Part.textOf f l.parts

/-- The fields of helpers, behind a blank line if there are any. -/
def fieldBlock (ls : List Listing) : List Part :=
  if ls.isEmpty then [] else .blank :: ls.map (.helperField ·.className)

/-- The layout of a list of helpers: one import, one field, one accessor and one export for each,
in the order of the list. -/
def ofListings (ls : List Listing) : Layout where
  head := .contextImport :: ls.map .helperImport ++ [.blank]
  fields := .contextField :: fieldBlock ls ++ [.blank]
  methods := .setter :: ls.map (.helperAccessor ·.className)
  exports := .ownExport :: ls.map (.helperExport ·.className)

set_option maxRecDepth 4000 in
/-- A registry without helpers is the template. -/
theorem text_ofListings_nil {f : Frame} (template : f.config.registryTemplate = none) :
    (ofListings []).text f = (Source.registry f.config f.name).toList := by
  unfold Source.registry Source.contextImport
  -- The literals are opened last: as lists they make every term before them too long.
  simp [text, parts, ofListings, fieldBlock, Part.text, Part.lines, Line.text, Frame.setterName,
    template, -String.reduceToList]
  simp only [String.reduceToList, List.cons_append, List.nil_append]

end Layout
end Registrar
