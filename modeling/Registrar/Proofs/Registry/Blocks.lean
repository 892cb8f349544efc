import Registrar.Proofs.Registry.Exported
import Registrar.Proofs.Registry.Interposed
import Registrar.Proofs.Registry.Joined
import Registrar.Proofs.Registry.Recognised

/-!
The lines of new entries. Each block of them declares its own kind of thing, one for every entry, and
has nothing in it for the patterns of the other kinds.
-/

namespace Registrar

open Recognition Pattern

/-- The names of an entry are identifiers, and its specifier can stand in quotation marks. -/
structure Entry.Proper (config : Config) (e : Entry) : Prop where
  names : Part.AccessorNames config e.accessor e.field e.className
  some_ : e.specifier.toList ≠ []
  unquoted : ∀ c ∈ e.specifier.toList, isQuote c = false
  whole : '\n' ∉ e.specifier.toList

variable {d t front : Text} {config : Config} {h : Host} {entries : List Entry} {e : Entry}
  {w word : String} {q : Pattern}

/-! ### Lines of one kind -/

/-- Lines on which no word of a zone but the given one begins anything, nor a class or an export. -/
def OnlyZone (word : String) (t : Text) : Prop :=
  ∃ lines, t = Text.ofLines lines ∧ Source.Silent word lines

namespace OnlyZone

theorem nil (word : String) : OnlyZone word [] := ⟨[], rfl, by simp, by simp⟩

theorem feed (word : String) : OnlyZone word ['\n'] := by
  refine ⟨[[]], rfl, ?_, ?_⟩ <;> intro line member <;> obtain rfl := List.mem_singleton.mp member
  · exact fun w _ _ => ⟨by simp, by simp⟩
  · exact ⟨by simp, by simp⟩

theorem append (first : OnlyZone word d) (second : OnlyZone word t) : OnlyZone word (d ++ t) := by
  obtain ⟨lines, rfl, silent⟩ := first
  obtain ⟨lines', rfl, silent'⟩ := second
  refine ⟨lines ++ lines', (Text.ofLines_append _ _).symm, ?_, ?_⟩ <;> intro line member <;>
    rcases List.mem_append.mp member with member | member
  · exact silent.passes line member
  · exact silent'.passes line member
  · exact silent.nothing line member
  · exact silent'.nothing line member

theorem flatMap {α : Type} {text : α → Text} {l : List α} (each : ∀ a ∈ l, OnlyZone word (text a)) :
    OnlyZone word (l.flatMap text) := by
  induction l with
  | nil => exact nil word
  | cons a l ih =>
    rw [List.flatMap_cons]
    exact (each a (by simp)).append (ih fun b member => each b (by simp [member]))

theorem of_silent {lines : List Text} (silent : Source.Silent word lines) :
    OnlyZone word (Text.ofLines lines) := ⟨lines, rfl, silent⟩

theorem breakBefore (word : String) (t : Text) (n : Nat) : OnlyZone word (t.breakBefore n) := by
  rw [Text.breakBefore]
  split
  · exact nil word
  · exact feed word

variable (only : OnlyZone word d)
include only

/-- Where another word is sought, the lines are passed over. -/
theorem scan (known : w ∈ zoneWords) (other : w ≠ word) (f y : Text) :
    Scan (keyworded w q) (.between f (d ++ y)) [] (.between (f ++ d) y) := by
  obtain ⟨lines, rfl, silent⟩ := only
  exact scan_keyworded known fun line member => silent.passes line member w known other

/-- Where an export is sought, the lines are passed over. -/
theorem scan_exportOf (accessor : String) (f y : Text) :
    Scan (exportOf accessor) (.between f (d ++ y)) [] (.between (f ++ d) y) := by
  obtain ⟨lines, rfl, silent⟩ := only
  refine (anchored_lineStart _).scan_lines (fun line member => (silent.nothing line member).whole)
    fun line member front back => refuses_exportOf_line front back fun begins => ?_
  obtain ⟨rest, rfl⟩ := begins
  exact (silent.nothing _ member).other 'e' (by simp [isGap]) (by simp)

theorem inert (other : word ≠ "import") (whole : Text.AtLine d)
    (unquoted : ∀ c, isQuote c = true → c ∉ d) : Inert d where
  whole := whole
  unquoted c member := by
    by_contra quoted
    exact unquoted c (by simpa using quoted) member
  passed := only.scan (by simp [zoneWords]) other.symm

theorem steady_accessorSignature (other : word ≠ "public") : accessorSignature.Steady d :=
  steady_of_passed rfl (only.scan (by simp [zoneWords]) other.symm)

end OnlyZone

/-! ### Braces and parentheses -/

namespace Text

theorem balanced_nil : Balanced [] := balanced_of_not_mem (by simp) (by simp)

theorem balanced_flatMap {α : Type} {text : α → Text} {l : List α}
    (each : ∀ x ∈ l, Balanced (text x)) : Balanced (l.flatMap text) := by
  induction l with
  | nil => exact balanced_nil
  | cons x l ih =>
    rw [List.flatMap_cons]
    exact (each x (by simp)).append (ih fun y member => each y (by simp [member]))

variable {opening closing : Char}

theorem shut_of_not_mem (free : opening ∉ t) : Shut opening closing t := by
  rintro a b rfl
  exact absurd (by simp) free

/-- Before the last character that closes, everything has one behind it. -/
theorem shut_of_last {u v : Text} (other : opening ≠ closing) (free : opening ∉ v) :
    Shut opening closing (u ++ closing :: v) := by
  intro a b split
  rcases List.append_eq_append_iff.mp split with ⟨z, rfl, back⟩ | ⟨z, rfl, back⟩
  · cases z with
    | nil => exact absurd (List.cons.inj back).1.symm other
    | cons c z =>
      obtain ⟨rfl, rfl⟩ := List.cons.inj back
      simp at free
  · cases z with
    | nil => exact absurd (List.cons.inj back).1 other
    | cons c z =>
      obtain ⟨rfl, rfl⟩ := List.cons.inj back
      simp

theorem Shut.append (first : Shut opening closing d) (second : Shut opening closing t) :
    Shut opening closing (d ++ t) := by
  intro a b split
  rcases List.append_eq_append_iff.mp split with ⟨z, rfl, back⟩ | ⟨z, rfl, back⟩
  · exact second z b back
  · cases z with
    | nil => exact second [] b back.symm
    | cons c z =>
      obtain ⟨rfl, rfl⟩ := List.cons.inj back
      exact List.mem_append_left _ (first a z rfl)

theorem shut_flatMap {α : Type} {text : α → Text} {l : List α}
    (each : ∀ x ∈ l, Shut opening closing (text x)) : Shut opening closing (l.flatMap text) := by
  induction l with
  | nil => exact shut_of_not_mem (by simp)
  | cons x l ih =>
    rw [List.flatMap_cons]
    exact (each x (by simp)).append (ih fun y member => each y (by simp [member]))

theorem Shut.of_append (shut : Shut opening closing (d ++ t)) : Shut opening closing t :=
  fun a b split => shut (d ++ a) b (by rw [split, List.append_assoc])

end Text

/-! ### The lines of an entry -/

namespace Entry.Proper

variable (proper : e.Proper config)
include proper

theorem quote_not_mem {c : Char} (quoted : isQuote c = true) : c ∉ e.accessor.toList ∧
    c ∉ e.field.toList ∧ c ∉ e.className.toList ∧ c ∉ config.contextType.toList ∧
      c ∉ config.contextField.toList := by
  refine proper.names.not_mem ?_
  rcases (by simpa [isQuote] using quoted : c = '\'' ∨ c = '"') with rfl | rfl <;> decide

theorem onlyZone_importLine :
    OnlyZone "import" (Source.importLine e.className e.specifier).toList := by
  obtain ⟨line, text, silent⟩ := Source.exists_line_import proper.names.className proper.whole
  rw [text]
  exact .of_silent silent

theorem onlyZone_fieldLine : OnlyZone "private" (Source.fieldLine e.field e.className).toList := by
  obtain ⟨line, text, silent⟩ := Source.exists_line_field proper.names.field proper.names.className
  rw [text]
  exact .of_silent silent

theorem onlyZone_accessorBlock :
    OnlyZone "public" (Source.accessorBlock config e.accessor e.field e.className).toList := by
  rw [Part.toList_accessorBlock]
  exact .of_silent (Source.silent_accessor proper.names)

theorem quote_not_mem_fieldLine {c : Char} (quoted : isQuote c = true) :
    c ∉ (Source.fieldLine e.field e.className).toList := by
  obtain ⟨-, field_, className_, -, -⟩ := proper.quote_not_mem quoted
  unfold Source.fieldLine
  rcases (by simpa [isQuote] using quoted : c = '\'' ∨ c = '"') with rfl | rfl <;>
    simp [Source.indent, field_, className_]

theorem quote_not_mem_accessorBlock {c : Char} (quoted : isQuote c = true) :
    c ∉ (Source.accessorBlock config e.accessor e.field e.className).toList := by
  obtain ⟨accessor_, field_, className_, type_, context_⟩ := proper.quote_not_mem quoted
  unfold Source.accessorBlock
  rcases (by simpa [isQuote] using quoted : c = '\'' ∨ c = '"') with rfl | rfl <;>
    simp [Source.indent, accessor_, field_, className_, type_, context_]

theorem balanced_fieldLine : Text.Balanced (Source.fieldLine e.field e.className).toList := by
  obtain ⟨-, field_, className_, -, -⟩ := proper.names.not_mem (d := '\x7b') rfl
  obtain ⟨-, field', className', -, -⟩ := proper.names.not_mem (d := '\x7d') rfl
  unfold Source.fieldLine
  exact Text.balanced_of_not_mem (by simp [Source.indent, field_, className_])
    (by simp [Source.indent, field', className'])

theorem balanced_accessorBlock :
    Text.Balanced (Source.accessorBlock config e.accessor e.field e.className).toList := by
  obtain ⟨accessor_, -, className_, type_, context_⟩ := proper.names.not_mem (d := '\x7b') rfl
  obtain ⟨accessor', -, className', type', context'⟩ := proper.names.not_mem (d := '\x7d') rfl
  obtain ⟨inner, balanced, body⟩ := proper.names.exists_balanced
  let lead := Source.indent ++ "public " ++ e.accessor ++ "(" ++ config.contextField ++ "?: " ++
    config.contextType ++ "): " ++ e.className ++ " "
  have flat : Text.Balanced lead.toList := Text.balanced_of_not_mem
    (by simp [lead, Source.indent, accessor_, className_, type_, context_])
    (by simp [lead, Source.indent, accessor', className', type', context'])
  have ending : Text.Balanced ['\n'] := Text.balanced_of_not_mem (by simp) (by simp)
  have opening : (Part.accessorOpening config e.accessor e.className).toList = lead.toList ++ ['\x7b'] := by
    simp [Part.accessorOpening, lead]
  have whole : (Source.accessorBlock config e.accessor e.field e.className).toList =
      lead.toList ++ ('\x7b' :: inner ++ ['\x7d']) ++ ['\n'] := by
    rw [Part.toList_accessorBlock, List.map_cons, Text.ofLines_cons, opening, body]
    simp
  rw [whole]
  exact (flat.append balanced.block).append ending

theorem shut_accessorBlock :
    Text.Shut '(' ')' (Source.accessorBlock config e.accessor e.field e.className).toList := by
  obtain ⟨-, field_, -, -, -⟩ := proper.names.not_mem (d := '(') rfl
  have rest : '(' ∉ ";\n        \x7d\n        return this.".toList ++ e.field.toList ++
      ";\n    \x7d\n".toList := by simp [field_]
  let lead := Source.indent ++ "public " ++ e.accessor ++
    "(" ++ config.contextField ++ "?: " ++ config.contextType ++ "): " ++ e.className ++ " \x7b\n" ++
    Source.indent ++ Source.indent ++ "if (!this." ++ e.field ++ ") \x7b\n" ++ Source.indent ++
    Source.indent ++ Source.indent ++ "this." ++ e.field ++ " = new " ++ e.className ++ "(" ++
    config.contextField ++ " ?? this." ++ config.contextField
  have shut : Text.Shut '(' ')' (lead.toList ++ ')' :: _) := Text.shut_of_last (by decide) rest
  unfold Source.accessorBlock
  simpa [lead, Source.indent] using shut

end Entry.Proper

/-! ### Blocks -/

/-- What an import says, wherever it stands. -/
def Import.content (i : Import) : Option String × List Binding × String :=
  (i.default?, i.bindings, i.specifier)

theorem Import.map_content_of_shifted {n k : Nat} {is js : List Import}
    (shifted : List.Forall₂ (Import.Shifted n k) is js) :
    js.map Import.content = is.map Import.content := by
  induction shifted with
  | nil => rfl
  | cons first _ ih =>
    obtain ⟨⟨default?, bindings, specifier⟩, -, -⟩ := first
    rw [List.map_cons, List.map_cons, ih, content, content, default?, bindings, specifier]

namespace Entry

/-- What the import line of an entry says. -/
def importContent (e : Entry) : Option String × List Binding × String :=
  (none, [⟨e.className, e.className, e.className⟩], e.specifier)

/-- What the field of an entry says. -/
def fieldContent (e : Entry) : String × String × Bool := (e.field, e.className, false)

/-- What the accessor of an entry says. -/
def accessorContent (e : Entry) : String × Option String := (e.accessor, some e.className)

end Entry

/-- What the imports of a text say. -/
def Zones.importContents (t : Text) : List (Option String × List Binding × String) :=
  (ofText t).imports.map Import.content

theorem Text.balanced_breakBefore (t : Text) (n : Nat) : Balanced (t.breakBefore n) := by
  rw [breakBefore]
  split
  · exact balanced_nil
  · exact balanced_of_not_mem (by simp) (by simp)

theorem Text.shut_breakBefore (t : Text) (n : Nat) : Shut '(' ')' (t.breakBefore n) := by
  rw [breakBefore]
  split <;> exact shut_of_not_mem (by simp)

theorem Text.quote_not_mem_breakBefore (t : Text) (n : Nat) {c : Char} (quoted : isQuote c = true) :
    c ∉ t.breakBefore n := by
  rw [breakBefore]
  split
  · simp
  · intro member
    obtain rfl := List.mem_singleton.mp member
    exact absurd quoted (by decide)

/-! #### Imports -/

section
variable (proper : ∀ e ∈ entries, e.Proper config)
include proper

/-- The import lines of entries are found as a whole. -/
theorem exists_scan_importLines (at_ : Text.AtLine front) (back : Text) : ∃ ms,
    Scan importStatement (.between front
      ((entries.flatMap fun e => (Source.importLine e.className e.specifier).toList) ++ back)) ms
      (.between (front ++ entries.flatMap fun e => (Source.importLine e.className e.specifier).toList)
        back) ∧
      (ms.filterMap Zones.import?).map Import.content = entries.map Entry.importContent := by
  induction entries generalizing front with
  | nil => exact ⟨[], by simpa using .stay _, rfl⟩
  | cons e rest ih =>
    have here := proper e (by simp)
    have line : (Source.importLine e.className e.specifier).toList =
        importText false e.className.toList e.specifier.toList := by
      unfold Source.importLine importText importLead
      simp [typeWord, braced]
    have lines := Source.atLine_importLine e.className e.specifier
    obtain ⟨ms, first, found⟩ := Part.exists_scan_importText
      false at_ here.names.className here.some_ here.unquoted
    obtain ⟨ms', second, found'⟩ := ih (fun e' member => proper e' (by simp [member]))
      (at_.append lines)
    rw [← line] at first
    refine ⟨ms ++ ms', by simpa using first.trans second, ?_⟩
    rw [List.filterMap_append, List.map_append, found, found', List.map_cons]
    rfl

end

namespace Host

variable (h) (proper : ∀ e ∈ entries, e.Proper h.config)
include proper

theorem onlyZone_importBlock (place : Nat) : OnlyZone "import" (h.importBlock place entries) := by
  refine ((OnlyZone.breakBefore _ _ _).append (.flatMap fun e member =>
    (proper e member).onlyZone_importLine)).append ?_
  split
  · exact .feed _
  · exact .nil _

theorem onlyZone_fieldBlock (anchor : FieldAnchor) :
    OnlyZone "private" (h.fieldBlock anchor entries) := by
  refine ((OnlyZone.breakBefore _ _ _).append ?_).append (.flatMap fun e member =>
    (proper e member).onlyZone_fieldLine)
  split
  · exact .feed _
  · exact .nil _

theorem balanced_fieldBlock (anchor : FieldAnchor) : Text.Balanced (h.fieldBlock anchor entries) := by
  refine ((Text.balanced_breakBefore _ _).append ?_).append (Text.balanced_flatMap fun e member =>
    (proper e member).balanced_fieldLine)
  split
  · exact Text.balanced_of_not_mem (by simp) (by simp)
  · exact Text.balanced_nil

theorem inert_fieldBlock (anchor : FieldAnchor) : Inert (h.fieldBlock anchor entries) := by
  refine (h.onlyZone_fieldBlock proper anchor).inert (by simp) (h.atLine_fieldBlock entries anchor) ?_
  intro c quoted member
  simp only [fieldBlock, List.mem_append, List.mem_flatMap] at member
  rcases member with (member | member) | ⟨e, inside, member⟩
  · exact Text.quote_not_mem_breakBefore _ _ quoted member
  · split at member
    · obtain rfl := List.mem_singleton.mp member
      exact absurd quoted (by decide)
    · cases member
  · exact (proper e inside).quote_not_mem_fieldLine quoted member

theorem onlyZone_accessorBlock (anchor : AccessorAnchor) :
    OnlyZone "public" (h.accessorBlock anchor entries) := by
  refine (OnlyZone.breakBefore _ _ _).append (.flatMap fun e member => ?_)
  have block := (proper e member).onlyZone_accessorBlock
  dsimp only
  split
  · exact block.append (.feed _)
  · exact (OnlyZone.feed _).append block

theorem balanced_accessorBlock (anchor : AccessorAnchor) :
    Text.Balanced (h.accessorBlock anchor entries) := by
  have feed : Text.Balanced ['\n'] := Text.balanced_of_not_mem (by simp) (by simp)
  refine (Text.balanced_breakBefore _ _).append (Text.balanced_flatMap fun e member => ?_)
  have block := (proper e member).balanced_accessorBlock
  dsimp only
  split
  · exact block.append feed
  · exact feed.append block

theorem shut_accessorBlock (anchor : AccessorAnchor) :
    Text.Shut '(' ')' (h.accessorBlock anchor entries) := by
  have feed : Text.Shut '(' ')' ['\n'] := Text.shut_of_not_mem (by simp)
  refine (Text.shut_breakBefore _ _).append (Text.shut_flatMap fun e member => ?_)
  have block := (proper e member).shut_accessorBlock
  dsimp only
  split
  · exact block.append feed
  · exact feed.append block

theorem steady_accessorBlock (anchor : AccessorAnchor) :
    accessorSignature.Steady (h.accessorBlock anchor entries) :=
  (settles_accessorSignature (h.atLine_accessorBlock entries anchor)
    (h.shut_accessorBlock proper anchor)).steady rfl

theorem inert_accessorBlock (anchor : AccessorAnchor) : Inert (h.accessorBlock anchor entries) := by
  refine (h.onlyZone_accessorBlock proper anchor).inert (by simp)
    (h.atLine_accessorBlock entries anchor) ?_
  intro c quoted member
  simp only [accessorBlock, List.mem_append, List.mem_flatMap] at member
  rcases member with member | ⟨e, inside, member⟩
  · exact Text.quote_not_mem_breakBefore _ _ quoted member
  · refine (proper e inside).quote_not_mem_accessorBlock quoted ?_
    have feed : c ≠ '\n' := by
      rintro rfl
      exact absurd quoted (by decide)
    split at member <;> simpa [feed] using member

end Host
end Registrar
