import Mathlib.Data.List.Infix
import Registrar.Proofs.Registry.Forwarding
import Registrar.Proofs.Workspace.Inserted

/-!
Additions to registries that were edited by hand. Where lines can be put at the anchors of a text, an
addition loses nothing that the text declares, and what it adds is found again. Two things can still
go wrong, since braces are counted wherever they stand: a specifier may close the braces of an import
that is none, and the specifiers that are added may open a block around them.
-/

namespace Registrar

open Recognition

/-! ### Conditions -/

namespace Text

instance (t : Text) : Decidable t.AtLine :=
  decidable_of_iff (t = [] ∨ t.getLast? = some '\n') (or_congr_right List.getLast?_eq_some_iff)

theorem shut_iff {opening closing : Char} {t : Text} :
    Shut opening closing t ↔ ∀ s ∈ t.tails, s.head? = some opening → closing ∈ s.tail := by
  constructor
  · intro shut s member first
    obtain ⟨front, rfl⟩ := (List.mem_tails _ _).mp member
    obtain ⟨rest, rfl⟩ := List.head?_eq_some_iff.mp first
    exact shut front rest rfl
  · rintro each front rest rfl
    exact each (opening :: rest) ((List.mem_tails _ _).mpr ⟨front, rfl⟩) rfl

instance (opening closing : Char) (t : Text) : Decidable (Shut opening closing t) :=
  decidable_of_iff _ shut_iff.symm

end Text

/-- The names that a configuration puts into every registry are identifiers. -/
structure Config.Named (config : Config) : Prop where
  type : isIdentifier config.contextType.toList = true
  context : isIdentifier config.contextField.toList = true
  lead : config.fieldPrefix = "" ∨ isIdentifier config.fieldPrefix.toList = true

instance (config : Config) : Decidable config.Named :=
  decidable_of_iff (_ ∧ _ ∧ _) ⟨fun ⟨t, c, l⟩ => ⟨t, c, l⟩, fun ⟨t, c, l⟩ => ⟨t, c, l⟩⟩

/-- A specifier that can stand between quotation marks. -/
structure Specifier.Quotable (specifier : String) : Prop where
  some_ : specifier.toList ≠ []
  unquoted : ∀ c ∈ specifier.toList, isQuote c = false
  whole : '\n' ∉ specifier.toList

instance (specifier : String) : Decidable (Specifier.Quotable specifier) :=
  decidable_of_iff (specifier.toList ≠ [] ∧ specifier.toList.any isQuote = false ∧ '\n' ∉ specifier.toList)
    ⟨fun ⟨s, u, w⟩ => ⟨s, by simpa using u, w⟩, fun ⟨s, u, w⟩ => ⟨s, by simpa using u, w⟩⟩

instance (t : Text) (contextField : String) : Decidable (Anchors.Clear t contextField) :=
  decidable_of_iff (_ ∧ _ ∧ _) ⟨fun ⟨a, o, p⟩ => ⟨a, o, p⟩, fun ⟨a, o, p⟩ => ⟨a, o, p⟩⟩

/-- Before a last import that has no braces itself, every brace is closed. -/
def Anchors.Braced (t : Text) : Prop :=
  ∀ i, (Zones.ofText t).imports.getLast? = some i → i.bindingsSpan = none →
    Text.Shut '\x7b' '\x7d' (t.before i.span.start)

instance (t : Text) : Decidable (Anchors.Braced t) :=
  inferInstanceAs (Decidable (∀ i ∈ (Zones.ofText t).imports.getLast?, i.bindingsSpan = none →
    Text.Shut '\x7b' '\x7d' (t.before i.span.start)))

/-- New imports do not go into the block of an accessor. -/
def Anchors.Apart (t : Text) (contextField : String) : Prop :=
  ∀ a ∈ (Zones.ofText t).accessors,
    ¬(a.span.start < (ofText t contextField).imports ∧ (ofText t contextField).imports < a.span.stop)

namespace Host

variable {h : Host} {entries : List Entry} {e : Entry}

/-- The entry of a class that is declared somewhere is proper if its specifier is. -/
theorem Declares.proper (declares : h.Declares e) (named : h.config.Named)
    (quotable : Specifier.Quotable e.specifier) : e.Proper h.config := by
  obtain ⟨file, text, own, declared⟩ := declares
  have class_ := isIdentifier_of_className? declared
  have accessor : e.accessor = Naming.accessor e.className := by
    rw [own]
    rfl
  have field : e.field = Naming.field h.config.fieldPrefix e.className := by
    rw [own]
    rfl
  refine ⟨⟨?_, ?_, class_, named.type, named.context⟩, quotable.some_, quotable.unquoted, quotable.whole⟩
  · rw [accessor]
    exact Naming.isIdentifier_accessor class_
  · rw [field]
    exact Naming.isIdentifier_field named.lead class_

end Host

namespace Workspace

variable {w : Workspace} {registry : Path} {files : List Path} {t : Text}

/-- An addition to a registry that can be read comes to an end, and the registry has the new text then. -/
theorem exists_add_of_read (read : w.disk.readText registry = .ok t) (files : List Path) :
    let made := (⟨w.config, w.root, registry, t⟩ : Host).add (files.map (w.candidate registry))
    ∃ disk, w.add registry files = .ok (made.1, disk) ∧
      disk.readText registry = .ok (made.2.getD t) := by
  intro made
  have there : w.disk.isFile registry = true := by
    obtain ⟨names, moment, led, there⟩ := Disk.readText_eq_ok_iff.mp read
    exact Disk.isFile_iff.mpr ⟨names, _, led, there⟩
  obtain ⟨report, disk, added⟩ := exists_add read (Disk.exists_write_of_isFile there) files
  obtain ⟨rfl, change⟩ := (add_eq_ok_iff read).mp added
  refine ⟨disk, added, ?_⟩
  rcases writeChange_eq_ok_iff.mp change with ⟨none_, rfl⟩ | ⟨new, some_, written⟩
  · rw [show made.2 = none from none_]
    exact read
  · rw [show made.2 = some new from some_]
    exact Disk.readText_of_write written

end Workspace
end Registrar
