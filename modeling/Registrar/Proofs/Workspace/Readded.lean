import Registrar.Proofs.Registry.Purged
import Registrar.Proofs.Workspace.Seen

/-!
Helpers that are added again. If the parts of a class hang loose in a registry, the class can be added
again once it has been taken out. Where they do not, parts of it may be left: only one accessor is taken
out, and the accessor that returns the class is chosen before the one that is named for it.
-/

namespace Registrar

open Pattern Text Recognition

variable {lines : List Text} {front back line : Text}

/-! ### Lines -/

namespace Text

end Text

namespace Recognition

/-- A line on which no import begins, or all of one stands. -/
structure Unbroken (line : Text) : Prop where
  whole : '\n' ∉ line
  closed : ¬"import".toList <+: line.dropWhile isGap ∨
    (importStatement.matchAt? (.between [] (line ++ ['\n']))).isSome = true

instance (line : Text) : Decidable (Unbroken line) :=
  decidable_of_iff (_ ∧ _) ⟨fun ⟨w, c⟩ => ⟨w, c⟩, fun ⟨w, c⟩ => ⟨w, c⟩⟩

theorem Unbroken.sealed_ (unbroken : Unbroken line) : Sealed (line ++ ['\n']) := by
  rcases unbroken.closed with other | found
  · refine sealed_of_passes ⟨unbroken.whole, fun x _ begins => other ?_⟩
    exact (List.prefix_append _ _).trans begins
  · obtain ⟨m, found⟩ := Option.isSome_iff_exists.mp found
    obtain ⟨s, y, text, stands, -⟩ := exists_statement_of_match found
    have begins : AtLine ([] ++ s.text ++ y) := .inr ⟨line, by simpa using text.symm⟩
    have some_ := stands.ne_nil_of_atLine begins
    obtain ⟨u, rfl⟩ := (begins.of_append some_).resolve_left some_
    have same : line = s.text ++ u := List.append_cancel_right (by simpa using text)
    rw [same]
    exact stands.sealed_ (same ▸ unbroken.whole) (.inr rfl) (.inr ⟨_, rfl⟩)

end Recognition

namespace Removal

variable {config : Config} {className : String} {t : Text}

end Removal

namespace Host

variable {h : Host} {className : String} {text : Text}

end Host

namespace Workspace

variable {w : Workspace} {registry file : Path} {t text : Text} {className : String}
  {report : RemovalReport} {disk : Disk}

end Workspace
end Registrar
