import Registrar.Proofs.Registry.Exported
import Registrar.Proofs.Registry.Joined
import Registrar.Proofs.Registry.Pruned
import Registrar.Proofs.Registry.Remainder
import Registrar.Proofs.Text.Grown

/-!
Texts from which a class has been taken out. If its parts hang loose in a text, so that each can be taken
out alone and nothing of the class is anywhere else, no part of it is left in what remains, and its helper
can be added again.
-/

namespace Registrar

open Pattern Text Recognition

variable {t : Text} {config : Config} {className : String}

/-! ### The lines of accessors -/

namespace Recognition

variable {front back : Text} {m : Match}

end Recognition

namespace Removal

/-- What is edited when a class is taken out: the spans of its fields, its accessor, its export and of the
imports that bind it, each with its edit. -/
def cuts (config : Config) (t : Text) (className : String) : List (Span × Edit) :=
  (memberEdits config t (Zones.ofText t) className).map (fun e => (⟨e.start, e.stop⟩, e)) ++
    (Zones.ofText t).imports.filterMap fun i => (pruneImport? t [className] i).map fun e => (i.span, e)

/-- The parts of a class hang loose in a text: each is a piece of its own between places where a line begins
and no import is open, and nothing else of the text is a part of the class. -/
structure Loose (config : Config) (t : Text) (className : String) : Prop where
  apart : (cuts config t className).Pairwise fun a b => a.1.stop ≤ b.1.start ∨ b.1.stop ≤ a.1.start
  closed : ∀ c ∈ cuts config t className, Sealed (t.before c.1.start) ∧
    (c.1.stop = t.size ∨ Sealed (t.before c.1.stop))
  -- Imports that bind the class may stand on several lines, but no name or specifier of them does.
  whole : ∀ i ∈ (Zones.ofText t).imports, i.binds className = true →
    '\n' ∉ i.specifier.toList ∧ ∀ b ∈ i.bindings, '\n' ∉ b.raw.toList
  fields : ∀ f ∈ (Zones.ofText t).fields, f.isStatic = true →
    f.name ≠ Naming.field config.fieldPrefix className
  lines : ∀ front line, t.HasLine front line →
    (opensMethod (Naming.accessor className).toList line ||
      opensExport (Naming.accessor className).toList line) = true →
    ∃ c ∈ cuts config t className, c.1.start ≤ front.size ∧ front.size < c.1.stop
  blanks : OpenAtNoBlank t

/-! #### What is edited -/

/-- The brace that closes a block ends where a character does. -/
theorem isPlace_of_closing? {body : Text} {depth n : Nat} (closed : closing? depth body = some n) :
    body.IsPlace n := by
  have later : ∀ {c : Char} {rest : Text} {k : Nat}, rest.IsPlace k →
      IsPlace (c :: rest) (c.utf8Size + k) := by
    rintro c _ _ ⟨a, b, rfl, rfl⟩
    exact ⟨c :: a, b, rfl, (size_cons c a).symm⟩
  induction body generalizing depth n with
  | nil => cases closed
  | cons c rest ih =>
    rw [closing?] at closed
    split at closed
    · obtain ⟨k, inside, rfl⟩ := Option.map_eq_some_iff.mp closed
      exact later (ih inside)
    · split at closed
      · split at closed
        · obtain rfl := Option.some.inj closed
          exact ⟨[c], rest, rfl, by simp⟩
        · obtain ⟨k, inside, rfl⟩ := Option.map_eq_some_iff.mp closed
          exact later (ih inside)
      · obtain ⟨k, inside, rfl⟩ := Option.map_eq_some_iff.mp closed
        exact later (ih inside)

/-- A field takes some of the text. -/
theorem isPlace_of_mem_fields {f : Field} (member : f ∈ (Zones.ofText t).fields) :
    t.IsPlace f.span.start ∧ t.IsPlace f.span.stop ∧ f.span.start < f.span.stop := by
  obtain ⟨m, inside, rfl⟩ := List.mem_map.mp member
  obtain ⟨start, stop⟩ := Anchors.isPlace_of_mem_findAll inside
  obtain ⟨front, back, rfl, here⟩ := exists_of_mem_findAll inside
  refine ⟨start, stop, ?_⟩
  have less := lt_stop_of_matchAt? rfl here
  have first := (matchAt?_some here).1
  simp only [Zones.field, Match.span, Cursor.spanTo, first, Cursor.between_offset]
  exact less

/-- An import takes some of the text. -/
theorem span_of_mem_imports {i : Import} (member : i ∈ (Zones.ofText t).imports) :
    i.span.start < i.span.stop ∧ i.span.stop ≤ t.size := by
  obtain ⟨others, later, split⟩ := List.append_of_mem member
  obtain ⟨x, s, tail, rest, at_⟩ := Zones.exists_standsIn split
  have some_ : 0 < Text.size (s.text ++ tail) := Text.size_pos (by simp [Statement.text])
  have whole := congrArg Text.size at_.text
  simp only [at_.span, Text.size_append] at some_ whole ⊢
  omega

/-- An import that binds the class is edited. -/
theorem Loose.exists_prune (loose : Loose config t className) {i : Import}
    (member : i ∈ (Zones.ofText t).imports) (binds : i.binds className = true) :
    ∃ e, pruneImport? t [className] i = some e ∧ Replaces config className t i.span e := by
  obtain ⟨others, later, split⟩ := List.append_of_mem member
  obtain ⟨x, s, tail, rest, at_⟩ := Zones.exists_standsIn split
  obtain ⟨specifier, names⟩ := loose.whole i member binds
  exact exists_replaces_prune at_ binds specifier names

/-- A piece of the text that none of the edits touches. -/
structure Spared (config : Config) (t : Text) (className : String) (front m y : Text) : Prop where
  split : t = front ++ (m ++ y)
  sealed_ : Sealed front
  closed : y = [] ∨ Sealed (front ++ m)
  outside : ∀ c ∈ cuts config t className,
    c.1.stop ≤ front.size ∨ Text.size (front ++ m) ≤ c.1.start

namespace Spared

variable {front m y : Text}

theorem imports (spared : Spared config t className front m y) {i : Import}
    (member : i ∈ (Zones.ofText m).imports) : i.moved front.size ∈ (Zones.ofText t).imports := by
  rw [spared.split, Zones.imports_append spared.sealed_]
  refine List.mem_append_right _ (List.mem_map_of_mem ?_)
  rcases spared.closed with rfl | sealed_
  · rwa [List.append_nil]
  · rw [Zones.imports_append (sealed_.of_append spared.sealed_.whole)]
    exact List.mem_append_left _ member

theorem fields (spared : Spared config t className front m y) {f : Field}
    (member : f ∈ (Zones.ofText m).fields) : f.moved front.size ∈ (Zones.ofText t).fields := by
  rw [spared.split, Zones.fields_append spared.sealed_.whole]
  refine List.mem_append_right _ (List.mem_map_of_mem ?_)
  rcases spared.closed with rfl | sealed_
  · rwa [List.append_nil]
  · rw [Zones.fields_append (sealed_.of_append spared.sealed_.whole).whole]
    exact List.mem_append_left _ member

theorem lines (spared : Spared config t className front m y) {f line : Text} (here : m.HasLine f line)
    (inside : f.length < m.length) : t.HasLine (front ++ f) line := by
  rw [spared.split, Text.hasLine_append spared.sealed_.whole]
  refine .inr ⟨f, rfl, ?_⟩
  rcases spared.closed with rfl | sealed_
  · rwa [List.append_nil]
  · rw [Text.hasLine_append (sealed_.of_append spared.sealed_.whole).whole]
    exact .inl ⟨here, inside⟩

theorem blanks (spared : Spared config t className front m y) (open_ : OpenAtNoBlank t) :
    OpenAtNoBlank m := by
  rw [spared.split, openAtNoBlank_append spared.sealed_] at open_
  rcases spared.closed with rfl | sealed_
  · simpa using open_.2
  · exact ((openAtNoBlank_append (sealed_.of_append spared.sealed_.whole)).mp open_.2).1

/-- A piece that none of the edits touches has no part of the class. -/
theorem clean (spared : Spared config t className front m y) (loose : Loose config t className) :
    Clean config className m := by
  have line : ∀ f line, m.HasLine f line →
      (opensMethod (Naming.accessor className).toList line ||
        opensExport (Naming.accessor className).toList line) = false := by
    intro f line here
    by_contra opens
    rw [Bool.not_eq_false] at opens
    have inside : f.length < m.length := by
      by_contra beyond
      rw [line_eq_nil_of_hasLine here (by omega), opensMethod_nil, opensExport_nil] at opens
      cases opens
    obtain ⟨c, member, start, stop⟩ := loose.lines _ line (spared.lines here inside) opens
    obtain ⟨-, back, rfl, -⟩ := here
    have some_ : 0 < back.size := Text.size_pos (by
      rintro rfl
      simp at inside)
    rcases spared.outside c member with before_ | behind
    · rw [Text.size_append] at stop
      omega
    · simp only [Text.size_append] at start behind
      omega
  refine ⟨⟨fun i member => ?_, fun f member same => ?_, fun f l here => ?_, fun f l here => ?_⟩,
    spared.blanks loose.blanks⟩
  · by_contra binds
    rw [Bool.not_eq_false] at binds
    obtain ⟨e, pruned, -⟩ := loose.exists_prune (spared.imports member) binds
    have cut : ((i.moved front.size).span, e) ∈ cuts config t className :=
      List.mem_append_right _ (List.mem_filterMap.mpr ⟨_, spared.imports member, by rw [pruned]; rfl⟩)
    obtain ⟨less, inside⟩ := span_of_mem_imports member
    have outside := spared.outside _ cut
    simp only [Import.moved, Span.moved, Text.size_append] at outside
    omega
  · have free : f.isStatic = false := by
      by_contra static
      exact loose.fields _ (spared.fields member) (by simpa [Field.moved] using static) same
    have cut : ((f.moved front.size).span, Edit.delete (f.moved front.size).span) ∈
        cuts config t className := by
      refine List.mem_append_left _ (List.mem_map.mpr ⟨.delete (f.moved front.size).span, ?_, rfl⟩)
      refine List.mem_append_left _ (List.mem_append_left _ (List.mem_map_of_mem ?_))
      exact List.mem_filter.mpr ⟨spared.fields member, by simp [Field.moved, free, same]⟩
    obtain ⟨-, place, less⟩ := isPlace_of_mem_fields member
    have inside := place.le
    have outside := spared.outside _ cut
    simp only [Field.moved, Span.moved, Text.size_append] at outside
    omega
  · exact (Bool.or_eq_false_iff.mp (line f l here)).1
  · exact (Bool.or_eq_false_iff.mp (line f l here)).2

end Spared

end Removal

end Registrar
