import Registrar.Proofs.Pattern.Found
import Registrar.Proofs.Registry.Statement
import Registrar.Proofs.Text.Word
import Registrar.Registry.Zones
import Registrar.Workspace.Reference

/-!
Mentions of a helper. A file that has the class or the accessor as a whole word is found by the
search for mentions, and a file that imports the class in braces, under its own name or another,
has the class as a whole word.
-/

namespace Registrar

/-! ### Imports -/

open Pattern

namespace Recognition

/-- What stands between the braces of an import stands between braces in the text. -/
theorem exists_of_named {t inner : Text} {m : Match} (member : m ∈ importStatement.findAll t)
    (named : m.textOf? "named" = some inner) :
    ∃ front back, t = front ++ ['\x7b'] ++ inner ++ ['\x7d'] ++ back := by
  obtain ⟨front, back, rfl, here⟩ := exists_of_mem_findAll member
  obtain ⟨s, y, rfl, -, remembered, -⟩ := exists_statement_of_match here
  cases opening : s.opening with
  | plain words quote =>
    rw [opening] at remembered
    have none_ : m.groups.lookup "named" = none := remembered
    simp [Match.textOf?, none_] at named
  | braced lead inner' link quote =>
    rw [opening] at remembered
    obtain ⟨c, given, encloses, -⟩ := remembered
    obtain rfl : inner' = inner := by simpa [Match.textOf?, given, encloses.upTo] using named
    exact ⟨front ++ lead, link ++ [quote] ++ (s.specifier ++ [s.closing]) ++ y,
      by simp [Statement.text, Opening.text, opening]⟩

end Recognition

namespace Zones

open Text

/-- An entry in braces has both of its names as whole words. -/
theorem hasWord_of_binding {raw name : Text}
    (bound : (binding raw).imported.toList = name ∨ (binding raw).bound.toList = name) :
    HasWord raw name := by
  -- The entry may stand behind the word for types.
  have typed : HasWord (((dropFront? raw "type ".toList).map Text.trim).getD raw) name →
      HasWord raw name := by
    intro has
    cases begins : dropFront? raw "type ".toList with
    | none =>
      rw [begins] at has
      exact has
    | some rest =>
      rw [begins] at has
      have closes : Closes "type ".toList := closes_concat (by decide) "type".toList
      have whole := HasWord.append (HasWord.of_trim has) closes opens_nil
      rwa [List.append_nil, ← eq_append_of_dropFront? begins] at whole
  refine typed ?_
  simp only [binding] at bound
  split at bound
  · next imported local_ cut =>
    rw [eq_append_of_cut? cut]
    simp only [String.toList_ofList] at bound
    rcases bound with rfl | rfl
    · have opens : Opens (" as ".toList ++ local_) := opens_cons (by decide) _
      simpa using (hasWord_self (Text.trim imported)).of_trim.append closes_nil opens
    · have split : " as ".toList = " as".toList ++ [' '] := rfl
      have closes : Closes (imported ++ " as ".toList) := by
        rw [split, ← List.append_assoc]
        exact closes_concat (by decide) _
      simpa using (hasWord_self (Text.trim local_)).of_trim.append closes opens_nil
  · rcases bound with rfl | rfl
    · simpa using hasWord_self _
    · simpa using hasWord_self _

/-- A file that imports a name in braces has it as a whole word. -/
theorem hasWord_of_mem_imports {t : Text} {i : Import} (member : i ∈ (ofText t).imports)
    {b : Binding} (among : b ∈ i.bindings) {name : String}
    (bound : b.imported = name ∨ b.bound = name) : HasWord t name.toList := by
  obtain ⟨m, found, read⟩ := List.mem_filterMap.mp member
  rw [import?] at read
  split at read
  · simp at read
  · obtain rfl := Option.some.inj read
    cases named : m.textOf? "named" with
    | none => simp [named] at among
    | some inner =>
      obtain ⟨front, back, rfl⟩ := Recognition.exists_of_named found named
      simp only [named, Option.map_some, Option.getD_some, bindings] at among
      obtain ⟨raw, kept, rfl⟩ := List.mem_map.mp among
      obtain ⟨piece, inside, rfl⟩ := List.mem_map.mp (List.mem_of_mem_filter kept)
      have entry : HasWord (Text.trim piece) name.toList :=
        hasWord_of_binding (bound.imp (congrArg String.toList) (congrArg String.toList))
      have comma : ∀ c, (c == ',') = true → Letter.isWord c = false := by
        intro c same
        rw [eq_of_beq same]
        decide
      have braced : HasWord inner name.toList := entry.of_trim.of_mem_splitOn comma inside
      have whole := braced.append (closes_concat (by decide) front : Closes (front ++ ['\x7b']))
        (opens_cons (by decide) back : Opens ('\x7d' :: back))
      simpa using whole

end Zones

/-! ### The search for mentions -/

open Text

/-- A word begins where no word character stands before it, and ends where none follows. -/
theorem splitsWord_around {front back w : Text} (word : IsWord w) (closes : Closes front)
    (opens : Opens back) : (Cursor.between front (w ++ back)).splitsWord = true ∧
      (Cursor.between (front ++ w) back).splitsWord = true := by
  have first : (w ++ back).head?.any Letter.isWord = true := by
    obtain ⟨x, rest, rfl⟩ := List.exists_cons_of_ne_nil word.1
    simpa using word.2 x (by simp)
  have last : (front ++ w).getLast?.any Letter.isWord = true := by
    rcases List.eq_nil_or_concat' w with rfl | ⟨rest, x, rfl⟩
    · exact absurd rfl word.1
    · simpa [← List.append_assoc] using word.2 x (by simp)
  have before_ : front.getLast?.any Letter.isWord = false := closes
  have behind : back.head?.any Letter.isWord = false := opens
  rw [Cursor.splitsWord, Cursor.splitsWord, Cursor.afterWord, Cursor.afterWord, Cursor.beforeWord,
    Cursor.beforeWord, Cursor.between_previous, Cursor.between_previous, Cursor.between_rest,
    Cursor.between_rest, first, last, before_, behind]
  exact ⟨rfl, rfl⟩

/-- A line with the class or the accessor as a whole word mentions the helper. -/
theorem Reference.occursIn_pattern {className accessor : String} {line w : Text} (word : IsWord w)
    (known : w = className.toList ∨ w = accessor.toList) (has : HasWord line w) :
    (Reference.pattern className accessor).occursIn line = true := by
  obtain ⟨front, back, rfl, closes, opens⟩ := has
  obtain ⟨before_, behind⟩ := splitsWord_around word closes opens
  have start : ((Cursor.between front (w ++ back), []) : Cursor × Groups) ∈
      (Pattern.place Cursor.splitsWord).ends (.between front (w ++ back)) [] := by
    simp [ends, before_]
  have middle : ((Cursor.between (front ++ w) back, []) : Cursor × Groups) ∈
      (Pattern.either (literal className.toList) (literal accessor.toList)).ends
        (.between front (w ++ back)) [] := by
    rw [ends, List.mem_append]
    refine known.imp ?_ ?_ <;> rintro rfl <;> simp [ends_literal_append]
  have stop : ((Cursor.between (front ++ w) back, []) : Cursor × Groups) ∈
      (Pattern.place Cursor.splitsWord).ends (.between (front ++ w) back) [] := by
    simp [ends, behind]
  rw [List.append_assoc]
  exact occursIn_of_mem_ends (mem_ends_all_cons.mpr
    ⟨_, start, mem_ends_all_cons.mpr ⟨_, middle, stop⟩⟩)

theorem Reference.ofLines_ne_nil {p : Pattern} {file : Path} {line : Text} {lines : List Text}
    (member : line ∈ lines) (occurs : p.occursIn line = true) (number : Nat) :
    Reference.ofLines p file number lines ≠ [] := by
  induction lines generalizing number with
  | nil => simp at member
  | cons first rest ih =>
    rw [Reference.ofLines]
    split
    · simp
    · next absent =>
      rcases List.mem_cons.mp member with rfl | member
      · exact absurd occurs absent
      · exact ih member _

/-- Where the search for mentions of a helper comes to nothing, no source that it reads has the class
or the accessor as a whole word. -/
theorem Workspace.not_hasWord_of_references {w : Workspace} {className accessor : String}
    {except : List Path} (none_ : w.references className accessor except = []) {file : Path}
    (source : file ∈ w.sources)
    (other : ∀ e ∈ except, file.normal.same e.normal = false) {t : Text}
    (read : w.disk.readText? file = some t) {word : Text} (is_word : IsWord word)
    (known : word = className.toList ∨ word = accessor.toList) : ¬HasWord t word := by
  intro has
  obtain ⟨line, inside, has⟩ := has.exists_mem_lines is_word
  have occurs := Reference.occursIn_pattern is_word known has
  have kept : file ∈ w.sources.filter fun file => !(except.map Path.normal).any file.normal.same := by
    refine List.mem_filter.mpr ⟨source, ?_⟩
    simpa using other
  have here := List.flatMap_eq_nil_iff.mp none_ file kept
  rw [read] at here
  exact Reference.ofLines_ne_nil inside occurs 1 here

end Registrar
