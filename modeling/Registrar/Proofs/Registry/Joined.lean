import Registrar.Proofs.Registry.Lined
import Registrar.Proofs.Text.Block

/-!
The zones of texts joined. Where the first text is steady, its fields and accessors come first and those
of the second follow. A field says the same wherever it stands; an accessor is one only where its body is
closed, so what is put into a body may open no more braces than it closes.
-/

namespace Registrar

open Recognition Pattern

/-- What a field says, wherever it stands. -/
def Field.content (f : Field) : String × String × Bool := (f.name, f.type, f.isStatic)

/-- What an accessor says, wherever it stands. -/
def Accessor.content (a : Accessor) : String × Option String := (a.name, a.returns)

namespace Zones

variable {x y d t front back : Text} {m m' : Match} {n : Nat}

/-! ### Fields -/

theorem content_field_of_reads (reads : m.Reads n m') : (field m').content = (field m).content := by
  simp only [field, Field.content, reads.texts]

/-- What the fields of a text say. -/
def fieldContents (t : Text) : List (String × String × Bool) := (ofText t).fields.map Field.content

theorem steady_fieldDeclaration (whole : Text.AtLine x) : fieldDeclaration.Steady x :=
  (settles_fieldDeclaration whole).steady rfl

theorem local_fieldDeclaration : fieldDeclaration.Avoids fun _ => false := by
  simp [fieldDeclaration, lineEnding, Avoids]

theorem map_content_of_moved {ms ms' : List Match} (moved : List.Forall₂ (Match.Moved n y) ms ms') :
    ms'.map (fun m => (field m).content) = ms.map fun m => (field m).content := by
  induction moved with
  | nil => rfl
  | cons first _ ih =>
    rw [List.map_cons, List.map_cons, ih, content_field_of_reads first.groups.reads]

theorem fieldContents_append (whole : Text.AtLine x) (y : Text) :
    fieldContents (x ++ y) = fieldContents x ++ fieldContents y := by
  obtain ⟨ms, ms', found, first, second⟩ := (steady_fieldDeclaration whole).findAll_append rfl
    local_fieldDeclaration whole.edge_eq y
  have contents : ∀ t, fieldContents t =
      (fieldDeclaration.findAll t).map fun m => (field m).content := by
    intro t
    rw [fieldContents, ofText, List.map_map]
    rfl
  rw [contents, contents, contents, found, List.map_append, map_content_of_moved first,
    map_content_of_moved second]

/-- What an accessor says, if its body is closed in what follows its signature. -/
def opened? (m : Match) (body : Text) : Option (String × Option String) :=
  if (Text.closing? 1 body).isSome then
    some (String.ofList ((m.textOf? "name").getD []), (m.textOf? "returns").map String.ofList)
  else none

/-- What the accessors of a text say. -/
def accessorContents (t : Text) : List (String × Option String) :=
  (ofText t).accessors.map Accessor.content

/-- What the accessors that begin in a text say, with another text behind it. -/
def accessorContentsBefore (x y : Text) : List (String × Option String) :=
  (accessorSignature.findAll x).filterMap fun m => opened? m (m.stop.rest ++ y)

theorem local_accessorSignature : accessorSignature.Avoids fun _ => false := by
  simp [accessorSignature, Avoids]

/-- A signature ends in the brace that opens the body. -/
theorem exists_of_signature (found : accessorSignature.matchAt? (.between front back) = some m) :
    ∃ taken rest, back = taken ++ '\x7b' :: rest ∧ m.stop = .between (front ++ taken ++ ['\x7b']) rest := by
  obtain ⟨ps, parts⟩ : ∃ ps, accessorSignature = all (ps ++ [char '\x7b']) :=
    ⟨[_, _, _, _, _, _, _, _, _, _, _, _, _], rfl⟩
  rw [matchAt?_eq] at found
  obtain ⟨⟨place, g⟩, first, rfl⟩ := Option.map_eq_some_iff.mp found
  have member := List.mem_of_head? first
  obtain ⟨taken, rest, rfl, rfl⟩ := mem_ends member
  have reached : (all (ps ++ [char '\x7b'])).Reaches front taken rest := ⟨_, _, parts ▸ member⟩
  obtain ⟨t, t', rfl, -, last⟩ := reached.exists_of_all_append
  obtain rfl := Reaches.eq_of_char last
  exact ⟨t, rest, by simp, by simp⟩

/-- The body of a method begins with the last character of its signature. -/
theorem blockEnd?_of_signature (found : accessorSignature.matchAt? (.between front back) = some m) :
    Text.blockEnd? (front ++ back) (m.stop.offset - 1) =
      (Text.closing? 1 m.stop.rest).map fun n => (front ++ back).lineEnd (m.stop.offset + n) := by
  obtain ⟨taken, rest, rfl, stop⟩ := exists_of_signature found
  have brace : Char.utf8Size '\x7b' = 1 := rfl
  have offset : m.stop.offset = Text.size (front ++ taken) + 1 := by
    simp only [stop, Cursor.between_offset, Text.size_append, Text.size_cons, Text.size_nil, brace]
  rw [stop, Cursor.between_rest, ← stop, offset, Nat.add_sub_cancel, ← List.append_assoc, Text.blockEnd?,
    Text.before_size_append, Text.after_size_append]
  simp [brace]

theorem content_accessor? (found : accessorSignature.matchAt? (.between front back) = some m) :
    (accessor? (front ++ back) m).map Accessor.content = opened? m m.stop.rest := by
  rw [accessor?, blockEnd?_of_signature found, opened?]
  cases Text.closing? 1 m.stop.rest <;> rfl

theorem accessorContents_eq (t : Text) : accessorContents t =
    (accessorSignature.findAll t).filterMap fun m => opened? m m.stop.rest := by
  rw [accessorContents, ofText, List.map_filterMap]
  refine List.filterMap_congr fun m member => ?_
  obtain ⟨front, back, rfl, found⟩ := exists_of_mem_findAll member
  exact content_accessor? found

theorem opened?_of_moved (moved : Match.Moved n y m m') : opened? m' m'.stop.rest =
    opened? m (m.stop.rest ++ y) := by
  have reads := moved.groups.reads
  simp only [opened?, moved.rest, reads.texts]

theorem filterMap_opened?_of_moved {ms ms' : List Match}
    (moved : List.Forall₂ (Match.Moved n y) ms ms') :
    (ms'.filterMap fun m => opened? m m.stop.rest) =
      ms.filterMap fun m => opened? m (m.stop.rest ++ y) := by
  induction moved with
  | nil => rfl
  | cons first _ ih => rw [List.filterMap_cons, List.filterMap_cons, ih, opened?_of_moved first]

theorem accessorContents_append (steady : accessorSignature.Steady x) (side : Text.AtLine x) (y : Text) :
    accessorContents (x ++ y) = accessorContentsBefore x y ++ accessorContents y := by
  obtain ⟨ms, ms', found, first, second⟩ := steady.findAll_append rfl local_accessorSignature
    side.edge_eq y
  rw [accessorContents_eq, found, List.filterMap_append, filterMap_opened?_of_moved first,
    filterMap_opened?_of_moved second, accessorContents_eq, accessorContentsBefore]
  simp

theorem accessorContents_before (x : Text) : accessorContents x = accessorContentsBefore x [] := by
  simp [accessorContents_eq, accessorContentsBefore]

end Zones
end Registrar
