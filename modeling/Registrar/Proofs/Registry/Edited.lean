import Registrar.Proofs.Registry.Ending

/-!
Additions to a registry that was edited by hand. Whatever a text holds, what it declares is still
declared when entries have been put in, and the entries are seen, if lines can be put at its anchors
without cutting anything up.
-/

namespace Registrar

open Recognition Pattern

/-- The places where fragments go. -/
def Anchors.places (a : Anchors) : List Nat := [a.imports, a.fields.offset, a.accessors.offset]

/-- Lines can be put at the anchors of a text: each of them starts a line, none is inside an import, and
before each of them every parenthesis is closed. -/
structure Anchors.Clear (t : Text) (contextField : String) : Prop where
  atLine : ∀ n ∈ (ofText t contextField).places, Text.AtLine (t.before n)
  outside : ∀ n ∈ (ofText t contextField).places, ∀ i ∈ (Zones.ofText t).imports,
    ¬(i.span.start < n ∧ n < i.span.stop)
  parentheses : ∀ n ∈ (ofText t contextField).places, Text.Shut '(' ')' (t.before n)

theorem Anchors.isPlace_of_mem {t : Text} {contextField : String} {n : Nat}
    (member : n ∈ (ofText t contextField).places) : t.IsPlace n := by
  simp only [places, ofText, List.mem_cons, List.not_mem_nil, or_false] at member
  rcases member with rfl | rfl | rfl
  · exact isPlace_importsOf t
  · exact isPlace_fieldsOf t contextField
  · exact isPlace_accessorsOf t

namespace Host

variable {h : Host} {entries : List Entry}

/-! ### The insertions -/

/-- The insertions before the end of the text. -/
def inserts (h : Host) (entries : List Entry) : List Edit := (h.additionEdits entries).dropLast

/-- The insertion of imports. -/
def importEdit (h : Host) (entries : List Entry) : Edit :=
  let place := (Zones.ofText h.text).lastImportEnd.getD 0
  .insert place (h.importBlock place entries)

/-- The insertion of fields. -/
def fieldEdit (h : Host) (entries : List Entry) : Edit :=
  let anchor := Anchors.fieldsOf h.text (Zones.ofText h.text) h.config.contextField
  .insert anchor.offset (h.fieldBlock anchor entries)

/-- The insertion of accessors. -/
def accessorEdit (h : Host) (entries : List Entry) : Edit :=
  let anchor := Anchors.accessorsOf h.text
  .insert anchor.offset (h.accessorBlock anchor entries)

theorem inserts_eq (h : Host) (entries : List Entry) :
    h.inserts entries = [h.importEdit entries, h.fieldEdit entries, h.accessorEdit entries] := rfl

theorem withEntries_eq (h : Host) (entries : List Entry) : h.withEntries entries =
    (Edit.backToFront (h.inserts entries)).foldl (fun t e => e.apply t)
      (h.text ++ h.exportBlock entries) :=
  Edit.applyAll_concat (fun _ member => h.insertsLines_of_mem entries member) (h.exportBlock entries)

/-- The insertions of fields and accessors, which are made before that of imports where their places are
no earlier. -/
def others (h : Host) (entries : List Entry) : List Edit := [h.fieldEdit entries, h.accessorEdit entries]

theorem atLine_of_mem {e : Edit} (member : e ∈ h.inserts entries) : e.new.AtLine :=
  (h.insertsLines_of_mem entries member).lines

section
variable {e : Edit} (member : e ∈ h.inserts entries)
include member

theorem start_mem_places :
    e.start ∈ (Anchors.ofText h.text h.config.contextField).places := by
  simp only [inserts_eq, List.mem_cons, List.not_mem_nil, or_false] at member
  rcases member with rfl | rfl | rfl
  · exact List.mem_cons_self
  · exact List.mem_cons_of_mem _ List.mem_cons_self
  · exact List.mem_cons_of_mem _ (List.mem_cons_of_mem _ List.mem_cons_self)

variable (clear : Anchors.Clear h.text h.config.contextField)
include clear

theorem atLine_before : (h.text.before e.start).AtLine := clear.atLine _ (start_mem_places member)

end

/-! ### Fields -/

theorem mem_inserts_of_others {e : Edit} (member : e ∈ h.others entries) : e ∈ h.inserts entries :=
  List.mem_cons_of_mem _ member

theorem inert_of_others (proper : ∀ e ∈ entries, e.Proper h.config) {e : Edit}
    (member : e ∈ h.others entries) : Inert e.new := by
  simp only [others, List.mem_cons, List.not_mem_nil, or_false] at member
  rcases member with rfl | rfl
  · exact h.inert_fieldBlock proper _
  · exact h.inert_accessorBlock proper _

/-- The imports of a text that are found up to a place of another one, together with those of the entries,
and none of them is where some insertions go. -/
def ImportsFound (h : Host) (entries : List Entry) (l : List Edit) (s : Text) : Prop :=
  ∃ x w ms, s = x ++ w ∧ Scan importStatement (.between [] (x ++ w)) ms (.between x w) ∧
    (∀ e ∈ l, e.start ≤ x.size ∧ ∀ i ∈ ms.filterMap Zones.import?,
      ¬(i.span.start < e.start ∧ e.start < i.span.stop)) ∧
    (ms.filterMap Zones.import?).map Import.content =
      Zones.importContents h.text ++ entries.map Entry.importContent

/-- Fields and accessors leave the imports alone. -/
theorem ImportsFound.step (clear : Anchors.Clear h.text h.config.contextField)
    (proper : ∀ e ∈ entries, e.Proper h.config) {e : Edit} (member : e ∈ h.others entries)
    {rest : List Edit} {back : Text} (least : ∀ x ∈ rest, x.start ≤ e.start)
    (found : h.ImportsFound entries (e :: rest) (h.text.before e.start ++ back)) :
    h.ImportsFound entries rest (h.text.before e.start ++ (e.new ++ back)) := by
  have inside := mem_inserts_of_others member
  have size := (Anchors.isPlace_of_mem (start_mem_places inside)).size_before
  obtain ⟨x, w, ms, split, scan, outside, contents⟩ := found
  obtain ⟨reached, outside_⟩ := outside e (by simp)
  obtain ⟨r, rfl, rfl⟩ : ∃ r, x = h.text.before e.start ++ r ∧ back = r ++ w := by
    rcases List.append_eq_append_iff.mp split with ⟨r, rfl, rfl⟩ | ⟨r, front, rfl⟩
    · exact ⟨r, rfl, rfl⟩
    · have sizes := congrArg Text.size front
      rw [Text.size_append, size] at sizes
      obtain rfl : r = [] := by
        by_contra some_
        have := Text.size_pos some_
        omega
      exact ⟨[], by simpa using front.symm, rfl⟩
  rw [List.append_assoc] at scan
  obtain ⟨ms', scan', shifted⟩ := exists_scan_interposed (inert_of_others proper member)
    (atLine_before inside clear) scan (by rwa [size])
  refine ⟨h.text.before e.start ++ (e.new ++ r), w, ms', by simp, by simpa using scan',
    fun y later => ⟨?_, fun j found => ?_⟩, ?_⟩
  · rw [Text.size_append, size]
    exact Nat.le_add_right_of_le (least y later)
  · obtain ⟨i, known, shift⟩ := (exists_of_forall₂ shifted).2 j found
    have here := outside_ i known
    have there := (outside y (by simp [later])).2 i known
    have less := least y later
    rw [size] at shift
    by_cases before_ : i.span.stop ≤ e.start
    · rwa [shift.before_ before_]
    · have behind : e.start ≤ i.span.start := by omega
      rw [shift.behind behind]
      simp only [Span.moved]
      omega
  · rw [← contents, Import.map_content_of_shifted shifted]

end Host
end Registrar
