import Registrar.Proofs.Registry.Closing
import Registrar.Proofs.Registry.Zoned
import Registrar.Proofs.Text.Splicing

/-!
Removals from a text that is put together from parts. Every edit that a removal stages takes out a
whole part; as long as no part is staged twice, the text that is left is that of the parts that are
left, with blank lines closed up.
-/

namespace Registrar

open Recognition Pattern

namespace Part

variable {f : Frame} {p : Part} {parts : List Part}

/-! ### Parts taken out -/

/-- The edit that takes out a located part. -/
def deletion (f : Frame) (e : Nat × Part) : Edit := .delete (span f e)

/-- Located parts begin one after another. -/
theorem located_pairwise (start : Nat) (parts : List Part) :
    (located f start parts).Pairwise fun a b => a.1 < b.1 := by
  induction parts generalizing start with
  | nil => exact .nil
  | cons p rest ih =>
    refine List.pairwise_cons.mpr ⟨fun e member => ?_, ih _⟩
    obtain ⟨before_, after_, _, place⟩ := exists_of_mem_located member
    have positive := Text.size_pos (p.text_ne_nil (f := f))
    simp only [place]
    omega

theorem located_nodup (start : Nat) (parts : List Part) : (located f start parts).Nodup :=
  (located_pairwise start parts).imp fun less same => by simp [same] at less

/-- Taking out located parts is a list of patches. -/
theorem exists_patches (keep : Nat × Part → Bool) (parts : List Part) (start : Nat) (kept : Text) :
    ∃ patches back, Patch.source patches ++ back = kept ++ textOf f parts ∧
      Patch.result patches ++ back =
        kept ++ textOf f (((located f (start + kept.size) parts).filter keep).map (·.2)) ∧
      Patch.edits start patches =
        ((located f (start + kept.size) parts).filter (!keep ·)).map (deletion f) ∧
      ∀ patch ∈ patches, patch.old ≠ [] := by
  induction parts generalizing start kept with
  | nil => exact ⟨[], kept, by simp [Patch.source], by simp [Patch.result, located], rfl, by simp⟩
  | cons p rest ih =>
    by_cases stays : keep (start + kept.size, p) = true
    · obtain ⟨patches, back, source, result, edits, old⟩ := ih start (kept ++ p.text f)
      rw [Text.size_append, ← Nat.add_assoc] at result edits
      refine ⟨patches, back, ?_, ?_, ?_, old⟩
      · simpa using source
      · simpa [located, stays] using result
      · simpa [located, stays] using edits
    · obtain ⟨patches, back, source, result, edits, old⟩ :=
        ih (start + kept.size + (p.text f).size) []
      refine ⟨⟨kept, p.text f, []⟩ :: patches, back, ?_, ?_, ?_, ?_⟩
      · simpa [Patch.source] using source
      · simpa [Patch.result, located, stays] using result
      · simpa [Patch.edits, located, stays, deletion, span, Edit.delete] using edits
      · simpa [p.text_ne_nil] using old

/-- Taking out located parts, none of them twice, leaves the text of the others. -/
theorem applyAll_deletions {es : List (Nat × Part)} (nodup : es.Nodup)
    (inside : ∀ e ∈ es, e ∈ located f 0 parts) :
    Edit.applyAll (es.map (deletion f)) (textOf f parts) =
      textOf f (((located f 0 parts).filter (· ∉ es)).map (·.2)) := by
  obtain ⟨patches, back, source, result, edits, old⟩ :=
    exists_patches (f := f) (fun e => decide (e ∉ es)) parts 0 []
  have apart : Patch.Apart patches :=
    List.pairwise_iff_getElem.mpr fun i j _ _ _ => .inl (old _ (List.getElem_mem _))
  have perm : (es.map (deletion f)).Perm (Patch.edits 0 patches) := by
    rw [edits]
    refine List.Perm.map _ ((List.perm_ext_iff_of_nodup nodup ?_).mpr fun e => ?_)
    · exact (located_nodup _ _).filter _
    · simp only [List.mem_filter]
      refine ⟨fun member => ⟨inside e member, by simpa using member⟩, fun h => ?_⟩
      simpa using h.2
  have applied := Edit.applyAll_eq apart perm back
  rw [List.nil_append] at source result
  rw [source, result] at applied
  simpa using applied

/-- What is read off chosen elements is chosen among what is read off all. -/
theorem map_filter_filterMap {α β γ : Type} {read : α → Option β} {holds : β → Bool} {h : β → γ}
    {k : α → γ} (agree : ∀ a b, read a = some b → h b = k a) (l : List α) :
    ((l.filterMap read).filter holds).map h = (l.filter fun a => (read a).any holds).map k := by
  induction l with
  | nil => rfl
  | cons a rest ih =>
    rw [List.filterMap_cons, List.filter_cons]
    cases value : read a with
    | none => simpa using ih
    | some b =>
      by_cases chosen : holds b = true
      · simpa [chosen, agree a b value] using ih
      · simpa [chosen] using ih

theorem filterMap_ite {α β : Type} {read : α → Option β} {holds : α → Bool} {k : α → β}
    (agree : ∀ a, read a = if holds a then some (k a) else none) (l : List α) :
    l.filterMap read = (l.filter holds).map k := by
  induction l with
  | nil => rfl
  | cons a rest ih =>
    by_cases chosen : holds a = true <;> simp [agree a, chosen, ih]

/-! ### What is taken out for a class -/

/-- A field that goes with a class, by its name or by its type. -/
def isFieldOf (f : Frame) (className : String) : Part → Bool
  | contextField =>
    f.config.contextField == f.fieldOf className || f.config.contextType == className
  | helperField other => f.fieldOf other == f.fieldOf className || other == className
  | _ => false

/-- The name of a method. -/
def methodName? (f : Frame) : Part → Option String
  | setter => some f.setterName
  | helperAccessor className => some (Naming.accessor className)
  | _ => none

/-- What a method returns. -/
def returned? : Part → Option String
  | setter => some "void"
  | helperAccessor className => some className
  | _ => none

/-- The name that an import binds. -/
def importName? (f : Frame) : Part → Option String
  | contextImport => some f.config.contextType
  | helperImport l => some l.className
  | _ => none

/-- The method of a class: the one that returns it, or else the one that is named for it. -/
def methodOf? (f : Frame) (places : List (Nat × Part)) (className : String) :
    Option (Nat × Part) :=
  (places.find? fun e => e.2.returned? == some className).or
    (places.find? fun e => e.2.methodName? f == some (Naming.accessor className))

/-- The name under which the accessor of a class is exported. -/
def exportName (f : Frame) (places : List (Nat × Part)) (className : String) : String :=
  ((methodOf? f places className).bind fun e => e.2.methodName? f).getD (Naming.accessor className)

/-- The members that are taken out for a class: its fields, its accessor and its export. -/
def members (f : Frame) (places : List (Nat × Part)) (className : String) : List (Nat × Part) :=
  (places.filter fun e => e.2.isFieldOf f className) ++ (methodOf? f places className).toList ++
    (places.find? fun e => e.2.isExportOf f (exportName f places className)).toList

/-- All that is taken out for classes: the members of each, and the imports. -/
def taken (f : Frame) (places : List (Nat × Part)) (classes : List String) : List (Nat × Part) :=
  classes.flatMap (members f places) ++
    places.filter fun e => (e.2.importName? f).any classes.contains

theorem any_field?_of (className : String) (start : Nat) (p : Part) :
    (p.field? f start).any (fun x => !x.isStatic &&
      (x.name == Naming.field f.config.fieldPrefix className || x.type == className)) =
        p.isFieldOf f className := by
  cases p <;> simp [field?, isFieldOf, Frame.fieldOf]

theorem span_of_field? {start : Nat} {x : Field} (read : p.field? f start = some x) :
    x.span = span f (start, p) := by
  cases p with
  | instanceField | contextField | helperField c =>
    obtain rfl := Option.some.inj read
    rfl
  | _ => simp [field?] at read

theorem any_accessor?_returns (className : String) (start : Nat) (p : Part) :
    (p.accessor? f start).any (fun a => a.returns == some className) =
      (p.returned? == some className) := by
  cases p <;> simp [accessor?, returned?]

theorem any_accessor?_name (name : String) (start : Nat) (p : Part) :
    (p.accessor? f start).any (fun a => a.name == name) = (p.methodName? f == some name) := by
  cases p <;> simp [accessor?, methodName?]

/-- The import that a part is binds the part's name. -/
theorem exists_import?_of_name {name : String} (named : p.importName? f = some name) (start : Nat) :
    ∃ i, p.import? f start = some i ∧ i.binds name = true := by
  cases p with
  | contextImport | helperImport l =>
    obtain rfl := Option.some.inj named
    exact ⟨_, rfl, by simp [Import.binds, importAt]⟩
  | _ => simp [importName?] at named

/-- An import of one name is taken out as a whole or left alone. -/
theorem pruneImport?_importAt (t : Text) (targets : List String) (start : Nat) (typed : Bool)
    (name specifier : String) :
    Removal.pruneImport? t targets (importAt start typed name specifier) =
      if targets.contains name then some (.delete (importAt start typed name specifier).span)
      else none := by
  by_cases hit : name ∈ targets <;>
    simp [Removal.pruneImport?, importAt, hit]

/-- The edit for an import. -/
theorem import?_bind_prune (t : Text) (targets : List String) (e : Nat × Part) :
    (e.2.import? f e.1).bind (Removal.pruneImport? t targets) =
      if (e.2.importName? f).any targets.contains then some (deletion f e) else none := by
  obtain ⟨start, p⟩ := e
  cases p with
  | contextImport =>
    simp only [import?, Option.bind_some, pruneImport?_importAt, importName?, Option.any_some]
    rw [deletion, span, text_contextImport]
    rfl
  | helperImport l =>
    simp only [import?, Option.bind_some, pruneImport?_importAt, importName?, Option.any_some]
    rw [deletion, span, text_helperImport_eq]
    rfl
  | _ => rfl

/-- The accessor that a part is has the part's name and bytes. -/
theorem exists_accessor? {name : String} (named : p.methodName? f = some name) (start : Nat) :
    ∃ a, p.accessor? f start = some a ∧ a.name = name ∧
      a.span = ⟨start, start + (p.text f).size - 1⟩ := by
  cases p with
  | setter | helperAccessor c =>
    obtain rfl := Option.some.inj named
    exact ⟨_, rfl, rfl, rfl⟩
  | _ => simp [methodName?] at named

theorem isPlainName_methodName? {name : String} (plain : f.Plain) (sound : p.IsSound)
    (named : p.methodName? f = some name) : isPlainName name.toList = true := by
  cases p with
  | setter =>
    obtain rfl := Option.some.inj named
    exact plain.setterName
  | helperAccessor c =>
    obtain rfl := Option.some.inj named
    exact Naming.isPlainName_accessor sound
  | _ => simp [methodName?] at named

/-- What returns something is a method with a name. -/
theorem exists_methodName?_of_returned? {type : String} (returns : p.returned? = some type) :
    ∃ name, p.methodName? f = some name := by
  cases p with
  | setter | helperAccessor c => exact ⟨_, rfl⟩
  | _ => simp [returned?] at returns

/-- What is found for a class is a method. -/
theorem exists_methodName? {places : List (Nat × Part)} {className : String} {e : Nat × Part}
    (found : methodOf? f places className = some e) :
    e ∈ places ∧ ∃ name, e.2.methodName? f = some name := by
  rcases Option.or_eq_some_iff.mp found with found | ⟨_, found⟩
  · have returns := List.find?_some (p := fun e : Nat × Part => e.2.returned? == some className)
      found
    have returns' : e.2.returned? = some className := by simpa using returns
    exact ⟨List.mem_of_find?_eq_some found, exists_methodName?_of_returned? returns'⟩
  · have named := List.find?_some
      (p := fun e : Nat × Part => e.2.methodName? f == some (Naming.accessor className)) found
    exact ⟨List.mem_of_find?_eq_some found, _, by simpa using named⟩

/-- Behind the last line feed of a part its own is passed over. -/
theorem skipBlankLine_textOf {e : Nat × Part} (member : e ∈ located f 0 parts) :
    (textOf f parts).skipBlankLine (e.1 + (e.2.text f).size - 1) = e.1 + (e.2.text f).size := by
  obtain ⟨before_, after_, rfl, place⟩ := exists_of_mem_located member
  obtain ⟨t, text_eq⟩ := e.2.exists_text_eq (f := f)
  have skipped := Text.skipBlankLine_between (textOf f before_ ++ t) (textOf f after_)
  have whole : textOf f before_ ++ t ++ '\n' :: textOf f after_ =
      textOf f (before_ ++ e.2 :: after_) := by
    simp [text_eq]
  have feed : Char.utf8Size '\n' = 1 := rfl
  have start : e.1 + (e.2.text f).size - 1 = Text.size (textOf f before_ ++ t) := by
    rw [place, text_eq]
    simp only [Text.size_append, Text.size_cons, Text.size_nil]
    omega
  rw [whole] at skipped
  rw [start, skipped, place, text_eq]
  simp only [Text.size_append, Text.size_cons, Text.size_nil]
  omega

section
variable (plain : f.Plain) (sound : ∀ p ∈ parts, p.IsSound)
include plain sound

theorem accessorOf?_textOf (className : String) :
    (Zones.ofText (textOf f parts)).accessorOf? className =
      (methodOf? f (located f 0 parts) className).bind fun e => e.2.accessor? f e.1 := by
  rw [Zones.accessorOf?, Zones.accessorReturning?, Zones.accessorNamed?, zones_textOf plain sound]
  simp only
  rw [List.find?_filterMap, List.find?_filterMap, methodOf?]
  simp only [any_accessor?_returns, any_accessor?_name]
  cases found : (located f 0 parts).find? fun e => e.2.returned? == some className with
  | none => rfl
  | some e =>
    have method : methodOf? f (located f 0 parts) className = some e := by
      rw [methodOf?, found]
      rfl
    obtain ⟨_, name, named⟩ := exists_methodName? method
    obtain ⟨a, read, _⟩ := exists_accessor? named e.1
    simp [read]

/-- The members of a class are taken out as whole parts. -/
theorem memberEdits_textOf {className : String} (whole : '\n' ∉ (Naming.accessor className).toList) :
    Removal.memberEdits f.config (textOf f parts) (Zones.ofText (textOf f parts)) className =
      (members f (located f 0 parts) className).map (deletion f) := by
  have fields : ((Zones.ofText (textOf f parts)).fields.filter fun x => !x.isStatic &&
      (x.name == Naming.field f.config.fieldPrefix className || x.type == className)).map
        (fun x => Edit.delete x.span) =
      ((located f 0 parts).filter fun e => e.2.isFieldOf f className).map (deletion f) := by
    rw [zones_textOf plain sound]
    refine (map_filter_filterMap (k := deletion f) (fun e x read => ?_) _).trans ?_
    · rw [span_of_field? read]
      rfl
    · simp only [any_field?_of]
  have method := accessorOf?_textOf plain sound className
  have exported := exportSpan?_textOf (exportName f (located f 0 parts) className) plain sound
  rw [Removal.memberEdits, members, List.map_append, List.map_append, ← fields, method]
  cases found : methodOf? f (located f 0 parts) className with
  | none =>
    have name_eq : exportName f (located f 0 parts) className = Naming.accessor className := by
      rw [exportName, found]
      rfl
    rw [name_eq] at exported ⊢
    simp only [Option.bind_none, Option.map_none, Option.getD_none, Option.toList_none,
      List.map_nil, exported whole]
    cases (located f 0 parts).find? fun e => e.2.isExportOf f (Naming.accessor className) <;> rfl
  | some e =>
    obtain ⟨member, name, named⟩ := exists_methodName? found
    obtain ⟨a, read, a_name, a_span⟩ := exists_accessor? named e.1
    have name_eq : exportName f (located f 0 parts) className = name := by
      rw [exportName, found]
      simp [named]
    have noFeed : '\n' ∉ name.toList :=
      not_mem_of_isPlainName (isPlainName_methodName? plain
        (sound e.2 (snd_mem_of_mem_located member)) named) rfl
    have skipped := skipBlankLine_textOf member
    rw [name_eq] at exported ⊢
    simp only [Option.bind_some, Option.map_some, Option.getD_some, Option.toList_some,
      List.map_cons, List.map_nil, read, a_name, a_span, skipped, exported noFeed]
    cases (located f 0 parts).find? fun e => e.2.isExportOf f name <;> rfl

/-- A name that a part imports is imported by the text. -/
theorem importsName_textOf {e : Nat × Part} {name : String} (member : e ∈ located f 0 parts)
    (named : e.2.importName? f = some name) :
    (Zones.ofText (textOf f parts)).importsName name = true := by
  obtain ⟨i, read, binds⟩ := exists_import?_of_name named e.1
  rw [Zones.importsName, zones_textOf plain sound]
  exact List.any_eq_true.mpr ⟨i, List.mem_filterMap.mpr ⟨e, member, read⟩, binds⟩

/-- The edits of a removal take out whole parts. -/
theorem edits_textOf {classes : List String}
    (whole : ∀ c ∈ classes, '\n' ∉ (Naming.accessor c).toList) :
    Removal.edits f.config (textOf f parts) (Zones.ofText (textOf f parts)) classes
        (classes.filter
          (Removal.isPresent f.config (textOf f parts) (Zones.ofText (textOf f parts)))) =
      (taken f (located f 0 parts) classes).map (deletion f) := by
  have members_eq : classes.flatMap
      (Removal.memberEdits f.config (textOf f parts) (Zones.ofText (textOf f parts))) =
        (classes.flatMap (members f (located f 0 parts))).map (deletion f) := by
    rw [List.map_flatMap]
    exact List.flatMap_congr fun c member => memberEdits_textOf plain sound (whole c member)
  rw [Removal.edits, taken, List.map_append, members_eq]
  congr 1
  generalize present_eq : Removal.isPresent f.config (textOf f parts)
    (Zones.ofText (textOf f parts)) = present
  have known : ∀ e ∈ located f 0 parts, (e.2.importName? f).any (classes.filter present).contains =
      (e.2.importName? f).any classes.contains := by
    intro e member
    cases named : e.2.importName? f with
    | none => rfl
    | some name =>
      have is_present : present name = true := by
        rw [← present_eq, Removal.isPresent, importsName_textOf plain sound member named]
        rfl
      simp [is_present]
  rw [zones_textOf plain sound]
  simp only
  rw [List.filterMap_filterMap, ← List.filter_congr known]
  exact filterMap_ite (fun e => import?_bind_prune _ _ e) _

end

/-! ### What is left -/

/-- What is taken out for a class stands in the text. -/
theorem mem_of_mem_members {places : List (Nat × Part)} {className : String} {e : Nat × Part}
    (member : e ∈ members f places className) : e ∈ places := by
  simp only [members, List.mem_append, Option.mem_toList] at member
  rcases member with (member | found) | found
  · exact (List.mem_filter.mp member).1
  · exact (exists_methodName? found).1
  · exact List.mem_of_find?_eq_some found

theorem mem_of_mem_taken {places : List (Nat × Part)} {classes : List String} {e : Nat × Part}
    (member : e ∈ taken f places classes) : e ∈ places := by
  rcases List.mem_append.mp member with member | member
  · obtain ⟨c, _, member⟩ := List.mem_flatMap.mp member
    exact mem_of_mem_members member
  · exact (List.mem_filter.mp member).1

/-- The parts that are left when classes are taken out. -/
def left (f : Frame) (parts : List Part) (classes : List String) : List Part :=
  ((located f 0 parts).filter (· ∉ taken f (located f 0 parts) classes)).map (·.2)

section
variable (plain : f.Plain) (sound : ∀ p ∈ parts, p.IsSound) {classes : List String}
  (whole : ∀ c ∈ classes, '\n' ∉ (Naming.accessor c).toList)
include plain sound whole

/-- Where nothing is taken out, nothing is written. -/
theorem remove_textOf_of_nil (none_ : taken f (located f 0 parts) classes = []) :
    (Removal.remove f.config (textOf f parts) classes).2 = none := by
  have staged := edits_textOf plain sound whole
  rw [none_, List.map_nil] at staged
  simp only [Removal.remove, staged]

/-- Where no part is taken out twice, the others are left with blank lines closed up. -/
theorem remove_textOf (some_ : taken f (located f 0 parts) classes ≠ [])
    (apart : (taken f (located f 0 parts) classes).Nodup) :
    (Removal.remove f.config (textOf f parts) classes).2 =
      some (textOf f (closed 2 (left f parts classes))) := by
  have staged := edits_textOf plain sound whole
  have applied := applyAll_deletions apart fun e member => mem_of_mem_taken member
  have left_sound : ∀ p ∈ left f parts classes, p.IsSound := by
    intro p member
    obtain ⟨e, inside, rfl⟩ := List.mem_map.mp member
    exact sound e.2 (snd_mem_of_mem_located (List.mem_filter.mp inside).1)
  have closed_up := closeUp_textOf plain left_sound
  rw [left, ← applied, ← staged] at closed_up
  rw [left, ← closed_up]
  cases edits_eq : Removal.edits f.config (textOf f parts) (Zones.ofText (textOf f parts)) classes
      (classes.filter
        (Removal.isPresent f.config (textOf f parts) (Zones.ofText (textOf f parts)))) with
  | nil =>
    rw [staged] at edits_eq
    exact absurd (List.map_eq_nil_iff.mp edits_eq) some_
  | cons e rest => simp only [Removal.remove, edits_eq]

end

end Part
end Registrar
