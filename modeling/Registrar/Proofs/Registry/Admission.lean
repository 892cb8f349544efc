import Registrar.Proofs.Registry.Growth
import Registrar.Proofs.Registry.Listed
import Registrar.Proofs.Specifier

/-!
Helpers that are taken into a registry. A candidate is turned down if its class, its field or its
export is there already; those that are taken in can be listed behind the others, and the text with
them is that of the longer list.
-/

namespace Registrar

open Part

variable {f : Frame} {ls new : List Listing}

namespace Layout

theorem zoned_ofListings (listed : Listed f ls) : (ofListings ls).Zoned where
  head := by
    refine ⟨.contextImport :: ls.map .helperImport, 1, rfl, ?_⟩
    intro p member
    rcases List.mem_cons.mp member with rfl | member
    · rfl
    · obtain ⟨l, _, rfl⟩ := List.mem_map.mp member
      rfl
  fields := by
    intro p member
    simp only [ofListings, List.cons_append, List.mem_cons, List.mem_append, List.not_mem_nil,
      or_false] at member
    rcases member with rfl | member | rfl
    · exact .inr rfl
    · rcases mem_fieldBlock member with rfl | ⟨l, _, rfl⟩
      · exact .inl rfl
      · exact .inr rfl
    · exact .inl rfl
  methods := fun _ => isMethod_of_mem
  exports := fun _ => isExport_of_mem
  sound := sound_ofListings listed

/-- What stands before the fields of a registry has no field of a helper or of the context. -/
theorem before_fields_ofListings (ls : List Listing) :
    ∀ p ∈ (ofListings ls).head ++ [Part.opening, .instanceField],
      p.isHelperField f = false ∧ p.hasContextName f = false := by
  intro p member
  simp only [ofListings, List.mem_append, List.mem_cons, List.not_mem_nil, or_false,
    List.mem_map] at member
  rcases member with (((rfl | ⟨l, _, rfl⟩) | rfl) | rfl | rfl) <;> exact ⟨rfl, rfl⟩

/-- What stands behind the fields of a registry has no field of a helper. -/
theorem after_fields_ofListings (ls : List Listing) :
    ∀ p ∈ [Part.blank] ++ [Part.constructor, .blank, .instanceMethod, .blank] ++
      (ofListings ls).methods ++ [Part.mark, .closing, .blank] ++ (ofListings ls).exports,
        p.isHelperField f = false := by
  intro p member
  simp only [List.mem_append, List.mem_cons, List.not_mem_nil, or_false] at member
  rcases member with (((rfl | rfl | rfl | rfl | rfl) | member) | rfl | rfl | rfl) | member
  all_goals first | rfl | skip
  · have is_method := isMethod_of_mem member
    cases p <;> simp_all [isMethod, isHelperField]
  · have is_export := isExport_of_mem member
    cases p <;> simp_all [isExport, isHelperField]

/-- New fields go behind the fields of the helpers, with a blank line before the first ones. -/
theorem fieldsOf_ofListings (plain : f.Plain) (listed : Listed f ls) :
    Anchors.fieldsOf ((ofListings ls).text f) (Zones.ofText ((ofListings ls).text f))
        f.config.contextField =
      ⟨(textOf f ((ofListings ls).head ++ [Part.opening, .instanceField] ++
        (.contextField :: fieldBlock ls))).size, ls.isEmpty⟩ := by
  have before_ := before_fields_ofListings (f := f) ls
  have after_ := after_fields_ofListings (f := f) ls
  have sound := sound_ofListings listed
  generalize head_eq : (ofListings ls).head ++ [Part.opening, .instanceField] = head at before_ ⊢
  generalize rest_eq : [Part.blank] ++ [Part.constructor, .blank, .instanceMethod, .blank] ++
    (ofListings ls).methods ++ [Part.mark, .closing, .blank] ++ (ofListings ls).exports =
      rest at after_
  have parts_eq : (ofListings ls).parts = head ++ .contextField :: fieldBlock ls ++ rest := by
    have fields : (ofListings ls).fields = .contextField :: fieldBlock ls ++ [Part.blank] := rfl
    simp only [parts, ← head_eq, ← rest_eq, fields, List.append_assoc]
  rw [text, parts_eq]
  rw [parts_eq] at sound
  rcases List.eq_nil_or_concat ls with rfl | ⟨front, last, rfl⟩
  · have noHelper : ∀ p ∈ head ++ .contextField :: rest, p.isHelperField f = false := by
      intro p member
      rcases List.mem_append.mp member with member | member
      · exact (before_ p member).1
      · rcases List.mem_cons.mp member with rfl | member
        · rfl
        · exact after_ p member
    have found := fieldsOf_textOf_context (p := .contextField) plain
      (by simpa [fieldBlock] using sound) rfl (fun p member => (before_ p member).2) noHelper
    simpa [fieldBlock] using found
  · have here : (helperField last.className).isHelperField f = true := by
      have other := listed.field last (by simp)
      simpa [isHelperField] using other
    have split : fieldBlock (front.concat last) =
        .blank :: front.map (.helperField ·.className) ++ [.helperField last.className] := by
      simp [fieldBlock]
    have some_ : (front.concat last).isEmpty = false := by
      rw [List.concat_eq_append]
      cases front <;> rfl
    rw [split] at sound
    rw [split, some_]
    have sound' : ∀ p ∈ (head ++ .contextField :: .blank ::
        front.map (.helperField ·.className)) ++ .helperField last.className :: rest,
          p.IsSound := by simpa using sound
    have found := fieldsOf_textOf_helper plain sound' here after_
    simpa using found

/-- Entries put into a registry of helpers are listed behind the others. -/
theorem withEntries_ofListings {h : Host} (plain : f.Plain) (listed : Listed f ls)
    (config : h.config = f.config) (text : h.text = (ofListings ls).text f) (some_ : new ≠ []) :
    h.withEntries (new.map f.entry) = (ofListings (ls ++ new)).text f := by
  have zoned := zoned_ofListings listed
  have all : ∀ p ∈ Part.contextImport :: ls.map .helperImport, p.isImport = true := by
    intro p member
    rcases List.mem_cons.mp member with rfl | member
    · rfl
    · obtain ⟨l, _, rfl⟩ := List.mem_map.mp member
      rfl
  have head : (ofListings ls).head =
      (.contextImport :: ls.map .helperImport) ++ List.replicate 1 .blank := rfl
  have split : (ofListings ls).fields = (.contextField :: fieldBlock ls) ++ [Part.blank] := rfl
  have grown := Host.withEntries_zoned new plain zoned config text head all split
    (fieldsOf_ofListings plain listed)
  have fields : fieldBlock (ls ++ new) =
      fieldBlock ls ++ margin ls.isEmpty ++ new.map (.helperField ·.className) := by
    cases ls <;> simp [fieldBlock, margin, some_]
  have layout : Layout.grown (.contextImport :: ls.map .helperImport) (List.replicate 1 .blank)
      (.contextField :: fieldBlock ls) [Part.blank] ls.isEmpty (ofListings ls) new =
        ofListings (ls ++ new) := by
    simp only [Layout.grown, ofListings, fields]
    simp [margin]
  rw [grown, layout]

end Layout

/-! ### Clashes -/

namespace Part

variable {p : Part} {parts : List Part}

/-- What is read off parts has a property if it has it for one of them. -/
theorem any_filterMap_located {α : Type} {read : Nat → Part → Option α} {holds : α → Bool}
    {named : Part → Bool} (agree : ∀ n p, (read n p).any holds = named p) (start : Nat) :
    ((located f start parts).filterMap fun e => read e.1 e.2).any holds = parts.any named := by
  induction parts generalizing start with
  | nil => rfl
  | cons p rest ih =>
    have here := agree start p
    rw [located, List.filterMap_cons, List.any_cons]
    cases found : read start p with
    | none =>
      rw [found] at here
      simp only [← here, ih, Option.any_none, Bool.false_or]
    | some a =>
      rw [found] at here
      simp only [List.any_cons, ← here, ih, Option.any_some]

theorem any_import?_binds (name : String) (start : Nat) (p : Part) :
    (p.import? f start).any (·.binds name) = (p.importName? f == some name) := by
  cases p <;> simp [import?, importName?, importAt, Import.binds, beq_eq_decide]

/-- The name of a field. -/
def fieldName? (f : Frame) : Part → Option String
  | instanceField => some "instance"
  | contextField => some f.config.contextField
  | helperField className => some (f.fieldOf className)
  | _ => none

theorem any_field?_name (name : String) (start : Nat) (p : Part) :
    (p.field? f start).any (·.name == name) = (p.fieldName? f == some name) := by
  cases p <;> simp [field?, fieldName?]

section
variable (plain : f.Plain) (sound : ∀ p ∈ parts, p.IsSound)
include plain sound

theorem importsName_textOf_eq (name : String) :
    (Zones.ofText (textOf f parts)).importsName name = parts.any (·.importName? f == some name) := by
  rw [Zones.importsName, zones_textOf plain sound]
  exact any_filterMap_located (any_import?_binds name) 0

theorem hasField_textOf_eq (name : String) :
    (Zones.ofText (textOf f parts)).hasField name = parts.any (·.fieldName? f == some name) := by
  rw [Zones.hasField, zones_textOf plain sound]
  exact any_filterMap_located (any_field?_name name) 0

theorem accessorNamed?_textOf_eq (name : String) :
    ((Zones.ofText (textOf f parts)).accessorNamed? name).isSome =
      parts.any (·.methodName? f == some name) := by
  rw [Zones.accessorNamed?, List.isSome_find?, zones_textOf plain sound]
  exact any_filterMap_located (any_accessor?_name name) 0

theorem exportSpan?_isSome_textOf {accessor : String} (whole : '\n' ∉ accessor.toList) :
    (exportSpan? (textOf f parts) accessor).isSome = parts.any (·.isExportOf f accessor) := by
  have names : (located f 0 parts).any (fun e => e.2.isExportOf f accessor) =
      ((located f 0 parts).map (·.2)).any (·.isExportOf f accessor) := by
    rw [List.any_map]
    rfl
  rw [exportSpan?_textOf accessor plain sound whole, Option.isSome_map, List.isSome_find?, names,
    map_snd_located]

end

end Part

/-! ### Judgements -/

/-- Why a class cannot be listed: it, its field or its export is there already. -/
def Listed.Refuses (f : Frame) (ls : List Listing) (className : String) : Prop :=
  className ∈ ls.map (·.className) ∨ className = f.config.contextType ∨ className = f.name ∨
    f.fieldOf className = f.config.contextField ∨ f.fieldOf className = "instance"

instance (f : Frame) (ls : List Listing) (className : String) :
    Decidable (Listed.Refuses f ls className) :=
  inferInstanceAs (Decidable (_ ∨ _))

section
variable (plain : f.Plain) (listed : Listed f ls) {className : String}
  (named : isClassName className.toList = true)
include plain listed

/-- The registry imports the context type and the listed classes. -/
theorem importsName_ofListings (className : String) :
    (Zones.ofText ((Layout.ofListings ls).text f)).importsName className = true ↔
      className = f.config.contextType ∨ className ∈ ls.map (·.className) := by
  rw [Layout.text, importsName_textOf_eq plain (sound_ofListings listed), List.any_eq_true]
  simp only [beq_iff_eq]
  constructor
  · rintro ⟨p, member, name⟩
    cases p with
    | contextImport => exact .inl (Option.some.inj name).symm
    | helperImport l =>
      obtain rfl := Option.some.inj name
      exact .inr (List.mem_map_of_mem (helperImport_mem.mp member))
    | _ => simp [importName?] at name
  · rintro (rfl | member)
    · exact ⟨.contextImport, mem_ofListings_iff.mpr (.inl (by decide)), rfl⟩
    · obtain ⟨l, inside, rfl⟩ := List.mem_map.mp member
      exact ⟨.helperImport l, helperImport_mem.mpr inside, rfl⟩

include named

/-- The registry has the field of the instance, that of the context and those of the listed
classes. -/
theorem hasField_ofListings :
    (Zones.ofText ((Layout.ofListings ls).text f)).hasField (f.fieldOf className) = true ↔
      f.fieldOf className = "instance" ∨ f.fieldOf className = f.config.contextField ∨
        className ∈ ls.map (·.className) := by
  have sound := sound_ofListings listed
  rw [Layout.text, hasField_textOf_eq plain sound, List.any_eq_true]
  simp only [beq_iff_eq]
  constructor
  · rintro ⟨p, member, name⟩
    cases p with
    | instanceField => exact .inl (Option.some.inj name).symm
    | contextField => exact .inr (.inl (Option.some.inj name).symm)
    | helperField c =>
      obtain rfl := Naming.field_inj (sound _ member) named (Option.some.inj name)
      exact .inr (.inr (helperField_mem.mp member))
    | _ => simp [fieldName?] at name
  · rintro (same | same | member)
    · exact ⟨.instanceField, mem_ofListings_iff.mpr (.inl (by decide)), by rw [same]; rfl⟩
    · exact ⟨.contextField, mem_ofListings_iff.mpr (.inl (by decide)), by rw [same]; rfl⟩
    · exact ⟨.helperField className, helperField_mem.mpr member, rfl⟩

/-- The registry has the accessors of the listed classes. -/
theorem accessorNamed?_ofListings :
    ((Zones.ofText ((Layout.ofListings ls).text f)).accessorNamed?
        (Naming.accessor className)).isSome = true ↔ className ∈ ls.map (·.className) := by
  have sound := sound_ofListings listed
  rw [Layout.text, accessorNamed?_textOf_eq plain sound, List.any_eq_true]
  simp only [beq_iff_eq]
  constructor
  · rintro ⟨p, member, name⟩
    cases p with
    | setter =>
      have lists := congrArg String.toList (Option.some.inj name)
      simp [Frame.setterName, Naming.toList_accessor named] at lists
    | helperAccessor c =>
      obtain rfl := Naming.accessor_inj (sound _ member) named (Option.some.inj name)
      exact helperAccessor_mem.mp member
    | _ => simp [methodName?] at name
  · exact fun member => ⟨.helperAccessor className, helperAccessor_mem.mpr member, rfl⟩

/-- The registry exports its own accessor and those of the listed classes. -/
theorem exportSpan?_ofListings :
    (exportSpan? ((Layout.ofListings ls).text f) (Naming.accessor className)).isSome = true ↔
      className = f.name ∨ className ∈ ls.map (·.className) := by
  have sound := sound_ofListings listed
  have whole := not_mem_of_isPlainName (c := '\n') (Naming.isPlainName_accessor named) rfl
  rw [Layout.text, exportSpan?_isSome_textOf plain sound whole, List.any_eq_true]
  constructor
  · rintro ⟨p, member, exports⟩
    rw [isExportOf_accessor plain named (sound p member), decide_eq_true_eq] at exports
    rcases exports with rfl | ⟨_, same⟩
    · exact .inr (helperExport_mem.mp member)
    · exact .inl same
  · rintro (same | member)
    · refine ⟨.ownExport, mem_ofListings_iff.mpr (.inl (by decide)), ?_⟩
      rw [isExportOf_accessor (p := .ownExport) plain named trivial]
      simp [same]
    · refine ⟨.helperExport className, helperExport_mem.mpr member, ?_⟩
      rw [isExportOf_accessor (p := .helperExport className) plain named named]
      simp

end

/-- A registry has a part of a class that it refuses, and only of such ones. -/
theorem clashes_ofListings {h : Host} {old : List Listing} (l : Listing) (plain : f.Plain)
    (listed : Listed f ls) (text : h.text = (Layout.ofListings ls).text f)
    (named : isClassName l.className.toList = true)
    (olds : ∀ o ∈ old, isClassName o.className.toList = true) :
    h.clashes h.zones (old.map f.entry) (f.entry l) = true ↔
      Listed.Refuses f (ls ++ old) l.className := by
  have taken : ((old.map f.entry).any fun a =>
      a.className == l.className || a.field == f.fieldOf l.className) = true ↔
        l.className ∈ old.map (·.className) := by
    rw [List.any_map, List.any_eq_true, List.mem_map]
    refine exists_congr fun o => and_congr_right fun inside => ?_
    simp only [Function.comp_apply, Frame.entry, Bool.or_eq_true, beq_iff_eq]
    refine ⟨?_, .inl⟩
    rintro (same | same)
    · exact same
    · exact Naming.field_inj (olds o inside) named same
  have imported := importsName_ofListings plain listed l.className
  have field := hasField_ofListings plain listed named
  have accessor := accessorNamed?_ofListings plain listed named
  have exported := exportSpan?_ofListings plain listed named
  rw [← text] at imported field accessor exported
  have parts : h.clashes h.zones (old.map f.entry) (f.entry l) = true ↔
      ((((h.zones.importsName l.className = true ∨ h.zones.hasField (f.fieldOf l.className) = true) ∨
        (h.zones.accessorNamed? (Naming.accessor l.className)).isSome = true) ∨
        (exportSpan? h.text (Naming.accessor l.className)).isSome = true) ∨
        l.className ∈ old.map (·.className)) := by
    rw [← taken, Host.clashes]
    simp only [Bool.or_eq_true]
    rfl
  rw [parts, Host.zones, imported, field, accessor, exported, Listed.Refuses, List.map_append,
    List.mem_append]
  constructor
  · rintro (((((h | h) | h | h | h) | h) | h | h) | h) <;> simp only [h, true_or, or_true]
  · rintro ((h | h) | h | h | h | h) <;> simp only [h, true_or, or_true]


/-- A class that is not refused can be listed behind the others. -/
theorem Listed.append (listed : Listed f ls) {l : Listing} (named : isClassName l.className.toList = true)
    (specified : IsSpecifier l.specifier) (free : ¬Listed.Refuses f ls l.className) :
    Listed f (ls ++ [l]) := by
  simp only [Listed.Refuses, not_or] at free
  obtain ⟨other, type, own, field, _⟩ := free
  have each : ∀ {holds : Listing → Prop}, (∀ l ∈ ls, holds l) → holds l →
      ∀ l' ∈ ls ++ [l], holds l' := by
    intro holds all last l' member
    rcases List.mem_append.mp member with member | member
    · exact all l' member
    · rwa [List.mem_singleton.mp member]
  refine ⟨each listed.named named, each listed.specified specified, ?_, each listed.type type,
    each listed.field field, each listed.own own⟩
  rw [List.map_append]
  exact List.nodup_append.mpr ⟨listed.distinct, by simp, by
    rintro a inside b last rfl
    rw [List.map_singleton, List.mem_singleton] at last
    exact other (last ▸ inside)⟩

/-! ### Specifiers -/

theorem slashes_prefix_mark : ['/', '/'] <+: Source.accessorMark.toList := by
  simp [Source.accessorMark]

/-- A relative specifier from an absolute path that can be quoted does not hold the remark. -/
theorem isSpecifier_of {config : Config} {root importer file : Path}
    (style : config.importStyle = .relative) (absolute : importer.isAbsolute = true)
    (quotable : ∀ c ∈ (Specifier.of config root importer file).toList,
      Recognition.isQuote c = false ∧ c ≠ '\n') :
    IsSpecifier (Specifier.of config root importer file) := by
  have of_eq : Specifier.of config root importer file =
      Specifier.relative config.sourceExtension importer file := by
    rw [Specifier.of, style]
  have single := Specifier.singleSlashed_relative absolute config.sourceExtension file
  rw [of_eq] at quotable ⊢
  exact {
    some_ := Specifier.relative_ne_nil _ _ _
    unquoted := fun c member => (quotable c member).1
    whole := fun member => (quotable _ member).2 rfl
    unmarked := fun inside => single.avoids (slashes_prefix_mark.isInfix.trans inside) }

end Registrar
