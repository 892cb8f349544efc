import Mathlib.Data.List.Count
import Mathlib.Data.List.Nodup
import Registrar.Proofs.Registry.Taken

/-!
Registries that list helpers. Which parts belong to a helper, that each of them is there once, and
where the accessors and exports are found that go with a name.
-/

namespace Registrar

open Recognition Pattern

/-- What holds of the helpers of a registry: they can be told apart from one another, from the
context and from the registry itself. -/
structure Listed (f : Frame) (ls : List Listing) : Prop where
  named : ∀ l ∈ ls, isClassName l.className.toList = true
  specified : ∀ l ∈ ls, IsSpecifier l.specifier
  distinct : (ls.map (·.className)).Nodup
  type : ∀ l ∈ ls, l.className ≠ f.config.contextType
  field : ∀ l ∈ ls, f.fieldOf l.className ≠ f.config.contextField
  own : ∀ l ∈ ls, l.className ≠ f.name

/-- Taking out the class leaves the template alone. -/
structure Frame.Spares (f : Frame) (className : String) : Prop where
  named : isClassName className.toList = true
  type : className ≠ f.config.contextType
  field : f.fieldOf className ≠ f.config.contextField
  own : className ≠ f.name

theorem Listed.spares {f : Frame} {ls : List Listing} (listed : Listed f ls) {l : Listing}
    (known : l ∈ ls) : f.Spares l.className :=
  ⟨listed.named l known, listed.type l known, listed.field l known, listed.own l known⟩

namespace Layout

theorem isMethod_of_mem {ls : List Listing} {p : Part} (member : p ∈ (ofListings ls).methods) :
    p.isMethod = true := by
  rcases List.mem_cons.mp member with rfl | member
  · rfl
  · obtain ⟨l, _, rfl⟩ := List.mem_map.mp member
    rfl

theorem isExport_of_mem {ls : List Listing} {p : Part} (member : p ∈ (ofListings ls).exports) :
    p.isExport = true := by
  rcases List.mem_cons.mp member with rfl | member
  · rfl
  · obtain ⟨l, _, rfl⟩ := List.mem_map.mp member
    rfl

end Layout

namespace Part

variable {f : Frame} {p : Part} {parts : List Part} {className : String}

/-- The class of the helper that a part belongs to. -/
def helper? : Part → Option String
  | helperImport l => some l.className
  | helperField className | helperAccessor className | helperExport className => some className
  | _ => none

/-- A part of which there is one at most has one place. -/
theorem located_unique (once : parts.count p ≤ 1) {start : Nat} {e e' : Nat × Part}
    (inside : e ∈ located f start parts) (inside' : e' ∈ located f start parts) (same : e.2 = p)
    (same' : e'.2 = p) : e = e' := by
  have short : ((located f start parts).filter fun e => decide (e.2 = p)).length ≤ 1 := by
    rw [← map_snd_located (f := f) start parts, List.count_eq_countP, List.countP_map,
      List.countP_eq_length_filter] at once
    simpa [Function.comp_def, beq_eq_decide] using once
  have first : e ∈ (located f start parts).filter fun e => decide (e.2 = p) :=
    List.mem_filter.mpr ⟨inside, decide_eq_true same⟩
  have second : e' ∈ (located f start parts).filter fun e => decide (e.2 = p) :=
    List.mem_filter.mpr ⟨inside', decide_eq_true same'⟩
  cases list : (located f start parts).filter fun e => decide (e.2 = p) with
  | nil => simp [list] at first
  | cons e₀ rest =>
    rw [list, List.length_cons] at short
    obtain rfl := List.length_eq_zero_iff.mp (by omega : rest.length = 0)
    rw [list] at first second
    rw [List.mem_singleton.mp first, List.mem_singleton.mp second]

theorem mem_fieldBlock {ls : List Listing} (member : p ∈ Layout.fieldBlock ls) :
    p = blank ∨ ∃ l ∈ ls, p = helperField l.className := by
  rw [Layout.fieldBlock] at member
  split at member
  · simp at member
  · rcases List.mem_cons.mp member with rfl | member
    · exact .inl rfl
    · obtain ⟨l, inside, rfl⟩ := List.mem_map.mp member
      exact .inr ⟨l, inside, rfl⟩

/-- The parts of a registry are those of the template and those of its helpers. -/
theorem mem_ofListings_iff {ls : List Listing} : p ∈ (Layout.ofListings ls).parts ↔
    p ∈ (Layout.ofListings []).parts ∨ ∃ l ∈ ls, p = helperImport l ∨
      p = helperField l.className ∨ p = helperAccessor l.className ∨
        p = helperExport l.className := by
  constructor
  · intro member
    simp only [Layout.parts, Layout.ofListings, List.mem_append, List.mem_cons, List.not_mem_nil,
      or_false, List.mem_map] at member
    rcases member with (((((((rfl | ⟨l, inside, rfl⟩) | rfl) | rfl | rfl) | (rfl | member) | rfl) |
      rfl | rfl | rfl | rfl) | rfl | ⟨l, inside, rfl⟩) | rfl | rfl | rfl) | rfl | ⟨l, inside, rfl⟩
    all_goals first | exact .inr ⟨l, inside, by simp⟩ | exact .inl (by decide) | skip
    rcases mem_fieldBlock member with rfl | ⟨l, inside, rfl⟩
    · exact .inl (by decide)
    · exact .inr ⟨l, inside, by simp⟩
  · rintro (member | ⟨l, inside, rfl | rfl | rfl | rfl⟩)
    · simp only [Layout.parts, Layout.ofListings, Layout.fieldBlock, List.map_nil, if_true,
        List.isEmpty_nil, List.mem_append, List.mem_cons, List.not_mem_nil, or_false] at member ⊢
      tauto
    all_goals
      have some_ : ls.isEmpty = false := by
        cases ls with
        | nil => simp at inside
        | cons _ _ => rfl
      simp only [Layout.parts, Layout.ofListings, Layout.fieldBlock, some_, List.mem_append,
        List.mem_cons, List.mem_map]
      simp [inside]
    · exact ⟨l, inside, rfl⟩
    · exact ⟨l, inside, rfl⟩
    · exact ⟨l, inside, rfl⟩

theorem helper?_eq_none_of_mem (member : p ∈ (Layout.ofListings []).parts) : p.helper? = none := by
  revert p
  decide

theorem helperImport_mem {ls : List Listing} {l : Listing} :
    helperImport l ∈ (Layout.ofListings ls).parts ↔ l ∈ ls := by
  rw [mem_ofListings_iff]
  constructor
  · rintro (fixed | ⟨l', inside, same⟩)
    · exact absurd (helper?_eq_none_of_mem fixed) (by simp [helper?])
    · simp only [helperImport.injEq, reduceCtorEq, or_false] at same
      rwa [same]
  · exact fun inside => .inr ⟨l, inside, .inl rfl⟩

theorem helperField_mem {ls : List Listing} :
    helperField className ∈ (Layout.ofListings ls).parts ↔ className ∈ ls.map (·.className) := by
  rw [mem_ofListings_iff, List.mem_map]
  constructor
  · rintro (fixed | ⟨l, inside, same⟩)
    · exact absurd (helper?_eq_none_of_mem fixed) (by simp [helper?])
    · simp only [helperField.injEq, reduceCtorEq, or_false, false_or] at same
      exact ⟨l, inside, same.symm⟩
  · rintro ⟨l, inside, rfl⟩
    exact .inr ⟨l, inside, .inr (.inl rfl)⟩

theorem helperAccessor_mem {ls : List Listing} :
    helperAccessor className ∈ (Layout.ofListings ls).parts ↔
      className ∈ ls.map (·.className) := by
  rw [mem_ofListings_iff, List.mem_map]
  constructor
  · rintro (fixed | ⟨l, inside, same⟩)
    · exact absurd (helper?_eq_none_of_mem fixed) (by simp [helper?])
    · simp only [helperAccessor.injEq, reduceCtorEq, or_false, false_or] at same
      exact ⟨l, inside, same.symm⟩
  · rintro ⟨l, inside, rfl⟩
    exact .inr ⟨l, inside, .inr (.inr (.inl rfl))⟩

theorem helperExport_mem {ls : List Listing} :
    helperExport className ∈ (Layout.ofListings ls).parts ↔ className ∈ ls.map (·.className) := by
  rw [mem_ofListings_iff, List.mem_map]
  constructor
  · rintro (fixed | ⟨l, inside, same⟩)
    · exact absurd (helper?_eq_none_of_mem fixed) (by simp [helper?])
    · simp only [helperExport.injEq, reduceCtorEq, false_or] at same
      exact ⟨l, inside, same.symm⟩
  · rintro ⟨l, inside, rfl⟩
    exact .inr ⟨l, inside, .inr (.inr (.inr rfl))⟩

theorem isSound_of_helper?_eq_none (none_ : p.helper? = none) : p.IsSound := by
  cases p with
  | helperImport l | helperField c | helperAccessor c | helperExport c => simp [helper?] at none_
  | _ => trivial

/-- An accessor is one word. -/
theorem blank_not_mem_accessor (named : isClassName className.toList = true) :
    ' ' ∉ (Naming.accessor className).toList :=
  not_mem_of_isPlainName (Naming.isPlainName_accessor named) rfl

/-- The export of a class is its own, or that of the registry if it has the same name. -/
theorem isExportOf_accessor (plain : f.Plain) (named : isClassName className.toList = true)
    (sound : p.IsSound) :
    p.isExportOf f (Naming.accessor className) =
      decide (p = helperExport className ∨ p = ownExport ∧ className = f.name) := by
  have accessors : ∀ {c : String}, isClassName c.toList = true →
      (Naming.accessor c = Naming.accessor className ↔ c = className) := fun named' =>
    ⟨Naming.accessor_inj named' named, congrArg _⟩
  rw [isExportOf_accessor_eq plain sound (blank_not_mem_accessor named)]
  cases p with
  | ownExport =>
    simp [exportedName?, beq_eq_decide, accessors plain.name, @eq_comm _ className]
  | helperExport c => simp [exportedName?, beq_eq_decide, accessors sound]
  | _ => simp [exportedName?]

theorem count_ownExport_le_one (ls : List Listing) :
    (Layout.ofListings ls).parts.count ownExport ≤ 1 := by
  have none_ : ∀ g : Listing → Part, (∀ l, g l ≠ ownExport) → (ls.map g).count ownExport = 0 := by
    intro g other
    refine List.count_eq_zero.mpr fun member => ?_
    obtain ⟨l, _, same⟩ := List.mem_map.mp member
    exact other l same
  have fields : (Layout.fieldBlock ls).count ownExport = 0 := by
    refine List.count_eq_zero.mpr fun member => ?_
    rcases mem_fieldBlock member with same | ⟨l, _, same⟩ <;> simp at same
  simp [Layout.parts, Layout.ofListings, fields, none_ _]

section
variable (plain : f.Plain) {ls : List Listing} (listed : Listed f ls)
include listed

theorem sound_ofListings : ∀ p ∈ (Layout.ofListings ls).parts, p.IsSound := by
  intro p member
  rcases mem_ofListings_iff.mp member with fixed | ⟨l, inside, rfl | rfl | rfl | rfl⟩
  · exact isSound_of_helper?_eq_none (helper?_eq_none_of_mem fixed)
  · exact ⟨listed.named l inside, listed.specified l inside⟩
  · exact listed.named l inside
  · exact listed.named l inside
  · exact listed.named l inside

/-- Of the accessor and of the export of a class there is one at most. -/
theorem count_le_one (c : String) :
    (Layout.ofListings ls).parts.count (helperAccessor c) ≤ 1 ∧
      (Layout.ofListings ls).parts.count (helperExport c) ≤ 1 := by
  have once := List.nodup_iff_count_le_one.mp listed.distinct c
  have accessors : (ls.map fun l => helperAccessor l.className).count (helperAccessor c) =
      (ls.map (·.className)).count c := by
    rw [← List.count_map_of_injective _ helperAccessor (fun _ _ same => by simpa using same),
      List.map_map]
    rfl
  have exports : (ls.map fun l => helperExport l.className).count (helperExport c) =
      (ls.map (·.className)).count c := by
    rw [← List.count_map_of_injective _ helperExport (fun _ _ same => by simpa using same),
      List.map_map]
    rfl
  have none_ : ∀ (g : Listing → Part) (p : Part), (∀ l, g l ≠ p) → (ls.map g).count p = 0 := by
    intro g p other
    refine List.count_eq_zero.mpr fun member => ?_
    obtain ⟨l, _, same⟩ := List.mem_map.mp member
    exact other l same
  have fields : ∀ p, p.helper? = some c → p ≠ helperField c →
      (Layout.fieldBlock ls).count p = 0 := by
    intro p helper other
    refine List.count_eq_zero.mpr fun member => ?_
    rcases mem_fieldBlock member with rfl | ⟨l, _, rfl⟩
    · simp [helper?] at helper
    · simp only [helper?, Option.some.injEq] at helper
      exact other (by rw [helper])
  have noAccessor := fields (helperAccessor c) rfl (by simp)
  have noExport := fields (helperExport c) rfl (by simp)
  refine ⟨?_, ?_⟩
  · simpa [Layout.parts, Layout.ofListings, accessors, none_ _ _, noAccessor] using once
  · simpa [Layout.parts, Layout.ofListings, exports, none_ _ _, noExport] using once

include plain

/-- With a class that spares the template go the parts of its helper. -/
theorem goesWith_eq (spares : f.Spares className) (member : p ∈ (Layout.ofListings ls).parts) :
    p.goesWith f className = decide (p.helper? = some className) := by
  have sound := sound_ofListings listed p member
  have accessors : ∀ {c : String}, isClassName c.toList = true →
      (Naming.accessor c = Naming.accessor className ↔ c = className) := fun named' =>
    ⟨Naming.accessor_inj named' spares.named, congrArg _⟩
  cases p with
  | contextImport => simp [goesWith, helper?, spares.type.symm]
  | contextField => simp [goesWith, helper?, spares.type.symm, spares.field.symm]
  | setter =>
    have other : className ≠ "void" := by
      rintro rfl
      exact absurd spares.named (by simp [isClassName])
    simp [goesWith, helper?, other]
  | ownExport => simp [goesWith, helper?, accessors plain.name, spares.own.symm]
  | helperField c =>
    by_cases same : c = className
    · simp [goesWith, helper?, same]
    · have other : f.fieldOf c ≠ f.fieldOf className := fun fields =>
        same (Naming.field_inj sound spares.named fields)
      simp [goesWith, helper?, same, other]
  | helperAccessor c | helperExport c => simp [goesWith, helper?, accessors sound, beq_eq_decide]
  | helperImport l' => simp [goesWith, helper?, beq_eq_decide]
  | _ => simp [goesWith, helper?]

/-! ### What is taken out of a part of a registry -/

variable (among : parts.Sublist (Layout.ofListings ls).parts) {name : String}
include among

omit plain in
theorem oneMethod (other : name ≠ "void") : ∀ e ∈ located f 0 parts, ∀ e' ∈ located f 0 parts,
    e.2.isMethod = true → e'.2.isMethod = true → e.2.goesWith f name = true →
      e'.2.goesWith f name = true → e = e' := by
  have accessor : ∀ e ∈ located f 0 parts, e.2.isMethod = true → e.2.goesWith f name = true →
      ∃ c, e.2 = helperAccessor c ∧ isClassName c.toList = true ∧
        Naming.accessor c = Naming.accessor name := by
    intro e inside method goes
    have sound := sound_ofListings listed e.2 (among.subset (snd_mem_of_mem_located inside))
    cases kind : e.2 with
    | setter =>
      rw [kind] at goes
      exact absurd (by simpa [goesWith] using goes) other
    | helperAccessor c =>
      rw [kind] at goes sound
      refine ⟨c, rfl, sound, ?_⟩
      simp only [goesWith, Bool.or_eq_true, beq_iff_eq] at goes
      rcases goes with rfl | same
      · rfl
      · exact same
    | _ => simp [kind, isMethod] at method
  intro e inside e' inside' method method' goes goes'
  obtain ⟨c, kind, named, same⟩ := accessor e inside method goes
  obtain ⟨c', kind', named', same'⟩ := accessor e' inside' method' goes'
  obtain rfl := Naming.accessor_inj named named' (same.trans same'.symm)
  exact located_unique (Nat.le_trans (among.count_le _) (count_le_one listed c).1) inside inside' kind kind'

theorem oneExport : ∀ e ∈ located f 0 parts, ∀ e' ∈ located f 0 parts,
    e.2.isExport = true → e'.2.isExport = true → e.2.goesWith f name = true →
      e'.2.goesWith f name = true → e = e' := by
  -- The class whose accessor is exported tells the part: a listed class is not the registry's own.
  have exported : ∀ e ∈ located f 0 parts, e.2.isExport = true → e.2.goesWith f name = true →
      ∃ c, Naming.accessor c = Naming.accessor name ∧ isClassName c.toList = true ∧
        (e.2 = ownExport ∧ c = f.name ∨ e.2 = helperExport c ∧ c ≠ f.name) := by
    intro e inside export_ goes
    have member := among.subset (snd_mem_of_mem_located inside)
    have sound := sound_ofListings listed e.2 member
    cases kind : e.2 with
    | ownExport =>
      rw [kind] at goes
      exact ⟨f.name, by simpa [goesWith] using goes, plain.name, .inl ⟨rfl, rfl⟩⟩
    | helperExport c =>
      rw [kind] at goes sound member
      obtain ⟨l, known, rfl⟩ := List.mem_map.mp (helperExport_mem.mp member)
      exact ⟨l.className, by simpa [goesWith] using goes, sound, .inr ⟨rfl, listed.own l known⟩⟩
    | _ => simp [kind, isExport] at export_
  intro e inside e' inside' export_ export_' goes goes'
  obtain ⟨c, same, named, kind⟩ := exported e inside export_ goes
  obtain ⟨c', same', named', kind'⟩ := exported e' inside' export_' goes'
  obtain rfl := Naming.accessor_inj named named' (same.trans same'.symm)
  rcases kind with ⟨kind, own⟩ | ⟨kind, other⟩
  · rcases kind' with ⟨kind', _⟩ | ⟨_, other⟩
    · exact located_unique (Nat.le_trans (among.count_le _) (count_ownExport_le_one ls)) inside
        inside' kind kind'
    · exact absurd own other
  · rcases kind' with ⟨_, own⟩ | ⟨kind', _⟩
    · exact absurd own other
    · exact located_unique (Nat.le_trans (among.count_le _) (count_le_one listed c).2) inside inside'
        kind kind'

/-- What is taken out for names is all that goes with one of them. -/
theorem mem_taken_iff {names : List String}
    (whole : ∀ n ∈ names, ' ' ∉ (Naming.accessor n).toList) (noVoid : "void" ∉ names)
    {e : Nat × Part} : e ∈ taken f (located f 0 parts) names ↔
      e ∈ located f 0 parts ∧ ∃ n ∈ names, e.2.goesWith f n = true := by
  have sound : ∀ p ∈ parts, p.IsSound := fun p member =>
    sound_ofListings listed p (among.subset member)
  refine ⟨fun member => ⟨mem_of_mem_taken member,
    goesWith_of_mem_taken plain sound whole member⟩, ?_⟩
  rintro ⟨inside, n, known, goes⟩
  have other : n ≠ "void" := by
    rintro rfl
    exact noVoid known
  rw [taken, List.mem_append, List.mem_flatMap, List.mem_filter]
  cases named : e.2.importName? f with
  | none =>
    exact .inl ⟨n, known, (mem_members_iff plain sound (whole n known) other
      (oneMethod listed among other) (oneExport plain listed among)).mpr
        ⟨inside, goes, named⟩⟩
  | some bound =>
    have same : bound = n := by
      cases kind : e.2 with
      | contextImport | helperImport l =>
        rw [kind] at named goes
        obtain rfl := Option.some.inj named
        simpa [goesWith] using goes
      | _ => simp [kind, importName?] at named
    exact .inr ⟨inside, by simpa [same] using known⟩

/-- What is left is what goes with none of the names. -/
theorem left_eq {names : List String} (whole : ∀ n ∈ names, ' ' ∉ (Naming.accessor n).toList)
    (noVoid : "void" ∉ names) :
    left f parts names = parts.filter fun p => !names.any fun n => p.goesWith f n := by
  have chosen : ((located f 0 parts).filter (· ∉ taken f (located f 0 parts) names)) =
      (located f 0 parts).filter fun e => !names.any fun n => e.2.goesWith f n := by
    refine List.filter_congr fun e member => ?_
    rw [Bool.eq_iff_iff]
    simp [mem_taken_iff plain listed among whole noVoid, member]
  have snd := map_snd_located (f := f) 0 parts
  rw [left, chosen]
  conv_rhs => rw [← snd, List.filter_map]
  rfl

end

end Part

end Registrar
