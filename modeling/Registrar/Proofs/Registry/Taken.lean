import Mathlib.Data.List.Nodup
import Registrar.Proofs.Registry.Deletion

/-!
Which parts go with a name. A removal takes out for a name no other parts than those that go with
it, by one of the keys under which it looks for them: the name that is imported, the name or the
type of a field, what an accessor returns or is called, the name of an export. As long as no part
goes with two of the names, none is staged twice.
-/

namespace Registrar

open Recognition Pattern

namespace Recognition

theorem all_of_isClassName {t : Text} (named : isClassName t = true) :
    ∀ c ∈ t, Letter.isWord c = true := by
  obtain ⟨x, rest, rfl, capital, all⟩ := isClassName_iff.mp named
  intro c member
  refine Letter.isWord_of_isAlphanum ?_
  rcases List.mem_cons.mp member with rfl | member
  · exact isAlphanum_of_isUpper capital
  · exact all c member

/-- The exported constant of a class is found under a name only if it is that of the class. -/
theorem exportsAs_get {s t : Text} (whole : ' ' ∉ s) (ht : isClassName t = true) (back : Text) :
    exportsAs ('g' :: 'e' :: 't' :: s) ('g' :: 'e' :: 't' :: t ++ ' ' :: back) = decide (s = t) := by
  have words : ∀ c ∈ 'g' :: 'e' :: 't' :: t, Letter.isWord c = true := by
    intro c member
    simp only [List.mem_cons] at member
    rcases member with rfl | rfl | rfl | member
    · rfl
    · rfl
    · rfl
    · exact all_of_isClassName ht c member
  have exports := exportsAs_word (s := 'g' :: 'e' :: 't' :: s) (by simp) (by simp [whole]) words back
  simpa using exports

end Recognition

namespace Part

variable {f : Frame} {p : Part} {parts : List Part} {name : String}

/-- A part goes with a name: it is found by one of the keys that follow from the name. -/
def goesWith (f : Frame) (name : String) : Part → Bool
  | contextImport => f.config.contextType == name
  | helperImport l => l.className == name
  | contextField => f.config.contextField == f.fieldOf name || f.config.contextType == name
  | helperField c => f.fieldOf c == f.fieldOf name || c == name
  | setter => name == "void"
  | helperAccessor c => c == name || Naming.accessor c == Naming.accessor name
  | ownExport => Naming.accessor f.name == Naming.accessor name
  | helperExport c => Naming.accessor c == Naming.accessor name
  | _ => false

/-- The accessor that a part exports. -/
def exportedName? (f : Frame) : Part → Option String
  | ownExport => some (Naming.accessor f.name)
  | helperExport c => some (Naming.accessor c)
  | _ => none

theorem toList_accessor (name : String) :
    (Naming.accessor name).toList = 'g' :: 'e' :: 't' :: Letter.raiseFirst name.toList := by
  simp [Naming.accessor]

/-- An export is found under its own name. -/
theorem isExportOf_accessor_eq (plain : f.Plain) (sound : p.IsSound)
    (whole : ' ' ∉ (Naming.accessor name).toList) :
    p.isExportOf f (Naming.accessor name) = (p.exportedName? f == some (Naming.accessor name)) := by
  have whole : ' ' ∉ Letter.raiseFirst name.toList := by simpa [toList_accessor] using whole
  have lists : ∀ {c : String}, isClassName c.toList = true →
      (Naming.accessor c = Naming.accessor name ↔ Letter.raiseFirst name.toList = c.toList) := by
    intro c named
    rw [← String.toList_inj, toList_accessor name, Naming.toList_accessor named]
    simp [eq_comm]
  cases p with
  | ownExport =>
    have exports := exportsAs_get whole plain.name
      ("= (): ".toList ++ f.name.toList ++ " => ".toList ++ f.name.toList ++
        ".getInstance();\n".toList)
    rw [isExportOf, exported?, Option.any_some, toList_accessor]
    simpa [exportedName?, beq_eq_decide, lists plain.name] using exports
  | helperExport c =>
    have exports := exportsAs_get whole sound
      ("= (".toList ++ f.config.contextField.toList ++ "?: ".toList ++ f.config.contextType.toList ++
        "): ".toList ++ c.toList ++ " => ".toList ++ f.name.toList ++ ".getInstance().".toList ++
        (Naming.accessor c).toList ++ "(".toList ++ f.config.contextField.toList ++ ");\n".toList)
    rw [isExportOf, exported?, Option.any_some, toList_accessor]
    simpa [exportedName?, beq_eq_decide, lists sound, Naming.toList_accessor sound] using exports
  | _ => simp [isExportOf, exported?, exportedName?]

/-- Nothing is exported under the name of the setter. -/
theorem isExportOf_setterName : p.isExportOf f f.setterName = false := by
  cases exported : p.exported? f with
  | none => simp [isExportOf, exported]
  | some rest =>
    obtain ⟨line, rfl⟩ := exists_of_exported? exported
    have other : ¬f.setterName.toList <+: 'g' :: line ++ ['\n'] := by
      intro begins
      obtain ⟨back, same⟩ := begins
      simp [Frame.setterName] at same
    rw [isExportOf, exported, Option.any_some, exportsAs, Text.dropFront?_eq_none other]

theorem setterName_ne_accessor : f.setterName ≠ Naming.accessor name := by
  intro same
  have lists := congrArg String.toList same
  simp [Frame.setterName, toList_accessor] at lists

/-! ### What is taken out goes with a name -/

/-- What is found as the method of a name goes with it, and is exported under its accessor unless it
is the setter. -/
theorem goesWith_methodOf? {e : Nat × Part} (found : methodOf? f (located f 0 parts) name = some e) :
    e.2.isMethod = true ∧ e.2.goesWith f name = true ∧
      (e.2.methodName? f = some f.setterName ∨
        e.2.methodName? f = some (Naming.accessor name)) := by
  rcases Option.or_eq_some_iff.mp found with found | ⟨_, found⟩
  · have returns : e.2.returned? = some name := by
      simpa using List.find?_some (p := fun e : Nat × Part => e.2.returned? == some name) found
    cases kind : e.2 with
    | setter =>
      rw [kind] at returns
      obtain rfl := Option.some.inj returns
      exact ⟨rfl, beq_self_eq_true _, .inl rfl⟩
    | helperAccessor c =>
      rw [kind] at returns
      obtain rfl := Option.some.inj returns
      exact ⟨rfl, by simp [goesWith], .inr rfl⟩
    | _ => simp [kind, returned?] at returns
  · have named : e.2.methodName? f = some (Naming.accessor name) := by
      simpa using List.find?_some
        (p := fun e : Nat × Part => e.2.methodName? f == some (Naming.accessor name)) found
    cases kind : e.2 with
    | setter =>
      rw [kind] at named
      exact absurd (Option.some.inj named) setterName_ne_accessor
    | helperAccessor c =>
      rw [kind] at named
      have same : Naming.accessor c = Naming.accessor name := Option.some.inj named
      exact ⟨rfl, by simp [goesWith, same], .inr named⟩
    | _ => simp [kind, methodName?] at named

theorem exportName_eq (f : Frame) (parts : List Part) (name : String) :
    exportName f (located f 0 parts) name = f.setterName ∨
      exportName f (located f 0 parts) name = Naming.accessor name := by
  rw [exportName]
  cases found : methodOf? f (located f 0 parts) name with
  | none => exact .inr rfl
  | some e =>
    obtain ⟨_, _, named | named⟩ := goesWith_methodOf? found
    · exact .inl (by simp [named])
    · exact .inr (by simp [named])

theorem goesWith_of_isFieldOf (field : p.isFieldOf f name = true) :
    p.isField = true ∧ p.goesWith f name = true := by
  cases p with
  | contextField | helperField c => exact ⟨rfl, field⟩
  | _ => simp [isFieldOf] at field

theorem goesWith_of_exportedName? (exported : p.exportedName? f = some (Naming.accessor name)) :
    p.isExport = true ∧ p.goesWith f name = true := by
  cases p with
  | ownExport | helperExport c =>
    exact ⟨rfl, by simpa [goesWith, exportedName?] using exported⟩
  | _ => simp [exportedName?] at exported

section
variable (plain : f.Plain) (sound : ∀ p ∈ parts, p.IsSound)
include plain sound

/-- What is found as the export of a name goes with it. -/
theorem goesWith_export (whole : ' ' ∉ (Naming.accessor name).toList) {e : Nat × Part}
    (found : (located f 0 parts).find? (fun e =>
      e.2.isExportOf f (exportName f (located f 0 parts) name)) = some e) :
    e.2.isExport = true ∧ e.2.goesWith f name = true := by
  have is_export := List.find?_some (p := fun e : Nat × Part =>
    e.2.isExportOf f (exportName f (located f 0 parts) name)) found
  have known := sound e.2 (snd_mem_of_mem_located (List.mem_of_find?_eq_some found))
  rcases exportName_eq f parts name with setter | accessor
  · simp [setter, isExportOf_setterName] at is_export
  · simp only [accessor, isExportOf_accessor_eq plain known whole, beq_iff_eq] at is_export
    exact goesWith_of_exportedName? is_export

/-- A field, a method or an export that is taken out for a name goes with it. -/
theorem goesWith_of_mem_members (whole : ' ' ∉ (Naming.accessor name).toList) {e : Nat × Part}
    (member : e ∈ members f (located f 0 parts) name) :
    e.2.goesWith f name = true ∧ e.2.importName? f = none := by
  have noImport : ∀ p : Part, p.isField = true ∨ p.isMethod = true ∨ p.isExport = true →
      p.importName? f = none := by
    intro p kind
    cases p <;> simp [isField, isMethod, isExport] at kind <;> rfl
  simp only [members, List.mem_append, Option.mem_toList] at member
  rcases member with (field | method) | exported
  · obtain ⟨kind, goes⟩ := goesWith_of_isFieldOf (List.mem_filter.mp field).2
    exact ⟨goes, noImport _ (.inl kind)⟩
  · obtain ⟨kind, goes, _⟩ := goesWith_methodOf? method
    exact ⟨goes, noImport _ (.inr (.inl kind))⟩
  · obtain ⟨kind, goes⟩ := goesWith_export plain sound whole exported
    exact ⟨goes, noImport _ (.inr (.inr kind))⟩

/-- What is taken out for names goes with one of them. -/
theorem goesWith_of_mem_taken {names : List String}
    (whole : ∀ n ∈ names, ' ' ∉ (Naming.accessor n).toList) {e : Nat × Part}
    (member : e ∈ taken f (located f 0 parts) names) : ∃ n ∈ names, e.2.goesWith f n = true := by
  rcases List.mem_append.mp member with member | member
  · obtain ⟨n, known, member⟩ := List.mem_flatMap.mp member
    exact ⟨n, known, (goesWith_of_mem_members plain sound (whole n known) member).1⟩
  · have named := (List.mem_filter.mp member).2
    cases kind : e.2 with
    | contextImport | helperImport l =>
      rw [kind, importName?, Option.any_some, List.contains_iff_mem] at named
      exact ⟨_, named, by simp [goesWith]⟩
    | _ => simp [kind, importName?] at named

/-! ### Nothing is taken out twice -/

theorem members_nodup (whole : ' ' ∉ (Naming.accessor name).toList) :
    (members f (located f 0 parts) name).Nodup := by
  have short : ∀ o : Option (Nat × Part), o.toList.Nodup := by
    intro o
    cases o <;> simp
  refine List.nodup_append.mpr ⟨List.nodup_append.mpr ⟨?_, short _, ?_⟩, short _, ?_⟩
  · exact (located_nodup _ _).filter _
  · intro a first b second same
    have field := (goesWith_of_isFieldOf (List.mem_filter.mp first).2).1
    have method := (goesWith_methodOf? (Option.mem_toList.mp second)).1
    rw [same] at field
    cases kind : b.2 <;> simp [kind, isField, isMethod] at field method
  · intro a first b second same
    have exported := (goesWith_export plain sound whole (Option.mem_toList.mp second)).1
    rcases List.mem_append.mp first with first | first
    · have field := (goesWith_of_isFieldOf (List.mem_filter.mp first).2).1
      rw [same] at field
      cases kind : b.2 <;> simp [kind, isField, isExport] at field exported
    · have method := (goesWith_methodOf? (Option.mem_toList.mp first)).1
      rw [same] at method
      cases kind : b.2 <;> simp [kind, isMethod, isExport] at method exported

/-- No part is staged twice if none goes with two of the names. -/
theorem taken_nodup {names : List String} (distinct : names.Nodup)
    (whole : ∀ n ∈ names, ' ' ∉ (Naming.accessor n).toList)
    (once : ∀ p ∈ parts, ∀ n ∈ names, ∀ m ∈ names,
      p.goesWith f n = true → p.goesWith f m = true → n = m) :
    (taken f (located f 0 parts) names).Nodup := by
  refine List.nodup_append.mpr ⟨List.nodup_flatMap.mpr ⟨?_, ?_⟩, ?_, ?_⟩
  · exact fun n member => members_nodup plain sound (whole n member)
  · refine distinct.imp_of_mem fun {n m} known known' other => ?_
    intro e first second
    have goes := (goesWith_of_mem_members plain sound (whole n known) first).1
    have goes' := (goesWith_of_mem_members plain sound (whole m known') second).1
    have inside := snd_mem_of_mem_located (mem_of_mem_members first)
    exact other (once e.2 inside n known m known' goes goes')
  · exact (located_nodup _ _).filter _
  · intro a first b second same
    obtain ⟨n, known, first⟩ := List.mem_flatMap.mp first
    have none_ := (goesWith_of_mem_members plain sound (whole n known) first).2
    have named := (List.mem_filter.mp second).2
    simp [← same, none_] at named

/-! ### What goes with a name is taken out -/

/-- All fields, methods and exports that go with a name are taken out for it, if there is one such
method at most and one such export. -/
theorem mem_members_iff (whole : ' ' ∉ (Naming.accessor name).toList) (other : name ≠ "void")
    (oneMethod : ∀ e ∈ located f 0 parts, ∀ e' ∈ located f 0 parts, e.2.isMethod = true →
      e'.2.isMethod = true → e.2.goesWith f name = true → e'.2.goesWith f name = true → e = e')
    (oneExport : ∀ e ∈ located f 0 parts, ∀ e' ∈ located f 0 parts, e.2.isExport = true →
      e'.2.isExport = true → e.2.goesWith f name = true → e'.2.goesWith f name = true → e = e')
    {e : Nat × Part} : e ∈ members f (located f 0 parts) name ↔
      e ∈ located f 0 parts ∧ e.2.goesWith f name = true ∧ e.2.importName? f = none := by
  refine ⟨fun member => ⟨mem_of_mem_members member,
    goesWith_of_mem_members plain sound whole member⟩, fun ⟨inside, goes, noImport⟩ => ?_⟩
  simp only [members, List.mem_append, Option.mem_toList]
  cases kind : e.2 with
  | contextImport | helperImport l => simp [kind, importName?] at noImport
  | contextField | helperField c =>
    rw [kind] at goes
    exact .inl (.inl (List.mem_filter.mpr ⟨inside, by rw [kind]; exact goes⟩))
  | setter =>
    rw [kind] at goes
    exact absurd (by simpa [goesWith] using goes) other
  | helperAccessor c =>
    have some_ : (methodOf? f (located f 0 parts) name).isSome = true := by
      rw [methodOf?, Option.isSome_or, List.isSome_find?, List.isSome_find?, Bool.or_eq_true]
      rw [kind, goesWith, Bool.or_eq_true] at goes
      refine goes.imp (fun same => ?_) (fun same => ?_)
      · exact List.any_eq_true.mpr ⟨e, inside, by simpa [kind, returned?] using same⟩
      · exact List.any_eq_true.mpr ⟨e, inside, by simpa [kind, methodName?] using same⟩
    obtain ⟨e', found⟩ := Option.isSome_iff_exists.mp some_
    obtain ⟨method, goes', _⟩ := goesWith_methodOf? found
    obtain rfl := oneMethod e inside e' (exists_methodName? found).1 (by rw [kind]; rfl) method
      goes goes'
    exact .inl (.inr found)
  | ownExport | helperExport c =>
    have accessor : exportName f (located f 0 parts) name = Naming.accessor name := by
      rw [exportName]
      cases found : methodOf? f (located f 0 parts) name with
      | none => rfl
      | some e' =>
        obtain ⟨_, goes', named | named⟩ := goesWith_methodOf? found
        · cases kind' : e'.2 with
          | setter =>
            rw [kind'] at goes'
            exact absurd (by simpa [goesWith] using goes') other
          | helperAccessor c =>
            rw [kind'] at named
            exact absurd (Option.some.inj named).symm setterName_ne_accessor
          | _ => simp [kind', methodName?] at named
        · simp [named]
    have is_export : e.2.isExportOf f (Naming.accessor name) = true := by
      rw [isExportOf_accessor_eq plain (sound e.2 (snd_mem_of_mem_located inside)) whole]
      rw [kind] at goes ⊢
      simpa [goesWith, exportedName?] using goes
    have some_ : ((located f 0 parts).find? fun e =>
        e.2.isExportOf f (Naming.accessor name)).isSome = true :=
      List.find?_isSome.mpr ⟨e, inside, is_export⟩
    obtain ⟨e', found⟩ := Option.isSome_iff_exists.mp some_
    rw [accessor]
    have found' := found
    rw [← accessor] at found'
    obtain ⟨exported, goes'⟩ := goesWith_export plain sound whole found'
    obtain rfl := oneExport e inside e' (List.mem_of_find?_eq_some found) (by rw [kind]; rfl)
      exported goes goes'
    exact .inr found
  | _ => simp [kind, goesWith] at goes

end

end Part
end Registrar
