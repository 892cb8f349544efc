import Registrar.Proofs.Registry.Removals

/-!
What a removal leaves of the imports of a generated registry: each import that is left was there
before and binds none of the names that were taken out. The accessor that is taken out with an
imported class has the name that the class gives it.
-/

namespace Registrar

namespace Part

variable {f : Frame} {p : Part} {parts : List Part} {names : List String}

/-- An import that is left binds none of the names. -/
theorem importName?_of_mem_left {bound : String} (member : p ∈ left f parts names)
    (named : p.importName? f = some bound) : bound ∉ names := by
  obtain ⟨e, kept, rfl⟩ := List.mem_map.mp member
  obtain ⟨inside, stays⟩ := List.mem_filter.mp kept
  intro known
  rw [decide_eq_true_eq] at stays
  refine stays (List.mem_append_right _ (List.mem_filter.mpr ⟨inside, ?_⟩))
  rw [named]
  simpa using known

/-- The import of a part has the same specifier wherever the part stands. -/
theorem exists_import?_at {start start' : Nat} {i : Import} (read : p.import? f start = some i) :
    ∃ i', p.import? f start' = some i' ∧ i'.specifier = i.specifier ∧ ∃ bound,
      p.importName? f = some bound ∧ ∀ n, i'.binds n = true → n = bound := by
  cases p with
  | contextImport | helperImport l =>
    obtain rfl := Option.some.inj read
    refine ⟨_, rfl, rfl, _, rfl, fun n binds => ?_⟩
    exact (by simpa [importAt, Import.binds] using binds : _ = n).symm
  | _ => simp [import?] at read

end Part

/-- An import that is left after a removal was there before and binds no name that was taken out. -/
theorem Listed.exists_of_mem_imports {f : Frame} (plain : f.Plain) {ls : List Listing}
    (listed : Listed f ls) {names : List String} (distinct : names.Nodup)
    (whole : ∀ n ∈ names, ∀ c ∈ (Naming.accessor n).toList, c ≠ ' ' ∧ c ≠ '\n')
    (apart : ∀ n ∈ names, ∀ m ∈ names, n ≠ m → f.Apart n m) {i : Import}
    (member : i ∈ (Zones.ofText ((Removal.remove f.config ((Layout.ofListings ls).text f) names).2.getD
      ((Layout.ofListings ls).text f))).imports) :
    ∃ i' ∈ (Zones.ofText ((Layout.ofListings ls).text f)).imports, i'.specifier = i.specifier ∧
      ∀ n ∈ names, i'.binds n = false := by
  have sound := Part.sound_ofListings listed
  have among := Part.closed_left_sublist f (Layout.ofListings ls).parts names
  rw [listed.remove_getD plain distinct whole apart,
    Part.zones_textOf plain fun p inside => sound p (among.subset inside)] at member
  obtain ⟨e, inside, read⟩ := List.mem_filterMap.mp member
  have left := Part.snd_mem_of_mem_located inside
  obtain ⟨start, stands⟩ := Part.exists_mem_located (f := f) (among.subset left) 0
  obtain ⟨i', read', specifier, bound, named, only⟩ := Part.exists_import?_at read
  refine ⟨i', ?_, specifier, fun n known => ?_⟩
  · rw [Layout.text, Part.zones_textOf plain sound]
    exact List.mem_filterMap.mpr ⟨_, stands, read'⟩
  · rw [Bool.eq_false_iff]
    intro binds
    obtain rfl := only n binds
    exact Part.importName?_of_mem_left ((Part.closed_sublist 2 _).subset left) named known

/-- The accessor of a class returns it or is named for it. -/
theorem Zones.of_accessorOf? {z : Zones} {name : String} {a : Accessor}
    (found : z.accessorOf? name = some a) :
    a ∈ z.accessors ∧ (a.returns = some name ∨ a.name = Naming.accessor name) := by
  rw [accessorOf?, Option.or_eq_some_iff, accessorReturning?, accessorNamed?] at found
  rcases found with returning | ⟨_, named⟩
  · have returns := List.find?_some returning
    exact ⟨List.mem_of_find?_eq_some returning, .inl (eq_of_beq returns)⟩
  · have same := List.find?_some named
    exact ⟨List.mem_of_find?_eq_some named, .inr (eq_of_beq same)⟩

/-- The accessor of a name that is no return type of the registry's own is named for it. -/
theorem Listed.accessorOf?_name {f : Frame} (plain : f.Plain) {ls : List Listing}
    (listed : Listed f ls) {name : String} (other : name ≠ "void") {a : Accessor}
    (found : (Zones.ofText ((Layout.ofListings ls).text f)).accessorOf? name = some a) :
    a.name = Naming.accessor name := by
  obtain ⟨member, returns | named⟩ := Zones.of_accessorOf? found
  · rw [Layout.text, Part.zones_textOf plain (Part.sound_ofListings listed)] at member
    obtain ⟨e, _, read⟩ := List.mem_filterMap.mp member
    cases kind : e.2 with
    | setter =>
      rw [kind] at read
      obtain rfl := Option.some.inj read
      exact absurd (Option.some.inj returns).symm other
    | helperAccessor c =>
      rw [kind] at read
      obtain rfl := Option.some.inj read
      exact congrArg Naming.accessor (Option.some.inj returns)
    | _ => simp [kind, Part.accessor?] at read
  · exact named

end Registrar
