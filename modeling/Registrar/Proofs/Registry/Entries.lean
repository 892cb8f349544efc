import Registrar.Proofs.Registry.Roster
import Registrar.Workspace.Resolution

/-!
What a registry of listed helpers says of them when it is read: it is told to be a registry, each
helper is imported by its specifier, and the accessors hand out the listed classes in their order.
-/

namespace Registrar

open Recognition

/-- A piece that occurs in a text is found in it. -/
theorem Text.holds_of_inside {piece t : Text} (inside : piece <:+: t) : t.holds piece = true := by
  induction t with
  | nil =>
    obtain rfl := List.infix_nil.mp inside
    rfl
  | cons c rest ih =>
    by_cases begins : piece <+: c :: rest
    · obtain ⟨tail, split⟩ := begins
      rw [holds, ← split]
      by_cases none_ : piece = []
      · subst none_
        rw [List.nil_append] at split
        simp [split, cut?, dropFront?, beginsWith]
      · rw [cut?_append none_]
        rfl
    · have later := ih ((List.infix_cons_iff.mp inside).resolve_left begins)
      rw [holds] at later ⊢
      rw [cut?_cons_of_not_begins begins, Option.isSome_map, later]

theorem Zones.exists_importOf? {z : Zones} {name : String} (imported : z.importsName name = true) :
    ∃ i, z.importOf? name = some i ∧ i ∈ z.imports ∧ i.binds name = true := by
  obtain ⟨i, found⟩ := Option.isSome_iff_exists.mp
    (List.find?_isSome.mpr (List.any_eq_true.mp imported))
  have binds := List.find?_some found
  exact ⟨i, found, List.mem_of_find?_eq_some found, binds⟩

namespace Part

variable {f : Frame} {parts : List Part}

theorem binds_importAt (start : Nat) (typed : Bool) (name specifier n : String) :
    (importAt start typed name specifier).binds n = (name == n) := by
  simp [importAt, Import.binds]

/-- What is read off parts without their places is read off the parts alone. -/
theorem filterMap_located {α : Type} (read : Part → Option α) (start : Nat) :
    (located f start parts).filterMap (fun e => read e.2) = parts.filterMap read := by
  conv_rhs => rw [← map_snd_located (f := f) start parts, List.filterMap_map]
  rfl

/-- The name and the class of the helper that a part hands out, if its class is imported. -/
def handedOut? (f : Frame) (imported : String → Bool) : Part → Option (String × String)
  | setter => if imported "void" then some (f.setterName, "void") else none
  | helperAccessor c => if imported c then some (Naming.accessor c, c) else none
  | _ => none

theorem helpers_textOf (plain : f.Plain) (sound : ∀ p ∈ parts, p.IsSound) :
    (Zones.ofText (textOf f parts)).helpers.map (fun (a, c) => (a.name, c)) =
      parts.filterMap (handedOut? f (Zones.ofText (textOf f parts)).importsName) := by
  have accessors : (Zones.ofText (textOf f parts)).accessors =
      (located f 0 parts).filterMap fun e => e.2.accessor? f e.1 := by
    rw [zones_textOf plain sound]
  rw [Zones.helpers, accessors, List.filterMap_filterMap, List.map_filterMap,
    ← filterMap_located (f := f) _ 0]
  refine List.filterMap_congr fun e _ => ?_
  cases e.2 with
  | setter =>
    simp only [accessor?, handedOut?, Option.bind_some]
    split <;> rfl
  | helperAccessor c =>
    simp only [accessor?, handedOut?, Option.bind_some]
    split <;> rfl
  | _ => rfl

end Part

namespace Listed

variable {f : Frame} {ls : List Listing} {l : Listing}

/-- A registry holds the remark by which registries are told. -/
theorem isRegistry (f : Frame) (ls : List Listing) :
    Recognition.isRegistry ((Layout.ofListings ls).text f) = true := by
  have marked : Part.mark ∈ (Layout.ofListings ls).parts :=
    Part.mem_ofListings_iff.mpr (.inl (by decide))
  have remark : Source.accessorMark.toList <:+: Part.mark.text f := by
    refine ⟨Source.indent.toList, ['\n'], ?_⟩
    simp [Part.text, Part.lines, Line.text]
  have inside : Source.accessorMark.toList <:+: (Layout.ofListings ls).text f := by
    obtain ⟨before_, after_, split⟩ := List.append_of_mem marked
    rw [Layout.text, split, Part.textOf_append, Part.textOf_cons]
    exact remark.trans (((List.prefix_append ..).isInfix).trans (List.suffix_append ..).isInfix)
  simp [Recognition.isRegistry, Text.holds_of_inside inside]

variable (plain : f.Plain) (listed : Listed f ls)
include plain listed

/-- A listed class is imported by the specifier that is listed with it. -/
theorem exists_importOf? (known : l ∈ ls) : ∃ i,
    (Zones.ofText ((Layout.ofListings ls).text f)).importOf? l.className = some i ∧
      i.specifier = l.specifier := by
  have imported : (Zones.ofText ((Layout.ofListings ls).text f)).importsName l.className = true :=
    (importsName_ofListings plain listed _).mpr (.inr (List.mem_map_of_mem known))
  obtain ⟨i, found, member, binds⟩ := Zones.exists_importOf? imported
  refine ⟨i, found, ?_⟩
  have sound := Part.sound_ofListings listed
  rw [Layout.text, Part.zones_textOf plain sound] at member
  obtain ⟨e, inside, read⟩ := List.mem_filterMap.mp member
  have stands := Part.snd_mem_of_mem_located inside
  cases kind : e.2 with
  | contextImport =>
    rw [kind] at read
    obtain rfl := Option.some.inj read
    rw [Part.binds_importAt, beq_iff_eq] at binds
    exact absurd binds.symm (listed.type l known)
  | helperImport l' =>
    rw [kind] at read stands
    obtain rfl := Option.some.inj read
    rw [Part.binds_importAt, beq_iff_eq] at binds
    rw [List.inj_on_of_nodup_map listed.distinct (Part.helperImport_mem.mp stands) known binds]
    rfl
  | _ => simp [kind, Part.import?] at read

/-- The accessors of the listed classes hand them out, in the order of the list. -/
theorem helpers_eq (void : f.config.contextType ≠ "void") :
    (Zones.ofText ((Layout.ofListings ls).text f)).helpers.map (fun (a, c) => (a.name, c)) =
      ls.map fun l => (Naming.accessor l.className, l.className) := by
  have imported := importsName_ofListings plain listed
  have helpers := Part.helpers_textOf plain (Part.sound_ofListings listed)
  rw [← Layout.text] at helpers
  rw [helpers]
  generalize (Zones.ofText ((Layout.ofListings ls).text f)).importsName = known at imported
  have nothing : known "void" = false := by
    rw [Bool.eq_false_iff, ne_eq, imported]
    rintro (same | member)
    · exact void same.symm
    · obtain ⟨l, inside, same⟩ := List.mem_map.mp member
      exact absurd (listed.named l inside) (by simp [same, isClassName])
  have methods : (ls.map fun l => Part.helperAccessor l.className).filterMap (Part.handedOut? f known) =
      ls.map fun l => (Naming.accessor l.className, l.className) := by
    rw [List.filterMap_map, ← List.filterMap_eq_map']
    refine List.filterMap_congr fun l inside => ?_
    simp [Part.handedOut?, (imported l.className).mpr (.inr (List.mem_map_of_mem inside))]
  have others : ∀ g : Listing → Part, (∀ l, (g l).handedOut? f known = none) →
      ls.filterMap (Part.handedOut? f known ∘ g) = [] :=
    fun g none_ => List.filterMap_eq_nil_iff.mpr fun l _ => none_ l
  have fields : (Layout.fieldBlock ls).filterMap (Part.handedOut? f known) = [] := by
    refine List.filterMap_eq_nil_iff.mpr fun p member => ?_
    rcases Part.mem_fieldBlock member with rfl | ⟨l, _, rfl⟩ <;> rfl
  have imports := others .helperImport fun _ => rfl
  have exports := others (.helperExport ·.className) fun _ => rfl
  simp [Layout.parts, Layout.ofListings, List.filterMap_cons, methods, imports, exports, fields,
    Part.handedOut?, nothing]

/-- A listed class is handed out by its accessor. -/
theorem exists_mem_helpers (known : l ∈ ls) : ∃ a,
    (a, l.className) ∈ (Zones.ofText ((Layout.ofListings ls).text f)).helpers := by
  have helpers := Part.helpers_textOf plain (Part.sound_ofListings listed)
  have imported := (importsName_ofListings plain listed l.className).mpr
    (.inr (List.mem_map_of_mem known))
  rw [← Layout.text] at helpers
  have member : (Naming.accessor l.className, l.className) ∈
      (Zones.ofText ((Layout.ofListings ls).text f)).helpers.map fun (a, c) => (a.name, c) := by
    rw [helpers]
    refine List.mem_filterMap.mpr ⟨.helperAccessor l.className,
      Part.helperAccessor_mem.mpr (List.mem_map_of_mem known), ?_⟩
    simp [Part.handedOut?, imported]
  obtain ⟨⟨a, c⟩, inside, same⟩ := List.mem_map.mp member
  obtain rfl : c = l.className := congrArg Prod.snd same
  exact ⟨a, inside⟩

end Listed

/-! ### Runs -/

namespace Site

variable {s : Site} {ls : List Listing}

/-- A change leaves the template alone: candidates that fit are added, or classes, listed or not, are
taken out once each. -/
def Spares (s : Site) : Change → Prop
  | .add candidates => ∀ c ∈ candidates, s.Fits c
  | .remove classes => classes.Nodup ∧ ∀ c ∈ classes, s.frame.Spares c

theorem change_of_spares (plain : s.Plain) (listed : Listed s.frame ls) {c : Change}
    (spares : s.Spares c) : s.change ((Layout.ofListings ls).text s.frame) c =
        (Layout.ofListings (s.update ls c)).text s.frame ∧ Listed s.frame (s.update ls c) := by
  cases c with
  | add candidates =>
    have allows : s.Allows ls (.add candidates) := spares
    exact ⟨change_text plain listed allows, listed_update plain listed allows⟩
  | remove classes =>
    exact ⟨listed.remove plain.frame spares.1 spares.2, listed_filter listed _⟩

/-- After changes that leave the template alone, the text is the layout of the roster. -/
theorem textAfter_of_spares (plain : s.Plain) {changes : List Change}
    (spares : ∀ c ∈ changes, s.Spares c) :
    s.textAfter changes = (Layout.ofListings (s.rosterAfter changes)).text s.frame ∧
      Listed s.frame (s.rosterAfter changes) := by
  have run : ∀ (changes : List Change) (ls : List Listing), (∀ c ∈ changes, s.Spares c) →
      Listed s.frame ls → changes.foldl s.change ((Layout.ofListings ls).text s.frame) =
          (Layout.ofListings (changes.foldl s.update ls)).text s.frame ∧
        Listed s.frame (changes.foldl s.update ls) := by
    intro changes
    induction changes with
    | nil => exact fun ls _ listed => ⟨rfl, listed⟩
    | cons c rest ih =>
      intro ls spares listed
      obtain ⟨text, listed⟩ := change_of_spares plain listed (spares c (by simp))
      rw [List.foldl_cons, List.foldl_cons, text]
      exact ih _ (fun c member => spares c (List.mem_cons_of_mem _ member)) listed
  have start := run changes [] spares (listed_nil s.frame)
  rwa [Layout.text_ofListings_nil plain.frame.template] at start

end Site
end Registrar
