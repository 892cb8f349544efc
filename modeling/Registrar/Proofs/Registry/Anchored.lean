import Registrar.Proofs.Registry.Placed

/-!
The anchors at which new parts go into a text of parts. Imports go behind the last import, fields
behind the last field of a helper or else behind the one of the context or the instance, and
accessors before the remark.
-/

namespace Registrar

open Recognition Pattern

namespace Part

variable {f : Frame} {p : Part} {parts before_ after_ imports rest : List Part}

/-! ### Searching among located parts -/

/-- What is read off none of the parts is read off none of the located ones. -/
theorem filterMap_located_eq_nil {α : Type} {read : Nat → Part → Option α}
    (none_ : ∀ p ∈ parts, ∀ n, read n p = none) (start : Nat) :
    (located f start parts).filterMap (fun e => read e.1 e.2) = [] := by
  exact List.filterMap_eq_nil_iff.mpr fun e member =>
    none_ e.2 (snd_mem_of_mem_located member) e.1

theorem find?_located_eq_none {holds : Part → Bool} (none_ : ∀ q ∈ parts, holds q = false)
    (start : Nat) : (located f start parts).find? (fun e => holds e.2) = none := by
  refine List.find?_eq_none.mpr fun e member => ?_
  simp [none_ e.2 (snd_mem_of_mem_located member)]

theorem find?_reverse_located_eq_none {holds : Part → Bool}
    (none_ : ∀ q ∈ parts, holds q = false) (start : Nat) :
    (located f start parts).reverse.find? (fun e => holds e.2) = none := by
  refine List.find?_eq_none.mpr fun e member => ?_
  simp [none_ e.2 (snd_mem_of_mem_located (List.mem_reverse.mp member))]

/-- The first part with a property is found where it stands. -/
theorem find?_located (holds : Part → Bool) (after_ : List Part) (here : holds p = true)
    (none_ : ∀ q ∈ before_, holds q = false) (start : Nat) :
    (located f start (before_ ++ p :: after_)).find? (fun e => holds e.2) =
      some (start + (textOf f before_).size, p) := by
  rw [located_append, List.find?_append, find?_located_eq_none none_, located, List.find?_cons,
    here]
  rfl

/-- The last part with a property is found where it stands. -/
theorem find?_reverse_located (holds : Part → Bool) (before_ : List Part)
    (here : holds p = true) (none_ : ∀ q ∈ after_, holds q = false) (start : Nat) :
    (located f start (before_ ++ p :: after_)).reverse.find? (fun e => holds e.2) =
      some (start + (textOf f before_).size, p) := by
  rw [located_append, located, List.reverse_append, List.reverse_cons, List.append_assoc,
    List.find?_append, find?_reverse_located_eq_none none_, List.singleton_append,
    List.find?_cons, here]
  rfl

/-! ### Imports -/

theorem import?_eq_none (other : p.isImport = false) (start : Nat) : p.import? f start = none := by
  cases p with
  | contextImport | helperImport l => simp [isImport] at other
  | _ => rfl

theorem exists_import? (is_import : p.isImport = true) (start : Nat) :
    ∃ i, p.import? f start = some i ∧ i.span = ⟨start, start + (p.text f).size⟩ := by
  cases p with
  | contextImport => exact ⟨_, rfl, by rw [text_contextImport]; rfl⟩
  | helperImport l => exact ⟨_, rfl, by rw [text_helperImport_eq]; rfl⟩
  | _ => simp [isImport] at is_import

section
variable (plain : f.Plain) (sound : ∀ p ∈ imports ++ rest, p.IsSound)
  (all : ∀ p ∈ imports, p.isImport = true) (none_ : ∀ p ∈ rest, p.isImport = false)
include plain sound none_

theorem imports_textOf : (Zones.ofText (textOf f (imports ++ rest))).imports =
    (located f 0 imports).filterMap fun e => e.2.import? f e.1 := by
  have later : (located f (0 + (textOf f imports).size) rest).filterMap
      (fun e => e.2.import? f e.1) = [] :=
    filterMap_located_eq_nil (fun p member n => import?_eq_none (none_ p member) n) _
  rw [zones_textOf plain sound]
  simp only
  rw [located_append, List.filterMap_append, later, List.append_nil]

include all

/-- The imports end where the last part that is one does. -/
theorem lastImportEnd_textOf :
    (Zones.ofText (textOf f (imports ++ rest))).lastImportEnd.getD 0 =
      (textOf f imports).size := by
  rw [Zones.lastImportEnd, imports_textOf plain sound none_]
  rcases List.eq_nil_or_concat imports with rfl | ⟨others, last, rfl⟩
  · rfl
  · obtain ⟨i, read, span⟩ := exists_import? (f := f) (all last (by simp))
      (0 + (textOf f others).size)
    rw [List.concat_eq_append, located_append, List.filterMap_append]
    simp only [located, List.filterMap_cons, List.filterMap_nil, read, List.getLast?_concat,
      Option.map_some, Option.getD_some, span, textOf_append, textOf_cons, textOf_nil,
      List.append_nil, Text.size_append]
    omega

theorem imports_isEmpty_textOf :
    (Zones.ofText (textOf f (imports ++ rest))).imports.isEmpty = imports.isEmpty := by
  rw [imports_textOf plain sound none_]
  cases imports with
  | nil => rfl
  | cons p others =>
    obtain ⟨i, read, _⟩ := exists_import? (f := f) (all p (by simp)) 0
    simp [located, read]

end

/-! ### Fields -/

/-- A field of a helper, told from the one of the context by its name. -/
def isHelperField (f : Frame) : Part → Bool
  | helperField className => f.fieldOf className != f.config.contextField
  | _ => false

/-- A field with the name of the context. -/
def hasContextName (f : Frame) : Part → Bool
  | contextField => true
  | helperField className => f.fieldOf className == f.config.contextField
  | _ => false

theorem any_field?_helper (p : Part) (start : Nat) :
    (p.field? f start).any (fun x => !x.isStatic && x.name != f.config.contextField) =
      p.isHelperField f := by
  cases p <;> simp [field?, isHelperField]

theorem any_field?_context (plain : f.Plain) (p : Part) (start : Nat) :
    (p.field? f start).any (fun x => x.name == f.config.contextField) = p.hasContextName f := by
  have distinct := plain.distinct.symm
  cases p <;> simp [field?, hasContextName, distinct]

theorem any_field?_static (p : Part) (start : Nat) :
    (p.field? f start).any (fun x => x.isStatic) = (p == instanceField) := by
  cases p <;> simp [field?]

theorem exists_field? (is_field : p.isHelperField f = true ∨ p.hasContextName f = true ∨
    p = instanceField) (start : Nat) :
    ∃ x, p.field? f start = some x ∧ x.span = ⟨start, start + (p.text f).size⟩ := by
  cases p with
  | instanceField | contextField | helperField c => exact ⟨_, rfl, rfl⟩
  | _ => simp [isHelperField, hasContextName] at is_field

section
variable (plain : f.Plain) (sound : ∀ q ∈ before_ ++ p :: after_, q.IsSound)
include plain sound

/-- Fields go behind the last field of a helper. -/
theorem fieldsOf_textOf_helper (here : p.isHelperField f = true)
    (last : ∀ q ∈ after_, q.isHelperField f = false) :
    Anchors.fieldsOf (textOf f (before_ ++ p :: after_))
      (Zones.ofText (textOf f (before_ ++ p :: after_))) f.config.contextField =
        ⟨(textOf f (before_ ++ [p])).size, false⟩ := by
  obtain ⟨x, read, span⟩ := exists_field? (f := f) (.inl here) (0 + (textOf f before_).size)
  have found := find?_reverse_located (f := f) (isHelperField f) before_ here last 0
  rw [Anchors.fieldsOf, zones_textOf plain sound]
  simp only
  rw [← List.filterMap_reverse, List.find?_filterMap]
  simp only [any_field?_helper, found, Option.bind_some, read, span]
  simp

/-- Without a field of a helper, they go behind the one of the context. -/
theorem fieldsOf_textOf_context (here : p.hasContextName f = true)
    (first : ∀ q ∈ before_, q.hasContextName f = false)
    (none_ : ∀ q ∈ before_ ++ p :: after_, q.isHelperField f = false) :
    Anchors.fieldsOf (textOf f (before_ ++ p :: after_))
      (Zones.ofText (textOf f (before_ ++ p :: after_))) f.config.contextField =
        ⟨(textOf f (before_ ++ [p])).size, true⟩ := by
  obtain ⟨x, read, span⟩ := exists_field? (f := f) (.inr (.inl here)) (0 + (textOf f before_).size)
  have noHelper := find?_reverse_located_eq_none (f := f) none_ 0
  have found := find?_located (f := f) (hasContextName f) after_ here first 0
  rw [Anchors.fieldsOf, zones_textOf plain sound]
  simp only
  rw [← List.filterMap_reverse, List.find?_filterMap, List.find?_filterMap]
  simp only [any_field?_helper, any_field?_context plain, noHelper, found, Option.bind_none,
    Option.bind_some, read, span]
  simp

/-- Without either, they go behind the one of the instance. -/
theorem fieldsOf_textOf_instance (here : p = instanceField)
    (first : ∀ q ∈ before_, q ≠ instanceField)
    (none_ : ∀ q ∈ before_ ++ p :: after_, q.isHelperField f = false)
    (unnamed : ∀ q ∈ before_ ++ p :: after_, q.hasContextName f = false) :
    Anchors.fieldsOf (textOf f (before_ ++ p :: after_))
      (Zones.ofText (textOf f (before_ ++ p :: after_))) f.config.contextField =
        ⟨(textOf f (before_ ++ [p])).size, true⟩ := by
  obtain ⟨x, read, span⟩ := exists_field? (f := f) (.inr (.inr here)) (0 + (textOf f before_).size)
  have noHelper := find?_reverse_located_eq_none (f := f) none_ 0
  have noContext := find?_located_eq_none (f := f) unnamed 0
  have static_ : (p == instanceField) = true := beq_iff_eq.mpr here
  have found := find?_located (f := f) (· == instanceField) after_ static_
    (fun q member => beq_eq_false_iff_ne.mpr (first q member)) 0
  rw [Anchors.fieldsOf, zones_textOf plain sound]
  simp only
  rw [← List.filterMap_reverse, List.find?_filterMap, List.find?_filterMap, List.find?_filterMap]
  simp only [any_field?_helper, any_field?_context plain, any_field?_static, noHelper, noContext,
    found, Option.bind_none, Option.bind_some, read, span]
  simp

end

end Part
end Registrar
