import Registrar.Proofs.Registry.Listed

/-!
Registries without what goes with some names. A removal leaves in each zone the parts that go with
none of the names, and among the fields blank lines close up; what is left of a registry in this way
can be removed from again. Taking out listed helpers leaves the registry of the other helpers.
-/

namespace Registrar

namespace Part

variable {p : Part} {parts : List Part}

/-- A part stays if it goes with none of the names. -/
def stays (f : Frame) (names : List String) (p : Part) : Bool :=
  !names.any fun n => p.goesWith f n

theorem closed_sublist (n : Nat) (parts : List Part) : (closed n parts).Sublist parts := by
  induction parts generalizing n with
  | nil => exact .slnil
  | cons p rest ih =>
    rw [closed]
    split
    · next same =>
      subst same
      split
      · exact (ih 0).cons _
      · exact (ih _).cons_cons _
    · exact (ih _).cons_cons _

/-- Blank lines that close up before parts are taken out would close up afterwards. -/
theorem closed_filter_closed (keep : Part → Bool) (blanks : keep blank = true)
    (rooms : ∀ p ∈ parts, p.room = 1) {n m : Nat} (fewer : n ≤ m) (one : n ≤ 1) :
    closed n ((closed m parts).filter keep) = closed n (parts.filter keep) := by
  induction parts generalizing n m with
  | nil => rfl
  | cons p rest ih =>
    obtain ⟨room, tail⟩ := List.forall_mem_cons.mp rooms
    by_cases is_blank : p = blank
    · subst is_blank
      cases m with
      | zero =>
        obtain rfl : n = 0 := by omega
        rw [closed_cons_blank_zero, ih tail (Nat.le_refl 0) (by omega),
          List.filter_cons_of_pos blanks, closed_cons_blank_zero]
      | succ m =>
        rw [closed_cons_blank_succ, List.filter_cons_of_pos blanks, List.filter_cons_of_pos blanks]
        cases n with
        | zero => rw [closed_cons_blank_zero, closed_cons_blank_zero, ih tail (by omega) (by omega)]
        | succ n => rw [closed_cons_blank_succ, closed_cons_blank_succ,
            ih tail (by omega) (by omega)]
    · rw [closed_cons is_blank, room]
      by_cases kept : keep p = true
      · rw [List.filter_cons_of_pos kept, List.filter_cons_of_pos kept, closed_cons is_blank,
          closed_cons is_blank, room, ih tail (by omega) (by omega)]
      · rw [List.filter_cons_of_neg kept, List.filter_cons_of_neg kept, ih tail one one]

end Part

namespace Layout

/-- The layout without the parts that go with one of the names. -/
def without (f : Frame) (names : List String) (l : Layout) : Layout where
  head := l.head.filter (Part.stays f names)
  fields := Part.closed 1 (l.fields.filter (Part.stays f names))
  methods := l.methods.filter (Part.stays f names)
  exports := l.exports.filter (Part.stays f names)

/-- A layout is what is left of the registry of some helpers. -/
structure Within (ls : List Listing) (l : Layout) : Prop where
  among : l.parts.Sublist (ofListings ls).parts
  head : ∃ imports, l.head = imports ++ [.blank] ∧ ∀ p ∈ imports, p.isImport = true
  rooms : ∀ p ∈ l.fields, p.room = 1
  closed : Part.closed 1 l.fields = l.fields
  methods : ∀ p ∈ l.methods, p.isMethod = true
  exports : ∀ p ∈ l.exports, p.isExport = true

variable {f : Frame} {ls : List Listing} {l : Layout} {names : List String}

/-- Behind imports, and at the top of a text, one blank line may stay. -/
theorem closed_imports {imports : List Part} (all : ∀ p ∈ imports, p.isImport = true) :
    Part.closed 2 (imports ++ [.blank]) = imports ++ [.blank] := by
  by_cases none_ : imports = []
  · subst none_
    simp
  · refine Part.closed_append_replicate imports none_ (fun p member => ?_) 2 1
    have kind := all p member
    cases p <;> simp [Part.isImport] at kind <;> exact ⟨by simp, rfl⟩

/-- Taking parts out of the zones and closing up is taking them out of the layout. -/
theorem Within.closed_filter (within : l.Within ls) (names : List String) :
    Part.closed 2 (l.parts.filter (Part.stays f names)) = (l.without f names).parts := by
  obtain ⟨imports, head, all⟩ := within.head
  have split : l.parts.filter (Part.stays f names) =
      parts ⟨imports.filter (Part.stays f names) ++ [.blank],
        l.fields.filter (Part.stays f names), l.methods.filter (Part.stays f names),
        l.exports.filter (Part.stays f names)⟩ := by
    simp [parts, head, List.filter_append, List.filter_cons, Part.stays, Part.goesWith]
  rw [split, closed_parts _ _ (fun p member => within.methods p (List.mem_of_mem_filter member))
    (fun p member => within.exports p (List.mem_of_mem_filter member)),
    closed_imports fun p member => all p (List.mem_of_mem_filter member), without, head]
  simp [List.filter_append, List.filter_cons, Part.stays, Part.goesWith]

/-- What is left of a registry is closed up. -/
theorem Within.closed_eq (within : l.Within ls) : Part.closed 2 l.parts = l.parts := by
  obtain ⟨imports, head, all⟩ := within.head
  rw [closed_parts _ _ within.methods within.exports, within.closed, head, closed_imports all, ← head]

/-- What is left of what is left of a registry is left of it. -/
theorem Within.without (within : l.Within ls) (names : List String) :
    (l.without f names).Within ls where
  among := by
    rw [← within.closed_filter]
    exact (Part.closed_sublist 2 _).trans (List.filter_sublist.trans within.among)
  head := by
    obtain ⟨imports, head, all⟩ := within.head
    refine ⟨imports.filter (Part.stays f names), ?_,
      fun p member => all p (List.mem_of_mem_filter member)⟩
    simp [Layout.without, head, List.filter_append, List.filter_cons, Part.stays, Part.goesWith]
  rooms := fun p member =>
    within.rooms p (List.mem_of_mem_filter ((Part.closed_sublist 1 _).subset member))
  closed := by
    have rooms : ∀ p ∈ l.fields.filter (Part.stays f names), p.room = 1 := fun p member =>
      within.rooms p (List.mem_of_mem_filter member)
    have all := Part.closed_filter_closed (fun _ => true) rfl rooms (Nat.le_refl 1)
      (Nat.le_refl 1)
    simpa [Layout.without] using all
  methods := fun p member => within.methods p (List.mem_of_mem_filter member)
  exports := fun p member => within.exports p (List.mem_of_mem_filter member)

/-- What goes with names can be taken out for one after another. -/
theorem Within.without_without (within : l.Within ls) (first rest : List String) :
    (l.without f first).without f rest = l.without f (first ++ rest) := by
  have both : ∀ parts : List Part, (parts.filter (Part.stays f first)).filter (Part.stays f rest) =
      parts.filter (Part.stays f (first ++ rest)) := by
    intro parts
    rw [List.filter_filter]
    refine List.filter_congr fun p _ => ?_
    simp [Part.stays, Bool.and_comm]
  have rooms : ∀ p ∈ l.fields.filter (Part.stays f first), p.room = 1 := fun p member =>
    within.rooms p (List.mem_of_mem_filter member)
  have fields := Part.closed_filter_closed (Part.stays f rest)
    (by simp [Part.stays, Part.goesWith]) rooms (Nat.le_refl 1) (Nat.le_refl 1)
  simp only [Layout.without, both, fields]

end Layout

section
variable {f : Frame} (plain : f.Plain) {ls : List Listing} (listed : Listed f ls) {l : Layout}
  (within : l.Within ls) {names : List String}
include plain listed within

/-- A removal leaves what goes with none of the names, if no part goes with two of them. -/
theorem Layout.Within.remove (distinct : names.Nodup)
    (whole : ∀ n ∈ names, ∀ c ∈ (Naming.accessor n).toList, c ≠ ' ' ∧ c ≠ '\n')
    (noVoid : "void" ∉ names) (once : ∀ p ∈ l.parts, ∀ n ∈ names, ∀ m ∈ names,
      p.goesWith f n = true → p.goesWith f m = true → n = m) :
    (Removal.remove f.config (l.text f) names).2.getD (l.text f) = (l.without f names).text f := by
  have sound : ∀ p ∈ l.parts, p.IsSound := fun p member =>
    Part.sound_ofListings listed p (within.among.subset member)
  have spaces : ∀ n ∈ names, ' ' ∉ (Naming.accessor n).toList := fun n known member =>
    (whole n known _ member).1 rfl
  have feeds : ∀ n ∈ names, '\n' ∉ (Naming.accessor n).toList := fun n known member =>
    (whole n known _ member).2 rfl
  have left := Part.left_eq plain listed within.among spaces noVoid
  have closed := within.closed_filter (f := f) names
  by_cases none_ : Part.taken f (Part.located f 0 l.parts) names = []
  · have all : Part.left f l.parts names = l.parts := by
      simp [Part.left, none_, Part.map_snd_located]
    have same : l.parts.filter (Part.stays f names) = l.parts := left.symm.trans all
    rw [Layout.text, Part.remove_textOf_of_nil plain sound feeds none_, Option.getD_none, Layout.text,
      ← closed, same, within.closed_eq]
  · rw [Layout.text, Part.remove_textOf plain sound feeds none_
      (Part.taken_nodup plain sound distinct spaces once), Option.getD_some, left]
    exact congrArg _ closed

end

namespace Layout

variable {f : Frame} {ls : List Listing}

/-- Among the fields that are left blank lines close up. -/
theorem closed_fields (ls : List Listing) (classes : List String) :
    Part.closed 1 (.contextField :: (fieldBlock ls).filter (fun p => p.helper?.all (· ∉ classes)) ++
        [.blank]) =
      .contextField :: fieldBlock (ls.filter (·.className ∉ classes)) ++ [.blank] := by
  have fields : (ls.map fun l => Part.helperField l.className).filter
      (fun p => p.helper?.all (· ∉ classes)) =
        (ls.filter (·.className ∉ classes)).map fun l => Part.helperField l.className := by
    rw [List.filter_map]
    rfl
  cases ls with
  | nil => simp [fieldBlock, Part.closed_cons, Part.room]
  | cons l rest =>
    have block : (fieldBlock (l :: rest)).filter (fun p => p.helper?.all (· ∉ classes)) =
        .blank :: ((l :: rest).filter (·.className ∉ classes)).map
          fun l => Part.helperField l.className := by
      rw [← fields]
      rfl
    rw [block]
    cases (l :: rest).filter (·.className ∉ classes) with
    | nil => simp [fieldBlock, Part.closed_cons, Part.room]
    | cons l' rest' =>
      have solid := Part.closed_append_replicate
        ((l' :: rest').map fun l => Part.helperField l.className) (by simp)
        (by simp [Part.room]) 0 1
      simp only [List.cons_append, Part.closed_cons, ne_eq, reduceCtorEq, not_false_eq_true,
        Part.room, Part.closed_cons_blank_succ, fieldBlock, List.isEmpty_cons, if_neg,
        Bool.false_eq_true]
      exact congrArg _ (congrArg _ solid)

/-- The registry of some helpers is within itself. -/
theorem within_ofListings (ls : List Listing) : (ofListings ls).Within ls where
  among := .refl _
  head := by
    refine ⟨.contextImport :: ls.map .helperImport, rfl, fun p member => ?_⟩
    rcases List.mem_cons.mp member with rfl | member
    · rfl
    · obtain ⟨l, _, rfl⟩ := List.mem_map.mp member
      rfl
  rooms := by
    intro p member
    simp only [ofListings, List.cons_append, List.mem_cons, List.mem_append, List.not_mem_nil,
      or_false] at member
    rcases member with rfl | member | rfl
    · rfl
    · rcases Part.mem_fieldBlock member with rfl | ⟨l, _, rfl⟩ <;> rfl
    · rfl
  closed := by
    have fields := closed_fields ls []
    simpa [ofListings] using fields
  methods := fun p member => isMethod_of_mem member
  exports := fun p member => isExport_of_mem member

/-- Without classes that spare the template the registry is that of the helpers that are left. -/
theorem without_ofListings (plain : f.Plain) (listed : Listed f ls) {classes : List String}
    (spares : ∀ c ∈ classes, f.Spares c) :
    (ofListings ls).without f classes = ofListings (ls.filter (·.className ∉ classes)) := by
  have stays : ∀ p ∈ (ofListings ls).parts,
      Part.stays f classes p = p.helper?.all (· ∉ classes) := by
    intro p member
    have goes : ∀ c ∈ classes, p.goesWith f c = decide (p.helper? = some c) :=
      fun c inside => Part.goesWith_eq plain listed (spares c inside) member
    rw [Part.stays, Bool.eq_iff_iff, Bool.not_eq_true', List.any_eq_false]
    constructor
    · intro none_
      cases helper : p.helper? with
      | none => rfl
      | some c =>
        have absent : c ∉ classes := fun inside => none_ c inside (by simp [goes c inside, helper])
        simpa using absent
    · intro all c inside goes'
      rw [goes c inside, decide_eq_true_eq] at goes'
      simp [goes', inside] at all
  have zone : ∀ parts : List Part, (∀ p ∈ parts, p ∈ (ofListings ls).parts) →
      parts.filter (Part.stays f classes) = parts.filter fun p => p.helper?.all (· ∉ classes) :=
    fun parts inside => List.filter_congr fun p member => stays p (inside p member)
  have listings : ∀ g : Listing → Part, (∀ l, (g l).helper? = some l.className) →
      (ls.map g).filter (fun p => p.helper?.all (· ∉ classes)) =
        (ls.filter (·.className ∉ classes)).map g := by
    intro g helper
    rw [List.filter_map]
    refine congrArg _ (List.filter_congr fun l _ => ?_)
    simp [helper]
  have fields := closed_fields ls classes
  generalize rest_eq : ls.filter (·.className ∉ classes) = rest at listings fields
  have inside : ∀ p, p ∈ (ofListings ls).head ∨ p ∈ (ofListings ls).fields ∨
      p ∈ (ofListings ls).methods ∨ p ∈ (ofListings ls).exports → p ∈ (ofListings ls).parts := by
    intro p
    simp only [parts, List.mem_append]
    tauto
  rw [without, zone _ fun p member => inside p (.inl member),
    zone _ fun p member => inside p (.inr (.inl member)),
    zone _ fun p member => inside p (.inr (.inr (.inl member))),
    zone _ fun p member => inside p (.inr (.inr (.inr member)))]
  simp only [ofListings, List.cons_append, List.filter_cons, List.filter_append,
    listings .helperImport (fun _ => rfl), listings (.helperAccessor ·.className) (fun _ => rfl),
    listings (.helperExport ·.className) (fun _ => rfl)]
  simp only [List.cons_append] at fields
  simp [Part.helper?, ← fields]

end Layout

/-- Removing classes that spare the template, each once, gives the registry of the helpers that are
left; a class that is not listed takes out nothing. -/
theorem Listed.remove {f : Frame} (plain : f.Plain) {ls : List Listing} (listed : Listed f ls)
    {classes : List String} (distinct : classes.Nodup) (spares : ∀ c ∈ classes, f.Spares c) :
    (Removal.remove f.config ((Layout.ofListings ls).text f) classes).2.getD
        ((Layout.ofListings ls).text f) =
      (Layout.ofListings (ls.filter (·.className ∉ classes))).text f := by
  have whole : ∀ c ∈ classes, ∀ x ∈ (Naming.accessor c).toList, x ≠ ' ' ∧ x ≠ '\n' := by
    intro c member x inside
    have plain_ := Naming.isPlainName_accessor (spares c member).named
    refine ⟨?_, ?_⟩ <;> rintro rfl <;> exact not_mem_of_isPlainName plain_ rfl inside
  have noVoid : "void" ∉ classes := by
    intro member
    have named := (spares _ member).named
    simp [isClassName] at named
  have once : ∀ p ∈ (Layout.ofListings ls).parts, ∀ c ∈ classes, ∀ c' ∈ classes,
      p.goesWith f c = true → p.goesWith f c' = true → c = c' := by
    intro p member c inside c' inside' goes goes'
    simp only [Part.goesWith_eq plain listed (spares c inside) member,
      Part.goesWith_eq plain listed (spares c' inside') member, decide_eq_true_eq] at goes goes'
    exact Option.some.inj (goes.symm.trans goes')
  rw [(Layout.within_ofListings ls).remove plain listed distinct whole noVoid once,
    Layout.without_ofListings plain listed spares]

end Registrar
