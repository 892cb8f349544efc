import Mathlib.Data.List.Dedup
import Registrar.Proofs.Registry.Roster

/-!
Removals of any names from a generated registry. Names that can be told apart, each given once, may
be taken out together or one after another, and a helper then loses all of its parts or none. Names
that share a field or an accessor cannot: a part is then found for two of them, or is found for a
name that the import does not know.
-/

namespace Registrar

/-- No part of a registry goes with both names. -/
structure Frame.Apart (f : Frame) (name other : String) : Prop where
  field : f.fieldOf name ≠ f.fieldOf other
  accessor : Naming.accessor name ≠ Naming.accessor other
  /-- The field of the context goes with its type, too. -/
  context : name = f.config.contextType → f.fieldOf other ≠ f.config.contextField

namespace Part

variable {f : Frame} {p : Part} {names : List String}

/-- Of names that are apart one at most goes with a part. -/
theorem eq_of_goesWith (apart : ∀ n ∈ names, ∀ m ∈ names, n ≠ m → f.Apart n m) {n m : String}
    (known : n ∈ names) (known' : m ∈ names) (goes : p.goesWith f n = true)
    (goes' : p.goesWith f m = true) : n = m := by
  by_contra other
  have apart' := apart m known' n known (Ne.symm other)
  have apart := apart n known m known' other
  have field := apart.field
  have accessor := apart.accessor
  cases p with
  | contextImport | helperImport l =>
    simp only [goesWith, beq_iff_eq] at goes goes'
    exact other (goes.symm.trans goes')
  | setter =>
    simp only [goesWith, beq_iff_eq] at goes goes'
    exact other (goes.trans goes'.symm)
  | contextField =>
    simp only [goesWith, Bool.or_eq_true, beq_iff_eq] at goes goes'
    rcases goes with goes | goes
    · rcases goes' with goes' | goes'
      · exact field (goes.symm.trans goes')
      · exact apart'.context goes'.symm goes.symm
    · rcases goes' with goes' | goes'
      · exact apart.context goes.symm goes'.symm
      · exact other (goes.symm.trans goes')
  | helperField c =>
    simp only [goesWith, Bool.or_eq_true, beq_iff_eq] at goes goes'
    refine field (Eq.trans (b := f.fieldOf c) ?_ ?_)
    · rcases goes with goes | rfl
      · exact goes.symm
      · rfl
    · rcases goes' with goes' | rfl
      · exact goes'
      · rfl
  | helperAccessor c =>
    simp only [goesWith, Bool.or_eq_true, beq_iff_eq] at goes goes'
    refine accessor (Eq.trans (b := Naming.accessor c) ?_ ?_)
    · rcases goes with rfl | goes
      · rfl
      · exact goes.symm
    · rcases goes' with rfl | goes'
      · rfl
      · exact goes'
  | ownExport | helperExport c =>
    simp only [goesWith, beq_iff_eq] at goes goes'
    exact accessor (goes.symm.trans goes')
  | _ => simp [goesWith] at goes

end Part

/-! ### One after another -/

/-- Class names are apart unless one is the context's type and the other has the context's field. -/
theorem Frame.apart_of_isClassName {f : Frame} {name other : String}
    (named : isClassName name.toList = true) (named' : isClassName other.toList = true)
    (different : name ≠ other)
    (context : name = f.config.contextType → f.fieldOf other ≠ f.config.contextField) :
    f.Apart name other where
  field same := different (Naming.field_inj named named' same)
  accessor same := different (Naming.accessor_inj named named' same)
  context := context

theorem whole_of_isPlainName {t : Text} (plain : isPlainName t = true) :
    ∀ c ∈ t, c ≠ ' ' ∧ c ≠ '\n' := by
  intro c member
  refine ⟨?_, ?_⟩ <;> rintro rfl <;> exact not_mem_of_isPlainName plain rfl member

theorem whole_accessor {name : String} (named : isClassName name.toList = true) :
    ∀ c ∈ (Naming.accessor name).toList, c ≠ ' ' ∧ c ≠ '\n' :=
  whole_of_isPlainName (Naming.isPlainName_accessor named)

theorem ne_void_of_isClassName {name : String} (named : isClassName name.toList = true) :
    name ≠ "void" := by
  rintro rfl
  simp [isClassName] at named

theorem Layout.without_nil {f : Frame} {ls : List Listing} {l : Layout} (within : l.Within ls) :
    l.without f [] = l := by
  have all : Part.stays f [] = fun _ => true := rfl
  simp [Layout.without, all, within.closed]

/-- Taking out names one after another leaves what goes with none of them. -/
theorem Layout.Within.foldl_remove {f : Frame} (plain : f.Plain) {ls : List Listing}
    (listed : Listed f ls) {l : Layout} (within : l.Within ls) {names : List String}
    (named : ∀ n ∈ names, isClassName n.toList = true) :
    names.foldl (fun t n => (Removal.remove f.config t [n]).2.getD t) (l.text f) =
      (l.without f names).text f := by
  induction names generalizing l with
  | nil => rw [List.foldl_nil, without_nil within]
  | cons n rest ih =>
    obtain ⟨first, rest_named⟩ := List.forall_mem_cons.mp named
    have one := within.remove plain listed (List.nodup_singleton n)
      (by simpa using whole_accessor first) (by simpa using (ne_void_of_isClassName first).symm)
      (by simp)
    rw [List.foldl_cons, one, ih (within.without _) rest_named, within.without_without]
    rfl

/-- Removing classes from a generated registry one after another, in whatever order and however
often, is removing each of them once in one call. -/
theorem Site.foldl_remove_eq (s : Site) (plain : s.Plain) {changes : List Change}
    (allows : s.AllowsAll [] changes) {names : List String}
    (named : ∀ n ∈ names, isClassName n.toList = true)
    (context : s.frame.config.contextType ∈ names → ∀ n ∈ names,
      n ≠ s.frame.config.contextType → s.frame.fieldOf n ≠ s.frame.config.contextField) :
    names.foldl (fun t n => s.change t (.remove [n])) (s.textAfter changes) =
      s.change (s.textAfter changes) (.remove names.dedup) := by
  obtain ⟨text, listed⟩ := foldl_change plain (listed_nil s.frame) allows
  rw [Layout.text_ofListings_nil plain.frame.template] at text
  have within := Layout.within_ofListings (changes.foldl s.update [])
  have named' : ∀ n ∈ names.dedup, isClassName n.toList = true := fun n known =>
    named n (List.mem_dedup.mp known)
  have apart : ∀ n ∈ names.dedup, ∀ m ∈ names.dedup, n ≠ m → s.frame.Apart n m := by
    intro n known m known' other
    refine Frame.apart_of_isClassName (named' n known) (named' m known') other fun type => ?_
    subst type
    exact context (List.mem_dedup.mp known) m (List.mem_dedup.mp known') (Ne.symm other)
  have together := within.remove plain.frame listed (List.nodup_dedup names)
    (fun n known => whole_accessor (named' n known))
    (fun known => ne_void_of_isClassName (named' _ known) rfl)
    fun p _ n known m known' => Part.eq_of_goesWith apart known known'
  have stays : Part.stays s.frame names.dedup = Part.stays s.frame names := by
    funext p
    rw [Part.stays, Part.stays, Bool.eq_iff_iff]
    simp
  rw [Site.textAfter, text]
  refine (within.foldl_remove plain.frame listed named).trans (Eq.trans ?_ together.symm)
  simp only [Layout.without, stays]

/-- A page that is named twice is taken out once. -/
theorem Site.foldl_remove_eq_twice :
    let s : Site := ⟨⟨{}, "Site"⟩, ⟨"/w"⟩, ⟨"/w/site.ts"⟩⟩
    let page : Candidate := ⟨⟨"/w/a.page.ts"⟩, some "export class APage \x7b\x7d".toList, false⟩
    let t := s.textAfter [.add [page]]
    ["APage", "APage"].foldl (fun t n => s.change t (.remove [n])) t =
      s.change t (.remove ["APage"]) := by
  intro s page t
  have plain : s.Plain := plain_default (by decide +kernel) _ (by decide +kernel)
  have fits : s.Fits page :=
    fits_of_declared rfl (by decide +kernel) (by decide +kernel : isClassName "APage".toList = true)
      (by decide +kernel)
  have allows : s.AllowsAll [] [.add [page]] := ⟨by simpa [Allows] using fits, trivial⟩
  have named : ∀ n ∈ ["APage", "APage"], isClassName n.toList = true := by decide +kernel
  have context : s.frame.config.contextType ∉ ["APage", "APage"] := by decide +kernel
  have once : ["APage", "APage"].dedup = ["APage"] := by decide
  have removed := foldl_remove_eq s plain allows named fun type => absurd type context
  rw [once] at removed
  exact removed

/-! ### All or nothing -/

/-- Which of its four parts a text has of a helper. -/
structure Presence where
  imported : Bool
  field : Bool
  accessor : Bool
  exported : Bool
  deriving DecidableEq, Repr

namespace Presence

/-- What a text has of a class: an import that binds it, its field, its accessor, its export. -/
def of (config : Config) (t : Text) (className : String) : Presence :=
  let z := Zones.ofText t
  { imported := z.importsName className
    field := z.fields.any fun x => !x.isStatic &&
      (x.name == Naming.field config.fieldPrefix className && x.type == className)
    accessor := z.accessors.any fun a =>
      a.name == Naming.accessor className && a.returns == some className
    exported := (exportSpan? t (Naming.accessor className)).isSome }

/-- All four parts. -/
def whole : Presence := ⟨true, true, true, true⟩

/-- None of them. -/
def absent : Presence := ⟨false, false, false, false⟩

end Presence

namespace Part

variable {f : Frame} {parts : List Part}

theorem any_field?_typed (className : String) (start : Nat) (p : Part) :
    (p.field? f start).any (fun x => !x.isStatic &&
      (x.name == Naming.field f.config.fieldPrefix className && x.type == className)) =
        decide (p = helperField className ∨
          p = contextField ∧ f.config.contextField = f.fieldOf className ∧
            f.config.contextType = className) := by
  cases p with
  | helperField c =>
    by_cases same : c = className
    · simp [field?, Frame.fieldOf, same]
    · simp [field?, same]
  | _ => simp [field?, Frame.fieldOf, beq_eq_decide]

theorem any_accessor?_typed (className : String) (start : Nat) (p : Part) :
    (p.accessor? f start).any (fun a =>
      a.name == Naming.accessor className && a.returns == some className) =
        decide (p = helperAccessor className ∨
          p = setter ∧ f.setterName = Naming.accessor className ∧ "void" = className) := by
  cases p with
  | helperAccessor c =>
    by_cases same : c = className
    · simp [accessor?, same]
    · simp [accessor?, same]
  | _ => simp [accessor?, beq_eq_decide]

theorem any_eq_decide_mem {holds : Part → Bool} {q : Part}
    (only : ∀ p ∈ parts, holds p = decide (p = q)) : parts.any holds = decide (q ∈ parts) := by
  rw [Bool.eq_iff_iff, List.any_eq_true, decide_eq_true_eq]
  constructor
  · rintro ⟨p, member, held⟩
    rw [only p member, decide_eq_true_eq] at held
    exact held ▸ member
  · exact fun member => ⟨q, member, by simp [only q member]⟩

/-- A text of parts of a registry has of a listed class what the parts have of it. -/
theorem presence_textOf (plain : f.Plain) {ls : List Listing} (listed : Listed f ls)
    (among : parts.Sublist (Layout.ofListings ls).parts) {l : Listing} (known : l ∈ ls) :
    Presence.of f.config (textOf f parts) l.className =
      ⟨decide (helperImport l ∈ parts), decide (helperField l.className ∈ parts),
        decide (helperAccessor l.className ∈ parts), decide (helperExport l.className ∈ parts)⟩ := by
  have sound : ∀ p ∈ parts, p.IsSound := fun p member =>
    sound_ofListings listed p (among.subset member)
  have named := listed.named l known
  have type := (listed.type l known).symm
  have imported : parts.any (fun p => p.importName? f == some l.className) =
      decide (helperImport l ∈ parts) := by
    refine any_eq_decide_mem fun p member => ?_
    cases p with
    | contextImport => simp [importName?, type]
    | helperImport l' =>
      have known' := helperImport_mem.mp (among.subset member)
      have same : l'.className = l.className ↔ l' = l :=
        ⟨List.inj_on_of_nodup_map listed.distinct known' known, fun same => by rw [same]⟩
      simp [importName?, beq_eq_decide, same]
    | _ => simp [importName?]
  have field : (Zones.ofText (textOf f parts)).fields.any (fun x => !x.isStatic &&
      (x.name == Naming.field f.config.fieldPrefix l.className && x.type == l.className)) =
        decide (helperField l.className ∈ parts) := by
    rw [zones_textOf plain sound]
    refine (any_filterMap_located (any_field?_typed l.className) 0).trans ?_
    exact any_eq_decide_mem fun p _ => by simp [type]
  have accessor : (Zones.ofText (textOf f parts)).accessors.any (fun a =>
      a.name == Naming.accessor l.className && a.returns == some l.className) =
        decide (helperAccessor l.className ∈ parts) := by
    rw [zones_textOf plain sound]
    refine (any_filterMap_located (any_accessor?_typed l.className) 0).trans ?_
    exact any_eq_decide_mem fun p _ => by simp [setterName_ne_accessor]
  have exported : parts.any (·.isExportOf f (Naming.accessor l.className)) =
      decide (helperExport l.className ∈ parts) := by
    refine any_eq_decide_mem fun p member => ?_
    rw [isExportOf_accessor plain named (sound p member)]
    simp [listed.own l known]
  rw [Presence.of, importsName_textOf_eq plain sound, imported, field, accessor,
    exportSpan?_isSome_textOf plain sound fun feed => (whole_accessor named _ feed).2 rfl, exported]

/-- A part of a listed class that is apart from the other names goes with its own name only. -/
theorem goesWith_helper {p : Part} {c n : String} (helper : p.helper? = some c)
    (apart : n ≠ c → f.fieldOf c ≠ f.fieldOf n ∧ Naming.accessor c ≠ Naming.accessor n) :
    p.goesWith f n = decide (c = n) := by
  by_cases same : c = n
  · subst same
    cases p with
    | helperImport l | helperField c | helperAccessor c | helperExport c =>
      obtain rfl := Option.some.inj helper
      simp [goesWith]
    | _ => simp [helper?] at helper
  · obtain ⟨field, accessor⟩ := apart (Ne.symm same)
    cases p with
    | helperImport l | helperField c | helperAccessor c | helperExport c =>
      obtain rfl := Option.some.inj helper
      simp [goesWith, same, field, accessor]
    | _ => simp [helper?] at helper

/-- The parts of a listed class stay exactly if it is not among the names. -/
theorem mem_left_iff (plain : f.Plain) {ls : List Listing} (listed : Listed f ls)
    {names : List String} (whole : ∀ n ∈ names, ' ' ∉ (Naming.accessor n).toList) {l : Listing} (known : l ∈ ls)
    (apart : ∀ n ∈ names, n ≠ l.className →
      f.fieldOf l.className ≠ f.fieldOf n ∧ Naming.accessor l.className ≠ Naming.accessor n)
    {p : Part} (helper : p.helper? = some l.className) :
    p ∈ left f (Layout.ofListings ls).parts names ↔
      p ∈ (Layout.ofListings ls).parts ∧ l.className ∉ names := by
  have sound := sound_ofListings listed
  have named := listed.named l known
  have spaces := fun member => (whole_accessor named ' ' member).1 rfl
  have void := ne_void_of_isClassName named
  have taken_iff : ∀ e ∈ located f 0 (Layout.ofListings ls).parts, e.2 = p →
      (e ∈ taken f (located f 0 (Layout.ofListings ls).parts) names ↔ l.className ∈ names) := by
    intro e inside same
    constructor
    · intro member
      obtain ⟨n, known', goes⟩ := goesWith_of_mem_taken plain sound whole member
      rw [same, goesWith_helper helper (apart n known'), decide_eq_true_eq] at goes
      rwa [goes]
    · intro member
      rw [taken, List.mem_append, List.mem_flatMap, List.mem_filter]
      cases imported : p.importName? f with
      | none =>
        refine .inl ⟨l.className, member, (mem_members_iff plain sound spaces void
          (oneMethod listed (.refl _) void) (oneExport plain listed (.refl _))).mpr
            ⟨inside, ?_, same ▸ imported⟩⟩
        rw [same, goesWith_helper helper fun other => absurd rfl other]
        simp
      | some bound =>
        refine .inr ⟨inside, ?_⟩
        have same' : bound = l.className := by
          cases p with
          | helperImport l' => exact (Option.some.inj imported).symm.trans (Option.some.inj helper)
          | _ => simp [importName?, helper?] at imported helper
        simpa [same, imported, same'] using member
  rw [left, List.mem_map]
  constructor
  · rintro ⟨e, chosen, same⟩
    obtain ⟨inside, stays⟩ := List.mem_filter.mp chosen
    rw [decide_eq_true_eq, taken_iff e inside same] at stays
    exact ⟨same ▸ snd_mem_of_mem_located inside, stays⟩
  · rintro ⟨inside, absent⟩
    obtain ⟨place, stands⟩ := exists_mem_located (f := f) inside 0
    refine ⟨(place, p), List.mem_filter.mpr ⟨stands, ?_⟩, rfl⟩
    rwa [decide_eq_true_eq, taken_iff _ stands rfl]

end Part

theorem Part.mem_closed_iff {p : Part} (other : p ≠ .blank) (n : Nat) (parts : List Part) :
    p ∈ Part.closed n parts ↔ p ∈ parts := by
  induction parts generalizing n with
  | nil => rfl
  | cons q rest ih =>
    rw [Part.closed]
    split
    · next same =>
      split <;> simp [ih, same, other]
    · simp [ih]

/-- What a removal leaves stood there before, in the same order. -/
theorem Part.closed_left_sublist (f : Frame) (parts : List Part) (names : List String) :
    (closed 2 (left f parts names)).Sublist parts := by
  refine (closed_sublist 2 _).trans ?_
  rw [left]
  conv_rhs => rw [← map_snd_located (f := f) 0 parts]
  exact List.filter_sublist.map _

/-- Names of which no two go with one part are taken out at once. -/
theorem Listed.remove_getD {f : Frame} (plain : f.Plain) {ls : List Listing}
    (listed : Listed f ls) {names : List String} (distinct : names.Nodup)
    (whole : ∀ n ∈ names, ∀ c ∈ (Naming.accessor n).toList, c ≠ ' ' ∧ c ≠ '\n')
    (apart : ∀ n ∈ names, ∀ m ∈ names, n ≠ m → f.Apart n m) :
    (Removal.remove f.config ((Layout.ofListings ls).text f) names).2.getD
        ((Layout.ofListings ls).text f) =
      Part.textOf f (Part.closed 2 (Part.left f (Layout.ofListings ls).parts names)) := by
  have sound := Part.sound_ofListings listed
  have feeds : ∀ n ∈ names, '\n' ∉ (Naming.accessor n).toList := fun n known member =>
    (whole n known _ member).2 rfl
  have once := Part.taken_nodup plain sound distinct
    (fun n known member => (whole n known _ member).1 rfl) fun p _ n inside m inside' =>
      Part.eq_of_goesWith apart inside inside'
  by_cases none_ : Part.taken f (Part.located f 0 (Layout.ofListings ls).parts) names = []
  · have all : Part.left f (Layout.ofListings ls).parts names = (Layout.ofListings ls).parts := by
      simp [Part.left, none_, Part.map_snd_located]
    rw [Layout.text, Part.remove_textOf_of_nil plain sound feeds none_, Option.getD_none, all,
      (Layout.within_ofListings ls).closed_eq]
  · rw [Layout.text, Part.remove_textOf plain sound feeds none_ once, Option.getD_some]

/-- After a removal a listed helper has all of its parts or none, if the names are apart from one
another and from the listed classes. -/
theorem Listed.presence_remove {f : Frame} (plain : f.Plain) {ls : List Listing}
    (listed : Listed f ls) {names : List String} (distinct : names.Nodup)
    (whole : ∀ n ∈ names, ∀ c ∈ (Naming.accessor n).toList, c ≠ ' ' ∧ c ≠ '\n')
    (apart : ∀ n ∈ names, ∀ m, m ∈ names ∨ m ∈ ls.map (·.className) → n ≠ m → f.Apart n m)
    {l : Listing} (known : l ∈ ls) :
    Presence.of f.config ((Removal.remove f.config ((Layout.ofListings ls).text f) names).2.getD
        ((Layout.ofListings ls).text f)) l.className =
      if l.className ∈ names then .absent else .whole := by
  have spaces : ∀ n ∈ names, ' ' ∉ (Naming.accessor n).toList := fun n known member =>
    (whole n known _ member).1 rfl
  have result := listed.remove_getD plain distinct whole fun n inside m inside' =>
    apart n inside m (.inl inside')
  have among := Part.closed_left_sublist f (Layout.ofListings ls).parts names
  have stays : ∀ p : Part, p.helper? = some l.className → p ∈ (Layout.ofListings ls).parts →
      (p ∈ Part.closed 2 (Part.left f (Layout.ofListings ls).parts names) ↔
        l.className ∉ names) := by
    intro p helper inside
    have apart' : ∀ n ∈ names, n ≠ l.className → f.fieldOf l.className ≠ f.fieldOf n ∧
        Naming.accessor l.className ≠ Naming.accessor n := by
      intro n known' other
      have away := apart n known' l.className (.inr (List.mem_map_of_mem known)) other
      exact ⟨away.field.symm, away.accessor.symm⟩
    rw [Part.mem_closed_iff (by rintro rfl; simp [Part.helper?] at helper),
      Part.mem_left_iff plain listed spaces known apart' helper]
    exact and_iff_right inside
  have inside := List.mem_map_of_mem (f := (·.className)) known
  rw [result, Part.presence_textOf plain listed among known]
  simp only [stays (.helperImport l) rfl (Part.helperImport_mem.mpr known),
    stays (.helperField _) rfl (Part.helperField_mem.mpr inside),
    stays (.helperAccessor _) rfl (Part.helperAccessor_mem.mpr inside),
    stays (.helperExport _) rfl (Part.helperExport_mem.mpr inside)]
  by_cases removed : l.className ∈ names <;> simp [removed, Presence.absent, Presence.whole]

/-- A removal from a generated registry leaves no entry in part: a listed class that is named loses
all of its parts and every other one keeps them, if the names can be told apart from one another and
from the listed classes. -/
theorem Site.presence_after_remove (s : Site) (plain : s.Plain) {changes : List Change}
    (allows : s.AllowsAll [] changes) {names : List String} (distinct : names.Nodup)
    (words : ∀ n ∈ names, ∀ c ∈ (Naming.accessor n).toList, c ≠ ' ' ∧ c ≠ '\n')
    (apart : ∀ n ∈ names, ∀ m, m ∈ names ∨ m ∈ (s.rosterAfter changes).map (·.className) →
      n ≠ m → s.frame.Apart n m) :
    ∀ l ∈ s.rosterAfter changes,
      Presence.of s.frame.config (s.change (s.textAfter changes) (.remove names)) l.className =
        if l.className ∈ names then .absent else .whole := by
  intro l known
  obtain ⟨text, listed⟩ := foldl_change plain (listed_nil s.frame) allows
  rw [Layout.text_ofListings_nil plain.frame.template] at text
  rw [Site.textAfter, text]
  exact listed.presence_remove plain.frame distinct words apart known

/-- Of two pages the one that is named is taken out; a name that no page has takes out nothing. -/
theorem Site.presence_after_remove_first :
    let s : Site := ⟨⟨{}, "Site"⟩, ⟨"/w"⟩, ⟨"/w/site.ts"⟩⟩
    let page (file text : String) : Candidate := ⟨⟨file⟩, some text.toList, false⟩
    let changes : List Change := [.add [page "/w/a.page.ts" "export class APage \x7b\x7d",
      page "/w/b.page.ts" "export class BPage \x7b\x7d"]]
    let t := s.change (s.textAfter changes) (.remove ["APage", "cart"])
    Presence.of {} t "APage" = .absent ∧ Presence.of {} t "BPage" = .whole := by
  intro s page changes t
  have plain : s.Plain := plain_default (by decide +kernel) _ (by decide +kernel)
  have fits : s.Fits (page "/w/a.page.ts" "export class APage \x7b\x7d") :=
    fits_of_declared rfl (by decide +kernel) (by decide +kernel : isClassName "APage".toList = true)
      (by decide +kernel)
  have fits' : s.Fits (page "/w/b.page.ts" "export class BPage \x7b\x7d") :=
    fits_of_declared rfl (by decide +kernel) (by decide +kernel : isClassName "BPage".toList = true)
      (by decide +kernel)
  have allows : s.AllowsAll [] changes :=
    ⟨List.forall_mem_cons.mpr ⟨fits, by simpa using fits'⟩, trivial⟩
  have roster : s.rosterAfter changes = [⟨"APage", "./a.page"⟩, ⟨"BPage", "./b.page"⟩] := by
    decide +kernel
  have words : ∀ n ∈ ["APage", "cart"], ∀ c ∈ (Naming.accessor n).toList, c ≠ ' ' ∧ c ≠ '\n' := by
    have plain : ∀ n ∈ ["APage", "cart"], isPlainName (Naming.accessor n).toList = true := by
      decide +kernel
    exact fun n known => whole_of_isPlainName (plain n known)
  have apart : ∀ n ∈ ["APage", "cart"],
      ∀ m, m ∈ ["APage", "cart"] ∨ m ∈ (s.rosterAfter changes).map (·.className) → n ≠ m →
        s.frame.Apart n m := by
    have listed : ∀ n ∈ ["APage", "cart"], ∀ m ∈ ["APage", "cart", "APage", "BPage"], n ≠ m →
        s.frame.fieldOf n ≠ s.frame.fieldOf m ∧ Naming.accessor n ≠ Naming.accessor m ∧
          n ≠ s.frame.config.contextType := by
      decide +kernel
    intro n known m known' other
    rw [roster] at known'
    obtain ⟨field, accessor, type⟩ := listed n known m (List.mem_append.mpr known') other
    exact ⟨field, accessor, fun same => absurd same type⟩
  have presence := presence_after_remove s plain allows (by decide +kernel) words apart
  rw [roster] at presence
  exact ⟨presence ⟨"APage", "./a.page"⟩ (by simp), presence ⟨"BPage", "./b.page"⟩ (by simp)⟩

end Registrar
