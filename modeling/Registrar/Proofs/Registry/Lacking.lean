import Registrar.Proofs.Registry.Blocks
import Registrar.Proofs.Registry.Lookup
import Registrar.Proofs.Registry.Sealed
import Registrar.Registry.Removal

/-!
Texts that have no part of a class. A text without it can be cut where no import is open, and what is put
together of such texts has no part of the class either; closing up its blank lines brings none in.
-/

namespace Registrar

open Pattern Text Recognition

/-- The field farther on. -/
def Field.moved (n : Nat) (f : Field) : Field := { f with span := f.span.moved n }

variable {x y t front line : Text} {n : Nat} {m m' : Match}

/-! ### Zones with their places -/

namespace Zones

theorem field_of_moved (moved : m.Moved n y m') : field m' = (field m).moved n := by
  simp only [field, Field.moved, moved.groups.reads.texts, moved.span]

theorem map_field_of_moved {ms ms' : List Match} (moved : List.Forall₂ (Match.Moved n y) ms ms') :
    ms'.map field = (ms.map field).map (·.moved n) := by
  induction moved with
  | nil => rfl
  | cons first _ ih => rw [List.map_cons, List.map_cons, List.map_cons, ih, field_of_moved first]

theorem moved_zero_field : Field.moved 0 = id := rfl

/-- The fields of two texts joined, the first of which has whole lines. -/
theorem fields_append (whole : AtLine x) (y : Text) : (ofText (x ++ y)).fields =
    (ofText x).fields ++ (ofText y).fields.map (·.moved x.size) := by
  obtain ⟨ms, ms', found, first, second⟩ := (steady_fieldDeclaration whole).findAll_append rfl
    local_fieldDeclaration whole.edge_eq y
  simp only [ofText, found, List.map_append, map_field_of_moved first, map_field_of_moved second,
    moved_zero_field, List.map_id]

theorem filterMap_import?_of_moved' {ms ms' : List Match}
    (moved : List.Forall₂ (Match.Moved n y) ms ms') :
    ms'.filterMap import? = (ms.filterMap import?).map (·.moved n) :=
  filterMap_import?_of_same (moved.imp fun _ _ h => ⟨h.start, h.stop, h.groups.reads⟩)

/-- The imports of two texts joined, the first of which leaves none open. -/
theorem imports_append (sealed_ : Sealed x) (y : Text) : (ofText (x ++ y)).imports =
    (ofText x).imports ++ (ofText y).imports.map (·.moved x.size) := by
  obtain ⟨ms, ms', found, first, second⟩ := sealed_.steady.findAll_append rfl local_importStatement
    sealed_.whole.edge_eq y
  simp only [ofText, found, List.filterMap_append, filterMap_import?_of_moved' first,
    filterMap_import?_of_moved' second, Import.moved_zero, List.map_id]

end Zones

/-! ### Lines -/

namespace Text

theorem line_append_of_mem (feed : '\n' ∈ x) (y : Text) : (x ++ y).line = x.line := by
  induction x with
  | nil => simp at feed
  | cons c x ih =>
    by_cases here : c = '\n'
    · simp [line, here]
    · have later := ih ((List.mem_cons.mp feed).resolve_left (Ne.symm here))
      simp only [line, List.cons_append] at later ⊢
      rw [List.takeWhile_cons_of_pos (by simpa using here), later,
        List.takeWhile_cons_of_pos (by simpa using here)]

/-- The lines of two texts joined, the first of which has whole lines. -/
theorem hasLine_append (whole : AtLine x) : (x ++ y).HasLine front line ↔
    (x.HasLine front line ∧ front.length < x.length) ∨ ∃ f, front = x ++ f ∧ y.HasLine f line := by
  constructor
  · rintro ⟨begins, back, split, rfl⟩
    rcases List.append_eq_append_iff.mp split with ⟨f, rfl, rfl⟩ | ⟨w, rfl, rfl⟩
    · refine .inr ⟨f, rfl, ?_, back, rfl, rfl⟩
      by_cases none_ : f = []
      · exact .inl none_
      · exact begins.of_append none_
    · by_cases some_ : w = []
      · subst some_
        exact .inr ⟨[], by simp, .inl rfl, y, rfl, rfl⟩
      · refine .inl ⟨⟨begins, w, rfl, (line_append_of_mem (whole.feed_mem some_) y).symm⟩, ?_⟩
        simpa using List.length_pos_iff.mpr some_
  · rintro (⟨⟨begins, back, rfl, rfl⟩, shorter⟩ | ⟨f, rfl, begins, back, rfl, rfl⟩)
    · have some_ : back ≠ [] := by
        rintro rfl
        simp at shorter
      exact ⟨begins, back ++ y, by simp, line_append_of_mem (whole.feed_mem some_) y⟩
    · exact ⟨whole.append begins, back, by simp, rfl⟩

end Text

/-! ### Parts of a class -/

namespace Recognition

/-- Whether a line begins a public method with the name. -/
def opensMethod (name line : Text) : Bool :=
  ((behind? "public" (line.dropWhile isGap)).bind (Text.dropFront? · name)).any fun rest =>
    (rest.dropWhile isGap).head? == some '('

/-- Whether a line exports a constant with the name. -/
def opensExport (name line : Text) : Bool := (exported? line).any (exportsAs name)

end Recognition

namespace Removal

variable {config : Config} {className : String}

/-- A text has no part of a class: no import that binds it, no field with the name of its field, and no
line that begins a method or an export with the name of its accessor. -/
structure Lacks (config : Config) (className : String) (x : Text) : Prop where
  imports : ∀ i ∈ (Zones.ofText x).imports, i.binds className = false
  fields : ∀ f ∈ (Zones.ofText x).fields, f.name ≠ Naming.field config.fieldPrefix className
  methods : ∀ front line, x.HasLine front line →
    opensMethod (Naming.accessor className).toList line = false
  exports : ∀ front line, x.HasLine front line →
    opensExport (Naming.accessor className).toList line = false

theorem opensMethod_nil (name : Text) : opensMethod name [] = false := rfl

theorem opensExport_nil (name : Text) : opensExport name [] = false := rfl

theorem line_eq_nil_of_hasLine (here : x.HasLine front line) (beyond : x.length ≤ front.length) :
    line = [] := by
  obtain ⟨-, back, rfl, rfl⟩ := here
  rw [List.length_append] at beyond
  obtain rfl : back = [] := List.length_eq_zero_iff.mp (by omega)
  rfl

/-- A text that can be cut where no import is open has no part of a class if its pieces have none. -/
theorem lacks_append (sealed_ : Sealed x) :
    Lacks config className (x ++ y) ↔ Lacks config className x ∧ Lacks config className y := by
  have whole := sealed_.whole
  have lines : ∀ {holds : Text → Bool}, holds [] = false →
      ((∀ front line, (x ++ y).HasLine front line → holds line = false) ↔
        (∀ front line, x.HasLine front line → holds line = false) ∧
          ∀ front line, y.HasLine front line → holds line = false) := by
    intro holds none_
    simp only [hasLine_append whole]
    constructor
    · refine fun all => ⟨fun front line here => ?_, fun front line here => ?_⟩
      · by_cases inside : front.length < x.length
        · exact all front line (.inl ⟨here, inside⟩)
        · rw [line_eq_nil_of_hasLine here (by omega), none_]
      · exact all (x ++ front) line (.inr ⟨front, rfl, here⟩)
    · rintro ⟨first, second⟩ front line (⟨here, -⟩ | ⟨f, -, here⟩)
      · exact first front line here
      · exact second f line here
  constructor
  · rintro ⟨imports, fields, methods, exports⟩
    rw [Zones.imports_append sealed_] at imports
    rw [Zones.fields_append whole] at fields
    rw [lines (opensMethod_nil _)] at methods
    rw [lines (opensExport_nil _)] at exports
    refine ⟨⟨fun i member => imports i (by simp [member]), fun f member => fields f (by simp [member]),
      methods.1, exports.1⟩, ⟨fun i member => ?_, fun f member => ?_, methods.2, exports.2⟩⟩
    · exact imports (i.moved x.size) (List.mem_append_right _ (List.mem_map_of_mem member))
    · exact fields (f.moved x.size) (List.mem_append_right _ (List.mem_map_of_mem member))
  · rintro ⟨first, second⟩
    refine ⟨fun i member => ?_, fun f member => ?_, (lines (opensMethod_nil _)).mpr
      ⟨first.methods, second.methods⟩, (lines (opensExport_nil _)).mpr ⟨first.exports, second.exports⟩⟩
    · rw [Zones.imports_append sealed_] at member
      rcases List.mem_append.mp member with member | member
      · exact first.imports i member
      · obtain ⟨j, inside, rfl⟩ := List.mem_map.mp member
        exact second.imports j inside
    · rw [Zones.fields_append whole] at member
      rcases List.mem_append.mp member with member | member
      · exact first.fields f member
      · obtain ⟨g, inside, rfl⟩ := List.mem_map.mp member
        exact second.fields g inside

end Removal

/-! ### Blank lines -/

namespace Recognition

variable {f taken rest : Text}

/-- What a repetition reaches is put together of what its pattern reaches. -/
theorem of_reaches_many {p : Pattern} {greedy : Bool} {holds : Text → Prop} (none_ : holds [])
    (more : ∀ s t, holds s → holds t → holds (s ++ t))
    (each : ∀ f t rest, p.Reaches f t rest → holds t)
    (reached : (many greedy p).Reaches f taken rest) : holds taken := by
  obtain ⟨g, h, ended⟩ := reached
  have rounds : ∀ (fuel : Nat) (f b : Text) (g : Groups) (e : Cursor × Groups),
      e ∈ roundEnds greedy p.ends fuel (.between f b) g →
        ∃ taken rest, b = taken ++ rest ∧ e.1 = .between (f ++ taken) rest ∧ holds taken := by
    intro fuel
    induction fuel with
    | zero =>
      intro f b g e ended
      obtain rfl := List.mem_singleton.mp ended
      exact ⟨[], b, rfl, by simp, none_⟩
    | succ fuel ih =>
      intro f b g e ended
      rcases mem_roundEnds_succ.mp ended with rfl | ⟨⟨_, k⟩, first, -, later⟩
      · exact ⟨[], b, rfl, by simp, none_⟩
      · obtain ⟨t, r, rfl, at_⟩ := mem_ends first
        dsimp only at at_ later
        subst at_
        obtain ⟨t', r', rfl, at_', has⟩ := ih _ _ _ _ later
        exact ⟨t ++ t', r', by simp, by simp [at_'], more t t' (each _ _ _ ⟨_, _, first⟩) has⟩
  obtain ⟨t, r, split, at_, has⟩ := rounds _ f _ g _ ended
  obtain rfl : rest = r := congrArg Cursor.rest at_
  rwa [List.append_cancel_right split]

/-- A line on which no import begins leaves none open. -/
theorem sealed_of_passes {line : Text} (passes : Passes "import" line) : Sealed (line ++ ['\n']) := by
  refine sealed_of_passed (.inr ⟨line, rfl⟩) fun y => ?_
  have scan : Scan importStatement (.between [] (Text.ofLines [line] ++ y)) []
      (.between ([] ++ Text.ofLines [line]) y) :=
    scan_keyworded (by decide) (by simpa using passes)
  simpa using scan

/-- A blank line holds no import. -/
theorem sealed_blank {margin : Text} (gaps : ∀ c ∈ margin, isGap c = true) : Sealed (margin ++ ['\n']) := by
  refine sealed_of_passes ⟨fun member => absurd (gaps _ member) (by decide), fun x _ begins => ?_⟩
  rw [← List.append_nil margin, List.dropWhile_append_of_pos gaps] at begins
  simp at begins

/-- No import is open where a blank line begins. -/
def OpenAtNoBlank (x : Text) : Prop := ∀ front margin back, x = front ++ (margin ++ '\n' :: back) →
  AtLine front → (∀ c ∈ margin, isGap c = true) → Sealed front

variable {d : Text}

/-- Two texts, the first of which leaves no import open, are joined to one without imports that are open
at blank lines. -/
theorem openAtNoBlank_append (sealed_ : Sealed x) :
    OpenAtNoBlank (x ++ y) ↔ OpenAtNoBlank x ∧ OpenAtNoBlank y := by
  constructor
  · refine fun all => ⟨fun front margin back split begins gaps => ?_,
      fun front margin back split begins gaps => ?_⟩
    · exact all front margin (back ++ y) (by simp [split]) begins gaps
    · exact (all (x ++ front) margin back (by simp [split]) (sealed_.whole.append begins) gaps).of_append
        sealed_.whole
  · rintro ⟨first, second⟩ front margin back split begins gaps
    rcases List.append_eq_append_iff.mp split with ⟨f, rfl, rest⟩ | ⟨w, rfl, rest⟩
    · have begins' : AtLine f := by
        by_cases none_ : f = []
        · exact .inl none_
        · exact begins.of_append none_
      exact sealed_.append (second f margin back rest begins' gaps)
    · by_cases some_ : w = []
      · subst some_
        rw [List.append_nil] at sealed_
        exact sealed_
      · -- The blank line is one of the first text: its line feed is the first one there.
        have feed := sealed_.whole.feed_mem some_
        obtain ⟨back', rfl⟩ : ∃ back', w = margin ++ '\n' :: back' := by
          have free : '\n' ∉ margin := fun member => absurd (gaps _ member) (by decide)
          rcases List.append_eq_append_iff.mp rest with ⟨v, rfl, back_⟩ | ⟨v, rfl, -⟩
          · cases v with
            | nil => exact absurd (by simpa using feed) free
            | cons c v =>
              obtain ⟨rfl, -⟩ := List.cons.inj back_
              exact ⟨v, rfl⟩
          · exact absurd (by simp [feed]) free
        exact first front margin back' rfl begins gaps

/-- A run of blank lines begins with a line feed and a blank line, and all of it holds no import. -/
theorem exists_of_reaches_blankRun {f taken rest : Text} (reached : blankRun.Reaches f taken rest) :
    ∃ margin blanks, taken = '\n' :: (margin ++ '\n' :: blanks) ∧ (∀ c ∈ margin, isGap c = true) ∧
      Sealed (margin ++ '\n' :: blanks) := by
  have one : ∀ {f t r}, (next gap (char '\n')).Reaches f t r →
      ∃ margin, t = margin ++ ['\n'] ∧ ∀ c ∈ margin, isGap c = true := by
    intro f t r reached
    obtain ⟨margin, feed, rfl, first, second⟩ := reached.exists_of_next
    obtain rfl := second.eq_of_char
    obtain ⟨g, h, ended⟩ := first
    obtain ⟨t, r', split, gaps, same⟩ := mem_ends_many_one ended
    obtain rfl : ['\n'] ++ r = r' := congrArg (Cursor.rest ∘ Prod.fst) same
    obtain rfl := List.append_cancel_right split
    exact ⟨margin, rfl, gaps⟩
  have blank : ∀ f t r, (next gap (char '\n')).Reaches f t r → Sealed t := by
    intro f t r reached
    obtain ⟨margin, rfl, gaps⟩ := one reached
    exact sealed_blank gaps
  obtain ⟨t₁, t, rfl, first, behind⟩ := Reaches.exists_of_next (p := char '\n') reached
  obtain ⟨t₂, t, rfl, second, behind⟩ := Reaches.exists_of_next (p := next gap (char '\n')) behind
  obtain ⟨t₃, t₄, rfl, third, last⟩ := Reaches.exists_of_next (p := next gap (char '\n')) behind
  obtain rfl := first.eq_of_char
  obtain ⟨margin, rfl, gaps⟩ := one second
  have rest_ : Sealed t₄ := of_reaches_many sealed_nil (fun _ _ => Sealed.append) blank last
  refine ⟨margin, t₃ ++ t₄, by simp, gaps, ?_⟩
  have all_ := (sealed_blank gaps).append ((blank _ _ _ third).append rest_)
  simpa using all_

end Recognition

namespace Pattern

/-- A scan and what it leaves of the text when its matches are replaced. -/
theorem Scan.exists_rewrites {p : Pattern} {c d : Cursor} {ms : List Match} (scan : Scan p c ms d) (new : Text) :
    ∃ out, Rewrites p new c out d := by
  induction scan with
  | stay c => exact ⟨[], .stay c⟩
  | skip refused _ ih =>
    obtain ⟨out, walk⟩ := ih
    exact ⟨_, .skip refused walk⟩
  | hit found moved _ ih =>
    obtain ⟨out, walk⟩ := ih
    exact ⟨_, .hit found moved walk⟩

end Pattern

namespace Removal

variable {config : Config} {className : String}

/-- A text without parts of a class in which no import is open where a blank line begins. -/
structure Clean (config : Config) (className : String) (x : Text) : Prop where
  lacks : Lacks config className x
  blanks : OpenAtNoBlank x

theorem clean_append (sealed_ : Sealed x) :
    Clean config className (x ++ y) ↔ Clean config className x ∧ Clean config className y := by
  constructor
  · rintro ⟨lacks, blanks⟩
    rw [lacks_append sealed_] at lacks
    rw [openAtNoBlank_append sealed_] at blanks
    exact ⟨⟨lacks.1, blanks.1⟩, ⟨lacks.2, blanks.2⟩⟩
  · rintro ⟨first, second⟩
    exact ⟨(lacks_append sealed_).mpr ⟨first.lacks, second.lacks⟩,
      (openAtNoBlank_append sealed_).mpr ⟨first.blanks, second.blanks⟩⟩

theorem clean_feed : Clean config className ['\n'] := by
  have empty : ∀ front line, HasLine ['\n'] front line → line = [] := by
    rintro front line ⟨-, back, split, rfl⟩
    cases front with
    | nil =>
      obtain rfl : ['\n'] = back := split
      rfl
    | cons c front =>
      obtain ⟨-, rfl, rfl⟩ : '\n' = c ∧ front = [] ∧ back = [] := by simpa using split
      rfl
  have none_ : (Zones.ofText ['\n']).imports = [] ∧ (Zones.ofText ['\n']).fields = [] := by decide
  refine ⟨⟨by simp [none_], by simp [none_], fun front line here => ?_, fun front line here => ?_⟩,
    fun front margin back split begins _ => ?_⟩
  · rw [empty front line here, opensMethod_nil]
  · rw [empty front line here, opensExport_nil]
  · cases front with
    | nil => exact sealed_nil
    | cons c front =>
      have := congrArg List.length split
      simp at this

/-- Closing up a text brings no part of a class in. -/
theorem Clean.closeUp (clean : Clean config className t) : Clean config className (closeUp t) := by
  -- What has been read since the last run of blank lines is kept until the next one cuts it off.
  have later : ∀ {c d : Cursor} {out : Text}, Rewrites blankRun ['\n', '\n'] c out d → d.rest = [] →
      ∀ kept, Clean config className (kept ++ c.rest) → Clean config className (kept ++ out) := by
    intro c d out walk last
    induction walk with
    | stay c =>
      intro kept here
      rwa [last] at here
    | @skip front back out x d refused walk ih =>
      intro kept here
      simpa using ih last (kept ++ [x]) (by simpa using here)
    | @hit front back out m d found moved walk ih =>
      intro kept here
      rw [matchAt?_eq] at found
      obtain ⟨⟨_, h⟩, first, rfl⟩ := Option.map_eq_some_iff.mp found
      have member := List.mem_of_head? first
      obtain ⟨taken, rest, rfl, rfl⟩ := mem_ends member
      obtain ⟨margin, blanks, rfl, gaps, sealed_⟩ := exists_of_reaches_blankRun ⟨_, _, member⟩
      have begins : AtLine (kept ++ ['\n']) := .inr ⟨kept, rfl⟩
      have split : kept ++ ('\n' :: (margin ++ '\n' :: blanks) ++ rest) =
          (kept ++ ['\n']) ++ ((margin ++ '\n' :: blanks) ++ rest) := by simp
      rw [Cursor.between_rest, split] at here
      have open_ := here.blanks (kept ++ ['\n']) margin (blanks ++ rest) (by simp) begins gaps
      obtain ⟨front_, behind⟩ := (clean_append open_).mp here
      have rest_ := ((clean_append sealed_).mp behind).2
      have after_ := ih last [] (by simpa using rest_)
      have feed : Sealed ['\n'] := sealed_blank (show ∀ c ∈ ([] : Text), isGap c = true by simp)
      have joined := (clean_append open_).mpr ⟨front_, (clean_append feed).mpr ⟨clean_feed, after_⟩⟩
      simpa using joined
  have moves_ : blankRun.moves = true := rfl
  have scan := exists_scan_findAll moves_ (by simp [blankRun, gap, Avoids]) t
  obtain ⟨out, walk⟩ := scan.exists_rewrites ['\n', '\n']
  rw [Removal.closeUp, walk.replaceAll_eq (matchAt?_eq_none_of_moves moves_)]
  simpa using later walk rfl [] (by simpa using clean)

end Removal
end Registrar
