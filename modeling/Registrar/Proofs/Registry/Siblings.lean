import Registrar.Proofs.Registry.Pruned

/-!
The siblings of a target. An import that is pruned of some names keeps its other names, in their order
and as they were written: what stands in its place, read on its own, is one import of just these names
from the same module, with the default name unless that is a target itself.
-/

namespace Registrar

open Pattern Text Recognition

/-! ### A statement on its own -/

/-- In what is left of a last line nothing is found. -/
theorem Pattern.Anchored.scan_last {p : Pattern} (anchored : p.Anchored) {front line : Text}
    (whole : '\n' ∉ line) (inside : (Cursor.between front line).startsLine = false) :
    Scan p (.between front line) [] (.between (front ++ line) []) := by
  induction line generalizing front with
  | nil => simpa using .stay _
  | cons x line ih =>
    have other : x ≠ '\n' := fun same => whole (by simp [same])
    have still : (Cursor.between (front ++ [x]) line).startsLine = false := by
      simpa [Cursor.startsLine] using other
    have later := ih (fun member => whole (by simp [member])) still
    refine .skip (anchored _ _ inside).matchAt? ?_
    simpa using later

namespace Recognition

variable {f lead inner link tail rest : Text} {quote : Char} {s : Statement}

/-- Behind an import no line starts before the text ends. -/
theorem IsTail.not_atLine (isTail : IsTail (tail ++ rest)) (some_ : rest ≠ []) (stands : s.Stands f) :
    IsTail rest ∧ ¬AtLine (f ++ s.text ++ tail) := by
  obtain ⟨u, ending, split, free, ends_⟩ := isTail.exists_ending
  obtain ⟨v, rfl, rfl⟩ : ∃ v, u = tail ++ v ∧ rest = v ++ ending := by
    rcases List.append_eq_append_iff.mp split with ⟨v, same, back⟩ | ⟨v, same, back⟩
    · exact ⟨v, same, back⟩
    · -- The line ending has one character only, and something is left of it.
      have none_ : v = [] := by
        rcases ends_ with rfl | rfl
        · exact (List.append_eq_nil_iff.mp back.symm).1
        · cases v with
          | nil => rfl
          | cons c v =>
            obtain ⟨-, none_⟩ := List.cons.inj back
            exact absurd (List.append_eq_nil_iff.mp none_.symm).2 some_
      subst none_
      exact ⟨[], by simpa using same.symm, by simpa using back.symm⟩
  simp only [List.mem_append, not_or] at free
  refine ⟨⟨v, free.2, by rcases ends_ with rfl | rfl <;> simp⟩, fun whole => ?_⟩
  have behind := whole.of_append (stands.ne_nil_of_atLine whole)
  rcases behind with none_ | ⟨w, rfl⟩
  · exact stands.ne_nil_of_atLine whole none_
  · simp at free

/-- Where no line starts before the text ends, nothing is found. -/
theorem scan_tail {p : Pattern} (anchored : p.Anchored) (isTail : IsTail rest) (inside : ¬AtLine f) :
    Scan p (.between f rest) [] (.between (f ++ rest) []) := by
  have inside : ∀ back, (Cursor.between f back).startsLine = false := by
    intro back
    rw [Bool.eq_false_iff]
    exact fun starts => inside (Cursor.startsLine_between_iff.mp starts)
  obtain ⟨u, free, rfl | rfl⟩ := isTail
  · exact anchored.scan_last free (inside _)
  · simpa using anchored.scan_inside free (inside _)

/-- An import in braces that is all of a text is read, and nothing else is. -/
theorem Statement.Stands.exists_imports (stands : s.Stands [])
    (opening : s.opening = .braced lead inner link quote) (isTail : IsTail tail) : ∃ m j,
      importStatement.matchAt? (.between [] (s.text ++ tail)) = some m ∧
        (Zones.ofText (s.text ++ tail)).imports = [j] ∧
        j.default? = (m.textOf? "default").map String.ofList ∧ j.bindings = Zones.bindings inner ∧
        j.specifier = String.ofList s.specifier := by
  obtain ⟨m, -, found, -, -, ⟨taken, rest, rfl, -, stop⟩, -⟩ := stands.exists_matches rfl tail tail
  obtain ⟨s', y, split, stands', named, ⟨c, given, encloses⟩, -⟩ := exists_statement_of_match found
  obtain ⟨rfl, -⟩ := Statement.eq_of_append split stands stands'
  rw [opening] at named
  obtain ⟨d, known, around, -⟩ := named
  have named_ : m.textOf? "named" = some inner := by simp [Match.textOf?, known, around.upTo]
  have given_ : m.textOf? "specifier" = some s.specifier := by simp [Match.textOf?, given, encloses.upTo]
  obtain ⟨j, read, default_, bindings, specifier⟩ : ∃ j, Zones.import? m = some j ∧
      j.default? = (m.textOf? "default").map String.ofList ∧ j.bindings = Zones.bindings inner ∧
      j.specifier = String.ofList s.specifier := by
    simp [Zones.import?, named_, given_]
  have moved : Text.size [] < m.stop.offset := by
    rw [stop, List.append_assoc]
    exact offset_lt_append [] [] _ _ (by simp [Statement.text])
  have behind : Scan importStatement m.stop [] (.between (s.text ++ (taken ++ rest)) []) := by
    rw [stop, List.nil_append]
    by_cases none_ : rest = []
    · subst none_
      simpa using .stay _
    · obtain ⟨short, inside⟩ := isTail.not_atLine none_ stands
      have last := scan_tail (p := importStatement) (anchored_lineStart _) short (by simpa using inside)
      simpa using last
  have scan := Scan.hit found moved behind
  have all_ := scan.findAll_eq (matchAt?_eq_none_of_moves rfl)
  exact ⟨m, j, found, by simp [Zones.ofText, all_, read], default_, bindings, specifier⟩

end Recognition

namespace Import

/-- An entry in braces names none of the targets, there or here. -/
def spares (targets : List String) (b : Binding) : Bool :=
  !targets.contains b.imported && !targets.contains b.bound

theorem spares_iff {targets : List String} {b : Binding} :
    spares targets b = true ↔ b.imported ∉ targets ∧ b.bound ∉ targets := by
  simp [spares]

/-- The second import is what is left of the first without the targets. -/
structure IsLeft (targets : List String) (i j : Import) : Prop where
  specifier : j.specifier = i.specifier
  default? : j.default? = i.default?.filter (· ∉ targets)
  bindings : j.bindings = i.bindings.filter (spares targets)

theorem IsLeft.binds_eq_false {targets : List String} {i j : Import} (left : IsLeft targets i j) :
    ∀ name ∈ targets, j.binds name = false := by
  intro name target
  rw [binds, Bool.or_eq_false_iff, beq_eq_false_iff_ne, List.any_eq_false]
  constructor
  · rw [left.default?]
    intro same
    simpa [target] using (Option.filter_eq_some_iff.mp same).2
  · intro b member
    rw [left.bindings] at member
    obtain ⟨there, here⟩ := spares_iff.mp (List.mem_filter.mp member).2
    have apart : ∀ other, other ∉ targets → other ≠ name := by
      rintro other none_ rfl
      exact none_ target
    simp [apart _ there, apart _ here]

end Import

namespace Removal

variable {t x tail rest : Text} {i : Import} {others : List Import} {s : Statement} {targets : List String}

/-- The entries that name no target, as they are written between braces. -/
def spared (targets : List String) (bindings : List Binding) : Text :=
  Text.join ", ".toList ((bindings.filter (Import.spares targets)).map (·.raw.toList))

/-- What becomes of an import: it is left alone, all of it is deleted, the entries that stay are written into
its braces, or they are written again without the default name. -/
inductive Prunes (t : Text) (targets : List String) (i : Import) : Option Edit → Prop where
  | alone (default_ : ∀ d, i.default? = some d → d ∉ targets)
    (names : ∀ b ∈ i.bindings, Import.spares targets b = true) : Prunes t targets i none
  | gone (some_ : i.default? ≠ none ∨ i.bindings ≠ [])
    (default_ : ∀ d, i.default? = some d → d ∈ targets)
    (names : ∀ b ∈ i.bindings, Import.spares targets b = false) :
    Prunes t targets i (some (.delete i.span))
  | braces {span : Span} (spanned : i.bindingsSpan = some span)
    (default_ : ∀ d, i.default? = some d → d ∉ targets)
    (hit : ∃ b ∈ i.bindings, Import.spares targets b = false)
    (stays : i.default? ≠ none ∨ ∃ b ∈ i.bindings, Import.spares targets b = true) :
    Prunes t targets i (some (.replace span (braced (spared targets i.bindings))))
  | anew {d : String} (default_ : i.default? = some d) (hit : d ∈ targets)
    (stays : ∃ b ∈ i.bindings, Import.spares targets b = true) :
    Prunes t targets i (some (.replace i.span
      (statement none (spared targets i.bindings) i.specifier ++
        if (t.slice i.span).finishesWith ['\n'] then ['\n'] else [])))

theorem prunes_pruneImport? (t : Text) (targets : List String)
    (spanned : i.bindings ≠ [] → ∃ span, i.bindingsSpan = some span) :
    Prunes t targets i (pruneImport? t targets i) := by
  have kept : (i.bindings.filter fun b => !targets.contains b.imported && !targets.contains b.bound) =
      i.bindings.filter (Import.spares targets) := rfl
  unfold pruneImport?
  simp only [kept]
  by_cases default_ : ∃ d, i.default? = some d ∧ d ∈ targets
  · obtain ⟨d, named, hit⟩ := default_
    have hit_ : i.default?.any (targets.contains ·) = true := by simp [named, hit]
    have gone : i.default?.filter (fun _ => false) = none := by simp [named]
    simp only [hit_, Bool.not_true, Bool.false_and, Bool.false_eq_true, if_false, gone,
      Option.isNone_none, Bool.and_true, List.isEmpty_iff]
    by_cases none_ : i.bindings.filter (Import.spares targets) = []
    · rw [if_pos none_]
      have all_ := List.filter_eq_nil_iff.mp none_
      refine .gone (.inl (by simp [named])) (fun d' same => ?_) fun b member => by simpa using all_ b member
      obtain rfl := Option.some.inj (named.symm.trans same)
      exact hit
    · rw [if_neg none_]
      obtain ⟨b, member⟩ := List.exists_mem_of_ne_nil _ none_
      have stays := List.mem_filter.mp member
      have anew := Prunes.anew (t := t) named hit ⟨b, stays.1, stays.2⟩
      cases i.bindingsSpan <;> exact anew
  · have free : ∀ d, i.default? = some d → d ∉ targets := fun d named hit => default_ ⟨d, named, hit⟩
    have hit_ : i.default?.any (targets.contains ·) = false := by
      cases named : i.default? with
      | none => rfl
      | some d => simpa using free d named
    have same : i.default?.filter (fun _ => true) = i.default? := by cases i.default? <;> rfl
    simp only [hit_, Bool.not_false, Bool.true_and, beq_iff_eq, same, Bool.and_eq_true,
      List.isEmpty_iff, Option.isNone_iff_eq_none]
    by_cases all_ : (i.bindings.filter (Import.spares targets)).length = i.bindings.length
    · rw [if_pos all_]
      exact .alone free (List.filter_eq_self.mp (List.filter_sublist.eq_of_length all_))
    · rw [if_neg all_]
      obtain ⟨b, member, hit⟩ : ∃ b ∈ i.bindings, Import.spares targets b = false := by
        by_contra none_
        refine all_ (congrArg List.length (List.filter_eq_self.mpr fun b member => ?_))
        rw [← Bool.not_eq_false]
        exact fun hit => none_ ⟨b, member, hit⟩
      obtain ⟨span, spanned⟩ := spanned (List.ne_nil_of_mem member)
      by_cases gone : i.bindings.filter (Import.spares targets) = [] ∧ i.default? = none
      · rw [if_pos gone]
        have hits := List.filter_eq_nil_iff.mp gone.1
        exact .gone (.inr (List.ne_nil_of_mem member)) (by simp [gone.2]) fun b member => by
          simpa using hits b member
      · rw [if_neg gone, spanned]
        refine .braces spanned free ⟨b, member, hit⟩ ?_
        by_contra none_
        rw [not_or, not_not] at none_
        exact gone ⟨List.filter_eq_nil_iff.mpr fun b member stays => none_.2 ⟨b, member, stays⟩, none_.1⟩

theorem not_spares_iff {b : Binding} :
    Import.spares targets b = false ↔ b.imported ∈ targets ∨ b.bound ∈ targets := by
  rw [← Bool.not_eq_true, Import.spares_iff, not_and_or, not_not, not_not]

/-- An import is left alone if none of its names is a target. -/
theorem Prunes.eq_none_iff {e? : Option Edit} (prunes : Prunes t targets i e?) :
    e? = none ↔ (∀ d, i.default? = some d → d ∉ targets) ∧
      ∀ b ∈ i.bindings, b.imported ∉ targets ∧ b.bound ∉ targets := by
  simp only [← Import.spares_iff]
  cases prunes with
  | alone default_ names => exact ⟨fun _ => ⟨default_, names⟩, fun _ => rfl⟩
  | gone some_ default_ names =>
    refine ⟨by simp, fun ⟨free, kept⟩ => ?_⟩
    rcases some_ with named | some_
    · obtain ⟨d, there⟩ := Option.ne_none_iff_exists'.mp named
      exact absurd (default_ d there) (free d there)
    · obtain ⟨b, member⟩ := List.exists_mem_of_ne_nil _ some_
      exact absurd (kept b member) (by simp [names b member])
  | braces spanned default_ hit stays =>
    refine ⟨by simp, fun ⟨_, kept⟩ => ?_⟩
    obtain ⟨b, member, hit⟩ := hit
    simp [kept b member] at hit
  | anew default_ hit stays => exact ⟨by simp, fun ⟨free, _⟩ => absurd hit (free _ default_)⟩

/-- An import is deleted if it has names and all of them are targets. -/
theorem Prunes.eq_delete_iff {e? : Option Edit} (prunes : Prunes t targets i e?) :
    e? = some (.delete i.span) ↔ (i.default? ≠ none ∨ i.bindings ≠ []) ∧
      (∀ d, i.default? = some d → d ∈ targets) ∧
      ∀ b ∈ i.bindings, b.imported ∈ targets ∨ b.bound ∈ targets := by
  simp only [← not_spares_iff]
  cases prunes with
  | alone free kept =>
    refine ⟨by simp, fun ⟨some_, default_, names⟩ => ?_⟩
    rcases some_ with named | some_
    · obtain ⟨d, there⟩ := Option.ne_none_iff_exists'.mp named
      exact absurd (default_ d there) (free d there)
    · obtain ⟨b, member⟩ := List.exists_mem_of_ne_nil _ some_
      exact absurd (kept b member) (by simp [names b member])
  | gone some_ default_ names => exact ⟨fun _ => ⟨some_, default_, names⟩, fun _ => rfl⟩
  | braces spanned free hit stays =>
    refine ⟨by simp [Edit.replace, Edit.delete, braced], fun ⟨_, default_, names⟩ => ?_⟩
    rcases stays with named | ⟨b, member, kept⟩
    · obtain ⟨d, there⟩ := Option.ne_none_iff_exists'.mp named
      exact absurd (default_ d there) (free d there)
    · simp [names b member] at kept
  | anew default_ hit stays =>
    have written : statement none (spared targets i.bindings) i.specifier ≠ [] := by
      simp [statement_eq, Statement.text]
    refine ⟨by simp [Edit.replace, Edit.delete, written], fun ⟨_, _, names⟩ => ?_⟩
    obtain ⟨b, member, kept⟩ := stays
    simp [names b member] at kept

/-- An edit puts one import in the place of another, with what is left of it. -/
def Leaves (t : Text) (targets : List String) (i : Import) (e : Edit) : Prop :=
  ∃ front old new back j, t = front ++ (old ++ back) ∧ i.span = ⟨front.size, Text.size (front ++ old)⟩ ∧
    e.apply t = front ++ (new ++ back) ∧ (Zones.ofText new).imports = [j] ∧ i.IsLeft targets j

theorem not_mem_spared {bindings : List Binding} {c : Char} (other : c ∉ ", ".toList)
    (absent : ∀ b ∈ bindings, c ∉ b.raw.toList) : c ∉ spared targets bindings := by
  intro member
  rcases mem_of_mem_join member with inside | ⟨raw, among, inside⟩
  · exact other inside
  · obtain ⟨b, kept, rfl⟩ := List.mem_map.mp among
    exact absent b (List.mem_of_mem_filter kept) inside

/-- Into the braces of an import the entries that stay are written. -/
theorem leaves_braces {lead inner link : Text} {quote : Char} (at_ : i.StandsIn t others x s tail rest)
    (opening : s.opening = .braced lead inner link quote) (default_ : ∀ d, i.default? = some d → d ∉ targets) :
    Leaves t targets i (.replace ⟨Text.size (x ++ lead ++ ['\x7b']),
      Text.size (x ++ lead ++ ['\x7b']) + inner.size⟩ (braced (spared targets i.bindings))) := by
  have bindings := (at_.braced opening).1
  have standing := at_.stands.opening
  rw [opening] at standing
  obtain ⟨quoted, reached, closed, linked⟩ := standing
  have lead_ := unmarked_of_reaches reached
  let s' : Statement := ⟨.braced lead (braced (spared targets i.bindings)) link quote, s.specifier, s.closing⟩
  have stands : s'.Stands x := by
    refine ⟨⟨quoted, reached, not_mem_braced (by decide) (not_mem_spared (by decide) ?_), linked⟩,
      at_.stands.some_, at_.stands.unquoted, at_.stands.closing⟩
    exact fun b member inside => closed (Zones.mem_of_mem_raw (bindings ▸ member) inside)
  have side := at_.stands.atLine
  have alone_ : s'.Stands [] := stands.elsewhere side.edge_eq
  obtain ⟨m, j, found, alone, named, names, specifier⟩ := alone_.exists_imports rfl at_.isTail
  obtain ⟨-, m', -, -, found', read, -⟩ := at_.exists_match
  have old : s.text ++ tail = lead ++ '\x7b' ::
      (inner ++ '\x7d' :: (link ++ quote :: (s.specifier ++ s.closing :: tail))) := by
    simp [Statement.text, opening, Opening.text]
  have new_ : s'.text ++ tail = lead ++ '\x7b' :: (braced (spared targets i.bindings) ++
      '\x7d' :: (link ++ quote :: (s.specifier ++ s.closing :: tail))) := by
    simp [s', Statement.text, Opening.text]
  refine ⟨x, s.text ++ tail, s'.text ++ tail, rest, j, by simp [at_.text], by
    rw [at_.span, List.append_assoc], ?_, alone, ?_, ?_, ?_⟩
  · have middle := Edit.apply_middle (x ++ lead ++ ['\x7b']) inner
      ('\x7d' :: (link ++ quote :: (s.specifier ++ s.closing :: tail)) ++ rest)
      (braced (spared targets i.bindings))
    have text : t = x ++ ((s.text ++ tail) ++ rest) := by simp [at_.text]
    rw [text, old, new_]
    simpa [Edit.replace] using middle
  · rw [specifier, ← at_.specifier, String.ofList_toList]
  · -- The default name is read off what stands before the braces.
    rw [← List.append_assoc, old] at found'
    rw [new_] at found
    rw [List.append_assoc, List.cons_append] at found'
    have same := default_eq lead_ side.edge_eq found found'
    have kept : i.default?.filter (· ∉ targets) = i.default? := by
      cases there : i.default? with
      | none => rfl
      | some d => simp [default_ d there]
    rw [named, ← same, ← Zones.default_of_import? read, kept]
  · rw [names, bindings]
    exact Zones.bindings_of_kept _ _

/-- Without the default name the entries that stay are written again. -/
theorem leaves_statement {lead inner link : Text} {quote : Char} (at_ : i.StandsIn t others x s tail rest)
    (opening : s.opening = .braced lead inner link quote) {d : String} (default_ : i.default? = some d)
    (hit : d ∈ targets) :
    Leaves t targets i (.replace i.span (statement none (spared targets i.bindings) i.specifier ++
      if (t.slice i.span).finishesWith ['\n'] then ['\n'] else [])) := by
  have bindings := (at_.braced opening).1
  have standing := at_.stands.opening
  rw [opening] at standing
  obtain ⟨-, -, closed, -⟩ := standing
  have stands : (importPieces (spared targets i.bindings) i.specifier.toList).Stands [] := by
    refine stands_importPieces atLine_nil (not_mem_spared (by decide) ?_)
      (at_.specifier ▸ at_.stands.some_) (at_.specifier ▸ at_.stands.unquoted)
    exact fun b member inside => closed (Zones.mem_of_mem_raw (bindings ▸ member) inside)
  rw [statement_eq]
  generalize ending_ : (if (t.slice i.span).finishesWith ['\n'] then ['\n'] else []) = ending
  have isTail : IsTail ([';'] ++ ending) := by
    refine ⟨[';'], by simp, ?_⟩
    subst ending_
    split
    · exact .inr rfl
    · exact .inl rfl
  obtain ⟨m, j, found, alone, named, names, specifier⟩ := stands.exists_imports rfl isTail
  have text : t = x ++ ((s.text ++ tail) ++ rest) := by simp [at_.text]
  have span : i.span = ⟨x.size, Text.size (x ++ (s.text ++ tail))⟩ := by rw [at_.span, List.append_assoc]
  rw [← List.append_assoc] at alone
  refine ⟨x, s.text ++ tail, _, rest, j, text, span, ?_, alone, ?_, ?_, ?_⟩
  · have middle := Edit.apply_middle x (s.text ++ tail) rest
      ((importPieces (spared targets i.bindings) i.specifier.toList).text ++ [';'] ++ ending)
    rw [← Text.size_append] at middle
    rw [text, span]
    simpa [Edit.replace] using middle
  · rw [specifier]
    exact String.ofList_toList
  · have line : (importPieces (spared targets i.bindings) i.specifier.toList).text ++ ([';'] ++ ending) =
        "import ".toList ++ '\x7b' :: (braced (spared targets i.bindings) ++ '\x7d' ::
          (" from ".toList ++ '\'' :: (i.specifier.toList ++ '\'' :: ([';'] ++ ending)))) := by
      simp [importPieces, Statement.text, Opening.text]
    rw [line] at found
    rw [named, default_eq_none found, default_]
    simp [Option.filter, hit]
  · rw [names, bindings]
    exact Zones.bindings_of_kept _ _

/-- Pruning leaves an import alone if none of its names is a target, deletes it if it has names and all
of them are targets, and otherwise leaves one import of just the other names in its place, which binds
no target. -/
theorem pruneImport?_keeps_siblings {t : Text} {i : Import} (member : i ∈ (Zones.ofText t).imports)
    (targets : List String) :
    (pruneImport? t targets i = none ↔ (∀ d, i.default? = some d → d ∉ targets) ∧
        ∀ b ∈ i.bindings, b.imported ∉ targets ∧ b.bound ∉ targets) ∧
      (pruneImport? t targets i = some (.delete i.span) ↔ (i.default? ≠ none ∨ i.bindings ≠ []) ∧
        (∀ d, i.default? = some d → d ∈ targets) ∧
        ∀ b ∈ i.bindings, b.imported ∈ targets ∨ b.bound ∈ targets) ∧
      ∀ e, pruneImport? t targets i = some e → e ≠ .delete i.span →
        ∃ front old new back j, t = front ++ (old ++ back) ∧
          i.span = ⟨front.size, Text.size (front ++ old)⟩ ∧ e.apply t = front ++ (new ++ back) ∧
          (Zones.ofText new).imports = [j] ∧ i.IsLeft targets j ∧
          ∀ name ∈ targets, j.binds name = false := by
  obtain ⟨others, later, split⟩ := List.append_of_mem member
  obtain ⟨x, s, tail, rest, at_⟩ := Zones.exists_standsIn split
  have spanned : i.bindingsSpan ≠ none → ∃ lead inner link quote,
      s.opening = .braced lead inner link quote := by
    intro some_
    cases opening : s.opening with
    | plain words quote => exact absurd (at_.plain opening).2 some_
    | braced lead inner link quote => exact ⟨lead, inner, link, quote, rfl⟩
  have braces : i.bindings ≠ [] → ∃ lead inner link quote, s.opening = .braced lead inner link quote := by
    intro some_
    cases opening : s.opening with
    | plain words quote => exact absurd (at_.plain opening).1 some_
    | braced lead inner link quote => exact ⟨lead, inner, link, quote, rfl⟩
  have prunes := prunes_pruneImport? t targets (i := i) fun some_ => by
    obtain ⟨lead, inner, link, quote, opening⟩ := braces some_
    exact ⟨_, (at_.braced opening).2⟩
  refine ⟨prunes.eq_none_iff, prunes.eq_delete_iff, fun e edit other => ?_⟩
  rw [edit] at prunes
  obtain ⟨front, old, new, back, j, text, span, applied, alone, left⟩ : Leaves t targets i e := by
    cases prunes with
    | gone some_ default_ names => exact absurd rfl other
    | braces there free hit stays =>
      obtain ⟨lead, inner, link, quote, opening⟩ := spanned (by simp [there])
      obtain rfl := Option.some.inj ((at_.braced opening).2 ▸ there)
      exact leaves_braces at_ opening free
    | anew default_ hit stays =>
      obtain ⟨b, inside, -⟩ := stays
      obtain ⟨lead, inner, link, quote, opening⟩ := braces (List.ne_nil_of_mem inside)
      exact leaves_statement at_ opening default_ hit
  exact ⟨front, old, new, back, j, text, span, applied, alone, left, left.binds_eq_false⟩

/-- A name goes by the one it has here, beside a default name and another entry. -/
theorem pruneImport?_keeps_siblings_alias :
    let t := "import Base, \x7b Cart, Login as Entry \x7d from './pages';\n".toList
    ∃ i ∈ (Zones.ofText t).imports, ∃ e front new back j, pruneImport? t ["Entry"] i = some e ∧
      e.apply t = front ++ (new ++ back) ∧ (Zones.ofText new).imports = [j] ∧ i.IsLeft ["Entry"] j ∧
      j.binds "Entry" = false := by
  intro t
  let i : Import := ⟨some "Base", [⟨"Cart", "Cart", "Cart"⟩, ⟨"Login", "Entry", "Login as Entry"⟩],
    "./pages", ⟨0, 54⟩, some ⟨14, 36⟩⟩
  have read : (Zones.ofText t).imports = [i] := by decide +kernel
  have member : i ∈ (Zones.ofText t).imports := by simp [read]
  obtain ⟨untouched, deleted, replaced⟩ := pruneImport?_keeps_siblings member ["Entry"]
  cases edit : pruneImport? t ["Entry"] i with
  | none =>
    have free := (untouched.mp edit).2 ⟨"Login", "Entry", "Login as Entry"⟩ (by simp [i])
    exact absurd free.2 (by simp)
  | some e =>
    have other : e ≠ .delete i.span := by
      rintro rfl
      have hit := (deleted.mp edit).2.1 "Base" rfl
      exact absurd hit (by simp)
    obtain ⟨front, old, new, back, j, -, -, applied, alone, left, free⟩ := replaced e edit other
    exact ⟨i, member, e, front, new, back, j, edit, applied, alone, left, free "Entry" (by simp)⟩

end Removal
end Registrar
