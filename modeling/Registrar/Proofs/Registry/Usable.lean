import Registrar.Proofs.Registry.Called
import Registrar.Proofs.Registry.Edited
import Registrar.Proofs.Registry.Interposed
import Registrar.Proofs.Registry.Purged
import Registrar.Proofs.Text.Braces
import Registrar.Proofs.Text.Simultaneous

/-!
Zones and anchors that can be used. Whatever a text holds, its zones are spans of it, one behind the
other, and every byte at which additions, uses and removals cut it is a place of it: none of them cuts a
character in two or reaches beyond the end.
-/

namespace Registrar

open Pattern Recognition Text

/-! ### Matches -/

namespace Pattern

variable {p : Pattern} {t : Text} {m : Match} {ms : List Match} {c d : Cursor}

/-- The matches of a scan stand one behind the other. -/
theorem Scan.pairwise (scan : Scan p c ms d) : ms.Pairwise fun a b => a.span.IsBefore b.span := by
  induction scan with
  | stay => exact .nil
  | skip _ _ ih => exact ih
  | hit _ _ later ih => exact .cons (fun m member => (later.bounds.2 m member).1) ih

theorem findAll_pairwise (moves_ : p.moves = true) (local_ : p.Avoids fun _ => false) (t : Text) :
    (p.findAll t).Pairwise fun a b => a.span.IsBefore b.span :=
  (exists_scan_findAll moves_ local_ t).pairwise

theorem isPlace_of_find? (found : p.find? t = some m) :
    t.IsPlace m.start.offset ∧ t.IsPlace m.stop.offset ∧ t.after m.stop.offset = m.stop.rest := by
  obtain ⟨front, back, rfl, here⟩ := exists_of_find? found
  obtain ⟨start, taken, rest, rfl, stop⟩ := matchAt?_some here
  rw [start, stop, Cursor.between_offset, Cursor.between_offset, Cursor.between_rest, ← List.append_assoc,
    after_size_append]
  exact ⟨⟨front, taken ++ rest, by simp, rfl⟩, ⟨front ++ taken, rest, rfl, rfl⟩, rfl⟩

theorem start_lt_stop (moves_ : p.moves = true) (member : m ∈ p.findAll t) :
    m.start.offset < m.stop.offset := by
  obtain ⟨front, back, rfl, here⟩ := exists_of_mem_findAll member
  have start := (matchAt?_some here).1
  rw [start, Cursor.between_offset]
  exact lt_stop_of_matchAt? moves_ here

theorem hasSpan_of_mem_findAll (moves_ : p.moves = true) (member : m ∈ p.findAll t) : t.HasSpan m.span := by
  obtain ⟨start, stop⟩ := Anchors.isPlace_of_mem_findAll member
  exact ⟨Nat.le_of_lt (start_lt_stop moves_ member), start, stop⟩

end Pattern

namespace Text

variable {t piece : Text} {n : Nat}

/-- Where a piece is found is a place, and so is its end. -/
theorem isPlace_of_find? (found : t.find? piece = some n) : t.IsPlace n ∧ t.IsPlace (n + piece.size) := by
  obtain ⟨⟨front, rest⟩, cut, rfl⟩ := Option.map_eq_some_iff.mp found
  obtain rfl := eq_append_of_cut? cut
  exact ⟨⟨front, piece ++ rest, by simp, rfl⟩, ⟨front ++ piece, rest, rfl, (size_append ..).symm⟩⟩

/-- A place of what follows a place. -/
theorem IsPlace.add {k : Nat} (place : t.IsPlace n) (inner : (t.after n).IsPlace k) : t.IsPlace (n + k) := by
  obtain ⟨a, b, rfl, rfl⟩ := place
  rw [after_size_append] at inner
  obtain ⟨c, d, rfl, rfl⟩ := inner
  exact ⟨a ++ c, d, by simp, (size_append ..).symm⟩

end Text

/-! ### Zones -/

/-- The zones lie in a text: imports and fields are spans one behind the other, accessors are spans that
begin one behind the other, and the names in braces of an import are a span inside it. -/
structure Zones.LieIn (z : Zones) (t : Text) : Prop where
  imports : ∀ i ∈ z.imports, t.HasSpan i.span
  importsApart : z.imports.Pairwise fun a b => a.span.IsBefore b.span
  bindings : ∀ i ∈ z.imports, ∀ s, i.bindingsSpan = some s →
    t.HasSpan s ∧ i.span.start < s.start ∧ s.stop < i.span.stop
  lastImportEnd : z.lastImportEnd = (z.imports.map (·.span.stop)).max?
  fields : ∀ f ∈ z.fields, t.HasSpan f.span
  fieldsApart : z.fields.Pairwise fun a b => a.span.IsBefore b.span
  accessors : ∀ a ∈ z.accessors, t.HasSpan a.span
  accessorsOrdered : z.accessors.Pairwise fun a b => a.span.start < b.span.start

namespace Zones

variable {t : Text} {i : Import}

/-- The names in braces lie between the braces. -/
theorem hasSpan_of_bindingsSpan {s : Span} (member : i ∈ (ofText t).imports)
    (braced : i.bindingsSpan = some s) :
    t.HasSpan s ∧ i.span.start < s.start ∧ s.stop < i.span.stop := by
  obtain ⟨others, later, split⟩ := List.append_of_mem member
  obtain ⟨x, st, tail, rest, at_⟩ := exists_standsIn split
  cases opening : st.opening with
  | plain words quote => simp [(at_.plain opening).2] at braced
  | braced lead inner link quote =>
    obtain rfl : _ = s := Option.some.inj ((at_.braced opening).2 ▸ braced)
    obtain ⟨y, text⟩ : ∃ y, t = x ++ lead ++ ['\x7b'] ++ (inner ++ y) := by
      refine ⟨'\x7d' :: (link ++ quote :: (st.specifier ++ st.closing :: (tail ++ rest))), ?_⟩
      rw [at_.text]
      simp [Statement.text, Opening.text, opening]
    have stop : t.IsPlace (Text.size (x ++ lead ++ ['\x7b']) + inner.size) :=
      ⟨x ++ lead ++ ['\x7b'] ++ inner, y, by rw [text, List.append_assoc _ inner], (size_append ..).symm⟩
    refine ⟨⟨Nat.le_add_right .., ⟨_, _, text, rfl⟩, stop⟩, ?_, ?_⟩
    · have brace : 0 < Char.utf8Size '\x7b' := by decide
      rw [at_.span]
      simp only [size_append, size_cons]
      omega
    · have brace : 0 < Char.utf8Size '\x7d' := by decide
      rw [at_.span]
      simp only [Statement.text, Opening.text, opening, size_append, size_cons]
      omega

theorem lastImportEnd_eq_max? (t : Text) :
    (ofText t).lastImportEnd = ((ofText t).imports.map (·.span.stop)).max? := by
  rcases List.eq_nil_or_concat' (ofText t).imports with none_ | ⟨others, last, whole⟩
  · rw [lastImportEnd, none_]
    rfl
  · have end_ : (ofText t).lastImportEnd = some last.span.stop := by
      rw [lastImportEnd, whole, List.getLast?_concat, Option.map_some]
    rw [end_, eq_comm, List.max?_eq_some_iff]
    refine ⟨by simp [whole], fun stop member => ?_⟩
    obtain ⟨i, inside, rfl⟩ := List.mem_map.mp member
    have before_ := Usage.span_stop_le_lastImportEnd inside
    rwa [end_] at before_

theorem hasSpan_of_accessor? {m : Match} {a : Accessor} (member : m ∈ accessorSignature.findAll t)
    (read : accessor? t m = some a) : t.HasSpan a.span ∧ a.span.start = m.start.offset := by
  obtain ⟨stop, closed, rfl⟩ := Option.map_eq_some_iff.mp read
  obtain ⟨-, -, -, -, -, place, behind⟩ := exists_firstLevel_of_blockEnd? closed
  have less := start_lt_stop rfl member
  refine ⟨⟨?_, (Anchors.isPlace_of_mem_findAll member).1, place⟩, rfl⟩
  dsimp only
  omega

/-- The zones of every text lie in it. -/
theorem lieIn_ofText (t : Text) : (ofText t).LieIn t where
  imports i member := by
    obtain ⟨m, inside, read⟩ := List.mem_filterMap.mp member
    rw [span_of_import? read]
    exact hasSpan_of_mem_findAll rfl inside
  importsApart := by
    refine List.pairwise_filterMap.mpr ((findAll_pairwise rfl local_importStatement t).imp ?_)
    intro m m' before_ i read i' read'
    rwa [span_of_import? read, span_of_import? read']
  bindings _ member _ braced := hasSpan_of_bindingsSpan member braced
  lastImportEnd := lastImportEnd_eq_max? t
  fields f member := by
    obtain ⟨m, inside, rfl⟩ := List.mem_map.mp member
    exact hasSpan_of_mem_findAll rfl inside
  fieldsApart := List.pairwise_map.mpr (findAll_pairwise rfl local_fieldDeclaration t)
  accessors a member := by
    obtain ⟨m, inside, read⟩ := List.mem_filterMap.mp member
    exact (hasSpan_of_accessor? inside read).1
  accessorsOrdered := by
    refine List.pairwise_filterMap.mpr ((findAll_pairwise rfl local_accessorSignature t).imp_of_mem ?_)
    intro m m' first second before_ a read a' read'
    rw [(hasSpan_of_accessor? first read).2, (hasSpan_of_accessor? second read').2]
    exact Nat.lt_of_lt_of_le (start_lt_stop rfl first) before_

end Zones

/-! ### Places where a text is cut -/

namespace Usage

/-- The edits of a use. -/
def edits (t : Text) (line : Nat) (specifier accessor className : String) : List Edit :=
  let call := Edit.insert (place t (Zones.ofText t) line) (callText t line accessor className)
  if (Zones.ofText t).importsName accessor then [call]
  else [importEdit t (Zones.ofText t) specifier accessor, call]

theorem insert_eq (t : Text) (line : Nat) (specifier accessor className : String) :
    insert t line specifier accessor className =
      Edit.applyAll (edits t line specifier accessor className) t := rfl

end Usage

/-- Wherever a text is cut to be changed, it is cut at its places: by the search for the anchors and by
what is put there, by a use, and by imports that lose names. -/
structure Text.CutAtPlaces (t : Text) : Prop where
  anchors : ∀ contextField, ∀ n ∈ (Anchors.ofText t contextField).places, t.IsPlace n
  /-- The search for the body of the class goes on behind its name, and from the brace to the line's end. -/
  classBody : ∀ m, classDeclaration.find? t = some m →
    t.IsPlace m.stop.offset ∧ t.after m.stop.offset = m.stop.rest ∧
      ∀ n, m.stop.rest.find? ['\x7b'] = some n → t.IsPlace (m.stop.offset + n + 1)
  mark : ∀ n, t.find? Source.accessorMark.toList = some n → t.IsPlace n
  /-- A block is searched from behind its first brace, and from its last one to the line's end. -/
  blocks : ∀ n c rest k, t.IsPlace n → t.after n = c :: rest → closing? 1 rest = some k →
    t.IsPlace (n + c.utf8Size + k)
  exports : ∀ accessor s, exportSpan? t accessor = some s → t.HasSpan s
  additions : ∀ (h : Host) (entries : List Entry), h.text = t → Edit.FindSpans (h.additionEdits entries) t
  lines : ∀ line, t.IsPlace (t.lineOffset line)
  calls : ∀ line, t.IsPlace (Usage.place t (Zones.ofText t) line)
  usages : ∀ line specifier accessor className,
    Usage.insert t line specifier accessor className =
        Edit.applyAll (Usage.edits t line specifier accessor className) t ∧
      Edit.FindSpans (Usage.edits t line specifier accessor className) t
  prunes : ∀ targets, ∀ i ∈ (Zones.ofText t).imports, t.HasSpan i.span ∧
    ∀ e, Removal.pruneImport? t targets i = some e → t.HasSpan e.span

namespace Text

variable {t : Text}

theorem isPlace_of_classBody {m : Match} (declared : classDeclaration.find? t = some m) {n : Nat}
    (opened : m.stop.rest.find? ['\x7b'] = some n) : t.IsPlace (m.stop.offset + n + 1) := by
  obtain ⟨-, stop, rest⟩ := Pattern.isPlace_of_find? declared
  rw [Nat.add_assoc]
  refine stop.add ?_
  rw [rest]
  exact (isPlace_of_find? opened).2

theorem hasSpan_of_exportSpan? {accessor : String} {s : Span} (found : exportSpan? t accessor = some s) :
    t.HasSpan s := by
  obtain ⟨m, first, rfl⟩ := Option.map_eq_some_iff.mp found
  have start := (Pattern.isPlace_of_find? first).1
  exact ⟨le_lineEnd t _, start, start.lineEnd⟩

/-- Additions insert at the anchors and at the end. -/
theorem findSpans_additionEdits (h : Host) (entries : List Entry) :
    Edit.FindSpans (h.additionEdits entries) h.text := by
  refine (Edit.together_of_insertions fun e member => ?_).findSpans
  simp only [Host.additionEdits, List.mem_cons, List.not_mem_nil, or_false] at member
  rcases member with rfl | rfl | rfl | rfl
  · exact ⟨rfl, Anchors.isPlace_importsOf h.text⟩
  · exact ⟨rfl, Anchors.isPlace_fieldsOf h.text h.config.contextField⟩
  · exact ⟨rfl, Anchors.isPlace_accessorsOf h.text⟩
  · exact ⟨rfl, isPlace_size h.text⟩

theorem HasSpan.of_place {n : Nat} (place : t.IsPlace n) (new : Text) :
    t.HasSpan (Edit.insert n new).span := ⟨Nat.le_refl n, place, place⟩

/-- A use writes into an import that ends before the call, or inserts a new one there. -/
theorem findSpans_usage (t : Text) (line : Nat) (specifier accessor className : String) :
    Edit.FindSpans (Usage.edits t line specifier accessor className) t := by
  have call := HasSpan.of_place (Usage.isPlace_place t line) (Usage.callText t line accessor className)
  have behind := Usage.le_place t line
  rw [Usage.edits]
  split
  · refine (Edit.together_of_insertions fun e member => ?_).findSpans
    obtain rfl := List.mem_singleton.mp member
    exact ⟨rfl, Usage.isPlace_place t line⟩
  · refine Edit.Together.findSpans ?_
    cases shared : (Zones.ofText t).imports.find? fun i => i.specifier == specifier &&
        i.bindingsSpan.isSome with
    | some i =>
      have member := List.mem_of_find?_eq_some shared
      obtain ⟨s, braced⟩ : ∃ s, i.bindingsSpan = some s := by
        have found := List.find?_some shared
        exact Option.isSome_iff_exists.mp (Bool.and_eq_true_iff.mp found).2
      obtain ⟨inside, -, closes⟩ := Zones.hasSpan_of_bindingsSpan member braced
      have before_ := Usage.span_stop_le_lastImportEnd member
      have ordered := inside.ordered
      rw [Usage.importEdit]
      simp only [shared, Option.bind_some, braced, Option.map_some]
      refine Edit.together_pair inside call ?_ ?_ <;>
        simp only [Span.IsBefore, Edit.span, Edit.insert, Edit.replace] <;> omega
    | none =>
      rw [Usage.importEdit]
      simp only [shared, Option.bind_none]
      exact Edit.together_pair (.of_place (Anchors.isPlace_importsOf t) _) call behind fun _ => rfl

/-- An import that loses names is cut as a whole, or between its braces. -/
theorem hasSpan_of_pruneImport? {targets : List String} {i : Import} {e : Edit}
    (member : i ∈ (Zones.ofText t).imports) (pruned : Removal.pruneImport? t targets i = some e) :
    t.HasSpan e.span := by
  have whole := (Zones.lieIn_ofText t).imports i member
  rw [Removal.pruneImport?] at pruned
  dsimp only at pruned
  split at pruned
  · cases pruned
  · split at pruned
    · obtain rfl := Option.some.inj pruned
      exact whole
    · split at pruned
      · next s _ braced _ =>
        obtain rfl := Option.some.inj pruned
        exact (Zones.hasSpan_of_bindingsSpan member braced).1
      · obtain rfl := Option.some.inj pruned
        exact whole

end Text

/-- The zones of every text lie in it, and wherever additions, uses and removals cut the text, they cut it
at its places. -/
theorem usable_ofText (t : Text) : (Zones.ofText t).LieIn t ∧ t.CutAtPlaces := by
  refine ⟨Zones.lieIn_ofText t, ?_⟩
  constructor
  case anchors => exact fun contextField n member => Anchors.isPlace_of_mem member
  case classBody =>
    intro m declared
    obtain ⟨-, stop, rest⟩ := Pattern.isPlace_of_find? declared
    exact ⟨stop, rest, fun n opened => Text.isPlace_of_classBody declared opened⟩
  case mark => exact fun n found => (Text.isPlace_of_find? found).1
  case blocks =>
    intro n c rest k place opened closed
    rw [Nat.add_assoc]
    refine place.add ?_
    rw [opened]
    obtain ⟨a, b, rfl, rfl⟩ := Removal.isPlace_of_closing? closed
    exact ⟨c :: a, b, rfl, (size_cons c a).symm⟩
  case exports => exact fun accessor s found => Text.hasSpan_of_exportSpan? found
  case additions =>
    rintro h entries rfl
    exact Text.findSpans_additionEdits h entries
  case lines => exact Text.isPlace_lineOffset t
  case calls => exact Usage.isPlace_place t
  case usages =>
    intro line specifier accessor className
    exact ⟨Usage.insert_eq t line specifier accessor className,
      Text.findSpans_usage t line specifier accessor className⟩
  case prunes =>
    intro targets i member
    exact ⟨(Zones.lieIn_ofText t).imports i member, fun e => Text.hasSpan_of_pruneImport? member⟩

/-- An import with characters of two bytes between its braces and in its specifier. -/
example : (Zones.ofText "import \x7b É \x7d from './é';\n".toList).imports.map
    (fun i => (i.span, i.bindingsSpan)) = [(⟨0, 27⟩, some ⟨8, 12⟩)] := by decide +kernel

end Registrar
