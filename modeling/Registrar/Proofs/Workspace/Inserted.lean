import Registrar.Proofs.Registry.Edited
import Registrar.Proofs.Text.Grown
import Registrar.Proofs.Workspace.Repeated

/-!
What an addition does to a registry and what it reports. Every file is either accepted or skipped, in
the order in which the files are given; what is accepted is new to the registry and unlike all else that
is accepted. The new text is the old one with four blocks put in, one at each anchor and one at the end.
-/

namespace Registrar

namespace Naming

/-- The small letter of a character of ASCII is that of its capital. -/
theorem toLower_eq_of_toUpper_eq {c d : Char} (ascii : c.toNat < 128) (ascii' : d.toNat < 128)
    (same : c.toUpper = d.toUpper) : c.toLower = d.toLower := by
  have back : ∀ n < 128, (Char.ofNat n).toUpper.toLower = (Char.ofNat n).toLower := by decide
  have first := back c.toNat ascii
  have second := back d.toNat ascii'
  rw [Char.ofNat_toNat] at first second
  rw [← first, ← second, same]

/-- Classes with the same accessor have the same field. -/
theorem field_eq_of_accessor_eq {className other : String} (fieldPrefix : String)
    (named : isIdentifier className.toList = true) (named' : isIdentifier other.toList = true)
    (same : accessor className = accessor other) :
    field fieldPrefix className = field fieldPrefix other := by
  obtain ⟨x, rest, split, start, -⟩ := exists_of_isIdentifier named
  obtain ⟨y, rest', split', start', -⟩ := exists_of_isIdentifier named'
  have ascii : x.toNat < 128 := by
    have := toNat_of_isPlain (isPlain_of_isNameStart start)
    omega
  have ascii' : y.toNat < 128 := by
    have := toNat_of_isPlain (isPlain_of_isNameStart start')
    omega
  have lists := congrArg String.toList same
  simp only [accessor, String.toList_append, String.toList_ofList, split, split', Letter.raiseFirst,
    Letter.raise_of_ascii ascii, Letter.raise_of_ascii ascii', List.append_cancel_left_eq,
    List.singleton_append, List.cons.injEq] at lists
  have lowered := toLower_eq_of_toUpper_eq ascii ascii' lists.1
  simp only [field, inStyle, split, split', lowerFirst, Letter.lower_of_ascii ascii,
    Letter.lower_of_ascii ascii', lowered, lists.2]

end Naming

/-- No part of the entry is in a text. -/
structure Entry.IsNew (e : Entry) (t : Text) : Prop where
  import_ : (Zones.ofText t).importsName e.className = false
  field : (Zones.ofText t).hasField e.field = false
  accessor : (Zones.ofText t).accessorNamed? e.accessor = none
  export_ : exportSpan? t e.accessor = none

/-- The entries have nothing in common. -/
def Entry.Apart (a b : Entry) : Prop :=
  a.className ≠ b.className ∧ a.field ≠ b.field ∧ a.accessor ≠ b.accessor

namespace Host

variable {h : Host} {z : Zones} {accepted entries : List Entry} {c : Candidate} {e : Entry}

/-! ### The blocks -/

/-- The import lines of entries, at their place. -/
def importInsertion (h : Host) (entries : List Entry) : Insertion where
  place := (Anchors.ofText h.text h.config.contextField).imports
  fragments := entries.map fun e => (Source.importLine e.className e.specifier).toList

/-- The fields of entries, at their place. -/
def fieldInsertion (h : Host) (entries : List Entry) : Insertion where
  place := (Anchors.ofText h.text h.config.contextField).fields.offset
  fragments := entries.map fun e => (Source.fieldLine e.field e.className).toList

/-- The accessors of entries, at their place. -/
def accessorInsertion (h : Host) (entries : List Entry) : Insertion where
  place := (Anchors.ofText h.text h.config.contextField).accessors.offset
  fragments := entries.map fun e => (Source.accessorBlock h.config e.accessor e.field e.className).toList

/-- The exports of entries, at the end. -/
def exportInsertion (h : Host) (entries : List Entry) : Insertion where
  place := h.text.size
  fragments := entries.map fun e =>
    (Source.exportLine h.config e.accessor e.className h.className).toList

/-- The text has grown by the entries: in it are the blocks of their parts, those of imports, fields and
accessors at the anchors, whatever the order of these, and that of exports at the end. -/
def Grows (h : Host) (entries : List Entry) (new : Text) : Prop :=
  ∃ order, order.Perm [h.importInsertion entries, h.fieldInsertion entries,
      h.accessorInsertion entries] ∧
    Text.Grows 0 [] (order ++ [h.exportInsertion entries]) h.text new

theorem inserts_importEdit : (h.importEdit entries).Inserts h.text (h.importInsertion entries) where
  place := Anchors.isPlace_importsOf h.text
  same := rfl
  lines := h.insertsLines_of_mem entries List.mem_cons_self
  lists := by
    intro front starts
    have whole : ∀ t ∈ (h.importInsertion entries).fragments, Text.AtLine t := by
      intro t member
      obtain ⟨e, -, rfl⟩ := List.mem_map.mp member
      exact Source.atLine_importLine _ _
    have block := Text.lists_flatMap Text.isFeeds_nil Text.isFeeds_nil whole starts
    have feeds : Text.IsFeeds (if h.zones.imports.isEmpty then ['\n'] else []) := by
      split
      · exact Text.isFeeds_feed
      · exact Text.isFeeds_nil
    have padded := (block.feeds_append (Text.isFeeds_breakBefore _ _)).append_feeds feeds
    simpa [importEdit, Edit.insert, importBlock, importInsertion, List.flatMap_map] using padded

theorem inserts_fieldEdit : (h.fieldEdit entries).Inserts h.text (h.fieldInsertion entries) where
  place := Anchors.isPlace_fieldsOf h.text h.config.contextField
  same := rfl
  lines := h.insertsLines_of_mem entries (List.mem_cons_of_mem _ List.mem_cons_self)
  lists := by
    intro front starts
    have whole : ∀ t ∈ (h.fieldInsertion entries).fragments, Text.AtLine t := by
      intro t member
      obtain ⟨e, -, rfl⟩ := List.mem_map.mp member
      exact Source.atLine_fieldLine _ _
    have feeds : Text.IsFeeds (if (Anchors.fieldsOf h.text (Zones.ofText h.text)
        h.config.contextField).separated then ['\n'] else []) := by
      split
      · exact Text.isFeeds_feed
      · exact Text.isFeeds_nil
    have block := Text.lists_flatMap Text.isFeeds_nil Text.isFeeds_nil whole
      (starts.append feeds.atLine)
    have padded := (block.feeds_append feeds).feeds_append (Text.isFeeds_breakBefore _ _)
    simpa [fieldEdit, Edit.insert, fieldBlock, fieldInsertion, List.flatMap_map] using padded

theorem inserts_accessorEdit :
    (h.accessorEdit entries).Inserts h.text (h.accessorInsertion entries) where
  place := Anchors.isPlace_accessorsOf h.text
  same := rfl
  lines := h.insertsLines_of_mem entries
    (List.mem_cons_of_mem _ (List.mem_cons_of_mem _ List.mem_cons_self))
  lists := by
    intro front starts
    have whole : ∀ t ∈ (h.accessorInsertion entries).fragments, Text.AtLine t := by
      intro t member
      obtain ⟨e, -, rfl⟩ := List.mem_map.mp member
      exact Source.atLine_accessorBlock _ _ _ _
    -- The blank line is behind each accessor at the mark, and else before it.
    have below := (Text.lists_flatMap Text.isFeeds_nil Text.isFeeds_feed whole starts).feeds_append
      (Text.isFeeds_breakBefore _ _)
    have above := (Text.lists_flatMap Text.isFeeds_feed Text.isFeeds_nil whole starts).feeds_append
      (Text.isFeeds_breakBefore _ _)
    simp only [accessorEdit, Edit.insert, accessorBlock] at below above ⊢
    by_cases atMark : (Anchors.accessorsOf h.text).atMark = true
    · simpa [accessorInsertion, List.flatMap_map, atMark] using below
    · simpa [accessorInsertion, List.flatMap_map, atMark] using above

theorem inserts_exportBlock : (Edit.insert h.text.size (h.exportBlock entries)).Inserts h.text
    (h.exportInsertion entries) where
  place := Text.isPlace_size h.text
  same := rfl
  lines := ⟨rfl, Nat.le_refl _, (Text.atLine_breakBefore _ _).append
    (Text.atLine_flatMap (fun e => Source.atLine_exportLine _ _ _ _) entries)⟩
  lists := by
    intro front starts
    have whole : ∀ t ∈ (h.exportInsertion entries).fragments, Text.AtLine t := by
      intro t member
      obtain ⟨e, -, rfl⟩ := List.mem_map.mp member
      exact Source.atLine_exportLine _ _ _ _
    have block := (Text.lists_flatMap Text.isFeeds_nil Text.isFeeds_nil whole starts).feeds_append
      (Text.isFeeds_breakBefore _ _)
    simpa [Edit.insert, exportBlock, exportInsertion, List.flatMap_map] using block

/-- A text with entries put in has grown by them. -/
theorem grows_withEntries (h : Host) (entries : List Entry) : h.Grows entries (h.withEntries entries) :=
  Edit.exists_grows_applyAll (.cons inserts_importEdit (.cons inserts_fieldEdit
    (.cons inserts_accessorEdit .nil))) inserts_exportBlock
    fun _ member => (h.insertsLines_of_mem entries member).inside

/-! ### The judgements -/

/-- A judgement is about the candidate: an accepted one gets the entry of the class that it declares. -/
def Answers (h : Host) (c : Candidate) : Except Skipped Entry → Prop
  | .ok e => e = h.entry c.file e.className ∧
      ∃ text, c.text? = some text ∧ Recognition.className? text = some e.className
  | .error s => s.file = c.file

theorem answers_judge (h : Host) (z : Zones) (accepted : List Entry) (c : Candidate) :
    h.Answers c (h.judge z accepted c) := by
  cases judged : h.judge z accepted c with
  | ok e =>
    obtain ⟨-, entry, text, read, -, declared⟩ := of_judge judged
    exact ⟨entry, text, read, declared⟩
  | error s =>
    show s.file = c.file
    rw [judge] at judged
    split at judged
    · exact Except.error.inj judged ▸ rfl
    · split at judged
      · exact Except.error.inj judged ▸ rfl
      · split at judged
        · exact Except.error.inj judged ▸ rfl
        · dsimp only at judged
          split at judged
          · exact Except.error.inj judged ▸ rfl
          · split at judged
            · exact Except.error.inj judged ▸ rfl
            · simp at judged

theorem forall₂_judgeAll (h : Host) (z : Zones) (accepted : List Entry) (cs : List Candidate) :
    List.Forall₂ h.Answers cs (h.judgeAll z accepted cs) := by
  induction cs generalizing accepted with
  | nil => exact .nil
  | cons c rest ih =>
    have answers := h.answers_judge z accepted c
    rw [judgeAll]
    split
    · next e judged => exact .cons (judged ▸ answers) (ih _)
    · next s judged => exact .cons (judged ▸ answers) (ih _)

/-- What is accepted is new to the registry and unlike what was accepted before. -/
theorem isNew_of_judge (judged : h.judge h.zones accepted c = .ok e) : e.IsNew h.text ∧
    ∀ a ∈ accepted, a.className ≠ e.className ∧ a.field ≠ e.field := by
  have clear : h.clashes h.zones accepted e = false := by
    obtain ⟨-, entry, text, read, other, declared⟩ := of_judge judged
    by_contra clash
    rw [Bool.not_eq_false] at clash
    rw [judge, read] at judged
    simp only [declared] at judged
    rw [entry] at clash
    rw [clash] at judged
    split at judged <;> simp at judged
  simp only [clashes, Bool.or_eq_false_iff, List.any_eq_false, Option.isSome_eq_false_iff,
    Option.isNone_iff_eq_none] at clear
  obtain ⟨⟨⟨⟨import_, field⟩, accessor⟩, export_⟩, others⟩ := clear
  exact ⟨⟨import_, field, accessor, export_⟩, fun a member => by simpa using others a member⟩

/-- The entry is that of a class which some file declares. -/
def Declares (h : Host) (e : Entry) : Prop :=
  ∃ file text, e = h.entry file e.className ∧ Recognition.className? text = some e.className

theorem Declares.accessor_ne {a : Entry} (declares : h.Declares a) (declares' : h.Declares e)
    (other : a.field ≠ e.field) : a.accessor ≠ e.accessor := by
  obtain ⟨file, text, own, declared⟩ := declares
  obtain ⟨file', text', own', declared'⟩ := declares'
  intro same
  refine other ?_
  rw [own, own'] at same ⊢
  exact Naming.field_eq_of_accessor_eq h.config.fieldPrefix
    (Recognition.isIdentifier_of_className? declared)
    (Recognition.isIdentifier_of_className? declared') same

/-- All that is accepted is new to the registry and has nothing in common with anything else that is
accepted. The accessors are not compared, but those of different fields are different. -/
theorem apart_judgeAll (h : Host) (accepted : List Entry) (cs : List Candidate) :
    (AdditionReport.sort (h.judgeAll h.zones accepted cs)).1.Pairwise Entry.Apart ∧
      ∀ e ∈ (AdditionReport.sort (h.judgeAll h.zones accepted cs)).1, h.Declares e ∧
        e.IsNew h.text ∧ ∀ a ∈ accepted, a.className ≠ e.className ∧ a.field ≠ e.field := by
  induction cs generalizing accepted with
  | nil => exact ⟨.nil, by simp [judgeAll, AdditionReport.sort]⟩
  | cons c rest ih =>
    rw [judgeAll]
    split
    · next e judged =>
      obtain ⟨apart, each⟩ := ih (accepted ++ [e])
      obtain ⟨isNew, unlike⟩ := isNew_of_judge judged
      have declares : h.Declares e := by
        obtain ⟨-, own, text, -, -, declared⟩ := of_judge judged
        exact ⟨c.file, text, own, declared⟩
      have split : (AdditionReport.sort (.ok e :: h.judgeAll h.zones (accepted ++ [e]) rest)).1 =
          e :: (AdditionReport.sort (h.judgeAll h.zones (accepted ++ [e]) rest)).1 := rfl
      rw [split]
      refine ⟨List.pairwise_cons.mpr ⟨fun e' member => ?_, apart⟩, fun e' member => ?_⟩
      · obtain ⟨declares', -, unlike'⟩ := each e' member
        obtain ⟨className, field⟩ := unlike' e (by simp)
        exact ⟨className, field, declares.accessor_ne declares' field⟩
      · rcases List.mem_cons.mp member with rfl | member
        · exact ⟨declares, isNew, unlike⟩
        · obtain ⟨declares', isNew', unlike'⟩ := each e' member
          exact ⟨declares', isNew', fun a before_ => unlike' a (by simp [before_])⟩
    · exact ih accepted

/-- An addition gives a new text if it accepts anything. -/
theorem add_cases (h : Host) (cs : List Candidate) :
    let entries := (AdditionReport.sort (h.judgeAll h.zones [] cs)).1
    entries = [] ∧ (h.add cs).2 = none ∨
      entries ≠ [] ∧ (h.add cs).2 = some (h.withEntries entries) := by
  intro entries
  by_cases none_ : entries = []
  · exact .inl ⟨none_, if_pos (List.isEmpty_iff.mpr none_)⟩
  · exact .inr ⟨none_, if_neg fun empty => none_ (List.isEmpty_iff.mp empty)⟩

end Host

namespace Workspace

variable {w : Workspace} {registry : Path} {files : List Path}

/-- An addition that comes to an end answers every file once and in order. If it accepts nothing, nothing
is written; else the registry's file gets the old text with the blocks of what is accepted put in. What is
accepted is new to the registry, and no two accepted entries have a class, a field or an accessor in
common. -/
theorem exists_answers_of_add {report : AdditionReport} {disk : Disk}
    (added : w.add registry files = .ok (report, disk)) :
    ∃ text answers entries, w.disk.readText registry = .ok text ∧
      List.Forall₂ (Host.Answers ⟨w.config, w.root, registry, text⟩)
        (files.map (w.candidate registry)) answers ∧
      AdditionReport.sort answers = (entries, report.skipped) ∧
      report.added = entries.map (·.className) ∧
      (entries = [] → disk = w.disk) ∧
      (entries ≠ [] → ∃ new, w.disk.write registry new = .ok disk ∧
        (⟨w.config, w.root, registry, text⟩ : Host).Grows entries new) ∧
      entries.Pairwise Entry.Apart ∧ ∀ e ∈ entries, e.IsNew text := by
  obtain ⟨text, read⟩ := exists_read_of_add added
  obtain ⟨rfl, change⟩ := (add_eq_ok_iff read).mp added
  let h : Host := ⟨w.config, w.root, registry, text⟩
  let answers := h.judgeAll h.zones [] (files.map (w.candidate registry))
  obtain ⟨apart, each⟩ := h.apart_judgeAll [] (files.map (w.candidate registry))
  refine ⟨text, answers, (AdditionReport.sort answers).1, read, h.forall₂_judgeAll _ _ _, rfl, rfl,
    ?_, ?_, apart, fun e member => (each e member).2.1⟩
  · intro none_
    rcases h.add_cases (files.map (w.candidate registry)) with ⟨-, kept⟩ | ⟨some_, -⟩
    · rcases writeChange_eq_ok_iff.mp change with ⟨-, same⟩ | ⟨t, written, -⟩
      · exact same
      · exact absurd (kept.symm.trans written) (by simp)
    · exact absurd none_ some_
  · intro some_
    rcases h.add_cases (files.map (w.candidate registry)) with ⟨none_, -⟩ | ⟨-, grown⟩
    · exact absurd none_ some_
    · rcases writeChange_eq_ok_iff.mp change with ⟨none_, -⟩ | ⟨t, new, written⟩
      · exact absurd (grown.symm.trans none_) (by simp)
      · obtain rfl := Option.some.inj (grown.symm.trans new)
        exact ⟨_, written, h.grows_withEntries _⟩

/-- In a text of one line, which ends in it, all anchors but that of imports are at the end. The class of
the first file is added there, and the registry itself is not. -/
theorem exists_answers_of_add_line :
    let page := "export class APage \x7b\x7d\n".toList
    let line := "class Site \x7b\x7d".toList
    let files := (Folder.empty.put "a.page.ts" (.file ⟨.text page, 0⟩)).put "site.ts"
      (.file ⟨.text line, 0⟩)
    let w : Workspace := ⟨{ top := Folder.empty.put "w" (.folder files) }, ⟨"/w"⟩, {}⟩
    ∃ report disk entries new,
      w.add ⟨"/w/site.ts"⟩ [⟨"/w/a.page.ts"⟩, ⟨"/w/site.ts"⟩] = .ok (report, disk) ∧
      entries.map Entry.className = ["APage"] ∧ w.disk.write ⟨"/w/site.ts"⟩ new = .ok disk ∧
      (⟨w.config, w.root, ⟨"/w/site.ts"⟩, line⟩ : Host).Grows entries new := by
  intro page line files w
  have read : w.disk.readText ⟨"/w/site.ts"⟩ = .ok line :=
    Disk.readText_eq_ok_iff.mpr ⟨["w", "site.ts"], 0, by decide +kernel, rfl⟩
  obtain ⟨report, disk, added⟩ := exists_add read (fun new => ⟨_, rfl⟩)
    [⟨"/w/a.page.ts"⟩, ⟨"/w/site.ts"⟩]
  have reported : report.added = ["APage"] := by
    rw [((add_eq_ok_iff read).mp added).1]
    decide +kernel
  obtain ⟨text, answers, entries, read', answered, sorted_, names, -, changed, -, -⟩ :=
    exists_answers_of_add added
  obtain rfl : line = text := Except.ok.inj (read.symm.trans read')
  have one : entries.map Entry.className = ["APage"] := names.symm.trans reported
  have some_ : entries ≠ [] := by
    rintro rfl
    simp at one
  obtain ⟨new, written, grows⟩ := changed some_
  exact ⟨report, disk, entries, new, added, one, written, grows⟩

end Workspace
end Registrar
