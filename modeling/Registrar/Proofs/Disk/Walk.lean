import Registrar.Proofs.Text.Search
import Registrar.Workspace.Basic

/-!
What the walk finds is there. On a disk whose entries have proper names, the path of an entry leads
to the entry, so every source file of a workspace is a file of its disk.
-/

namespace Registrar

/-- A name that an entry of a folder can have: one step of a path. -/
structure IsEntryName (name : String) : Prop where
  step : Path.component? name.toList = some (.name name)
  whole : '/' ∉ name.toList

instance (name : String) : Decidable (IsEntryName name) :=
  decidable_of_iff (Path.component? name.toList = some (.name name) ∧ '/' ∉ name.toList)
    ⟨fun ⟨step, whole⟩ => ⟨step, whole⟩, fun ⟨step, whole⟩ => ⟨step, whole⟩⟩

theorem IsEntryName.ne_nil {name : String} (proper : IsEntryName name) : name.toList ≠ [] := by
  intro none_
  have := proper.step
  simp [none_, Path.component?, Path.isIdle] at this

theorem IsEntryName.not_idle {name : String} (proper : IsEntryName name) :
    Path.isIdle name.toList = false := by
  have step := proper.step
  rw [Path.component?] at step
  split at step
  · simp at step
  · next busy => simpa using busy

namespace Folder

/-- The entries have proper names, each of them once, and so have those of the folders in it. -/
def Proper : Folder → Prop
  | .empty => True
  | .file name _ rest => IsEntryName name ∧ rest.find? name = none ∧ rest.Proper
  | .folder name inside rest =>
    IsEntryName name ∧ rest.find? name = none ∧ inside.Proper ∧ rest.Proper

/-- What is found in a proper folder has a proper name, and is proper itself. -/
theorem Proper.of_find? {d : Folder} (proper : d.Proper) {name : String} {item : Item}
    (found : d.find? name = some item) :
    IsEntryName name ∧ ∀ inside, item = .folder inside → inside.Proper := by
  induction d with
  | empty => simp [find?] at found
  | file n f rest ih =>
    rw [find?] at found
    split at found
    · next same =>
      obtain rfl := eq_of_beq same
      obtain rfl := Option.some.inj found
      exact ⟨proper.1, by simp⟩
    · exact ih proper.2.2 found
  | folder n inside rest _ ih =>
    rw [find?] at found
    split at found
    · next same =>
      obtain rfl := eq_of_beq same
      obtain rfl := Option.some.inj found
      refine ⟨proper.1, fun inside' same' => ?_⟩
      obtain rfl := Item.folder.inj same'
      exact proper.2.2.1
    · exact ih proper.2.2.2 found

/-- Behind the names that lead to a folder, more names lead on from there. -/
theorem at?_append {d inside : Folder} {names : List String} (more : List String)
    (found : d.at? names = some (.folder inside)) : d.at? (names ++ more) = inside.at? more := by
  induction names generalizing d with
  | nil =>
    obtain rfl : d = inside := by simpa [at?] using found
    rfl
  | cons n rest ih =>
    rw [at?] at found
    rw [List.cons_append, at?]
    cases entry : d.find? n with
    | none => simp [entry] at found
    | some item =>
      cases item with
      | folder inside' => exact ih (by simpa [entry] using found)
      | file f =>
        rw [entry] at found
        cases rest <;> simp at found

/-- Behind the names that lead to a folder, one more leads to its entry. -/
theorem at?_concat {d inside : Folder} {names : List String} (name : String)
    (found : d.at? names = some (.folder inside)) :
    d.at? (names ++ [name]) = inside.find? name := by
  rw [at?_append [name] found, at?]
  cases inside.find? name with
  | none => rfl
  | some item => cases item <;> rfl

end Folder

namespace Path

theorem IsEntryName.splitOn_eq {name : String} (proper : IsEntryName name) :
    Text.splitOn (· == '/') name.toList = [name.toList] := by
  refine Text.splitOn_eq_singleton fun c member => ?_
  rw [beq_eq_false_iff_ne]
  rintro rfl
  exact proper.whole member

/-- The text of an entry's path is that of the folder, a slash, and the name. -/
theorem text_child {p : Path} (some_ : p.text.toList ≠ []) :
    ∃ front, (p.text.toList = front ∧ front.getLast? ≠ some '/' ∨
        p.text.toList = front ++ ['/']) ∧
      ∀ {name : String}, IsEntryName name →
        (p.child name).text.toList = front ++ '/' :: name.toList := by
  have filled : p.text.isEmpty = false := by simpa using some_
  have relative : ∀ {name : String}, IsEntryName name → (⟨name⟩ : Path).isAbsolute = false := by
    intro name proper
    rw [isAbsolute, beq_eq_false_iff_ne]
    exact fun head => proper.whole (List.mem_of_mem_head? head)
  by_cases slash : p.text.toList.getLast? = some '/'
  · obtain ⟨front, split⟩ := List.getLast?_eq_some_iff.mp slash
    refine ⟨front, .inr split, fun proper => ?_⟩
    rw [child, join, relative proper, filled]
    simp [split]
  · refine ⟨p.text.toList, .inl ⟨rfl, slash⟩, fun proper => ?_⟩
    rw [child, join, relative proper, filled]
    simp [slash]

/-- The pieces of an entry's path are those of the folder, but for an idle one behind a slash at its
end, and the name. -/
theorem pieces_child {p : Path} {name : String} (some_ : p.text.toList ≠ [])
    (proper : IsEntryName name) :
    (p.child name).isAbsolute = p.isAbsolute ∧
      ∃ kept, (p.pieces = kept ∨ p.pieces = kept ++ [[]]) ∧
        (p.child name).pieces = kept ++ [name.toList] := by
  obtain ⟨front, ending, text⟩ := text_child some_
  have ending : p.text.toList = front ∨ p.text.toList = front ++ ['/'] := ending.imp_left (·.1)
  have text := text proper
  have pieces : ∀ t : Text, Text.splitOn (· == '/') (t ++ '/' :: name.toList) =
      Text.splitOn (· == '/') t ++ [name.toList] := by
    intro t
    rw [Text.splitOn_append_cons rfl, IsEntryName.splitOn_eq proper]
  have idle : ∀ t : Text, Text.splitOn (· == '/') (t ++ ['/']) =
      Text.splitOn (· == '/') t ++ [[]] := fun t => Text.splitOn_append_cons rfl t []
  cases front with
  | nil =>
    -- The folder is the top.
    rcases ending with none_ | split
    · exact absurd none_ some_
    · refine ⟨by simp [isAbsolute, text, split], [], .inr ?_, ?_⟩
      · simp [Path.pieces, isAbsolute, split, Text.splitOn]
      · simp [Path.pieces, isAbsolute, text, IsEntryName.splitOn_eq proper]
  | cons x rest =>
    have head : p.text.toList.head? = some x := by
      rcases ending with split | split <;> simp [split]
    have same : (p.child name).isAbsolute = p.isAbsolute := by
      rw [isAbsolute, isAbsolute, head, text]
      rfl
    have body : ∀ t : Text, (if p.isAbsolute then (x :: t).tail else x :: t) =
        (if p.isAbsolute then [] else [x]) ++ t := by
      intro t
      split <;> rfl
    refine ⟨same, Text.splitOn (· == '/') ((if p.isAbsolute then [] else [x]) ++ rest), ?_, ?_⟩
    · rcases ending with split | split
      · left
        rw [Path.pieces, split, body]
      · right
        rw [Path.pieces, split, List.cons_append, body, ← List.append_assoc, idle]
    · rw [Path.pieces, same, text, List.cons_append, body, ← List.append_assoc, pieces]

end Path

namespace Disk

/-- Pieces one after another are followed one after another. -/
theorem follow_append (top : Folder) (here : List String) (ps qs : List Text) :
    follow top here (ps ++ qs) = (follow top here ps).bind fun there => follow top there qs := by
  induction ps generalizing here with
  | nil => rfl
  | cons p rest ih =>
    rw [List.cons_append, follow, follow]
    split
    · split
      · exact ih _
      · exact ih _
      · exact ih _
    · rfl
    · rfl

/-- Something is found where the pieces of its path lead. -/
theorem find_eq_ok_iff {d : Disk} {p : Path} {item : Item} : d.find p = .ok item ↔
    ∃ here names, d.start p = .ok here ∧ follow d.top here p.pieces = .ok names ∧
      d.top.at? names = some item := by
  rw [find, locate]
  cases started : d.start p with
  | error why => simp [bind, Except.bind]
  | ok here =>
    cases followed : follow d.top here p.pieces with
    | error why => simp [bind, Except.bind, followed]
    | ok names =>
      simp only [bind, Except.bind, followed, Except.ok.injEq, exists_eq_left', exists_and_left]
      cases found : d.top.at? names with
      | none => simp [throw, throwThe, MonadExceptOf.throw]
      | some item' => simp [pure, Except.pure]

theorem ne_nil_of_start {d : Disk} {p : Path} {here : List String} (started : d.start p = .ok here) :
    p.text.toList ≠ [] := by
  intro none_
  have relative : p.isAbsolute = false := by simp [Path.isAbsolute, none_]
  have empty : p.text.isEmpty = true := by simpa using none_
  simp [start, relative, empty] at started

theorem locate_eq_ok_iff {d : Disk} {p : Path} {names : List String} : d.locate p = .ok names ↔
    ∃ here, d.start p = .ok here ∧ follow d.top here p.pieces = .ok names := by
  rw [locate]
  cases d.start p with
  | error why => simp [bind, Except.bind]
  | ok here => simp [bind, Except.bind]

theorem find_eq_ok_iff_locate {d : Disk} {p : Path} {item : Item} :
    d.find p = .ok item ↔ ∃ names, d.locate p = .ok names ∧ d.top.at? names = some item := by
  rw [find_eq_ok_iff]
  constructor
  · rintro ⟨here, names, started, followed, at_⟩
    exact ⟨names, locate_eq_ok_iff.mpr ⟨here, started, followed⟩, at_⟩
  · rintro ⟨names, led, at_⟩
    obtain ⟨here, started, followed⟩ := locate_eq_ok_iff.mp led
    exact ⟨here, names, started, followed, at_⟩

/-- The path of an entry leads where the folder's path leads, and on by the name. -/
theorem locate_child {d : Disk} {p : Path} {inside : Folder} {names : List String} {name : String}
    (led : d.locate p = .ok names) (at_ : d.top.at? names = some (.folder inside))
    (proper : IsEntryName name) : d.locate (p.child name) = .ok (names ++ [name]) := by
  obtain ⟨here, started, followed⟩ := locate_eq_ok_iff.mp led
  obtain ⟨absolute, kept, pieces, pieces'⟩ := Path.pieces_child (ne_nil_of_start started) proper
  have started' : d.start (p.child name) = .ok here := by
    obtain ⟨front, _, text⟩ := Path.text_child (ne_nil_of_start started)
    have filled : (p.child name).text.isEmpty = false := by simp [← String.toList_inj, text proper]
    have filled' : p.text.isEmpty = false := by simpa using ne_nil_of_start started
    rw [← started, start, start, absolute, filled, filled']
  have followed' : follow d.top here kept = .ok names := by
    rcases pieces with same | idle
    · rwa [same] at followed
    · rw [idle, follow_append] at followed
      cases reached : follow d.top here kept with
      | error why => simp [reached, Except.bind] at followed
      | ok there =>
        simp only [reached, Except.bind, follow] at followed
        split at followed
        · simpa [Path.component?, Path.isIdle, follow] using followed
        · simp at followed
        · simp at followed
  refine locate_eq_ok_iff.mpr ⟨here, started', ?_⟩
  rw [pieces', follow_append, followed']
  simp only [Except.bind, follow, at_, proper.step]

/-- The entry of a folder is found at its path. -/
theorem find_child {d : Disk} {p : Path} {inside : Folder} {name : String} {item : Item}
    (found : d.find p = .ok (.folder inside)) (proper : IsEntryName name)
    (entry : inside.find? name = some item) : d.find (p.child name) = .ok item := by
  obtain ⟨names, led, at_⟩ := find_eq_ok_iff_locate.mp found
  refine find_eq_ok_iff_locate.mpr ⟨_, locate_child led at_ proper, ?_⟩
  rw [Folder.at?_concat name at_, entry]

theorem isFile_of_find {d : Disk} {p : Path} {f : File} (found : d.find p = .ok (.file f)) :
    d.isFile p = true := by
  rw [isFile, found]

end Disk

namespace Folder

/-- The source files that the walk finds in a folder of a disk are files of the disk. -/
theorem isFile_of_mem_sources {d : Disk} {config : Config} {inside : Folder} {here : Path}
    (proper : inside.Proper)
    (there : ∀ name item, inside.find? name = some item → d.find (here.child name) = .ok item)
    {p : Path} (member : p ∈ inside.sources config here) : d.isFile p = true := by
  induction inside generalizing here with
  | empty => simp [sources] at member
  | file name f rest ih =>
    have found : d.find (here.child name) = .ok (.file f) := there name _ (by simp [find?])
    rw [sources] at member
    rcases List.mem_append.mp member with member | member
    · split at member
      · rw [List.mem_singleton.mp member]
        exact Disk.isFile_of_find found
      · simp at member
    · refine ih proper.2.2 (fun other item entry => there other item ?_) member
      rw [find?, if_neg, entry]
      intro same
      simp [← eq_of_beq same, proper.2.1] at entry
  | folder name below rest ihBelow ih =>
    have found : d.find (here.child name) = .ok (.folder below) := there name _ (by simp [find?])
    rw [sources] at member
    rcases List.mem_append.mp member with member | member
    · split at member
      · simp at member
      · refine ihBelow proper.2.2.1 (fun other item entry => ?_) member
        exact Disk.find_child found (proper.2.2.1.of_find? entry).1 entry
    · refine ih proper.2.2.2 (fun other item entry => there other item ?_) member
      rw [find?, if_neg, entry]
      intro same
      simp [← eq_of_beq same, proper.2.1] at entry

end Folder

namespace Folder

/-- What names lead to in a proper folder is proper. -/
theorem Proper.of_at? {d inside : Folder} (proper : d.Proper) {names : List String}
    (found : d.at? names = some (.folder inside)) : inside.Proper := by
  induction names generalizing d with
  | nil =>
    obtain rfl : d = inside := by simpa [at?] using found
    exact proper
  | cons n rest ih =>
    rw [at?] at found
    cases entry : d.find? n with
    | none => simp [entry] at found
    | some item =>
      cases item with
      | folder below => exact ih ((proper.of_find? entry).2 below rfl) (by simpa [entry] using found)
      | file f =>
        rw [entry] at found
        cases rest <;> simp at found

end Folder

/-- The source files of a workspace are files of its disk. -/
theorem Workspace.isFile_of_mem_sources {w : Workspace} (proper : w.disk.top.Proper) {p : Path}
    (member : p ∈ w.sources) : w.disk.isFile p = true := by
  rw [sources] at member
  split at member
  · next inside found =>
    obtain ⟨here, names, _, _, at_⟩ := Disk.find_eq_ok_iff.mp found
    have below := proper.of_at? at_
    exact Folder.isFile_of_mem_sources below
      (fun name item entry => Disk.find_child found (below.of_find? entry).1 entry) member
  · next f found =>
    split at member
    · rw [List.mem_singleton.mp member]
      exact Disk.isFile_of_find found
    · simp at member
  · simp at member

end Registrar
