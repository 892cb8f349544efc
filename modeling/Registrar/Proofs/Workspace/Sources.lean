import Mathlib.Data.List.Induction
import Registrar.Proofs.Disk.Walk

/-!
The sources of a workspace as paths of names: a file is a source exactly when the names that lead
to it from the root are all shown by the walk, and different names make different paths.
-/

namespace Registrar

theorem Text.join_splitOn (c : Char) (t : Text) : join [c] (splitOn (· == c) t) = t := by
  induction t with
  | nil => rfl
  | cons d rest ih =>
    rw [splitOn]
    cases pieces : splitOn (· == c) rest with
    | nil => exact absurd pieces (splitOn_ne_nil _ _)
    | cons piece more =>
      rw [pieces] at ih
      change join [c] (if (d == c) = true then [] :: piece :: more else (d :: piece) :: more) = _
      by_cases here : (d == c) = true
      · obtain rfl := eq_of_beq here
        simpa [join, List.intercalate] using ih
      · rw [if_neg here]
        cases more <;> simpa [join, List.intercalate] using ih

namespace Path

/-- The path of what names lead to from a folder. -/
def descend (p : Path) (names : List String) : Path := names.foldl child p

@[simp]
theorem descend_nil (p : Path) : p.descend [] = p := rfl

@[simp]
theorem descend_cons (p : Path) (name : String) (names : List String) :
    p.descend (name :: names) = (p.child name).descend names := rfl

theorem descend_append (p : Path) (names more : List String) :
    p.descend (names ++ more) = (p.descend names).descend more := List.foldl_append ..

theorem ofPieces_pieces (p : Path) : ofPieces p.isAbsolute p.pieces = p := by
  rw [ofPieces, pieces, Text.join_splitOn]
  by_cases absolute : p.isAbsolute = true
  · have head : p.text.toList.head? = some '/' := by simpa [isAbsolute] using absolute
    rw [if_pos absolute, if_pos absolute, List.singleton_append, List.cons_head?_tail head,
      String.ofList_toList]
  · rw [if_neg absolute, if_neg absolute, List.nil_append, String.ofList_toList]

/-! ### Going up -/

/-- The path says something and is written without idle steps at its end. -/
structure IsTrimmed (p : Path) : Prop where
  written : p.text.toList ≠ []
  ends : ofPieces p.isAbsolute (withoutIdleEnd p.isAbsolute p.pieces) = p

theorem withoutIdleEnd_concat {absolute : Bool} {kept : List Text} {piece : Text}
    (busy : isIdle piece = false) :
    withoutIdleEnd absolute (kept ++ [piece]) = kept ++ [piece] := by
  rw [withoutIdleEnd, List.reverse_concat, List.dropWhile_cons_of_neg (by simp [busy])]
  split
  · next none_ => simp at none_
  · next all => simp

theorem withoutIdleEnd_concat_nil {absolute : Bool} {kept : List Text} :
    withoutIdleEnd absolute (kept ++ [[]]) = withoutIdleEnd absolute kept := by
  rw [withoutIdleEnd, withoutIdleEnd, List.reverse_concat,
    List.dropWhile_cons_of_pos (by simp [isIdle])]
  cases kept <;> simp

/-- The path of an entry leads back up to the folder. -/
theorem parent?_child {p : Path} {name : String} (trimmed : p.IsTrimmed)
    (proper : IsEntryName name) : (p.child name).parent? = some p := by
  obtain ⟨absolute, kept, pieces, pieces'⟩ := pieces_child trimmed.written proper
  have folder : withoutIdleEnd p.isAbsolute kept = withoutIdleEnd p.isAbsolute p.pieces := by
    rcases pieces with same | idle
    · rw [same]
    · rw [idle, withoutIdleEnd_concat_nil]
  rw [parent?, pieces', absolute, withoutIdleEnd_concat proper.not_idle]
  split
  · next none_ => simp at none_
  · rw [List.dropLast_concat, folder, trimmed.ends]

theorem IsTrimmed.child {p : Path} {name : String} (trimmed : p.IsTrimmed)
    (proper : IsEntryName name) : (p.child name).IsTrimmed := by
  obtain ⟨_, _, text⟩ := text_child trimmed.written
  obtain ⟨_, kept, _, pieces⟩ := pieces_child trimmed.written proper
  refine ⟨by simp [text proper], ?_⟩
  have whole := ofPieces_pieces (p.child name)
  rw [pieces] at whole ⊢
  rwa [withoutIdleEnd_concat proper.not_idle]

theorem IsTrimmed.descend {p : Path} {names : List String} (trimmed : p.IsTrimmed)
    (proper : ∀ name ∈ names, IsEntryName name) : (p.descend names).IsTrimmed := by
  induction names generalizing p with
  | nil => exact trimmed
  | cons name rest ih =>
    obtain ⟨first, rest⟩ := List.forall_mem_cons.mp proper
    exact ih (trimmed.child first) rest

theorem written_descend {p : Path} {names : List String} (some_ : p.text.toList ≠ [])
    (proper : ∀ name ∈ names, IsEntryName name) : (p.descend names).text.toList ≠ [] := by
  induction names generalizing p with
  | nil => exact some_
  | cons name rest ih =>
    obtain ⟨first, rest⟩ := List.forall_mem_cons.mp proper
    obtain ⟨_, _, text⟩ := text_child some_
    exact ih (by simp [text first]) rest

/-! ### Different names, different paths -/

/-- Behind the path of an entry only a slash and a name are added. -/
theorem text_child_child {p : Path} {name other : String} (some_ : p.text.toList ≠ [])
    (proper : IsEntryName name) (proper' : IsEntryName other) :
    ((p.child name).child other).text.toList =
      (p.child name).text.toList ++ '/' :: other.toList := by
  obtain ⟨_, _, text⟩ := text_child some_
  have open_ : (p.child name).text.toList.getLast? ≠ some '/' := by
    rw [text proper, List.getLast?_append, List.getLast?_cons_of_ne_nil proper.ne_nil]
    intro last
    refine proper.whole (List.mem_of_mem_getLast? ?_)
    simpa [List.getLast?_eq_some_getLast proper.ne_nil] using last
  obtain ⟨front, ending, text'⟩ := text_child (p := p.child name) (by simp [text proper])
  rcases ending with ⟨rfl, _⟩ | split
  · exact text' proper'
  · exact absurd (by simp [split]) open_

/-- The text of a path below a folder: every name behind a slash. -/
theorem text_descend {p : Path} (some_ : p.text.toList ≠ []) : ∃ front, ∀ names ≠ [],
    (∀ name ∈ names, IsEntryName name) →
      (p.descend names).text.toList = front ++ names.flatMap fun name => '/' :: name.toList := by
  obtain ⟨front, _, text⟩ := text_child some_
  refine ⟨front, fun names filled proper => ?_⟩
  -- Behind the first name the texts grow by one rule, so the induction starts there.
  obtain ⟨first, rest, rfl⟩ := List.exists_cons_of_ne_nil filled
  obtain ⟨entry, proper⟩ := List.forall_mem_cons.mp proper
  have grows : ∀ (q : Path) (name : String), q.text.toList ≠ [] → IsEntryName name →
      ∀ rest : List String, (∀ name ∈ rest, IsEntryName name) →
        ((q.child name).descend rest).text.toList =
          (q.child name).text.toList ++ rest.flatMap fun name => '/' :: name.toList := by
    intro q name written entry rest proper
    induction rest generalizing q name with
    | nil => simp
    | cons other rest ih =>
      obtain ⟨entry', proper⟩ := List.forall_mem_cons.mp proper
      obtain ⟨_, _, text⟩ := text_child written
      rw [descend_cons, ih _ _ (by simp [text entry]) entry' proper,
        text_child_child written entry entry', List.flatMap_cons, List.append_assoc]
  rw [descend_cons, grows p first some_ entry rest proper, text entry, List.flatMap_cons,
    List.append_assoc]

theorem flatMap_slash_inj {names others : List String} (whole : ∀ name ∈ names, '/' ∉ name.toList)
    (whole' : ∀ name ∈ others, '/' ∉ name.toList)
    (same : (names.flatMap fun name => '/' :: name.toList) =
      others.flatMap fun name => '/' :: name.toList) : names = others := by
  induction names generalizing others with
  | nil => cases others <;> simp_all
  | cons name rest ih =>
    cases others with
    | nil => simp at same
    | cons other rest' =>
      obtain ⟨here, tail⟩ := List.forall_mem_cons.mp whole
      obtain ⟨here', tail'⟩ := List.forall_mem_cons.mp whole'
      simp only [List.flatMap_cons, List.cons_append, List.cons.injEq, true_and] at same
      -- A name reaches to the next slash or to the end.
      have reach : ∀ (n : String) (more : List String), '/' ∉ n.toList →
          (n.toList ++ more.flatMap fun name => '/' :: name.toList).takeWhile (· != '/') =
            n.toList := by
        intro n more whole
        rw [List.takeWhile_append_of_pos fun c member => by
          simpa using fun slash : c = '/' => whole (slash ▸ member)]
        cases more <;> simp
      have first : name.toList = other.toList := by
        rw [← reach name rest here, ← reach other rest' here', same]
      obtain rfl := String.toList_inj.mp first
      rw [ih tail tail' (List.append_cancel_left same)]

/-- Names that lead to the same path are the same. -/
theorem descend_inj {p : Path} {names others : List String} (some_ : p.text.toList ≠ [])
    (filled : names ≠ []) (filled' : others ≠ []) (proper : ∀ name ∈ names, IsEntryName name)
    (proper' : ∀ name ∈ others, IsEntryName name) (same : p.descend names = p.descend others) :
    names = others := by
  obtain ⟨front, text⟩ := text_descend some_
  have texts := congrArg (fun q : Path => q.text.toList) same
  rw [text names filled proper, text others filled' proper'] at texts
  exact flatMap_slash_inj (fun name member => (proper name member).whole)
    (fun name member => (proper' name member).whole) (List.append_cancel_left texts)

end Path

namespace Folder

/-- Names lead to an item when all but the last lead to a folder that has it. -/
theorem at?_concat_iff {d : Folder} {names : List String} {name : String} {item : Item} :
    d.at? (names ++ [name]) = some item ↔
      ∃ inside, d.at? names = some (.folder inside) ∧ inside.find? name = some item := by
  constructor
  · intro found
    induction names generalizing d with
    | nil =>
      refine ⟨d, rfl, ?_⟩
      have here : d.at? [] = some (.folder d) := rfl
      rwa [at?_concat name here] at found
    | cons first rest ih =>
      rw [List.cons_append, at?] at found
      cases entry : d.find? first with
      | none => simp [entry] at found
      | some item =>
        cases item with
        | folder inside => simpa [at?, entry] using ih (by simpa [entry] using found)
        | file f => simp [entry] at found
  · rintro ⟨inside, found, entry⟩
    rw [at?_concat name found, entry]

end Folder

namespace Disk

/-- What is found at the path of an entry is the entry of a folder that is found. -/
theorem find_of_find_child {d : Disk} {p : Path} {name : String} {item : Item}
    (some_ : p.text.toList ≠ []) (proper : IsEntryName name)
    (found : d.find (p.child name) = .ok item) :
    ∃ inside, d.find p = .ok (.folder inside) ∧ inside.find? name = some item := by
  obtain ⟨here, names, started, followed, at_⟩ := find_eq_ok_iff.mp found
  obtain ⟨absolute, kept, pieces, pieces'⟩ := Path.pieces_child some_ proper
  have started' : d.start p = .ok here := by
    obtain ⟨front, _, text⟩ := Path.text_child some_
    have filled : (p.child name).text.isEmpty = false := by simp [← String.toList_inj, text proper]
    have filled' : p.text.isEmpty = false := by simpa using some_
    rw [← started, start, start, absolute, filled, filled']
  rw [pieces', follow_append] at followed
  cases reached : follow d.top here kept with
  | error why => simp [reached, Except.bind] at followed
  | ok there =>
    rw [reached] at followed
    simp only [Except.bind, follow] at followed
    split at followed
    · next inside folder =>
      simp only [proper.step, Except.ok.injEq] at followed
      refine ⟨inside, find_eq_ok_iff.mpr ⟨here, there, started', ?_, folder⟩, ?_⟩
      · rcases pieces with same | idle
        · rw [same, reached]
        · rw [idle, follow_append, reached]
          simp only [Except.bind, follow, folder]
          rfl
      · rwa [← followed, Folder.at?_concat name folder] at at_
    · simp at followed
    · simp at followed

theorem find_child_iff {d : Disk} {p : Path} {name : String} {item : Item}
    (some_ : p.text.toList ≠ []) (proper : IsEntryName name) :
    d.find (p.child name) = .ok item ↔
      ∃ inside, d.find p = .ok (.folder inside) ∧ inside.find? name = some item := by
  refine ⟨find_of_find_child some_ proper, ?_⟩
  rintro ⟨inside, found, entry⟩
  exact find_child found proper entry

/-- What is found below a folder stands there under the names that lead to it. -/
theorem find_descend_iff {d : Disk} {p : Path} {names : List String} {item : Item}
    (some_ : p.text.toList ≠ []) (proper : ∀ name ∈ names, IsEntryName name)
    (filled : names ≠ []) : d.find (p.descend names) = .ok item ↔
      ∃ inside, d.find p = .ok (.folder inside) ∧ inside.at? names = some item := by
  induction names using List.reverseRecOn generalizing item with
  | nil => exact absurd rfl filled
  | append_singleton names name ih =>
    have proper' : ∀ name ∈ names, IsEntryName name := fun n member =>
      proper n (List.mem_append_left _ member)
    rw [Path.descend_append, Path.descend_cons, Path.descend_nil,
      find_child_iff (Path.written_descend some_ proper') (proper name (by simp))]
    simp only [Folder.at?_concat_iff]
    by_cases none_ : names = []
    · subst none_
      simp [Folder.at?]
    · simp only [ih proper' none_]
      grind

theorem find_descend_folder_iff {d : Disk} {p : Path} {names : List String} {inner : Folder}
    (some_ : p.text.toList ≠ []) (proper : ∀ name ∈ names, IsEntryName name) :
    d.find (p.descend names) = .ok (.folder inner) ↔
      ∃ inside, d.find p = .ok (.folder inside) ∧ inside.at? names = some (.folder inner) := by
  by_cases none_ : names = []
  · subst none_
    simp [Folder.at?]
  · exact find_descend_iff some_ proper none_

end Disk

namespace Config

/-- The walk shows everything on the way that the names lead down from a folder. -/
def Shows (config : Config) : Path → List String → Prop
  | _, [] => True
  | here, name :: rest =>
    config.skips (here.child name) name = false ∧ config.Shows (here.child name) rest

theorem shows_append {config : Config} {here : Path} {names more : List String} :
    config.Shows here (names ++ more) ↔
      config.Shows here names ∧ config.Shows (here.descend names) more := by
  induction names generalizing here with
  | nil => simp [Shows]
  | cons name rest ih => simp [Shows, ih, and_assoc]

end Config

namespace Folder

/-- The names lead to a source file that the walk shows. -/
def HasSource (config : Config) (here : Path) (d : Folder) (names : List String) : Prop :=
  (∃ f, d.at? names = some (.file f)) ∧ config.Shows here names ∧
    names.getLast?.any config.isSource = true

/-- Names lead on from the entry that the first of them has. -/
theorem at?_congr {d d' : Folder} {name : String} (same : d.find? name = d'.find? name)
    (more : List String) : d.at? (name :: more) = d'.at? (name :: more) := by
  rw [at?, at?, same]

theorem HasSource.ne_nil {config : Config} {here : Path} {d : Folder} {names : List String}
    (source : d.HasSource config here names) : names ≠ [] := by
  rintro rfl
  obtain ⟨⟨f, at_⟩, -⟩ := source
  simp [at?] at at_

/-- The sources among the other entries do not depend on an entry that is put before them. -/
theorem hasSource_rest (config : Config) (here : Path) {d rest : Folder} {name : String}
    (new : rest.find? name = none) (entries : ∀ n, n ≠ name → d.find? n = rest.find? n)
    (names : List String) : rest.HasSource config here names ↔
      d.HasSource config here names ∧ names.head? ≠ some name := by
  cases names with
  | nil => simp [HasSource, at?]
  | cons first more =>
    by_cases here : first = name
    · subst here
      simp [HasSource, at?, new]
    · simp [HasSource, at?_congr (entries first here) more, here]

/-- The sources of a folder are the files that names lead to all of which the walk shows. -/
theorem mem_sources_iff {config : Config} {d : Folder} (proper : d.Proper) {here p : Path} :
    p ∈ d.sources config here ↔ ∃ names, d.HasSource config here names ∧ p = here.descend names := by
  induction d generalizing here with
  | empty =>
    simp only [sources, List.not_mem_nil, false_iff]
    rintro ⟨names, source, -⟩
    obtain ⟨first, more, rfl⟩ := List.exists_cons_of_ne_nil source.ne_nil
    simp [HasSource, at?, find?] at source
  | file name f rest ih =>
    have others := hasSource_rest config here (d := .file name f rest)
      proper.2.1 fun n other => by simp [find?, Ne.symm other]
    have itself : (Folder.file name f rest).HasSource config here [name] ↔
        config.skips (here.child name) name = false ∧ config.isSource name = true := by
      simp [HasSource, at?, find?, Config.Shows]
    rw [sources, List.mem_append, ih proper.2.2]
    constructor
    · rintro (member | ⟨names, source, rfl⟩)
      · split at member
        · next shown =>
          refine ⟨[name], itself.mpr (by simpa using shown), by simpa using member⟩
        · simp at member
      · exact ⟨names, ((others names).mp source).1, rfl⟩
    · rintro ⟨names, source, rfl⟩
      obtain ⟨first, more, rfl⟩ := List.exists_cons_of_ne_nil source.ne_nil
      by_cases same : first = name
      · subst same
        obtain ⟨⟨g, at_⟩, -⟩ := id source
        obtain ⟨rfl, -⟩ : more = [] ∧ f = g := by simpa [at?, find?] using at_
        left
        simpa [and_comm] using itself.mp source
      · exact .inr ⟨_, (others _).mpr ⟨source, by simpa using same⟩, rfl⟩
  | folder name inside rest ih ih' =>
    have others := hasSource_rest config here (d := .folder name inside rest)
      proper.2.1 fun n other => by simp [find?, Ne.symm other]
    have below : ∀ more, (Folder.folder name inside rest).HasSource config here (name :: more) ↔
        config.skips (here.child name) name = false ∧
          inside.HasSource config (here.child name) more := by
      intro more
      cases more with
      | nil => simp [HasSource, at?, find?]
      | cons second more => simp [HasSource, at?, find?, Config.Shows]; tauto
    rw [sources, List.mem_append, ih' proper.2.2.2]
    constructor
    · rintro (member | ⟨names, source, rfl⟩)
      · split at member
        · simp at member
        · next shown =>
          obtain ⟨more, source, rfl⟩ := (ih proper.2.2.1).mp member
          exact ⟨name :: more, (below more).mpr ⟨by simpa using shown, source⟩, rfl⟩
      · exact ⟨names, ((others names).mp source).1, rfl⟩
    · rintro ⟨names, source, rfl⟩
      obtain ⟨first, more, rfl⟩ := List.exists_cons_of_ne_nil source.ne_nil
      by_cases same : first = name
      · subst same
        obtain ⟨shown, source⟩ := (below more).mp source
        left
        rw [if_neg (by simp [shown]), ih proper.2.2.1]
        exact ⟨more, source, rfl⟩
      · exact .inr ⟨_, (others _).mpr ⟨source, by simpa using same⟩, rfl⟩

/-- Names that lead to an item are names that entries can have. -/
theorem Proper.entries_of_at? {d : Folder} (proper : d.Proper) {names : List String} {item : Item}
    (found : d.at? names = some item) : ∀ name ∈ names, IsEntryName name := by
  induction names generalizing d with
  | nil => simp
  | cons name rest ih =>
    rw [at?] at found
    cases entry : d.find? name with
    | none => simp [entry] at found
    | some item' =>
      obtain ⟨first, below⟩ := proper.of_find? entry
      cases item' with
      | folder inside =>
        exact List.forall_mem_cons.mpr ⟨first, ih (below inside rfl) (by simpa [entry] using found)⟩
      | file f =>
        obtain ⟨rfl, -⟩ : rest = [] ∧ Item.file f = item := by simpa [entry] using found
        simpa using first

end Folder

/-- The sources below a root that is a folder. -/
theorem Workspace.mem_sources_iff {w : Workspace} (proper : w.disk.top.Proper) {inside : Folder}
    (found : w.disk.find w.root = .ok (.folder inside)) {p : Path} :
    p ∈ w.sources ↔ ∃ names, inside.HasSource w.config w.root names ∧ p = w.root.descend names := by
  obtain ⟨_, _, _, _, at_⟩ := Disk.find_eq_ok_iff.mp found
  rw [sources, found]
  exact Folder.mem_sources_iff (proper.of_at? at_)

/-- A file below the root is a source exactly when the walk shows the way to it. -/
theorem Workspace.descend_mem_sources_iff {w : Workspace} (proper : w.disk.top.Proper)
    {inside : Folder} (found : w.disk.find w.root = .ok (.folder inside)) {names : List String}
    {f : File} (at_ : inside.at? names = some (.file f)) : w.root.descend names ∈ w.sources ↔
      w.config.Shows w.root names ∧ names.getLast?.any w.config.isSource = true := by
  obtain ⟨_, _, started, _, at_root⟩ := Disk.find_eq_ok_iff.mp found
  have below := proper.of_at? at_root
  have filled : ∀ {names f}, inside.at? names = some (.file f) → names ≠ [] := by
    rintro _ f at_ rfl
    simp [Folder.at?] at at_
  rw [mem_sources_iff proper found]
  constructor
  · rintro ⟨others, source, same⟩
    obtain ⟨g, at_'⟩ := source.1
    obtain rfl := Path.descend_inj (Disk.ne_nil_of_start started) (filled at_) (filled at_')
      (below.entries_of_at? at_) (below.entries_of_at? at_') same
    exact source.2
  · intro shown
    exact ⟨names, ⟨⟨f, at_⟩, shown⟩, rfl⟩

end Registrar
