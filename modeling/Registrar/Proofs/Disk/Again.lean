import Mathlib.Data.List.TakeWhile
import Registrar.Proofs.Disk.Change
import Registrar.Proofs.Disk.Normal

/-!
Writing again. Whether a file or a folder can be written depends only on where the disk has folders and
where it has files. So what could be saved of preferences can be saved with other contents, on a disk
with the same folders and files, and once more after it has been saved.
-/

namespace Registrar

namespace Disk

variable {d d' d'' : Disk} {p : Path} {here names : List String} {t t' : Text}

/-- The disks have folders at the same places and files at the same places. -/
structure Alike (d d' : Disk) : Prop where
  here : d'.workingFolder = d.workingFolder
  kinds : ∀ ns, (d'.top.shape ns).map Option.isSome = (d.top.shape ns).map Option.isSome

/-- Both changes fail for the same reason, or lead to disks that are alike. -/
inductive SameOutcome : Except FileError Disk → Except FileError Disk → Prop where
  | ok {d d' : Disk} (alike : Alike d d') : SameOutcome (.ok d) (.ok d')
  | error (why : FileError) : SameOutcome (.error why) (.error why)

theorem Alike.refl (d : Disk) : Alike d d := ⟨rfl, fun _ => rfl⟩

theorem Alike.trans (first : Alike d d') (second : Alike d' d'') : Alike d d'' :=
  ⟨second.here.trans first.here, fun ns => (second.kinds ns).trans (first.kinds ns)⟩

/-- A file that is written over is still a file. -/
theorem Alters.alike {f g : File} (alters : Alters d d' names (some (some f)))
    (there : d.top.shape names = some (some g)) : Alike d d' := by
  refine ⟨alters.here, fun ns => ?_⟩
  rw [alters.shape]
  by_cases same : ns = names
  · simp [same, there]
  · rw [if_neg same]

theorem Alike.folder_iff (alike : Alike d d') (ns : List String) :
    d'.top.shape ns = some none ↔ d.top.shape ns = some none := by
  have kinds := alike.kinds ns
  constructor
  · intro folder
    rw [folder] at kinds
    cases shape : d.top.shape ns with
    | none => simp [shape] at kinds
    | some what => cases what <;> simp_all
  · intro folder
    rw [folder] at kinds
    cases shape : d'.top.shape ns with
    | none => simp [shape] at kinds
    | some what => cases what <;> simp_all

/-- At each place both disks have folders, files, or nothing. -/
theorem Alike.at?_cases (alike : Alike d d') (ns : List String) :
    (∃ inside inside', d.top.at? ns = some (.folder inside) ∧ d'.top.at? ns = some (.folder inside')) ∨
      (∃ f f', d.top.at? ns = some (.file f) ∧ d'.top.at? ns = some (.file f')) ∨
        (d.top.at? ns = none ∧ d'.top.at? ns = none) := by
  have kinds := alike.kinds ns
  rw [Folder.shape, Folder.shape] at kinds
  generalize d.top.at? ns = one at kinds ⊢
  generalize d'.top.at? ns = other at kinds ⊢
  rcases one with _ | _ | _ <;> rcases other with _ | _ | _ <;> simp [Item.file?] at kinds ⊢

theorem Alike.follow_eq (alike : Alike d d') (pieces : List Text) :
    follow d'.top here pieces = follow d.top here pieces := by
  induction pieces generalizing here with
  | nil => rfl
  | cons piece rest ih =>
    rw [follow, follow]
    rcases alike.at?_cases here with ⟨_, _, one, other⟩ | ⟨_, _, one, other⟩ | ⟨one, other⟩
    · simp only [one, other, ih]
    · simp only [one, other]
    · simp only [one, other]

theorem Alike.start_eq (alike : Alike d d') : d'.start p = d.start p := by
  rw [start, start, alike.here]

theorem Alike.locate_eq (alike : Alike d d') : d'.locate p = d.locate p := by
  rw [locate, locate, alike.start_eq]
  simp only [alike.follow_eq]

theorem Alike.place_eq (alike : Alike d d') : d'.place p = d.place p := by
  rw [place, place, alike.start_eq]
  simp only [alike.follow_eq]
  cases d.start p with
  | error why => rfl
  | ok start =>
    simp only [bind, Except.bind]
    split
    · cases follow d.top start (trimmedPieces p).1.dropLast with
      | error why => rfl
      | ok here =>
        dsimp only
        rcases alike.at?_cases here with ⟨_, _, one, other⟩ | ⟨_, _, one, other⟩ | ⟨one, other⟩ <;>
          simp only [one, other]
    · rfl

theorem Alike.canonical_eq (alike : Alike d d') : d'.canonical p = d.canonical p := by
  rw [canonical, canonical, alike.locate_eq]
  cases d.locate p with
  | error why => rfl
  | ok names =>
    simp only [bind, Except.bind]
    rcases alike.at?_cases names with ⟨_, _, one, other⟩ | ⟨_, _, one, other⟩ | ⟨one, other⟩ <;>
      simp only [one, other, Option.isSome_some]

theorem Alike.sameFile_eq (alike : Alike d d') {q : Path} : d'.sameFile p q = d.sameFile p q := by
  rw [sameFile, sameFile, alike.canonical_eq, alike.canonical_eq]

theorem Alike.isFolder_eq (alike : Alike d d') : d'.isFolder p = d.isFolder p := by
  rw [Bool.eq_iff_iff, isFolder_iff, isFolder_iff, alike.locate_eq]
  simp only [alike.folder_iff]

theorem Alike.isFile_eq (alike : Alike d d') : d'.isFile p = d.isFile p := by
  rw [Bool.eq_iff_iff, isFile_iff, isFile_iff, alike.locate_eq]
  simp only [Folder.shape_eq_file_iff]
  constructor
  · rintro ⟨ns, f, led, there⟩
    rcases alike.at?_cases ns with ⟨_, _, _, other⟩ | ⟨g, _, one, _⟩ | ⟨_, other⟩
    · simp [there] at other
    · exact ⟨ns, g, led, one⟩
    · simp [there] at other
  · rintro ⟨ns, f, led, there⟩
    rcases alike.at?_cases ns with ⟨_, _, one, _⟩ | ⟨_, g, _, other⟩ | ⟨one, _⟩
    · simp [there] at one
    · exact ⟨ns, g, led, other⟩
    · simp [there] at one

/-- The same kind of thing put at the same place keeps disks alike. -/
theorem Alike.put (alike : Alike d d') {n : String} {item item' : Item} (now now' : Nat)
    (folder : d.top.shape here = some none) (free : d.top.shape (here ++ [n]) ≠ some none)
    (bare : ∀ inside, item = .folder inside → inside = .empty)
    (bare' : ∀ inside, item' = .folder inside → inside = .empty)
    (kind : item'.file?.isSome = item.file?.isSome) :
    Alike { d with top := d.top.putAt (here ++ [n]) item, now := now }
      { d' with top := d'.top.putAt (here ++ [n]) item', now := now' } := by
  refine ⟨alike.here, fun ns => ?_⟩
  have free' : d'.top.shape (here ++ [n]) ≠ some none := fun folder =>
    free ((alike.folder_iff _).mp folder)
  simp only [Folder.shape_putAt folder free bare,
    Folder.shape_putAt ((alike.folder_iff _).mpr folder) free' bare']
  split
  · simp [kind]
  · exact alike.kinds ns

/-- The folder in which something is put is there. -/
theorem shape_of_place {n : String} (placed : d.place p = .ok (here, some n)) :
    d.top.shape here = some none := (exists_of_place placed).1

theorem Alike.write (alike : Alike d d') (p : Path) (t t' : Text) :
    SameOutcome (d.write p t) (d'.write p t') := by
  rw [Disk.write, Disk.write, alike.place_eq]
  cases placed : d.place p with
  | error why => exact .error why
  | ok place =>
    obtain ⟨here, n?⟩ := place
    cases n? with
    | none => exact .error _
    | some n =>
      simp only [bind, Except.bind]
      have folder := shape_of_place placed
      have put (free : d.top.shape (here ++ [n]) ≠ some none) : SameOutcome
          (if (trimmedPieces p).2 = true then throw .isDirectory else
            pure { d with top := d.top.putAt (here ++ [n]) (.file ⟨.text t, d.now⟩), now := d.now + 1 })
          (if (trimmedPieces p).2 = true then throw .isDirectory else
            pure { d' with
              top := d'.top.putAt (here ++ [n]) (.file ⟨.text t', d'.now⟩), now := d'.now + 1 }) := by
        split
        · exact .error _
        · exact .ok (alike.put _ _ folder free (by simp) (by simp) rfl)
      rcases alike.at?_cases (here ++ [n]) with ⟨_, _, one, other⟩ | ⟨f, _, one, other⟩ | ⟨one, other⟩
      · rw [one, other]
        exact .error _
      · rw [one, other]
        exact put (by simp [Folder.shape_eq_folder_iff, one])
      · rw [one, other]
        exact put (by simp [Folder.shape_eq_folder_iff, one])

theorem Alike.makeFolder (alike : Alike d d') (p : Path) :
    SameOutcome (d.makeFolder p) (d'.makeFolder p) := by
  rw [Disk.makeFolder, Disk.makeFolder, alike.place_eq]
  cases placed : d.place p with
  | error why => exact .error why
  | ok place =>
    obtain ⟨here, n?⟩ := place
    cases n? with
    | none => exact .error _
    | some n =>
      simp only [bind, Except.bind]
      have folder := shape_of_place placed
      rcases alike.at?_cases (here ++ [n]) with ⟨_, _, one, other⟩ | ⟨_, _, one, other⟩ | ⟨one, other⟩
      · simp only [one, other]
        exact .error _
      · simp only [one, other]
        exact .error _
      · simp only [one, other]
        refine .ok (alike.put d.now d'.now folder ?_ ?_ ?_ rfl)
        · simp [Folder.shape_eq_folder_iff, one]
        · rintro _ ⟨⟩
          rfl
        · rintro _ ⟨⟩
          rfl

theorem Alike.makeFoldersUp (alike : Alike d d') (paths : List Path) :
    SameOutcome (Disk.makeFoldersUp paths d) (Disk.makeFoldersUp paths d') := by
  induction paths generalizing d d' with
  | nil => exact .error _
  | cons p above ih =>
    have settle : ∀ {d d' : Disk} (e : FileError), Alike d d' →
        SameOutcome (if d.isFolder p then .ok d else .error e)
          (if d'.isFolder p then .ok d' else .error e) := by
      intro d d' e alike
      rw [alike.isFolder_eq]
      split
      · exact .ok alike
      · exact .error e
    rw [Disk.makeFoldersUp, Disk.makeFoldersUp]
    split
    · exact .ok alike
    · dsimp only
      have made := alike.makeFolder p
      generalize d.makeFolder p = one at made ⊢
      generalize d'.makeFolder p = other at made ⊢
      cases made with
      | ok alike => exact .ok alike
      | error why =>
        cases why with
        | notFound =>
          have up := ih alike
          dsimp only
          generalize Disk.makeFoldersUp above d = one at up ⊢
          generalize Disk.makeFoldersUp above d' = other at up ⊢
          cases up with
          | error why => exact .error why
          | @ok d d' alike =>
            have made := alike.makeFolder p
            dsimp only
            generalize d.makeFolder p = one at made ⊢
            generalize d'.makeFolder p = other at made ⊢
            cases made with
            | ok alike => exact .ok alike
            | error why => exact settle why ‹_›
        | _ => exact settle _ alike

/-! ### Once more -/

/-- Slashes at the end of a path are idle. -/
theorem exists_trimmed (p : Path) :
    ∃ idle, p.pieces = (trimmedPieces p).1 ++ idle ∧ ∀ piece ∈ idle, piece = [] := by
  refine ⟨(p.pieces.reverse.takeWhile List.isEmpty).reverse, ?_, ?_⟩
  · rw [trimmedPieces, ← List.reverse_append, List.takeWhile_append_dropWhile, List.reverse_reverse]
  · intro piece member
    simpa using List.mem_takeWhile_imp (List.mem_reverse.mp member)

/-- Idle pieces lead from a folder to itself. -/
theorem follow_idle {idle : List Text} (empty : ∀ piece ∈ idle, piece = [])
    (folder : d.top.shape here = some none) : follow d.top here idle = .ok here := by
  obtain ⟨inside, at_⟩ := Folder.shape_eq_folder_iff.mp folder
  induction idle with
  | nil => rfl
  | cons piece rest ih =>
    obtain rfl := empty piece (by simp)
    simp only [follow, at_, Path.component?, Path.isIdle, List.isEmpty_nil, Bool.true_or, if_true]
    exact ih fun piece member => empty piece (by simp [member])

theorem place_eq_ok_iff {n : String} : d.place p = .ok (here, some n) ↔ ∃ start front piece,
    (trimmedPieces p).1 = front ++ [piece] ∧ Path.component? piece = some (.name n) ∧
      d.start p = .ok start ∧ follow d.top start front = .ok here ∧
        d.top.shape here = some none := by
  constructor
  · intro placed
    have folder := shape_of_place placed
    rw [place] at placed
    cases started : d.start p with
    | error why => simp [started, bind, Except.bind] at placed
    | ok start =>
      simp only [started, bind, Except.bind] at placed
      split at placed
      · next n' named =>
        obtain ⟨piece, last, step⟩ := Option.bind_eq_some_iff.mp named
        obtain ⟨front, split⟩ := List.getLast?_eq_some_iff.mp last
        rw [split, List.dropLast_concat] at placed
        cases followed : follow d.top start front with
        | error why => simp [followed] at placed
        | ok there =>
          rw [followed] at placed
          dsimp only at placed
          split at placed
          · obtain ⟨rfl, rfl⟩ : there = here ∧ n' = n := by simpa [pure, Except.pure] using placed
            exact ⟨start, front, piece, split, step, rfl, followed, folder⟩
          · simp [throw, throwThe, MonadExceptOf.throw] at placed
          · simp [throw, throwThe, MonadExceptOf.throw] at placed
      · cases followed : follow d.top start (trimmedPieces p).1 with
        | error why => simp [followed] at placed
        | ok there => simp [followed, pure, Except.pure] at placed
  · rintro ⟨start, front, piece, split, step, started, followed, folder⟩
    obtain ⟨inside, at_⟩ := Folder.shape_eq_folder_iff.mp folder
    simp [place, split, step, started, followed, at_, bind, Except.bind, pure, Except.pure]

/-- Where a name can be put, it can still be put when there are more folders. -/
theorem Grows.place (grows : Grows d d') {n : String} (placed : d.place p = .ok (here, some n)) :
    d'.place p = .ok (here, some n) := by
  obtain ⟨start, front, piece, split, step, started, followed, folder⟩ := place_eq_ok_iff.mp placed
  refine place_eq_ok_iff.mpr ⟨start, front, piece, split, step, ?_, grows.follow followed,
    grows.folders here folder⟩
  rw [← started, Disk.start, Disk.start, grows.here]

/-- What has been put somewhere is found where the path leads, if it is a folder. -/
theorem locate_of_place {n : String} (placed : d.place p = .ok (here, some n))
    (folder : d.top.shape (here ++ [n]) = some none) : d.locate p = .ok (here ++ [n]) := by
  obtain ⟨start, front, piece, split, step, started, followed, above⟩ := place_eq_ok_iff.mp placed
  obtain ⟨idle, pieces, empty⟩ := exists_trimmed p
  obtain ⟨inside, at_⟩ := Folder.shape_eq_folder_iff.mp above
  have stepped : follow d.top here [piece] = .ok (here ++ [n]) := by simp only [follow, at_, step]
  refine locate_eq_ok_iff.mpr ⟨start, started, ?_⟩
  rw [pieces, split, follow_append, follow_append, followed]
  simp only [Except.bind, stepped]
  exact follow_idle empty folder

theorem isFolder_of_makeFolder (made : d.makeFolder p = .ok d') : d'.isFolder p = true := by
  obtain ⟨here, n, placed, alters, _⟩ := exists_of_makeFolder made
  have folder : d'.top.shape (here ++ [n]) = some none := by rw [alters.shape, if_pos rfl]
  exact isFolder_iff.mpr ⟨_, locate_of_place (alters.grows.place placed) folder, folder⟩

/-- Where a path leads with the slashes at its end, it leads without them. -/
theorem follow_trimmed {start : List String} (followed : follow d.top start p.pieces = .ok names) :
    follow d.top start (trimmedPieces p).1 = .ok names := by
  obtain ⟨idle, pieces, empty⟩ := exists_trimmed p
  rw [pieces, follow_append] at followed
  cases reached : follow d.top start (trimmedPieces p).1 with
  | error why => simp [reached, Except.bind] at followed
  | ok there =>
    simp only [reached, Except.bind] at followed
    cases idle with
    | nil => exact followed
    | cons piece rest =>
      rw [← followed, follow_idle empty (shape_eq_folder_of_follow followed)]

/-- A path leads to an entry of the folder in which it puts things, or it ends in no name and leads to
a folder. -/
theorem place_of_locate (led : d.locate p = .ok names) :
    (∃ here n, names = here ++ [n] ∧ d.place p = .ok (here, some n)) ∨
      (d.place p = .ok (names, none) ∧ d.top.shape names = some none) := by
  obtain ⟨start, started, followed⟩ := locate_eq_ok_iff.mp led
  have reached := follow_trimmed followed
  have nameless : ((trimmedPieces p).1.getLast?.bind Path.component? = none ∨
      (trimmedPieces p).1.getLast?.bind Path.component? = some .up) →
        d.place p = .ok (names, none) := by
    rintro (none_ | up)
    · simp [place, none_, started, reached, bind, Except.bind, pure, Except.pure]
    · simp [place, up, started, reached, bind, Except.bind, pure, Except.pure]
  rcases List.eq_nil_or_concat' (trimmedPieces p).1 with none_ | ⟨front, piece, split⟩
  · right
    refine ⟨nameless (.inl (by rw [none_]; rfl)), ?_⟩
    obtain ⟨idle, pieces, empty⟩ := exists_trimmed p
    rw [none_, follow, Except.ok.injEq] at reached
    subst reached
    rw [none_, List.nil_append] at pieces
    cases idle with
    | nil => exact absurd pieces (Text.splitOn_ne_nil _ _)
    | cons piece rest =>
      rw [pieces] at followed
      exact shape_eq_folder_of_follow followed
  · rw [split, follow_append] at reached
    cases followed : follow d.top start front with
    | error why => simp [followed, Except.bind] at reached
    | ok here =>
      simp only [followed, Except.bind] at reached
      have above := shape_eq_folder_of_follow reached
      obtain ⟨inside, at_⟩ := Folder.shape_eq_folder_iff.mp above
      rw [split, List.getLast?_concat, Option.bind_some] at nameless
      simp only [follow, at_] at reached
      rcases Path.component?_cases piece with idle | up | ⟨n, named⟩
      · rw [idle, Except.ok.injEq] at reached
        subst reached
        exact .inr ⟨nameless (.inl idle), above⟩
      · rw [up, Except.ok.injEq] at reached
        subst reached
        refine .inr ⟨nameless (.inr up), ?_⟩
        rcases List.eq_nil_or_concat' here with rfl | ⟨front, n, rfl⟩
        · rfl
        · rw [List.dropLast_concat]
          exact Folder.shape_of_append above (by simp)
      · rw [named, Except.ok.injEq] at reached
        exact .inl ⟨here, n, reached.symm,
          place_eq_ok_iff.mpr ⟨start, front, piece, split, named, started, followed, above⟩⟩

/-- A folder that is there cannot be made, and nothing above it is missing. -/
theorem makeFolder_of_isFolder (there : d.isFolder p = true) :
    d.makeFolder p = .error .alreadyExists := by
  obtain ⟨names, led, folder⟩ := isFolder_iff.mp there
  obtain ⟨inside, at_⟩ := Folder.shape_eq_folder_iff.mp folder
  rw [makeFolder]
  rcases place_of_locate led with ⟨here, n, rfl, placed⟩ | ⟨placed, -⟩
  · simp [placed, at_, bind, Except.bind, throw, throwThe, MonadExceptOf.throw]
  · simp [placed, bind, Except.bind, throw, throwThe, MonadExceptOf.throw]

/-- Where there is a folder already, making it changes nothing. -/
theorem makeFoldersUp_eq_self {above : List Path} (there : d.isFolder p = true) :
    makeFoldersUp (p :: above) d = .ok d := by
  rw [makeFoldersUp, makeFolder_of_isFolder there]
  simp [there]

/-- Folders that have been made are there, but for the top, which is no entry. -/
theorem isFolder_of_makeFoldersUp {above : List Path}
    (made : makeFoldersUp (p :: above) d = .ok d') :
    p.components.isEmpty = true ∨ d'.isFolder p = true := by
  have settled : ∀ {d : Disk} {e : FileError},
      (if d.isFolder p then .ok d else .error e) = Except.ok d' → d'.isFolder p = true := by
    intro d e settled
    split at settled
    · next there =>
      obtain rfl := Except.ok.inj settled
      exact there
    · cases settled
  rw [makeFoldersUp] at made
  split at made
  · next top => exact .inl top
  · right
    dsimp only at made
    split at made
    · next one =>
      obtain rfl := Except.ok.inj made
      exact isFolder_of_makeFolder one
    · split at made
      · cases made
      · split at made
        · next one =>
          obtain rfl := Except.ok.inj made
          exact isFolder_of_makeFolder one
        · exact settled made
    · exact settled made

theorem exists_ancestors_eq_cons (p : Path) : ∃ above, p.ancestors = p :: above := by
  rw [Path.ancestors]
  cases p.components.length with
  | zero => exact ⟨[], rfl⟩
  | succ n =>
    rw [Path.ancestorsUpTo]
    split
    · exact ⟨[], rfl⟩
    · exact ⟨_, rfl⟩

/-- A folder that has been made with those above it is there. -/
theorem isFolder_of_makeFolders (made : d.makeFolders p = .ok d') :
    p.components.isEmpty = true ∨ d'.isFolder p = true := by
  obtain ⟨above, paths⟩ := exists_ancestors_eq_cons p
  rw [makeFolders, paths] at made
  exact isFolder_of_makeFoldersUp made

/-- Folders that have been made need not be made again when there are more folders. -/
theorem Grows.makeFolders_eq_self (grows : Grows d' d'') (made : d.makeFolders p = .ok d') :
    d''.makeFolders p = .ok d'' := by
  obtain ⟨above, paths⟩ := exists_ancestors_eq_cons p
  rw [makeFolders, paths]
  rcases isFolder_of_makeFolders made with top | there
  · rw [makeFoldersUp, if_pos top]
  · refine makeFoldersUp_eq_self (isFolder_iff.mpr ?_)
    obtain ⟨names, led, folder⟩ := isFolder_iff.mp there
    exact ⟨names, grows.locate led, grows.folders names folder⟩

/-- A path that leads to a file has no slash at its end. -/
theorem trimmed_of_isFile (there : d.isFile p = true) : (trimmedPieces p).2 = false := by
  obtain ⟨names, f, led, file⟩ := isFile_iff.mp there
  obtain ⟨start, started, followed⟩ := locate_eq_ok_iff.mp led
  obtain ⟨idle, pieces, empty⟩ := exists_trimmed p
  have reached := follow_trimmed followed
  rw [pieces, follow_append, reached] at followed
  cases idle with
  | nil =>
    rw [List.append_nil] at pieces
    have same : (trimmedPieces p).2 = ((trimmedPieces p).1.length != p.pieces.length) := rfl
    rw [same, ← pieces, bne_self_eq_false]
  | cons piece rest =>
    have folder := shape_eq_folder_of_follow followed
    simp [file] at folder

/-- No file goes when folders are made and a file is written. -/
theorem Agrees.isFile_of_alters {above : Disk} {f : File} (folders : Agrees (fun _ => False) d above)
    (alters : Alters above d' names (some (some f))) (there : d.isFile p = true) :
    d'.isFile p = true := by
  obtain ⟨ns, g, led, here⟩ := isFile_iff.mp there
  have here' := (folders.files ns id g).mpr here
  by_cases same : ns = names
  · exact isFile_iff.mpr ⟨ns, _, alters.grows.locate (folders.locate led),
      by rw [alters.shape, if_pos same]⟩
  · exact isFile_iff.mpr ⟨ns, g, alters.grows.locate (folders.locate led),
      by rw [alters.shape, if_neg same, here']⟩

/-- A file that is there can be written over. -/
theorem exists_write_of_isFile (there : d.isFile p = true) (t : Text) : ∃ d', d.write p t = .ok d' := by
  obtain ⟨names, f, led, file⟩ := isFile_iff.mp there
  have at_ := Folder.shape_eq_file_iff.mp file
  rcases place_of_locate led with ⟨here, n, rfl, placed⟩ | ⟨-, folder⟩
  · exact ⟨_, by simp [write, placed, at_, trimmed_of_isFile there, bind, Except.bind]; rfl⟩
  · simp [file] at folder

end Disk

namespace Store

open Disk

variable {s : Store} {d d' : Disk}

/-- Preferences are saved by making the folders above their file and then writing it. -/
theorem save_eq_ok_iff {file : Path} (kept : s.file? = some file) : s.save d = (.ok (), d') ↔
    ∃ d₁, file.parent?.elim (.ok d) d.makeFolders = .ok d₁ ∧
      d₁.write file s.preferences.text = .ok d' := by
  rw [save, kept]
  dsimp only
  cases file.parent?.elim (.ok d) d.makeFolders with
  | error why => simp
  | ok d₁ =>
    cases written : d₁.write file s.preferences.text with
    | error why => simp [written]
    | ok d₂ => simp [written]

/-- No file goes when preferences are saved. -/
theorem isFile_of_save (saved : s.save d = (.ok (), d')) {p : Path} (there : d.isFile p = true) :
    d'.isFile p = true := by
  cases kept : s.file? with
  | none =>
    obtain rfl : d = d' := by simpa [save, kept] using saved
    exact there
  | some file =>
    obtain ⟨above, made, written⟩ := (save_eq_ok_iff kept).mp saved
    obtain ⟨names, alters, led⟩ := exists_of_write written
    exact (agrees_of_parent made).isFile_of_alters alters there

/-- Other preferences are saved as well on a disk that is alike. -/
theorem exists_save_of_alike (alike : Alike d d') {d₁ : Disk} (saved : s.save d = (.ok (), d₁))
    (p : Preferences) :
    ∃ d₂, { s with preferences := p }.save d' = (.ok (), d₂) ∧ Alike d₁ d₂ := by
  cases kept : s.file? with
  | none =>
    simp only [save, kept, Prod.mk.injEq, true_and] at saved ⊢
    exact ⟨d', rfl, saved ▸ alike⟩
  | some file =>
    obtain ⟨above, made, written⟩ := (save_eq_ok_iff kept).mp saved
    have folders : SameOutcome (file.parent?.elim (.ok d) d.makeFolders)
        (file.parent?.elim (.ok d') d'.makeFolders) := by
      cases file.parent? with
      | none => exact .ok alike
      | some folder => exact alike.makeFoldersUp folder.ancestors
    rw [made] at folders
    generalize made' : file.parent?.elim (.ok d') d'.makeFolders = other at folders
    cases folders with
    | @ok _ above' alike =>
      have file_ := alike.write file s.preferences.text p.text
      rw [written] at file_
      generalize written' : above'.write file p.text = other at file_
      cases file_ with
      | @ok _ d₂ alike =>
        exact ⟨d₂, (save_eq_ok_iff rfl).mpr ⟨above', made', written'⟩, alike⟩

/-- What has been saved can be saved again, with other preferences, and no file comes or goes. -/
theorem exists_save_again (saved : s.save d = (.ok (), d')) (p : Preferences) :
    ∃ d'', { s with preferences := p }.save d' = (.ok (), d'') ∧ Alike d' d'' := by
  cases kept : s.file? with
  | none => exact ⟨d', by simp [save], .refl d'⟩
  | some file =>
    obtain ⟨above, made, written⟩ := (save_eq_ok_iff kept).mp saved
    obtain ⟨names, alters, led⟩ := exists_of_write written
    obtain ⟨f, there⟩ : ∃ f, d'.top.shape names = some (some f) :=
      ⟨_, by rw [alters.shape, if_pos rfl]⟩
    obtain ⟨d'', written'⟩ := exists_write_of_isFile (isFile_iff.mpr ⟨names, _, led, there⟩) p.text
    have alike := (alters_of_write written' led).alike there
    refine ⟨d'', (save_eq_ok_iff rfl).mpr ⟨d', ?_, written'⟩, alike⟩
    cases parent : file.parent? with
    | none => rfl
    | some folder =>
      rw [parent] at made
      exact alters.grows.makeFolders_eq_self made

end Store
end Registrar
