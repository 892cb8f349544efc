import Registrar.Proofs.Disk.Shape
import Registrar.Proofs.Specifier
import Registrar.Preferences.Store

/-!
Changes of a disk. To write or remove a file changes what stands at one place, and folders stay
folders, so that every path leads where it led before. What is kept of preferences is written at
their own place, and but for that place the files stay as they are.
-/

namespace Registrar

theorem toOption_eq_some_iff {ε α : Type} {e : Except ε α} {a : α} :
    e.toOption = some a ↔ e = .ok a := by
  cases e <;> simp [Except.toOption]

namespace Disk

variable {d d' d'' : Disk} {p q : Path} {names ns here : List String} {t : Text} {f : File}

/-- Both paths lead to the same place. -/
def Meet (d : Disk) (p q : Path) : Prop := ∃ names, d.locate p = .ok names ∧ d.locate q = .ok names

theorem meet_iff : d.Meet p q ↔ (d.locate p).isOk ∧ d.locate q = d.locate p := by
  constructor
  · rintro ⟨names, led, led'⟩
    exact ⟨by rw [led]; rfl, led'.trans led.symm⟩
  · rintro ⟨is_ok, same⟩
    cases led : d.locate p with
    | error why => simp [led, Except.isOk, Except.toBool] at is_ok
    | ok names => exact ⟨names, led, same.trans led⟩

instance (d : Disk) (p q : Path) : Decidable (d.Meet p q) := decidable_of_iff _ meet_iff.symm

/-- The second disk has every folder of the first. -/
structure Grows (d d' : Disk) : Prop where
  here : d'.workingFolder = d.workingFolder
  folders : ∀ ns, d.top.shape ns = some none → d'.top.shape ns = some none

/-- The second disk is the first with something else at one place, where no folder was. -/
structure Alters (d d' : Disk) (names : List String) (what : Option (Option File)) : Prop where
  here : d'.workingFolder = d.workingFolder
  free : d.top.shape names ≠ some none
  shape : ∀ ns, d'.top.shape ns = if ns = names then what else d.top.shape ns
  sound : d.top.Sound → d'.top.Sound

/-- The second disk has the folders of the first, and the same files but where they are spared. -/
structure Agrees (spared : List String → Prop) (d d' : Disk) : Prop extends Grows d d' where
  files : ∀ ns, ¬spared ns → ∀ f, d'.top.shape ns = some (some f) ↔ d.top.shape ns = some (some f)
  sound : d.top.Sound → d'.top.Sound

/-! ### Where paths lead -/

theorem shape_eq_folder_of_follow {here : List String} {piece : Text} {pieces : List Text}
    (followed : follow d.top here (piece :: pieces) = .ok names) :
    d.top.shape here = some none := by
  rw [follow] at followed
  split at followed
  · next inside folder => exact Folder.shape_eq_folder_iff.mpr ⟨inside, folder⟩
  · simp at followed
  · simp at followed

/-- Pieces that lead somewhere lead there still when there are more folders. -/
theorem Grows.follow (grows : Grows d d') {pieces : List Text}
    (followed : follow d.top here pieces = .ok names) : follow d'.top here pieces = .ok names := by
  induction pieces generalizing here with
  | nil => exact followed
  | cons piece rest ih =>
    obtain ⟨inside, folder⟩ := Folder.shape_eq_folder_iff.mp (shape_eq_folder_of_follow followed)
    obtain ⟨inside', folder'⟩ := Folder.shape_eq_folder_iff.mp
      (grows.folders here (shape_eq_folder_of_follow followed))
    simp only [Disk.follow, folder] at followed
    simp only [Disk.follow, folder']
    split at followed
    · exact ih followed
    · exact ih followed
    · exact ih followed

theorem Grows.locate (grows : Grows d d') (led : d.locate p = .ok names) :
    d'.locate p = .ok names := by
  obtain ⟨here, started, followed⟩ := locate_eq_ok_iff.mp led
  refine locate_eq_ok_iff.mpr ⟨here, ?_, grows.follow followed⟩
  rw [← started, start, start, grows.here]

theorem isFile_iff : d.isFile p = true ↔
    ∃ names f, d.locate p = .ok names ∧ d.top.shape names = some (some f) := by
  simp only [Folder.shape_eq_file_iff]
  rw [isFile]
  constructor
  · intro there
    split at there
    · next f found =>
      obtain ⟨names, led, at_⟩ := find_eq_ok_iff_locate.mp found
      exact ⟨names, f, led, at_⟩
    · simp at there
  · rintro ⟨names, f, led, at_⟩
    rw [find_eq_ok_iff_locate.mpr ⟨names, led, at_⟩]

theorem isFolder_iff : d.isFolder p = true ↔
    ∃ names, d.locate p = .ok names ∧ d.top.shape names = some none := by
  simp only [Folder.shape_eq_folder_iff]
  rw [isFolder]
  constructor
  · intro there
    split at there
    · next inside found =>
      obtain ⟨names, led, at_⟩ := find_eq_ok_iff_locate.mp found
      exact ⟨names, led, inside, at_⟩
    · simp at there
  · rintro ⟨names, led, inside, at_⟩
    rw [find_eq_ok_iff_locate.mpr ⟨names, led, at_⟩]

/-- The text of a path is that of the file to which it leads. -/
theorem readText_eq_ok_iff : d.readText p = .ok t ↔
    ∃ names moment, d.locate p = .ok names ∧ d.top.shape names = some (some ⟨.text t, moment⟩) := by
  simp only [Folder.shape_eq_file_iff]
  rw [readText, file]
  constructor
  · intro read
    cases found : d.find p with
    | error why => simp [found, bind, Except.bind] at read
    | ok item =>
      obtain ⟨names, led, at_⟩ := find_eq_ok_iff_locate.mp found
      cases item with
      | folder inside => simp [found, bind, Except.bind, throw, throwThe, MonadExceptOf.throw] at read
      | file f =>
        obtain ⟨contents, moment⟩ := f
        cases contents with
        | text t' =>
          obtain rfl : t' = t := by simpa [found, bind, Except.bind, pure, Except.pure] using read
          exact ⟨names, moment, led, at_⟩
        | bytes b =>
          simp [found, bind, Except.bind, pure, Except.pure, throw, throwThe,
            MonadExceptOf.throw] at read
  · rintro ⟨names, moment, led, at_⟩
    rw [find_eq_ok_iff_locate.mpr ⟨names, led, at_⟩]
    rfl

theorem isFile_of_readText (read : d.readText p = .ok t) : d.isFile p = true := by
  obtain ⟨names, _, led, there⟩ := readText_eq_ok_iff.mp read
  exact isFile_iff.mpr ⟨names, _, led, there⟩

theorem readText?_eq_some_iff : d.readText? p = some t ↔ d.readText p = .ok t :=
  toOption_eq_some_iff

/-- The text at a place that is not spared is the one that was there before. -/
theorem Agrees.readText? {spared : List String → Prop} (agrees : Agrees spared d d')
    (led : d.locate p = .ok names) (kept : ¬spared names) :
    d'.readText? p = some t ↔ d.readText? p = some t := by
  rw [readText?_eq_some_iff, readText?_eq_some_iff, readText_eq_ok_iff, readText_eq_ok_iff]
  constructor
  · rintro ⟨ns, moment, led', there⟩
    obtain rfl : names = ns := Except.ok.inj ((agrees.locate led).symm.trans led')
    exact ⟨names, moment, led, (agrees.files names kept _).mp there⟩
  · rintro ⟨ns, moment, led', there⟩
    obtain rfl : names = ns := Except.ok.inj (led.symm.trans led')
    exact ⟨names, moment, agrees.locate led, (agrees.files names kept _).mpr there⟩

/-! ### One place -/

theorem Alters.grows {what : Option (Option File)} (alters : Alters d d' names what) :
    Grows d d' where
  here := alters.here
  folders ns folder := by
    rw [alters.shape, if_neg, folder]
    rintro rfl
    exact alters.free folder

theorem Alters.agrees {what : Option (Option File)} (alters : Alters d d' names what) :
    Agrees (· = names) d d' where
  toGrows := alters.grows
  files ns other f := by rw [alters.shape, if_neg other]
  sound := alters.sound

/-- A file that is written anew is still the same file, and nothing else changes its place. -/
theorem Alters.isFile_eq (alters : Alters d d' names (some (some f))) {g : File}
    (there : d.top.shape names = some (some g)) (p : Path) : d'.isFile p = d.isFile p := by
  have back : Grows d' d := by
    refine ⟨alters.here.symm, fun ns folder => ?_⟩
    rw [alters.shape] at folder
    split at folder
    · simp at folder
    · exact folder
  have same : ∀ ns, (∃ f, d'.top.shape ns = some (some f)) ↔ ∃ f, d.top.shape ns = some (some f) := by
    intro ns
    rw [alters.shape]
    split
    · next at_ => simp [at_, there]
    · rfl
  rw [Bool.eq_iff_iff, isFile_iff, isFile_iff]
  constructor
  · rintro ⟨ns, f, led, file⟩
    obtain ⟨g, file⟩ := (same ns).mp ⟨f, file⟩
    exact ⟨ns, g, back.locate led, file⟩
  · rintro ⟨ns, f, led, file⟩
    obtain ⟨g, file⟩ := (same ns).mpr ⟨f, file⟩
    exact ⟨ns, g, alters.grows.locate led, file⟩

/-- A piece that is a name is a name that entries can have. -/
theorem isEntryName_of_component? {piece : Text} {n : String} (whole : '/' ∉ piece)
    (step : Path.component? piece = some (.name n)) : IsEntryName n := by
  have same : n.toList = piece := by
    rw [Path.component?] at step
    split at step
    · simp at step
    · split at step
      · simp at step
      · simp only [Option.some.injEq, Component.name.injEq] at step
        rw [← step, String.toList_ofList]
  exact ⟨by rw [same, step], by rwa [same]⟩

/-- What stands in the last place of a path. -/
theorem exists_of_place {n : String} (placed : d.place p = .ok (here, some n)) :
    d.top.shape here = some none ∧ IsEntryName n ∧
      ((trimmedPieces p).2 = false → ∃ start pieces piece, p.pieces = pieces ++ [piece] ∧
        d.start p = .ok start ∧ follow d.top start pieces = .ok here ∧
          Path.component? piece = some (.name n)) := by
  rw [place] at placed
  cases started : d.start p with
  | error why => simp [started, bind, Except.bind] at placed
  | ok start =>
    simp only [started, bind, Except.bind] at placed
    split at placed
    · next n' named =>
      obtain ⟨piece, last, step⟩ := Option.bind_eq_some_iff.mp named
      obtain ⟨pieces, split⟩ := List.getLast?_eq_some_iff.mp last
      rw [split, List.dropLast_concat] at placed
      cases followed : follow d.top start pieces with
      | error why => simp [followed] at placed
      | ok there =>
        simp only [followed] at placed
        split at placed
        · next inside folder =>
          obtain ⟨rfl, rfl⟩ : there = here ∧ n' = n := by
            simpa [pure, Except.pure] using placed
          have trimmed : p.pieces.reverse.dropWhile List.isEmpty <:+ p.pieces.reverse :=
            List.dropWhile_suffix _
          have member : piece ∈ p.pieces := by
            have inside : piece ∈ (trimmedPieces p).1 := by simp [split]
            exact List.mem_reverse.mp (trimmed.subset (List.mem_reverse.mp inside))
          refine ⟨Folder.shape_eq_folder_iff.mpr ⟨inside, folder⟩,
            isEntryName_of_component? (fun slash => ?_) step, fun flat => ?_⟩
          · simpa using Text.not_mem_of_mem_splitOn member '/' slash
          · refine ⟨start, pieces, piece, ?_, rfl, followed, step⟩
            have length : (trimmedPieces p).1.length = p.pieces.length := by
              simpa [trimmedPieces] using flat
            rw [← split, trimmedPieces, trimmed.eq_of_length (by simpa [trimmedPieces] using length),
              List.reverse_reverse]
        · simp [throw, throwThe, MonadExceptOf.throw] at placed
        · simp [throw, throwThe, MonadExceptOf.throw] at placed
    · cases followed : follow d.top start (trimmedPieces p).1 with
      | error why => simp [followed] at placed
      | ok there => simp [followed, pure, Except.pure] at placed

/-- A file that is written stands at its place, and the path leads there. -/
theorem exists_of_write (written : d.write p t = .ok d') : ∃ names,
    Alters d d' names (some (some ⟨.text t, d.now⟩)) ∧ d'.locate p = .ok names := by
  rw [write] at written
  cases placed : d.place p with
  | error why => simp [placed, bind, Except.bind] at written
  | ok place =>
    obtain ⟨here, n?⟩ := place
    simp only [placed, bind, Except.bind] at written
    cases n? with
    | none => simp [throw, throwThe, MonadExceptOf.throw] at written
    | some n =>
      obtain ⟨folder, entry, flat⟩ := exists_of_place placed
      dsimp only at written
      split at written
      · simp [throw, throwThe, MonadExceptOf.throw] at written
      · next other =>
        split at written
        · simp [throw, throwThe, MonadExceptOf.throw] at written
        · next flat_ =>
          obtain ⟨start, pieces, piece, split, started, followed, step⟩ := flat (by simpa using flat_)
          obtain rfl := Except.ok.inj written
          have free : d.top.shape (here ++ [n]) ≠ some none := by
            intro folder
            obtain ⟨inside, at_⟩ := Folder.shape_eq_folder_iff.mp folder
            exact other inside at_
          have alters : Alters d { d with
              top := d.top.putAt (here ++ [n]) (.file ⟨.text t, d.now⟩), now := d.now + 1 }
              (here ++ [n]) (some (some ⟨.text t, d.now⟩)) := {
            here := rfl
            free
            shape := Folder.shape_putAt folder free (by simp)
            sound := fun sound => by
              dsimp only
              rw [Folder.putAt_concat]
              exact sound.within (fun d sound => sound.put entry (by simp)) here }
          refine ⟨here ++ [n], alters, locate_eq_ok_iff.mpr ⟨start, started, ?_⟩⟩
          obtain ⟨inside, at_⟩ := Folder.shape_eq_folder_iff.mp (alters.grows.folders here folder)
          rw [split, follow_append, alters.grows.follow followed]
          simp only [Except.bind, Disk.follow, at_, step]

/-- What has been written is read. -/
theorem readText_of_write (written : d.write p t = .ok d') : d'.readText p = .ok t := by
  obtain ⟨names, alters, led⟩ := exists_of_write written
  exact readText_eq_ok_iff.mpr ⟨names, d.now, led, by rw [alters.shape, if_pos rfl]⟩

/-- A file that is written over stays where it is. -/
theorem alters_of_write (written : d.write p t = .ok d') (led : d.locate p = .ok names) :
    Alters d d' names (some (some ⟨.text t, d.now⟩)) := by
  obtain ⟨there, alters, led'⟩ := exists_of_write written
  obtain rfl : names = there := Except.ok.inj ((alters.grows.locate led).symm.trans led')
  exact alters

/-- A file that is there can be removed, and then it is gone. -/
theorem exists_of_isFile (sound : d.top.Sound) (led : d.locate p = .ok names)
    (file : d.top.shape names = some (some f)) :
    ∃ d', d.remove p = .ok d' ∧ Alters d d' names none := by
  have at_ := Folder.shape_eq_file_iff.mp file
  rcases List.eq_nil_or_concat' names with rfl | ⟨here, n, rfl⟩
  · simp [Folder.at?] at at_
  · refine ⟨{ d with top := d.top.eraseAt (here ++ [n]) }, ?_, {
      here := rfl
      free := by simp [file]
      shape := sound.shape_eraseAt file
      sound := fun sound => by
        dsimp only
        rw [Folder.eraseAt_concat]
        exact sound.within (fun d sound => sound.erase n) here }⟩
    simp only [remove, led, bind, Except.bind, at_]
    rfl

/-- A folder that is made stands empty at its place, where nothing was. -/
theorem exists_of_makeFolder (made : d.makeFolder p = .ok d') : ∃ here n,
    d.place p = .ok (here, some n) ∧ Alters d d' (here ++ [n]) (some none) ∧
      d.top.shape (here ++ [n]) = none := by
  rw [makeFolder] at made
  cases placed : d.place p with
  | error why => simp [placed, bind, Except.bind] at made
  | ok place =>
    obtain ⟨here, n?⟩ := place
    simp only [placed, bind, Except.bind] at made
    cases n? with
    | none => simp [throw, throwThe, MonadExceptOf.throw] at made
    | some n =>
      obtain ⟨folder, entry, -⟩ := exists_of_place placed
      dsimp only at made
      split at made
      · simp [throw, throwThe, MonadExceptOf.throw] at made
      · next nothing =>
        obtain rfl := Except.ok.inj made
        have free : d.top.shape (here ++ [n]) = none := by
          rw [Folder.shape]
          simpa using nothing
        refine ⟨here, n, rfl, {
          here := rfl
          free := by simp [free]
          shape := Folder.shape_putAt folder (by simp [free]) (by simp)
          sound := fun sound => by
            dsimp only
            rw [Folder.putAt_concat]
            refine sound.within (fun d sound => sound.put entry ?_) here
            rintro _ ⟨⟩
            exact Folder.sound_empty }, free⟩

/-! ### One after another -/

theorem Grows.refl (d : Disk) : Grows d d := ⟨rfl, fun _ folder => folder⟩

theorem Grows.trans (first : Grows d d') (second : Grows d' d'') : Grows d d'' where
  here := second.here.trans first.here
  folders ns folder := second.folders ns (first.folders ns folder)

theorem Agrees.refl (spared : List String → Prop) (d : Disk) : Agrees spared d d where
  toGrows := .refl d
  files _ _ _ := Iff.rfl
  sound := id

theorem Agrees.trans {spared : List String → Prop} (first : Agrees spared d d')
    (second : Agrees spared d' d'') : Agrees spared d d'' where
  toGrows := first.toGrows.trans second.toGrows
  files ns other f := (second.files ns other f).trans (first.files ns other f)
  sound := second.sound ∘ first.sound

theorem Agrees.mono {spared more : List String → Prop} (agrees : Agrees spared d d')
    (wider : ∀ ns, spared ns → more ns) : Agrees more d d' where
  toGrows := agrees.toGrows
  files ns other f := agrees.files ns (fun inside => other (wider ns inside)) f
  sound := agrees.sound

/-- A folder more is no file more. -/
theorem agrees_of_makeFolder (made : d.makeFolder p = .ok d') : Agrees (fun _ => False) d d' := by
  obtain ⟨_, _, _, alters, free⟩ := exists_of_makeFolder made
  refine { toGrows := alters.grows, files := fun ns _ f => ?_, sound := alters.sound }
  rw [alters.shape]
  split
  · next same => simp [same, free]
  · rfl

theorem agrees_of_makeFoldersUp {paths : List Path} (made : makeFoldersUp paths d = .ok d') :
    Agrees (fun _ => False) d d' := by
  induction paths generalizing d d' with
  | nil => simp [makeFoldersUp] at made
  | cons p above ih =>
    have settled : ∀ {d₁ d₂ : Disk} {e : FileError},
        (if d₁.isFolder p then Except.ok d₁ else .error e) = .ok d₂ → d₁ = d₂ := by
      intro d₁ d₂ e settled
      split at settled
      · exact Except.ok.inj settled
      · simp at settled
    rw [makeFoldersUp] at made
    split at made
    · obtain rfl := Except.ok.inj made
      exact .refl _ _
    · dsimp only at made
      split at made
      · next one =>
        obtain rfl := Except.ok.inj made
        exact agrees_of_makeFolder one
      · split at made
        · simp at made
        · next up =>
          split at made
          · next one =>
            obtain rfl := Except.ok.inj made
            exact (ih up).trans (agrees_of_makeFolder one)
          · obtain rfl := settled made
            exact ih up
      · obtain rfl := settled made
        exact .refl _ _

end Disk

namespace Store

open Disk

/-- What can go wrong when preferences are written. -/
def CannotSave (s : Store) (why : Failure) : Prop := ∃ file, s.file? = some file ∧
  ((∃ e, why = .file .create (file.parent?.getD file) e) ∨ ∃ e, why = .file .write file e)

/-- The place of the preferences' file. -/
def IsPlace (s : Store) (d : Disk) (names : List String) : Prop :=
  ∃ file, s.file? = some file ∧ d.locate file = .ok names

/-- No file comes or goes when the folders above a file are made. -/
theorem agrees_of_parent {d d' : Disk} {file : Path}
    (made : file.parent?.elim (.ok d) d.makeFolders = .ok d') : Agrees (fun _ => False) d d' := by
  cases parent : file.parent? with
  | none =>
    obtain rfl : d = d' := by simpa [parent] using made
    exact .refl _ d
  | some folder =>
    rw [parent] at made
    exact agrees_of_makeFoldersUp made

theorem agrees_save (s : Store) (d : Disk) :
    Agrees (s.IsPlace (s.save d).2) d (s.save d).2 ∧
      ∀ why, (s.save d).1 = .error why → s.CannotSave why := by
  rw [save]
  split
  · exact ⟨.refl _ d, by simp⟩
  · next file kept =>
    dsimp only
    split
    · next why failed =>
      refine ⟨.refl _ d, ?_⟩
      rintro _ ⟨⟩
      exact ⟨file, kept, .inl ⟨why, rfl⟩⟩
    · next d' made =>
      have folders := agrees_of_parent made
      split
      · next why failed =>
        refine ⟨folders.mono (by simp), ?_⟩
        rintro _ ⟨⟩
        exact ⟨file, kept, .inr ⟨why, rfl⟩⟩
      · next d'' written =>
        obtain ⟨names, alters, led⟩ := exists_of_write written
        refine ⟨(folders.mono (by simp)).trans (alters.agrees.mono ?_), by simp⟩
        rintro _ rfl
        exact ⟨file, kept, led⟩

end Store
end Registrar
