import Registrar.Proofs.Disk.Walk

/-!
Changes of a tree at one place. The shape of a tree says of all names whether they lead to a folder,
to a file with what it holds, or nowhere. A file or an empty folder that is put somewhere, and a file
that is erased, change the shape at their own place only, and the tree stays in order.
-/

namespace Registrar

/-- The file that an item is, if it is no folder. -/
def Item.file? : Item → Option File
  | .file f => some f
  | .folder _ => none

namespace Folder

variable {d d' inside : Folder} {n m name : String} {names here ms : List String} {f : File}
  {item : Item}

/-- What names lead to: nothing, a folder, or a file. -/
def shape (d : Folder) (names : List String) : Option (Option File) := (d.at? names).map Item.file?

@[simp] theorem shape_nil (d : Folder) : d.shape [] = some none := rfl

theorem shape_cons_folder (entry : d.find? n = some (.folder inside)) (ms : List String) :
    d.shape (n :: ms) = inside.shape ms := by
  rw [shape, at?, entry, shape]

theorem shape_cons_file (entry : d.find? n = some (.file f)) (ms : List String) :
    d.shape (n :: ms) = if ms = [] then some (some f) else none := by
  rw [shape, at?, entry]
  cases ms <;> rfl

theorem shape_cons_none (entry : d.find? n = none) (ms : List String) : d.shape (n :: ms) = none := by
  rw [shape, at?, entry]
  rfl

theorem shape_cons_congr (same : d.find? n = d'.find? n) (ms : List String) :
    d.shape (n :: ms) = d'.shape (n :: ms) := by
  rw [shape, at?, same, shape, at?]

theorem shape_eq_folder_iff : d.shape names = some none ↔
    ∃ inside, d.at? names = some (.folder inside) := by
  rw [shape]
  cases d.at? names with
  | none => simp
  | some item => cases item <;> simp [Item.file?]

theorem shape_eq_file_iff : d.shape names = some (some f) ↔ d.at? names = some (.file f) := by
  rw [shape]
  cases d.at? names with
  | none => simp
  | some item => cases item <;> simp [Item.file?]

theorem shape_append (found : d.at? names = some (.folder inside)) (ms : List String) :
    d.shape (names ++ ms) = inside.shape ms := by
  rw [shape, at?_append ms found, shape]

/-- Above whatever is there stands a folder. -/
theorem shape_of_append {what : Option File} (found : d.shape (names ++ ms) = some what)
    (below : ms ≠ []) : d.shape names = some none := by
  induction names generalizing d with
  | nil => rfl
  | cons n rest ih =>
    rw [List.cons_append] at found
    cases entry : d.find? n with
    | none => simp [shape_cons_none entry] at found
    | some item =>
      cases item with
      | folder inside =>
        rw [shape_cons_folder entry] at found ⊢
        exact ih found
      | file f => simp [shape_cons_file entry, below] at found

/-! ### Order -/

/-- The entries of the tree have proper names, each of them once, and stand in their order. -/
structure Sound (d : Folder) : Prop where
  proper : d.Proper
  ordered : d.Ordered

theorem sound_empty : Sound .empty := ⟨trivial, trivial⟩

theorem find?_eq_none_of_lt {rest : Folder} (after_ : ∀ m, (rest.find? m).isSome → n < m) :
    rest.find? n = none := by
  cases found : rest.find? n with
  | none => rfl
  | some item => exact absurd (after_ n (by simp [found])) (String.lt_irrefl n)

/-- An entry stands in order before those that follow it. -/
theorem sound_named_iff {rest : Folder} : (item.named n rest).Sound ↔ IsEntryName n ∧
    (∀ m, (rest.find? m).isSome → n < m) ∧ (∀ inside, item = .folder inside → inside.Sound) ∧
      rest.Sound := by
  cases item with
  | file f =>
    constructor
    · rintro ⟨⟨entry, _, proper⟩, after_, ordered⟩
      exact ⟨entry, after_, by simp, proper, ordered⟩
    · rintro ⟨entry, after_, _, proper, ordered⟩
      exact ⟨⟨entry, find?_eq_none_of_lt after_, proper⟩, after_, ordered⟩
  | folder inside =>
    constructor
    · rintro ⟨⟨entry, _, proper, proper'⟩, after_, ordered, ordered'⟩
      refine ⟨entry, after_, ?_, proper', ordered'⟩
      rintro _ ⟨⟩
      exact ⟨proper, ordered⟩
    · rintro ⟨entry, after_, sound, proper', ordered'⟩
      obtain ⟨proper, ordered⟩ := sound inside rfl
      exact ⟨⟨entry, find?_eq_none_of_lt after_, proper, proper'⟩, after_, ordered, ordered'⟩

/-- A tree is empty, or an entry before a tree. -/
theorem named_induction {holds : Folder → Prop} (empty : holds .empty)
    (named : ∀ n item rest, holds rest → holds (Item.named n rest item)) : ∀ d, holds d
  | .empty => empty
  | .file n f rest => named n (.file f) rest (named_induction empty named rest)
  | .folder n inside rest => named n (.folder inside) rest (named_induction empty named rest)

theorem find?_named (n m : String) (item : Item) (rest : Folder) :
    (item.named n rest).find? m = if n == m then some item else rest.find? m := by
  cases item <;> rfl

theorem put_named (n name : String) (item new : Item) (rest : Folder) :
    (item.named n rest).put name new =
      if n == name then new.named name rest
      else if name < n then new.named name (item.named n rest)
      else item.named n (rest.put name new) := by
  cases item <;> rfl

theorem erase_named (n name : String) (item : Item) (rest : Folder) :
    (item.named n rest).erase name = if n == name then rest else item.named n (rest.erase name) := by
  cases item <;> rfl

theorem find?_erase_of_ne (other : m ≠ name) (d : Folder) : (d.erase name).find? m = d.find? m := by
  induction d using named_induction with
  | empty => rfl
  | named n item rest ih =>
    rw [erase_named]
    split
    · next same => rw [find?_named, if_neg (by simpa [eq_of_beq same] using Ne.symm other)]
    · rw [find?_named, find?_named, ih]

theorem Sound.find?_erase_self (sound : d.Sound) (name : String) : (d.erase name).find? name = none := by
  induction d using named_induction with
  | empty => rfl
  | named n item rest ih =>
    obtain ⟨_, after_, _, sound⟩ := sound_named_iff.mp sound
    rw [erase_named]
    split
    · next same =>
      obtain rfl := eq_of_beq same
      exact find?_eq_none_of_lt after_
    · next other => rw [find?_named, if_neg other, ih sound]

/-- What is found in a sound folder is sound itself. -/
theorem Sound.of_find? (sound : d.Sound) (found : d.find? n = some (.folder inside)) :
    inside.Sound := by
  induction d using named_induction with
  | empty => simp [find?] at found
  | named m item rest ih =>
    obtain ⟨_, _, below, sound⟩ := sound_named_iff.mp sound
    rw [find?_named] at found
    split at found
    · exact below inside (Option.some.inj found)
    · exact ih sound found

theorem Sound.of_at? (sound : d.Sound) (found : d.at? names = some (.folder inside)) :
    inside.Sound := by
  induction names generalizing d with
  | nil =>
    obtain rfl : d = inside := by simpa [at?] using found
    exact sound
  | cons n rest ih =>
    rw [at?] at found
    split at found
    · next below entry => exact ih (sound.of_find? entry) found
    · simp at found
    · simp at found

theorem Sound.put (sound : d.Sound) (entry : IsEntryName name)
    (below : ∀ inside, item = .folder inside → inside.Sound) : (d.put name item).Sound := by
  induction d using named_induction with
  | empty => exact sound_named_iff.mpr ⟨entry, by simp [find?], below, sound_empty⟩
  | named n old rest ih =>
    have whole := sound
    obtain ⟨entry', after_, below', sound⟩ := sound_named_iff.mp sound
    rw [put_named]
    split
    · next same =>
      obtain rfl := eq_of_beq same
      exact sound_named_iff.mpr ⟨entry, after_, below, sound⟩
    · next other =>
      split
      · next first =>
        refine sound_named_iff.mpr ⟨entry, fun m there => ?_, below, whole⟩
        rw [find?_named] at there
        split at there
        · next same => exact eq_of_beq same ▸ first
        · exact String.lt_trans first (after_ m there)
      · next later =>
        refine sound_named_iff.mpr ⟨entry', fun m there => ?_, below', ih sound⟩
        by_cases same : m = name
        · subst same
          exact Std.lt_of_le_of_ne (String.not_lt.mp later) (by simpa using other)
        · exact after_ m (by rwa [find?_put_of_ne same] at there)

theorem Sound.erase (sound : d.Sound) (name : String) : (d.erase name).Sound := by
  induction d using named_induction with
  | empty => exact sound_empty
  | named n old rest ih =>
    obtain ⟨entry, after_, below, sound⟩ := sound_named_iff.mp sound
    rw [erase_named]
    split
    · exact sound
    · refine sound_named_iff.mpr ⟨entry, fun m there => ?_, below, ih sound⟩
      by_cases same : m = name
      · simp [same, sound.find?_erase_self] at there
      · exact after_ m (by rwa [find?_erase_of_ne same] at there)

theorem Sound.within {change : Folder → Folder} (keeps : ∀ d : Folder, d.Sound → (change d).Sound)
    (sound : d.Sound) (names : List String) : (d.within change names).Sound := by
  induction names generalizing d with
  | nil => exact keeps d sound
  | cons n rest ih =>
    rw [Folder.within]
    split
    · next inside found =>
      refine sound.put (sound.proper.of_find? found).1 ?_
      rintro _ ⟨⟩
      exact ih (sound.of_find? found)
    · exact sound

/-! ### One place -/

theorem at?_within {change : Folder → Folder} (found : d.at? names = some (.folder inside)) :
    (d.within change names).at? names = some (.folder (change inside)) := by
  induction names generalizing d with
  | nil =>
    obtain rfl : d = inside := by simpa [at?] using found
    rfl
  | cons n rest ih =>
    rw [at?] at found
    rw [within]
    split
    · next below entry =>
      rw [at?, find?_put_self]
      exact ih (by simpa [entry] using found)
    · next other =>
      split at found
      · next below entry => exact absurd entry (other below)
      · simp at found
      · simp at found

/-- Where a change below some names does not reach, the shape stays. -/
theorem shape_within_of_away {change : Folder → Folder} (away : ¬here <+: names) :
    (d.within change here).shape names = d.shape names := by
  induction here generalizing d names with
  | nil => exact absurd (List.nil_prefix ..) away
  | cons n rest ih =>
    rw [within]
    split
    · next inside entry =>
      cases names with
      | nil => rfl
      | cons m ms =>
        by_cases same : m = n
        · subst same
          rw [shape_cons_folder (find?_put_self ..), shape_cons_folder entry]
          exact ih fun reach => away ((List.prefix_cons_inj m).mpr reach)
        · exact shape_cons_congr (find?_put_of_ne same ..) ms
    · rfl

/-- A change of the folder that names lead to that changes the shape at one entry only. -/
theorem shape_within {change : Folder → Folder} (found : d.at? here = some (.folder inside))
    {what : Option (Option File)} (changed : ∀ ms, (change inside).shape ms =
      if ms = [n] then what else inside.shape ms) (names : List String) :
    (d.within change here).shape names = if names = here ++ [n] then what else d.shape names := by
  by_cases reach : here <+: names
  · obtain ⟨ms, rfl⟩ := reach
    rw [shape_append (at?_within found), shape_append found, changed]
    simp only [List.append_cancel_left_eq]
  · rw [shape_within_of_away reach, if_neg]
    rintro rfl
    exact reach (List.prefix_append ..)

theorem putAt_concat (here : List String) (n : String) (item : Item) (d : Folder) :
    d.putAt (here ++ [n]) item = d.within (put n item) here := by
  simp [putAt]

theorem eraseAt_concat (here : List String) (n : String) (d : Folder) :
    d.eraseAt (here ++ [n]) = d.within (erase n) here := by
  simp [eraseAt]

/-- A file or an empty folder is put where no folder stands. -/
theorem shape_putAt (folder : d.shape here = some none) (free : d.shape (here ++ [n]) ≠ some none)
    (bare : ∀ inside, item = .folder inside → inside = .empty) (names : List String) :
    (d.putAt (here ++ [n]) item).shape names =
      if names = here ++ [n] then some item.file? else d.shape names := by
  obtain ⟨inside, found⟩ := shape_eq_folder_iff.mp folder
  rw [shape_append found] at free
  rw [putAt_concat]
  refine shape_within found (fun ms => ?_) names
  cases ms with
  | nil => simp
  | cons m ms =>
    by_cases same : m = n
    · subst same
      -- Below the entry there is nothing, neither before nor after.
      have before_ : ms ≠ [] → inside.shape (m :: ms) = none := by
        intro below
        cases there : inside.shape (m :: ms) with
        | none => rfl
        | some what =>
          have folder : inside.shape [m] = some none := shape_of_append there below
          exact absurd folder free
      cases item with
      | file f =>
        rw [shape_cons_file (find?_put_self ..)]
        by_cases none_ : ms = [] <;> simp [none_, before_, Item.file?]
      | folder inner =>
        obtain rfl := bare inner rfl
        rw [shape_cons_folder (find?_put_self ..)]
        cases ms with
        | nil => simp [Item.file?]
        | cons k ks =>
          rw [shape_cons_none rfl, if_neg (by simp), before_ (by simp)]
    · rw [if_neg (by simp [same])]
      exact shape_cons_congr (find?_put_of_ne same ..) ms

/-- A file is erased. -/
theorem Sound.shape_eraseAt (sound : d.Sound) (file : d.shape (here ++ [n]) = some (some f))
    (names : List String) : (d.eraseAt (here ++ [n])).shape names =
      if names = here ++ [n] then none else d.shape names := by
  obtain ⟨inside, found⟩ := shape_eq_folder_iff.mp (shape_of_append file (by simp))
  rw [shape_append found] at file
  have below := sound.of_at? found
  rw [eraseAt_concat]
  refine shape_within found (fun ms => ?_) names
  cases ms with
  | nil => simp
  | cons m ms =>
    by_cases same : m = n
    · subst same
      rw [shape_cons_none (below.find?_erase_self m)]
      by_cases none_ : ms = []
      · simp [none_]
      · cases there : inside.shape (m :: ms) with
        | none => simp
        | some what =>
          have folder : inside.shape [m] = some none := shape_of_append there none_
          simp [file] at folder
    · rw [if_neg (by simp [same])]
      exact shape_cons_congr (find?_erase_of_ne same _) ms

end Folder
end Registrar
