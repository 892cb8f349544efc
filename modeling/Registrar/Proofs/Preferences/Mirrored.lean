import Registrar.Proofs.Disk.Again
import Registrar.Proofs.Preferences.Document
import Registrar.Proofs.Preferences.Recent

/-!
The file as a mirror of what is remembered. A change either has nothing to write or writes all that is
remembered, and what is written is read back, so as long as no write fails the file says what the
store says.
-/

namespace Registrar

/-! ### Saved and loaded -/

namespace Store

variable {s : Store} {d d' : Disk} {file : Path}

/-- What has been saved is loaded. -/
theorem load_of_save (kept : s.file? = some file) (saved : s.save d = (.ok (), d')) :
    load d' file = .ok s := by
  obtain ⟨above, -, written⟩ := (save_eq_ok_iff kept).mp saved
  have text := Disk.readText_of_write written
  have there := Disk.isFile_of_readText text
  obtain ⟨_, p⟩ := s
  obtain rfl : _ = some file := kept
  rw [load, if_pos there, text]
  simp [Except.mapError, bind, Except.bind, pure, Except.pure, p.read_text]

theorem file?_of_load (loaded : load d file = .ok s) : s.file? = some file := by
  rw [load] at loaded
  split at loaded
  · cases read : d.readText file with
    | error why => simp [read, Except.mapError, bind, Except.bind] at loaded
    | ok text =>
      cases understood : Preferences.read text with
      | error why => simp [read, understood, Except.mapError, bind, Except.bind] at loaded
      | ok p =>
        simp only [read, understood, Except.mapError, bind, Except.bind] at loaded
        cases loaded
        rfl
  · cases loaded
    rfl

end Store

/-! ### Changes -/

namespace Workplace

/-- How a change ends. -/
def answer (w : Workplace) : MemoryChange → Except Failure Unit
  | .use now path label? => ({ w with clock := now }.upsert path label?).1
  | .forget path => (w.forget path).1.map fun _ => ()
  | .clear => (w.remember Preferences.clear).1
  | .sort order => (w.remember (·.setOrder order)).1

/-- Every one of some changes is saved, one after the other. -/
def AllSaved (w : Workplace) : List MemoryChange → Prop
  | [] => True
  | c :: rest => w.answer c = .ok () ∧ (w.after c).AllSaved rest

variable {w : Workplace} {file : Path}

/-- A change has nothing to write, or it writes all that is remembered. -/
theorem after_cases (w : Workplace) (c : MemoryChange) :
    (w.answer c = .ok () ∧ w.after c = w) ∨
    let store := { w.store with preferences := w.store.preferences.after c }
    w.answer c = (store.save w.disk).1 ∧ (w.after c).store = store ∧
      (w.after c).disk = (store.save w.disk).2 := by
  cases c with
  | use now path label? => exact .inr ⟨rfl, rfl, rfl⟩
  | clear => exact .inr ⟨rfl, rfl, rfl⟩
  | sort order => exact .inr ⟨rfl, rfl, rfl⟩
  | forget path =>
    rw [answer, Workplace.after, Workplace.forget]
    split
    · have unread : ∀ e : Except Failure Unit, (e.map fun _ => true).map (fun _ => ()) = e := by
        rintro (_ | _) <;> rfl
      exact .inr ⟨unread _, rfl, rfl⟩
    · exact .inl ⟨rfl, rfl⟩

/-- A change that is saved leaves the file saying what the store says. -/
theorem load_after {c : MemoryChange} (opened : Store.load w.disk file = .ok w.store)
    (saved : w.answer c = .ok ()) :
    Store.load (w.after c).disk file = .ok (w.after c).store := by
  rcases w.after_cases c with ⟨-, same⟩ | ⟨ended, store, disk⟩
  · rwa [same]
  · rw [store, disk]
    have kept := Store.file?_of_load opened
    exact Store.load_of_save kept (Prod.ext (ended.symm.trans saved) rfl)

/-- Preferences that are opened again after any of the changes of a run are those that the run has
come to: the same registries in the same order, so the same list, and the same order of helpers. -/
theorem load_foldl_after (w : Workplace) {file : Path}
    (opened : Store.load w.disk file = .ok w.store) {changes : List MemoryChange}
    (saved : w.AllSaved changes) {done : List MemoryChange} (step : done <+: changes) :
    let w' := done.foldl Workplace.after w
    Store.load w'.disk file = .ok w'.store := by
  obtain ⟨later, rfl⟩ := step
  induction done generalizing w with
  | nil => exact opened
  | cons c rest ih =>
    obtain ⟨first, saved⟩ := saved
    exact ih (w.after c) (load_after opened first) saved

/-- A document that says nothing of registries, a label with quotation marks and the end of a line, two
registries at one reading of the clock, and a path that is not remembered. -/
theorem load_foldl_after_quoted :
    let document := "\x7b\"sort_order\": \"path\"\x7d".toList
    let d : Disk := { top := .folder "w" (.file "p.json" ⟨.text document, 0⟩ .empty) .empty }
    let w : Workplace := ⟨⟨d, ⟨"/w"⟩, {}⟩, ⟨some ⟨"/w/p.json"⟩, { order := .path }⟩, 0⟩
    let changes : List MemoryChange :=
      [.use 7 ⟨"/a/r.ts"⟩ (some "\"Ü\"\n"), .use 7 ⟨"/b/r.ts"⟩ none, .forget ⟨"/c/r.ts"⟩,
        .sort .modified, .forget ⟨"/a/r.ts"⟩, .clear]
    let w' := (changes.take 4).foldl Workplace.after w
    Store.load w'.disk ⟨"/w/p.json"⟩ = .ok w'.store ∧ w'.store.preferences.registries =
      [⟨⟨"/a/r.ts"⟩, "\"Ü\"\n", 7⟩, ⟨⟨"/b/r.ts"⟩, "b", 8⟩] := by
  intro document d w changes w'
  have opened : Store.load w.disk ⟨"/w/p.json"⟩ = .ok w.store :=
    toOption_eq_some_iff.mp (by decide +kernel)
  have saved : w.AllSaved changes := by
    refine ⟨?_, ?_, ?_, ?_, ?_, ?_, trivial⟩ <;> exact toOption_eq_some_iff.mp (by decide +kernel)
  exact ⟨w.load_foldl_after opened saved (List.take_prefix 4 changes), by decide +kernel⟩

end Workplace
end Registrar
