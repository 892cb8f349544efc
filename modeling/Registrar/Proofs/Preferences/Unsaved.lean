import Registrar.Proofs.Preferences.Committed
import Registrar.Proofs.Preferences.Mirrored

/-!
A change that cannot be saved. It stays in memory while the file says what it said before, so from then
on the two differ, but for the changes that change nothing.
-/

namespace Registrar

/-! ### The file -/

namespace Store

open Disk

variable {s : Store} {d : Disk} {file : Path} {why : Failure}

/-- Preferences that could not be saved leave their file as it was, or as little there as it was. -/
theorem load_of_not_saved (kept : s.file? = some file) (failed : (s.save d).1 = .error why) :
    load (s.save d).2 file = load d file := by
  rw [save, kept] at failed ⊢
  dsimp only at failed ⊢
  cases made : file.parent?.elim (.ok d) d.makeFolders with
  | error why => rfl
  | ok above =>
    simp only [made] at failed
    cases written : above.write file s.preferences.text with
    | ok d' => simp [written] at failed
    | error why =>
      have missing : above.isFile file = false := by
        refine Bool.eq_false_iff.mpr fun there => ?_
        obtain ⟨d', written'⟩ := exists_write_of_isFile there s.preferences.text
        simp [written] at written'
      have before : d.isFile file = false := by
        refine Bool.eq_false_iff.mpr fun there => ?_
        obtain ⟨names, f, led, here⟩ := isFile_iff.mp there
        have folders := agrees_of_parent made
        have still := isFile_iff.mpr ⟨names, f, folders.locate led, (folders.files names id f).mpr here⟩
        simp [missing] at still
      simp only [written, load, missing, before]
      rfl

end Store

/-! ### What the user sees -/

namespace Preferences

variable {p p' : Preferences}

/-- The user cannot tell the first from the second. -/
structure LooksLike (p p' : Preferences) : Prop where
  list : p.list = p'.list
  get? : ∀ path, p.get? path = p'.get? path
  order : p.order = p'.order

theorem LooksLike.refl (p : Preferences) : p.LooksLike p := ⟨rfl, fun _ => rfl, rfl⟩

/-- A use is seen: a registry has a moment that none had. -/
theorem not_looksLike_upsert (early : ∀ r ∈ p.registries, r.lastUsed.toNat + 1 < UInt64.size)
    (now : Stamp) (path : Path) (label? : Option String) :
    ¬(p.upsert now path label?).LooksLike p := by
  intro looks
  obtain ⟨r, rest, perm, -, origin⟩ := exists_of_change
    (fun r => { r with lastUsed := p.nextStamp now, label := label?.getD r.label })
    ⟨path, label?.getD (defaultLabel path), p.nextStamp now⟩ path p.registries
  have stamp : r.lastUsed = p.nextStamp now := by
    rcases origin with rfl | ⟨old, -, -, rfl⟩ <;> rfl
  have shown : r ∈ (p.upsert now path label?).list :=
    list_perm.mem_iff.mpr (perm.mem_iff.mpr (List.mem_cons_self ..))
  have older := lt_nextStamp early now r (list_perm.mem_iff.mp (looks.list ▸ shown))
  rw [stamp] at older
  exact absurd older (UInt64.lt_irrefl _)

/-- A registry that is forgotten is missed. -/
theorem not_looksLike_remove {path : Path} (known : p.remembers path = true) :
    ¬(p.remove path).LooksLike p := by
  intro looks
  have gone : (p.remove path).get? path = none := by
    simp [Preferences.get?, remove, List.find?_filter]
  have there : (p.get? path).isSome = true := by
    simpa [Preferences.get?, remembers] using known
  rw [← looks.get?, gone] at there
  cases there

theorem looksLike_clear_iff : p.clear.LooksLike p ↔ p.registries = [] := by
  constructor
  · intro looks
    have nothing : p.list = [] := looks.list.symm
    exact List.perm_nil.mp (nothing ▸ list_perm.symm)
  · intro nothing
    have same : p.clear = p := by rw [clear, ← nothing]
    rw [same]
    exact .refl p

theorem looksLike_setOrder_iff {order : HelperOrder} :
    (p.setOrder order).LooksLike p ↔ order = p.order := by
  constructor
  · exact fun looks => looks.order
  · rintro rfl
    exact .refl p

end Preferences

/-! ### Changes that cannot be saved -/

namespace Workplace

/-- A change whose result cannot be written is kept in memory as if it had been, while the file says
what it said before. The user sees the store as it was only if the registries that were cleared were
none, or the order that was set was set already; and a registry that could not be forgotten for good is
not known any more when it is asked for again, so nothing is written then. -/
theorem looksLike_after_iff (w : Workplace)
    (early : ∀ r ∈ w.store.preferences.registries, r.lastUsed.toNat + 1 < UInt64.size)
    {c : MemoryChange} {why : Failure} (failed : w.answer c = .error why) :
    w.store.CannotSave why ∧
    (w.after c).store = { w.store with preferences := w.store.preferences.after c } ∧
    (∀ file, w.store.file? = some file →
      Store.load (w.after c).disk file = Store.load w.disk file) ∧
    ((w.after c).store.preferences.LooksLike w.store.preferences ↔
      (c = .clear ∧ w.store.preferences.registries = []) ∨ c = .sort w.store.preferences.order) ∧
    ∀ path, c = .forget path → (w.after c).forget path = (.ok false, w.after c) := by
  have known : ∀ path, c = .forget path → w.store.preferences.remembers path = true := by
    rintro path rfl
    by_contra unknown
    rw [answer, Workplace.forget, if_neg unknown] at failed
    cases failed
  rcases w.after_cases c with ⟨ended, -⟩ | ⟨ended, store, disk⟩
  · rw [ended] at failed
    cases failed
  · rw [ended] at failed
    obtain ⟨file, kept, what⟩ := (Store.agrees_save _ _).2 why failed
    refine ⟨⟨file, kept, what⟩, store, ?_, ?_, ?_⟩
    · intro file kept
      rw [disk]
      exact Store.load_of_not_saved kept failed
    · rw [store]
      cases c with
      | use now path label? =>
        have seen := Preferences.not_looksLike_upsert early now path label?
        exact iff_of_false seen (by simp)
      | forget path =>
        have seen := Preferences.not_looksLike_remove (known path rfl)
        exact iff_of_false seen (by simp)
      | clear => simpa [Preferences.after] using Preferences.looksLike_clear_iff
      | sort order => simpa [Preferences.after] using Preferences.looksLike_setOrder_iff
    · rintro path rfl
      have forgotten : (w.after (.forget path)).store.preferences.remembers path = false := by
        rw [store]
        simp [Preferences.after, Preferences.remembers, Preferences.remove]
      rw [Workplace.forget, if_neg (by simp [forgotten])]

/-- Preferences whose file is a folder: a registry that is used is on the list, though no file says so. -/
theorem looksLike_after_iff_folder :
    let d : Disk := { top := .folder "w" (.folder "p" .empty .empty) .empty }
    let w : Workplace := ⟨⟨d, ⟨"/w"⟩, {}⟩, ⟨some ⟨"/w/p"⟩, {}⟩, 0⟩
    let c : MemoryChange := .use 7 ⟨"/w/a/site.ts"⟩ none
    w.answer c = .error (.file .write ⟨"/w/p"⟩ .isDirectory) ∧
    (w.after c).store.preferences.list = [⟨⟨"/w/a/site.ts"⟩, "a", 7⟩] ∧
    Store.load (w.after c).disk ⟨"/w/p"⟩ = .ok w.store ∧
    ¬(w.after c).store.preferences.LooksLike w.store.preferences := by
  intro d w c
  have failed : w.answer c = .error (.file .write ⟨"/w/p"⟩ .isDirectory) :=
    rfl
  obtain ⟨-, -, file, seen, -⟩ := w.looksLike_after_iff (by decide) failed
  have opened : Store.load w.disk ⟨"/w/p"⟩ = .ok w.store := toOption_eq_some_iff.mp (by decide +kernel)
  refine ⟨failed, by decide +kernel, (file _ rfl).trans opened, ?_⟩
  rw [seen]
  simp [c]

end Workplace
end Registrar
