import Registrar.Proofs.Preferences.Recent
import Registrar.Proofs.Workflow.Saving

/-!
What is remembered after a choice has been committed. Some registries are forgotten and one is used: it
comes first, those that were forgotten are gone, and the others are kept as they were. Nothing is asked
of the list before but that no stamp is the last one of all: paths may stand in it twice.
-/

namespace Registrar

/-! ### Preferences -/

namespace Preferences

variable {p : Preferences} {path : Path} {touch : Remembered → Remembered} {new : Remembered}
  {l : List Remembered}

/-- A use changes one registry of a list, or puts one behind it. -/
theorem exists_of_change (touch : Remembered → Remembered) (new : Remembered) (path : Path)
    (l : List Remembered) : ∃ r rest, (change path touch new l).Perm (r :: rest) ∧ rest ⊆ l ∧
      (r = new ∨ ∃ old ∈ l, old.path.same path = true ∧ r = touch old) := by
  induction l with
  | nil => exact ⟨new, [], .refl _, by simp, .inl rfl⟩
  | cons old tail ih =>
    rw [change]
    split
    · next here => exact ⟨touch old, tail, .refl _, by simp, .inr ⟨old, by simp, here, rfl⟩⟩
    · obtain ⟨r, rest, perm, inside, origin⟩ := ih
      refine ⟨r, old :: rest, (perm.cons old).trans (.swap ..), ?_, origin.imp_right ?_⟩
      · exact List.cons_subset_cons old inside
      · rintro ⟨other, member, here, same⟩
        exact ⟨other, by simp [member], here, same⟩

/-- A use leaves the registries at other paths as they are, and where they are. -/
theorem filter_change {others : Remembered → Bool}
    (away : ∀ r, r.path.same path = true → others r = false)
    (kept : ∀ r, (touch r).path = r.path) (at_ : new.path = path) :
    (change path touch new l).filter others = l.filter others := by
  induction l with
  | nil => simp [change, away new (by simp [at_, Path.same])]
  | cons r rest ih =>
    rw [change]
    split
    · next here =>
      have moved : others (touch r) = false := away _ (by rw [kept]; exact here)
      simp [moved, away r here]
    · simp [List.filter_cons, ih]

theorem registries_foldl_remove (gone : List Path) (p : Preferences) :
    (gone.foldl remove p).registries = p.registries.filter fun r => !gone.any r.path.same := by
  induction gone generalizing p with
  | nil => simp
  | cons path rest ih =>
    rw [List.foldl_cons, ih, remove, List.filter_filter]
    exact List.filter_congr fun r _ => by simp [Bool.and_comm]

/-- A new moment is later than all that are kept. -/
theorem lt_nextStamp (early : ∀ r ∈ p.registries, r.lastUsed.toNat + 1 < UInt64.size) (now : Stamp) :
    ∀ r ∈ p.registries, r.lastUsed < p.nextStamp now := by
  have newest : p.newest.toNat < UInt64.size - 1 :=
    (newest_lt (by decide)).mpr fun r member => by have := early r member; omega
  have next : (p.newest + 1).toNat = p.newest.toNat + 1 := by
    rw [UInt64.toNat_add]
    exact Nat.mod_eq_of_lt (by change p.newest.toNat + 1 < UInt64.size; omega)
  intro r member
  have below := (newest_lt (p := p) (Nat.succ_pos _)).mp (Nat.lt_succ_self _) r member
  rw [UInt64.lt_iff_toNat_lt, nextStamp, toNat_max, next]
  omega

/-- A list with one registry later than all others shows that one first. -/
theorem list_eq_cons_of_latest {r : Remembered} {rest : List Remembered}
    (perm : p.registries.Perm (r :: rest)) (latest : ∀ other ∈ rest, other.lastUsed < r.lastUsed) :
    ∃ tail, p.list = r :: tail ∧ tail.Perm rest := by
  have ordered := sorted_pairwise later_total later_trans p.registries
  have shown : p.list.Perm (r :: rest) := list_perm.trans perm
  rw [← list] at ordered
  cases eq : p.list with
  | nil =>
    rw [eq] at shown
    cases shown.length_eq
  | cons first tail =>
    rw [eq] at shown ordered
    have same : first = r := by
      by_contra other
      have inside := (List.mem_cons.mp (shown.mem_iff.mpr (List.mem_cons_self ..))).resolve_left
        (Ne.symm other)
      have later := (List.pairwise_cons.mp ordered).1 r inside
      have earlier := latest first
        ((List.mem_cons.mp (shown.mem_iff.mp (List.mem_cons_self ..))).resolve_left other)
      rw [UInt64.lt_iff_toNat_lt] at earlier
      rw [decide_eq_true_iff, UInt64.le_iff_toNat_le] at later
      omega
    subst same
    exact ⟨tail, rfl, shown.cons_inv⟩

/-- What is left after some registries have been forgotten and one has been used. -/
structure Settled (p p' : Preferences) (gone : List Path) (path : Path) (label? : Option String) :
    Prop where
  /-- The registry that was used comes first, with the label that it was given. -/
  first : ∃ r rest, p'.list = r :: rest ∧ r.path.same path = true ∧
    (∀ label, label? = some label → r.label = label) ∧
      ∀ other ∈ rest, other ∈ p.registries ∧ other.lastUsed < r.lastUsed ∧
        ∀ q ∈ gone, other.path.same q = false
  /-- All others that were not forgotten are kept as they were. -/
  others : p'.registries.filter (fun r => !r.path.same path && !gone.any r.path.same) =
    p.registries.filter fun r => !r.path.same path && !gone.any r.path.same
  order : p'.order = p.order

theorem order_foldl_remove (gone : List Path) (p : Preferences) :
    (gone.foldl remove p).order = p.order := by
  induction gone generalizing p with
  | nil => rfl
  | cons path rest ih => exact ih (p.remove path)

theorem settled_upsert (early : ∀ r ∈ p.registries, r.lastUsed.toNat + 1 < UInt64.size)
    (now : Stamp) (gone : List Path) (path : Path) (label? : Option String) :
    p.Settled ((gone.foldl remove p).upsert now path label?) gone path label? := by
  have left := registries_foldl_remove gone p
  have kept := order_foldl_remove gone p
  generalize gone.foldl remove p = q at left kept
  have of_left : ∀ r ∈ q.registries, r ∈ p.registries ∧ ∀ g ∈ gone, r.path.same g = false := by
    intro r member
    rw [left] at member
    simpa using List.mem_filter.mp member
  have later := lt_nextStamp (fun r member => early r (of_left r member).1) now
  refine ⟨?_, ?_, kept⟩
  · obtain ⟨r, rest, perm, inside, origin⟩ := exists_of_change
      (fun r => { r with lastUsed := q.nextStamp now, label := label?.getD r.label })
      ⟨path, label?.getD (defaultLabel path), q.nextStamp now⟩ path q.registries
    obtain ⟨stamp, here, label⟩ : r.lastUsed = q.nextStamp now ∧ r.path.same path = true ∧
        ∀ label, label? = some label → r.label = label := by
      rcases origin with rfl | ⟨old, -, here, rfl⟩
      · exact ⟨rfl, by simp [Path.same], by rintro label rfl; rfl⟩
      · exact ⟨rfl, here, by rintro label rfl; rfl⟩
    have latest : ∀ other ∈ rest, other.lastUsed < r.lastUsed := fun other member => by
      rw [stamp]
      exact later other (inside member)
    obtain ⟨tail, shown, same⟩ := list_eq_cons_of_latest (p := q.upsert now path label?) perm latest
    refine ⟨r, tail, shown, here, label, fun other member => ?_⟩
    have known := same.mem_iff.mp member
    exact ⟨(of_left other (inside known)).1, latest other known, (of_left other (inside known)).2⟩
  · rw [upsert]
    dsimp only
    refine Eq.trans (filter_change ?_ ?_ ?_) ?_
    · intro r here
      simp [here]
    · exact fun _ => rfl
    · rfl
    · rw [left, List.filter_filter]
      exact List.filter_congr fun r _ => by simp

end Preferences

/-! ### Committing -/

/-- A staged change as a change of what is remembered. -/
def Staged.made (now : Stamp) : Staged → MemoryChange
  | .forget path => .forget path
  | .remember path label? => .use now path label?

namespace Workplace

/-- A change that is committed is made at the time on the clock. -/
theorem commit_eq_after (w : Workplace) (change : Staged) :
    (w.commit change).2 = w.after (change.made w.clock) := by
  cases change <;> rfl

theorem clock_commit (w : Workplace) (change : Staged) : (w.commit change).2.clock = w.clock := by
  rw [commit_eq_after]
  cases change with
  | remember path label? => rfl
  | forget path =>
    rw [Staged.made, Workplace.after, forget]
    split <;> rfl

end Workplace

/-- Where a choice could be committed, all that was staged has been made. -/
theorem Action.preferences_of_commitChoice {s s' : Session}
    (ended : s.act commitChoice = (.ok (), s')) : s'.place.store.preferences =
      (s.talk.staged.map (Staged.made s.place.clock)).foldl Preferences.after
        s.place.store.preferences := by
  have each : ∀ (changes : List Staged) {s : Session},
      s.act (changes.forM fun c => change (·.commit c)) = (.ok (), s') →
        s'.place.store.preferences = (changes.map (Staged.made s.place.clock)).foldl
          Preferences.after s.place.store.preferences := by
    intro changes
    induction changes with
    | nil =>
      intro s ended
      rw [act_forM_nil] at ended
      cases ended
      rfl
    | cons c rest ih =>
      intro s ended
      rw [act_forM_cons, act_bind, act_change] at ended
      rw [List.map_cons, List.foldl_cons, ← Workplace.preferences_after, ← Workplace.commit_eq_after,
        ← s.place.clock_commit c]
      generalize s.place.commit c = result at ended ⊢
      rcases result with ⟨why | _, w⟩
      · cases ended
      · exact ih ended
  exact each s.talk.staged (s := { s with talk := { s.talk with staged := [] } }) ended

end Registrar
