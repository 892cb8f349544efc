import Mathlib.Data.List.Infix
import Registrar.Proofs.Sorted
import Registrar.Session.Basic

/-!
The remembered registries as a list that is kept in the order of last use: a registry that is used
moves to the front. What is stored is in another order and knows moments only, but no two moments
are the same, so sorting by them gives that list back, whatever the clock said.
-/

namespace Registrar

/-- A registry as the list by last use keeps it. -/
structure Recent where
  path : Path
  /-- The last label that was given since the registry was added. -/
  given? : Option String
  deriving DecidableEq, Repr

/-- A change of what is remembered. -/
inductive MemoryChange where
  /-- A registry is used while the clock shows `now`. -/
  | use (now : Stamp) (path : Path) (label? : Option String)
  | forget (path : Path)
  | clear
  | sort (order : HelperOrder)

namespace Recent

/-- What the user sees of a registry. -/
def shown (r : Recent) : Path × String :=
  (r.path, r.given?.getD (Preferences.defaultLabel r.path))

/-- The list after a change. -/
def after (l : List Recent) : MemoryChange → List Recent
  | .use _ path label? =>
    ((l.find? (·.path.same path)).elim ⟨path, label?⟩ fun r => ⟨r.path, label? <|> r.given?⟩) ::
      l.filter (!·.path.same path)
  | .forget path => l.filter (!·.path.same path)
  | .clear => []
  | .sort _ => l

end Recent

/-- What the user sees of a remembered registry. -/
def Remembered.shown (r : Remembered) : Path × String := (r.path, r.label)

/-- How often a registry is used in the course of some changes. -/
def MemoryChange.uses : List MemoryChange → Nat
  | [] => 0
  | .use .. :: rest => uses rest + 1
  | .forget _ :: rest | .clear :: rest | .sort _ :: rest => uses rest

/-- A workplace after a change of what is remembered there. -/
def Workplace.after (w : Workplace) : MemoryChange → Workplace
  | .use now path label? => ({ w with clock := now }.upsert path label?).2
  | .forget path => (w.forget path).2
  | .clear => (w.remember Preferences.clear).2
  | .sort order => (w.remember (·.setOrder order)).2

namespace Preferences

/-- The preferences after a change, which no failure to write them undoes. -/
def after (p : Preferences) : MemoryChange → Preferences
  | .use now path label? => p.upsert now path label?
  | .forget path => p.remove path
  | .clear => p.clear
  | .sort order => p.setOrder order

/-- Every path stands once, at a moment of its own, and `room` later moments are left. -/
structure Dated (p : Preferences) (room : Nat) : Prop where
  apart : p.registries.Pairwise fun a b => a.path.components ≠ b.path.components
  moments : p.registries.Pairwise fun a b => a.lastUsed ≠ b.lastUsed
  early : ∀ r ∈ p.registries, r.lastUsed.toNat + room < UInt64.size

variable {p : Preferences} {room : Nat}

/-! ### Moments -/

theorem toNat_max (a b : Stamp) : (max a b).toNat = max a.toNat b.toNat := by
  rw [show max a b = if a ≤ b then b else a from rfl]
  split
  · next le => rw [Nat.max_eq_right (UInt64.le_iff_toNat_le.mp le)]
  · next lt => rw [Nat.max_eq_left (by simpa [UInt64.le_iff_toNat_le] using Nat.le_of_not_le lt)]

theorem foldl_max_lt {bound : Nat} (l : List Remembered) (n : Stamp) :
    (l.foldl (fun n r => max n r.lastUsed) n).toNat < bound ↔
      n.toNat < bound ∧ ∀ r ∈ l, r.lastUsed.toNat < bound := by
  induction l generalizing n with
  | nil => simp
  | cons r rest ih =>
    rw [List.foldl_cons, ih, toNat_max, List.forall_mem_cons, Nat.max_lt, and_assoc]

/-- All moments lie before a bound when the newest does. -/
theorem newest_lt {bound : Nat} (positive : 0 < bound) :
    p.newest.toNat < bound ↔ ∀ r ∈ p.registries, r.lastUsed.toNat < bound := by
  rw [newest, foldl_max_lt]
  exact and_iff_right positive

/-- A new moment is later than all that are kept and leaves room for one moment less. -/
theorem Dated.nextStamp (dated : p.Dated (room + 1)) {now : Stamp}
    (soon : now.toNat + (room + 1) < UInt64.size) :
    (∀ r ∈ p.registries, r.lastUsed < p.nextStamp now) ∧
      (p.nextStamp now).toNat + room < UInt64.size := by
  have newest : p.newest.toNat < UInt64.size - (room + 1) :=
    (newest_lt (by omega)).mpr fun r member => by have := dated.early r member; omega
  have next : (p.newest + 1).toNat = p.newest.toNat + 1 := by
    rw [UInt64.toNat_add]
    exact Nat.mod_eq_of_lt (by change p.newest.toNat + 1 < UInt64.size; omega)
  have stamp : (p.nextStamp now).toNat = max now.toNat (p.newest.toNat + 1) := by
    rw [Preferences.nextStamp, toNat_max, next]
  refine ⟨fun r member => ?_, by omega⟩
  have := (newest_lt (p := p) (Nat.succ_pos _)).mp (Nat.lt_succ_self _) r member
  rw [UInt64.lt_iff_toNat_lt]
  omega

/-! ### Paths -/

/-- Where paths stand once, looking for one finds the registry that has it. -/
theorem find?_same {l : List Remembered} {path : Path} {r : Remembered}
    (apart : l.Pairwise fun a b => a.path.components ≠ b.path.components) :
    l.find? (·.path.same path) = some r ↔ r ∈ l ∧ r.path.components = path.components := by
  constructor
  · intro found
    exact ⟨List.mem_of_find?_eq_some found, by simpa [Path.same] using List.find?_some found⟩
  · rintro ⟨member, here⟩
    induction l with
    | nil => cases member
    | cons s rest ih =>
      obtain ⟨other, rest⟩ := List.pairwise_cons.mp apart
      rcases List.mem_cons.mp member with rfl | member
      · exact List.find?_cons_of_pos (by simp [Path.same, here])
      · have away : s.path.components ≠ path.components := here ▸ other r member
        rw [List.find?_cons_of_neg (by simp [Path.same, away])]
        exact ih rest member

/-- A use puts one registry in the place of the one at its path. -/
theorem change_perm {path : Path} {touch : Remembered → Remembered} {new : Remembered}
    {l : List Remembered} (apart : l.Pairwise fun a b => a.path.components ≠ b.path.components) :
    (change path touch new l).Perm
      ((l.find? (·.path.same path)).elim new touch :: l.filter (!·.path.same path)) := by
  induction l with
  | nil => exact .refl _
  | cons r rest ih =>
    obtain ⟨other, tail⟩ := List.pairwise_cons.mp apart
    by_cases here : r.path.same path = true
    · have kept : rest.filter (!·.path.same path) = rest := by
        refine List.filter_eq_self.mpr fun s member => ?_
        have := other s member
        simp only [Path.same, beq_iff_eq] at here
        simpa [Path.same, ← here] using Ne.symm this
      simp [change, here, kept]
    · rw [change, if_neg here, List.find?_cons_of_neg (by exact here),
        List.filter_cons_of_pos (by simpa using here)]
      exact ((ih tail).cons r).trans (.swap ..)

/-! ### The list -/

/-- The registry that a use puts in front. -/
def touched (p : Preferences) (stamp : Stamp) (path : Path) (label? : Option String) :
    Remembered :=
  (p.get? path).elim ⟨path, label?.getD (defaultLabel path), stamp⟩
    fun r => { r with lastUsed := stamp, label := label?.getD r.label }

theorem later_total (a b : Remembered) :
    decide (b.lastUsed ≤ a.lastUsed) = true ∨ decide (a.lastUsed ≤ b.lastUsed) = true := by
  simpa using UInt64.le_total b.lastUsed a.lastUsed

theorem later_trans (a b c : Remembered) (first : decide (b.lastUsed ≤ a.lastUsed) = true)
    (second : decide (c.lastUsed ≤ b.lastUsed) = true) :
    decide (c.lastUsed ≤ a.lastUsed) = true :=
  decide_eq_true (UInt64.le_trans (of_decide_eq_true second) (of_decide_eq_true first))

/-- A list from late to early is what is shown of any rearrangement of it. -/
theorem list_eq_of_perm {l : List Remembered} (perm : p.registries.Perm l)
    (strict : l.Pairwise fun a b => b.lastUsed < a.lastUsed) : p.list = l := by
  refine sorted_eq_of_perm later_total later_trans perm (strict.imp fun lt => ?_)
  simpa using ⟨UInt64.le_of_lt lt, lt⟩

theorem list_perm : p.list.Perm p.registries := sorted_perm _ _

theorem Dated.list_pairwise (dated : p.Dated room) :
    p.list.Pairwise fun a b => b.lastUsed < a.lastUsed := by
  have ordered := sorted_pairwise later_total later_trans p.registries
  have different := (list_perm.pairwise_iff fun h => h.symm).mpr dated.moments
  refine (ordered.and different).imp fun ⟨le, ne⟩ => ?_
  exact UInt64.lt_of_le_of_ne (of_decide_eq_true le) ne.symm

theorem Dated.list_apart (dated : p.Dated room) :
    p.list.Pairwise fun a b => a.path.components ≠ b.path.components :=
  (list_perm.pairwise_iff fun h => h.symm).mpr dated.apart

/-- Looking for a path in the list finds what looking in the store finds. -/
theorem Dated.get? (dated : p.Dated room) (path : Path) :
    p.get? path = p.list.find? (·.path.same path) := by
  refine Option.ext fun r => ?_
  rw [Preferences.get?, find?_same dated.apart, find?_same dated.list_apart, list_perm.mem_iff]

theorem touched_path {stamp : Stamp} {path : Path} {label? : Option String} :
    (p.touched stamp path label?).path.components = path.components := by
  rw [touched, Preferences.get?]
  cases found : p.registries.find? (·.path.same path) with
  | none => rfl
  | some r => simpa [Path.same] using List.find?_some found

theorem touched_lastUsed {stamp : Stamp} {path : Path} {label? : Option String} :
    (p.touched stamp path label?).lastUsed = stamp := by
  rw [touched]
  cases p.get? path <;> rfl

theorem upsert_perm (dated : p.Dated room) (now : Stamp) (path : Path) (label? : Option String) :
    (p.upsert now path label?).registries.Perm
      (p.touched (p.nextStamp now) path label? :: p.registries.filter (!·.path.same path)) :=
  change_perm dated.apart

/-- A use leaves the store as it has to be, with room for one moment less. -/
theorem Dated.upsert (dated : p.Dated (room + 1)) {now : Stamp}
    (soon : now.toNat + (room + 1) < UInt64.size) (path : Path) (label? : Option String) :
    (p.upsert now path label?).Dated room := by
  have perm := upsert_perm dated now path label?
  obtain ⟨later, fits⟩ := dated.nextStamp soon
  have away : ∀ r ∈ p.registries.filter (!·.path.same path),
      r.path.components ≠ path.components := by
    intro r member
    simpa [Path.same] using (List.mem_filter.mp member).2
  refine ⟨?_, ?_, ?_⟩
  · refine (perm.pairwise_iff fun h => h.symm).mpr (List.pairwise_cons.mpr ⟨?_, ?_⟩)
    · intro r member
      rw [touched_path]
      exact (away r member).symm
    · exact dated.apart.filter _
  · refine (perm.pairwise_iff fun h => h.symm).mpr (List.pairwise_cons.mpr ⟨?_, ?_⟩)
    · intro r member
      rw [touched_lastUsed]
      exact (UInt64.ne_of_lt (later r (List.mem_of_mem_filter member))).symm
    · exact dated.moments.filter _
  · intro r member
    rcases List.mem_cons.mp (perm.mem_iff.mp member) with rfl | member
    · rwa [touched_lastUsed]
    · have := dated.early r (List.mem_of_mem_filter member)
      omega

/-- A registry that is used moves to the front of the list. -/
theorem Dated.list_upsert (dated : p.Dated (room + 1)) {now : Stamp}
    (soon : now.toNat + (room + 1) < UInt64.size) (path : Path) (label? : Option String) :
    (p.upsert now path label?).list =
      p.touched (p.nextStamp now) path label? :: p.list.filter (!·.path.same path) := by
  refine list_eq_of_perm ?_ (List.pairwise_cons.mpr ⟨fun r member => ?_, ?_⟩)
  · exact (upsert_perm dated now path label?).trans ((list_perm.symm.filter _).cons _)
  · rw [touched_lastUsed]
    exact (dated.nextStamp soon).1 r (list_perm.mem_iff.mp (List.mem_of_mem_filter member))
  · exact dated.list_pairwise.filter _

theorem Dated.remove (dated : p.Dated room) (path : Path) : (p.remove path).Dated room :=
  ⟨dated.apart.filter _, dated.moments.filter _,
    fun r member => dated.early r (List.mem_of_mem_filter member)⟩

/-- A registry that is forgotten leaves the list, the others keep their order. -/
theorem Dated.list_remove (dated : p.Dated room) (path : Path) :
    (p.remove path).list = p.list.filter (!·.path.same path) :=
  list_eq_of_perm (list_perm.symm.filter _) (dated.list_pairwise.filter _)

/-! ### The list by last use -/

/-- The store is as it has to be and shows what a list by last use shows. -/
structure Follows (p : Preferences) (l : List Recent) (room : Nat) : Prop extends
    p.Dated room where
  shown : p.list.map Remembered.shown = l.map Recent.shown

variable {l : List Recent}

theorem Follows.filter (follows : p.Follows l room) (path : Path) :
    (p.list.filter (!·.path.same path)).map Remembered.shown =
      (l.filter (!·.path.same path)).map Recent.shown := by
  have filtered := congrArg (List.filter fun seen => !seen.1.same path) follows.shown
  rwa [List.filter_map, List.filter_map] at filtered

/-- The same registry is found at a path. -/
theorem Follows.get? (follows : p.Follows l room) (path : Path) :
    (p.get? path).map Remembered.shown = (l.find? (·.path.same path)).map Recent.shown := by
  have found := congrArg (List.find? fun seen => seen.1.same path) follows.shown
  rw [List.find?_map, List.find?_map] at found
  rwa [follows.toDated.get?]

/-- The same paths are remembered. -/
theorem Follows.remembers (follows : p.Follows l room) (path : Path) :
    p.remembers path = l.any (·.path.same path) := by
  have known := congrArg (List.any · fun seen => seen.1.same path) follows.shown
  rw [List.any_map, List.any_map] at known
  rw [Preferences.remembers, ← list_perm.any_eq]
  exact known

/-- The registries that a use puts in front show the same: its path as it was first written, and
the label that was given last. -/
theorem Follows.touched (follows : p.Follows l room) (stamp : Stamp) (path : Path)
    (label? : Option String) :
    (p.touched stamp path label?).shown =
      ((l.find? (·.path.same path)).elim ⟨path, label?⟩
        fun r => ⟨r.path, label? <|> r.given?⟩ : Recent).shown := by
  have found := follows.get? path
  rw [Preferences.touched]
  generalize p.get? path = stored at found
  generalize l.find? (·.path.same path) = recent at found
  cases stored with
  | none =>
    obtain rfl : recent = none := by simpa using found.symm
    rfl
  | some r =>
    obtain ⟨r', rfl, same⟩ : ∃ r', recent = some r' ∧ r'.shown = r.shown := by
      simpa using found.symm
    obtain ⟨path, label⟩ := Prod.mk.inj same
    cases label? with
    | none => exact Prod.ext path.symm label.symm
    | some given => exact Prod.ext path.symm rfl

/-- One change keeps the store and the list together. -/
theorem Follows.after {c : MemoryChange} {rest : List MemoryChange}
    (follows : p.Follows l (MemoryChange.uses (c :: rest)))
    (inTime : ∀ now path label?, c = .use now path label? →
      now.toNat + MemoryChange.uses (c :: rest) < UInt64.size) :
    (p.after c).Follows (Recent.after l c) (MemoryChange.uses rest) := by
  cases c with
  | use now path label? =>
    have soon := inTime now path label? rfl
    refine ⟨follows.toDated.upsert soon path label?, ?_⟩
    rw [Preferences.after, follows.toDated.list_upsert soon, Recent.after, List.map_cons,
      List.map_cons, follows.touched, follows.filter]
  | forget path =>
    refine ⟨follows.toDated.remove path, ?_⟩
    rw [Preferences.after, follows.toDated.list_remove, follows.filter, Recent.after]
  | clear => exact ⟨⟨.nil, .nil, fun r member => nomatch member⟩, rfl⟩
  | sort order => exact ⟨⟨follows.apart, follows.moments, follows.early⟩, follows.shown⟩

end Preferences

namespace Workplace

/-- A failure to write leaves what is remembered changed. -/
theorem preferences_after (w : Workplace) (c : MemoryChange) :
    (w.after c).store.preferences = w.store.preferences.after c := by
  cases c with
  | use now path label? => rfl
  | clear => rfl
  | sort order => rfl
  | forget path =>
    rw [Workplace.after, Workplace.forget]
    split
    · rfl
    · next unknown =>
      have kept : w.store.preferences.registries.filter (!·.path.same path) =
          w.store.preferences.registries := by
        refine List.filter_eq_self.mpr fun r member => ?_
        simpa using fun same => unknown (List.any_eq_true.mpr ⟨r, member, same⟩)
      rw [Preferences.after, Preferences.remove, kept]

/-- A run of changes keeps the store and the list together. -/
theorem follows_foldl {w : Workplace} {l : List Recent} {later : List MemoryChange}
    {done : List MemoryChange}
    (follows : w.store.preferences.Follows l (MemoryChange.uses (done ++ later)))
    (inTime : ∀ now path label?, .use now path label? ∈ done →
      now.toNat + MemoryChange.uses (done ++ later) < UInt64.size) :
    (done.foldl Workplace.after w).store.preferences.Follows (done.foldl Recent.after l)
      (MemoryChange.uses later) := by
  induction done generalizing w l with
  | nil => exact follows
  | cons c rest ih =>
    have fewer : MemoryChange.uses (rest ++ later) ≤ MemoryChange.uses (c :: rest ++ later) := by
      cases c <;> simp [MemoryChange.uses]
    refine ih ?_ fun now path label? member => ?_
    · rw [preferences_after]
      exact follows.after fun now path label? this => inTime now path label? (by simp [this])
    · have := inTime now path label? (List.mem_cons_of_mem c member)
      omega

/-- The answer to a request to forget: whether the registry was remembered, unless what is left
could not be written. -/
theorem forget_answer (w : Workplace) (path : Path) :
    (w.forget path).1 =
      if w.store.preferences.remembers path then
        ({ w.store with preferences := w.store.preferences.remove path }.save w.disk).1.map
          fun _ => true
      else .ok false := by
  rw [Workplace.forget]
  split <;> rfl

/-- What is remembered after every step of a run that begins with nothing: the list is that of the
last uses, every path once and every moment later than the next; a request to forget is answered by
whether the path is on it; another order of the helpers changes nothing in it. -/
theorem list_foldl_after (w : Workplace) (nothing : w.store.preferences.registries = [])
    {changes : List MemoryChange}
    (inTime : ∀ now path label?, .use now path label? ∈ changes →
      now.toNat + MemoryChange.uses changes < UInt64.size)
    {done : List MemoryChange} (step : done <+: changes) :
    let w := done.foldl Workplace.after w
    let recent := done.foldl Recent.after []
    w.store.preferences.list.map Remembered.shown = recent.map Recent.shown ∧
    w.store.preferences.list.Pairwise (fun a b => ¬a.path.same b.path ∧ b.lastUsed < a.lastUsed) ∧
    (∀ path, (w.forget path).1 =
      if recent.any (·.path.same path) then
        ({ w.store with preferences := w.store.preferences.remove path }.save w.disk).1.map
          fun _ => true
      else .ok false) ∧
    (w.store.file? = none → ∀ path, (w.forget path).1 = .ok (recent.any (·.path.same path))) ∧
    ∀ order, (w.after (.sort order)).store.preferences.registries =
      w.store.preferences.registries := by
  obtain ⟨later, rfl⟩ := step
  have start : w.store.preferences.Follows [] (MemoryChange.uses (done ++ later)) := by
    refine ⟨⟨?_, ?_, ?_⟩, ?_⟩ <;> simp [nothing, Preferences.list, sorted]
  have follows := follows_foldl start fun now path label? member =>
    inTime now path label? (List.mem_append_left _ member)
  intro w recent
  have answer : ∀ path, (w.forget path).1 =
      if recent.any (·.path.same path) then
        ({ w.store with preferences := w.store.preferences.remove path }.save w.disk).1.map
          fun _ => true
      else .ok false := fun path => by rw [forget_answer, follows.remembers]
  refine ⟨follows.shown, ?_, answer, fun nowhere path => ?_, fun order => rfl⟩
  · refine (follows.toDated.list_apart.and follows.toDated.list_pairwise).imp fun both => ?_
    exact ⟨by simpa [Path.same] using both.1, both.2⟩
  · rw [answer, Store.save]
    split
    · next known => simp [nowhere, known, Except.map]
    · next unknown => simp [unknown]

/-- Two registries at one reading of the clock, and the first again when the clock has gone back:
it is in front, under its new label. -/
theorem list_foldl_after_backwards :
    let w : Workplace := ⟨⟨{ top := .empty }, ⟨"/"⟩, {}⟩, {}, 0⟩
    let changes : List MemoryChange :=
      [.use 7 ⟨"/a/r.ts"⟩ none, .use 7 ⟨"/b/r.ts"⟩ none, .use 3 ⟨"/a//r.ts"⟩ (some "Shop")]
    (changes.foldl Workplace.after w).store.preferences.list.map Remembered.shown =
      [(⟨"/a/r.ts"⟩, "Shop"), (⟨"/b/r.ts"⟩, "b")] := by
  intro w changes
  have inTime : ∀ now path label?, .use now path label? ∈ changes →
      now.toNat + MemoryChange.uses changes < UInt64.size := by
    intro now path label? member
    have : now = 7 ∨ now = 3 := by simp [changes] at member; tauto
    rcases this with rfl | rfl <;> decide
  exact (w.list_foldl_after rfl inTime (List.prefix_refl changes)).1.trans (by decide +kernel)

end Workplace
end Registrar
