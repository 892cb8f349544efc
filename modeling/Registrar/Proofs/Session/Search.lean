import Registrar.Proofs.Session.Taking

/-!
What the answers to the questions about a registry say. The user picks one of the remembered registries,
has one that is gone given up or finds its new place, and may miss that place several times. A search
that comes to a registry has heard such answers, and has staged exactly what they say.
-/

namespace Registrar

/-! ### What answers say -/

namespace Workplace

/-- The remembered registries that are left when those at some paths have been given up. -/
def left (w : Workplace) (gone : List Path) : List Remembered :=
  w.store.preferences.list.filter fun r => !gone.any r.path.same

/-- A registry is picked from those that are left; a single one that is still there picks itself. -/
inductive Picks (w : Workplace) : List Remembered → List Answer → Remembered → Prop where
  | only (r : Remembered) (there : w.isStale r = false) : Picks w [r] [] r
  | place {l : List Remembered} {n : Nat} {r : Remembered} (item : l[n]? = some r) :
    Picks w l [.one (some n)] r

variable {w : Workplace} {r : Remembered}

theorem Picks.mem {l : List Remembered} {picking : List Answer} (picks : w.Picks l picking r) :
    r ∈ l := by
  cases picks with
  | only r there => simp
  | place item => exact List.mem_of_getElem? item

/-- To give up a registry leaves fewer. -/
theorem length_left_lt {gone : List Path} (member : r ∈ w.left gone) :
    (w.left (gone ++ [r.path])).length < (w.left gone).length := by
  have split : w.left (gone ++ [r.path]) = (w.left gone).filter fun other => !other.path.same r.path := by
    rw [left, left, List.filter_filter]
    exact List.filter_congr fun other _ => by simp [Bool.and_comm]
  rw [split]
  refine List.length_filter_lt_length_iff_exists.mpr ⟨r, member, ?_⟩
  simp [Path.same]

/-- The user looks for the new place of a registry, and finds none. -/
inductive Misses (w : Workplace) : List Answer → Prop where
  | none : Misses w []
  | miss {given : Path} {rest : List Answer} (why : Failure)
    (refused : w.checkRegistry (w.resolve given) = .error why) (later : Misses w rest) :
    Misses w (.one (some 1) :: .file (some given) :: rest)

/-- The answers that lead to a registry: which of the remembered ones that are gone are removed, and
which one, if any, has moved to the place of that registry. -/
inductive Search (w : Workplace) :
    List Path → List Answer → List Remembered → Option Remembered → Path → Prop where
  | live {gone : List Path} {answers : List Answer} {r : Remembered}
    (picks : w.Picks (w.left gone) answers r) (there : w.isStale r = false) :
    Search w gone answers [] none r.path
  | moved {gone : List Path} {picking misses : List Answer} {r : Remembered} {given : Path}
    (picks : w.Picks (w.left gone) picking r) (stale : w.isStale r = true)
    (missing : w.Misses misses) (found : w.checkRegistry (w.resolve given) = .ok ()) :
    Search w gone (picking ++ (misses ++ [.one (some 1), .file (some given)])) [] (some r)
      (w.resolve given)
  | removed {gone : List Path} {picking misses rest : List Answer} {r : Remembered}
    {removed : List Remembered} {moved? : Option Remembered} {path : Path}
    (picks : w.Picks (w.left gone) picking r) (stale : w.isStale r = true)
    (missing : w.Misses misses) (later : Search w (gone ++ [r.path]) rest removed moved? path) :
    Search w gone (picking ++ (misses ++ .one (some 0) :: rest)) (r :: removed) moved? path
  | first {gone : List Path} {path : Path} (none_ : w.left gone = [])
    (found : w.firstRegistry? = some path) : Search w gone [] [] none path

/-- The answers that lead to the registry of a command: none if it is given. -/
def Chosen (w : Workplace) (given? : Option Path) (answers : List Answer)
    (removed : List Remembered) (moved? : Option Remembered) (path : Path) : Prop :=
  match given? with
  | some given => answers = [] ∧ removed = [] ∧ moved? = none ∧ path = w.resolve given
  | none => w.Search [] answers removed moved? path

end Workplace

/-- What is staged when some registries are removed and one is used, maybe as the new place of one
that has moved. -/
def Staged.ofChoice (removed : List Remembered) (moved? : Option Remembered) (path : Path) :
    List Staged :=
  ((removed ++ moved?.toList).map fun r => .forget r.path) ++ [.remember path (moved?.map (·.label))]

/-! ### The search -/

namespace Inquiry

open Workplace

variable {w : Workplace} {talk : Talk} {s' : Session} {r : Remembered} {path : Path} {tries : Nat}

theorem inquire_remaining_bind {β : Type} (f : List Remembered → Inquiry β) :
    Session.inquire ⟨w, talk⟩ (remaining >>= f) = Session.inquire ⟨w, talk⟩ (f (w.left
      (talk.staged.filterMap fun | .forget path => some path | .remember .. => none))) := rfl

section Leading

variable {answers : List Answer} {staged staged' : List Staged} {found : Found} {gone : List Path}

theorem takes_settleOn (label? : Option String) : Takes w [] staged (settleOn path label?)
    (.registry path) (staged ++ [.remember path label?]) :=
  (Takes.stage _).after (.pure _)

/-- A registry that is gone is given up. -/
theorem takes_remedy_forgotten (patient : 0 < tries) : Takes w [.one (some 0)] staged
    (remedy r tries) .forgotten (staged ++ [.forget r.path]) := by
  obtain ⟨tries, rfl⟩ := Nat.exists_eq_succ_of_ne_zero (Nat.ne_of_gt patient)
  refine (Takes.one (n := 0) rfl).bind ((Takes.stage _).after ?_)
  exact Takes.after (.say _ _) (.pure _)

/-- A registry that is gone has its new place. -/
theorem takes_remedy_moved {given : Path} (checked : w.checkRegistry (w.resolve given) = .ok ())
    (patient : 0 < tries) : Takes w [.one (some 1), .file (some given)] staged (remedy r tries)
      (.registry (w.resolve given))
      (staged ++ [.forget r.path, .remember (w.resolve given) (some r.label)]) := by
  obtain ⟨tries, rfl⟩ := Nat.exists_eq_succ_of_ne_zero (Nat.ne_of_gt patient)
  refine (Takes.one (n := 1) rfl).bind ((Takes.file given).bind (Takes.read ?_))
  simp only [checked]
  have settles : Takes w [] staged (stage (.forget r.path) >>= fun _ =>
      settleOn (w.resolve given) (some r.label)) _ _ := (Takes.stage _).after (takes_settleOn _)
  simpa using settles

/-- However often the new place is missed, what follows leads on. -/
theorem takes_remedy {misses last : List Answer} (missing : w.Misses misses)
    (leads : ∀ tries, 0 < tries → Takes w last staged (remedy r tries) found staged')
    (patient : misses.length < tries) :
    Takes w (misses ++ last) staged (remedy r tries) found staged' := by
  induction missing generalizing tries with
  | none => exact leads tries patient
  | @miss given rest why refused _ ih =>
    obtain ⟨tries, rfl⟩ := Nat.exists_eq_succ_of_ne_zero (Nat.ne_zero_of_lt patient)
    have later : Takes w (_ ++ last) staged (remedy r tries) found staged' := ih (by simp at patient; omega)
    refine (Takes.one (n := 1) rfl).bind ((Takes.file given).bind (Takes.read ?_))
    simp only [refused]
    exact Takes.after (.say _ _) later

theorem takes_remaining : Takes w [] (gone.map .forget) remaining (w.left gone) (gone.map .forget) := by
  intro events rest
  refine ⟨events, ?_⟩
  have forgotten : ((gone.map Staged.forget).filterMap fun
      | .forget path => some path
      | .remember .. => none) = gone := by
    rw [List.filterMap_map]
    exact List.filterMap_some
  have step : Session.inquire ⟨w, ⟨.script rest, events, gone.map .forget⟩⟩ (remaining >>= pure) = _ :=
    inquire_remaining_bind pure
  rw [bind_pure] at step
  dsimp only at step
  rw [forgotten] at step
  exact step

theorem takes_nothing (none_ : w.left gone = []) :
    Takes w [] (gone.map .forget) amongRemembered .nothing (gone.map .forget) := by
  refine .read (takes_remaining.after ?_)
  rw [none_]
  exact .pure _

/-- A registry is picked from those that are left, and settled on or remedied. -/
theorem takes_amongRemembered {picking : List Answer} (picks : w.Picks (w.left gone) picking r)
    (unasked : ∀ only, w.left gone = [only] → w.isStale only = false → picking = [])
    (settles : Takes w answers (gone.map .forget) (if w.isStale r then do
        Talk.say .warning ("Registry '" ++ r.label ++ "' no longer exists at " ++ r.path.text)
        remedy r ((← patience) + 1)
      else settleOn r.path none) found staged') :
    Takes w (picking ++ answers) (gone.map .forget) amongRemembered found staged' := by
  refine .read (takes_remaining.after ?_)
  generalize w.left gone = l at picks unasked
  cases picks with
  | only r there =>
    simp only [there]
    exact Takes.after (.pure (some r)) settles
  | @place _ n _ item =>
    rcases l with _ | ⟨r', _ | ⟨r'', l⟩⟩
    · cases item
    · have stale : w.isStale r' = true := by
        by_contra live
        cases unasked r' rfl (by simpa using live)
      simp only [stale]
      exact (Takes.one item).bind settles
    · exact (Takes.one item).bind settles

end Leading

/-- A remedy that has led on: the registry is given up, or it has a new place. -/
theorem of_inquire_remedy {found : Found}
    (ended : Session.inquire ⟨w, talk⟩ (remedy r tries) = (.ok found, s')) :
    found = .cancelled ∨ ∃ misses, w.Misses misses ∧
      (found = .forgotten ∧ talk.Heard (misses ++ [.one (some 0)]) s'.talk ∧
          s'.talk.staged = talk.staged ++ [.forget r.path] ∨
        ∃ given, found = .registry (w.resolve given) ∧
          w.checkRegistry (w.resolve given) = .ok () ∧
          talk.Heard (misses ++ [.one (some 1), .file (some given)]) s'.talk ∧
          s'.talk.staged =
            talk.staged ++ [.forget r.path, .remember (w.resolve given) (some r.label)]) := by
  induction tries generalizing talk with
  | zero => exact absurd ended (inquire_throw_ne_ok _)
  | succ tries ih =>
    rw [remedy] at ended
    obtain ⟨choice?, _, asked, ended⟩ := inquire_bind_eq_ok_iff.mp ended
    obtain ⟨place?, heard, staged, picked⟩ := heard_of_inquire_one asked
    rw [place_of_inquire asked] at ended
    rcases choice? with _ | (_ | _ | _)
    · exact .inl (inquire_pure_eq_ok_iff.mp ended).1.symm
    · obtain ⟨n, rfl, there⟩ := picked _ rfl
      obtain rfl : n = 0 := by rcases n with _ | _ | _ | n <;> simp at there ⊢
      dsimp only at ended
      rw [inquire_stage_bind, Talk.say, inquire_record_bind] at ended
      obtain ⟨rfl, rfl⟩ := inquire_pure_eq_ok_iff.mp ended
      exact .inr ⟨[], .none, .inl ⟨rfl, heard.keep rfl, congrArg (· ++ [_]) staged⟩⟩
    · obtain ⟨n, rfl, there⟩ := picked _ rfl
      obtain rfl : n = 1 := by rcases n with _ | _ | _ | n <;> simp at there ⊢
      obtain ⟨path?, _, asked', ended⟩ := inquire_bind_eq_ok_iff.mp ended
      obtain ⟨given?, heard', staged', rfl⟩ := heard_of_inquire_file asked'
      rw [place_of_inquire asked'] at ended
      cases given? with
      | none => exact .inl (inquire_pure_eq_ok_iff.mp ended).1.symm
      | some given =>
        have picked' := heard.trans heard'
        dsimp only [Option.map_some] at ended
        rw [inquire_read_bind] at ended
        split at ended
        · next checked =>
          rw [inquire_stage_bind, settleOn, inquire_stage_bind] at ended
          obtain ⟨rfl, rfl⟩ := inquire_pure_eq_ok_iff.mp ended
          refine .inr ⟨[], .none, .inr ⟨given, rfl, checked, picked'.keep rfl, ?_⟩⟩
          simp [staged, staged']
        · next why refused =>
          rw [Talk.say, inquire_record_bind] at ended
          rcases ih ended with cancelled | ⟨misses, missing, led⟩
          · exact .inl cancelled
          · refine .inr ⟨_, .miss why refused missing, ?_⟩
            have before_ := staged'.trans staged
            rcases led with ⟨rfl, rest, kept⟩ | ⟨given', rfl, checked, rest, kept⟩
            · exact .inl ⟨rfl, (picked'.keep rfl).trans rest, by rw [kept, ← before_]⟩
            · exact .inr ⟨given', rfl, checked, (picked'.keep rfl).trans rest, by rw [kept, ← before_]⟩
    · exact .inl (inquire_pure_eq_ok_iff.mp ended).1.symm

/-- A question for one of the registries that are left has led on with one of them. A single one is only
asked about if it is gone. -/
theorem of_inquire_pick {l : List Remembered} {found : Found} {go_on : Option Remembered → Inquiry Found}
    (cancels : go_on none = pure .cancelled) (stale : ∀ only, l = [only] → w.isStale only = true)
    (ended : Session.inquire ⟨w, talk⟩ (one "Select a registry" w.offer l >>= go_on) = (.ok found, s')) :
    found = .cancelled ∨ ∃ picking r talk', w.Picks l picking r ∧
      (∀ only, l = [only] → w.isStale only = false → picking = []) ∧
      talk.Heard picking talk' ∧ talk'.staged = talk.staged ∧
        Session.inquire ⟨w, talk'⟩ (go_on (some r)) = (.ok found, s') := by
  obtain ⟨choice?, _, asked, ended⟩ := inquire_bind_eq_ok_iff.mp ended
  obtain ⟨place?, heard, kept, picked⟩ := heard_of_inquire_one asked
  rw [place_of_inquire asked] at ended
  cases choice? with
  | none =>
    rw [cancels] at ended
    exact .inl (inquire_pure_eq_ok_iff.mp ended).1.symm
  | some r =>
    obtain ⟨n, rfl, there⟩ := picked r rfl
    exact .inr ⟨_, r, _, .place there, fun only single live => by simp [stale only single] at live,
      heard, kept, ended⟩

/-- A pick among remembered registries has led on: to one that is still there, or to a remedy. -/
theorem of_inquire_amongRemembered {gone : List Path} {found : Found}
    (given_up : talk.staged = gone.map .forget)
    (ended : Session.inquire ⟨w, talk⟩ amongRemembered = (.ok found, s')) :
    found = .cancelled ∨ found = .nothing ∧ w.left gone = [] ∧ s'.talk = talk ∨
      ∃ picking r, w.Picks (w.left gone) picking r ∧
        (∀ only, w.left gone = [only] → w.isStale only = false → picking = []) ∧
        (w.isStale r = false ∧ found = .registry r.path ∧ talk.Heard picking s'.talk ∧
            s'.talk.staged = talk.staged ++ [.remember r.path none] ∨
          w.isStale r = true ∧ ∃ talk' tries, talk.Heard picking talk' ∧
            talk'.staged = talk.staged ∧
              Session.inquire ⟨w, talk'⟩ (remedy r tries) = (.ok found, s')) := by
  have forgotten : (talk.staged.filterMap fun
      | .forget path => some path
      | .remember .. => none) = gone := by
    rw [given_up, List.filterMap_map]
    exact List.filterMap_some
  rw [amongRemembered, inquire_read_bind, inquire_remaining_bind, forgotten] at ended
  extract_lets go_on at ended
  have led : found = .cancelled ∨ found = .nothing ∧ w.left gone = [] ∧ s'.talk = talk ∨
      ∃ picking r talk', w.Picks (w.left gone) picking r ∧
        (∀ only, w.left gone = [only] → w.isStale only = false → picking = []) ∧
        talk.Heard picking talk' ∧ talk'.staged = talk.staged ∧
          Session.inquire ⟨w, talk'⟩ (go_on (some r)) = (.ok found, s') := by
    generalize w.left gone = l at ended
    split at ended
    · obtain ⟨rfl, rfl⟩ := inquire_pure_eq_ok_iff.mp ended
      exact .inr (.inl ⟨rfl, rfl, rfl⟩)
    · next r =>
      split at ended
      · next stale =>
        refine (of_inquire_pick rfl (fun only single => ?_) ended).imp_right .inr
        rwa [← (List.cons.inj single).1]
      · next there =>
        exact .inr (.inr ⟨[], r, talk, .only r (by simpa using there), fun _ _ _ => rfl, .of_eq rfl, rfl,
          ended⟩)
    · next several =>
      exact (of_inquire_pick rfl (fun only single => absurd single (several only)) ended).imp_right .inr
  refine led.imp_right (Or.imp_right ?_)
  rintro ⟨picking, r, talk', picks, unasked, heard, kept, ended⟩
  refine ⟨picking, r, picks, unasked, ?_⟩
  dsimp only [go_on] at ended
  split at ended
  · next stale =>
    rw [Talk.say, inquire_record_bind, inquire_patience_bind] at ended
    refine .inr ⟨stale, _, _, ?_, ?_, ended⟩
    · exact heard.keep rfl
    · exact kept
  · next there =>
    rw [settleOn, inquire_stage_bind] at ended
    obtain ⟨rfl, rfl⟩ := inquire_pure_eq_ok_iff.mp ended
    exact .inl ⟨by simpa using there, rfl, heard.keep rfl, congrArg (· ++ [_]) kept⟩

/-- Where nothing remembered is left, the first registry of the workspace is found. -/
theorem of_inquire_firstRegistry {found : Found}
    (ended : Session.inquire ⟨w, talk⟩ firstRegistry = (.ok found, s')) :
    ∃ path, w.firstRegistry? = some path ∧ found = .registry path ∧ talk.Heard [] s'.talk ∧
      s'.talk.staged = talk.staged ++ [.remember path none] := by
  rw [firstRegistry, inquire_read_bind] at ended
  cases there : w.firstRegistry? with
  | none =>
    simp only [there] at ended
    exact absurd ended (inquire_throw_ne_ok _)
  | some path =>
    simp only [there] at ended
    rw [Talk.say, inquire_record_bind, settleOn, inquire_stage_bind] at ended
    obtain ⟨rfl, rfl⟩ := inquire_pure_eq_ok_iff.mp ended
    exact ⟨path, rfl, rfl, .of_eq rfl, rfl⟩

theorem takes_firstRegistry {staged : List Staged} (first : w.firstRegistry? = some path) :
    Takes w [] staged firstRegistry (.registry path) (staged ++ [.remember path none]) := by
  refine .read ?_
  simp only [first]
  exact Takes.after (.say _ _) (takes_settleOn none)

/-- A remembered registry, or else the first one of the workspace. -/
def search (tries : Nat) : Inquiry Found := do
  match ← remembered tries with
  | .nothing => firstRegistry
  | found => pure found

/-- One round of a search. -/
theorem search_succ (tries : Nat) : search (tries + 1) = (do
    match ← amongRemembered with
    | .forgotten => search tries
    | .nothing => firstRegistry
    | found => pure found) := by
  rw [search, remembered, bind_assoc]
  congr 1
  funext found
  cases found <;> rfl

/-- A search comes to a registry in the way that its answers say, and stages what they say. It would
come there whatever followed the answers. -/
theorem of_inquire_search {gone : List Path} {found : Found} (enough : (w.left gone).length ≤ tries)
    (given_up : talk.staged = gone.map .forget)
    (ended : Session.inquire ⟨w, talk⟩ (search tries) = (.ok found, s')) :
    found = .cancelled ∨ ∃ used removed moved? path, found = .registry path ∧
      talk.Heard used s'.talk ∧ w.Search gone used removed moved? path ∧
        s'.talk.staged = gone.map .forget ++ Staged.ofChoice removed moved? path ∧
          Takes w used (gone.map .forget) (search tries) (.registry path)
            (gone.map .forget ++ Staged.ofChoice removed moved? path) := by
  induction tries generalizing gone talk with
  | zero =>
    have none_ : w.left gone = [] := List.length_eq_zero_iff.mp (Nat.le_zero.mp enough)
    obtain ⟨path, there, rfl, heard, staged⟩ := of_inquire_firstRegistry ended
    exact .inr ⟨[], [], none, path, rfl, heard, .first none_ there, by rw [staged, given_up]; rfl,
      takes_firstRegistry there⟩
  | succ tries ih =>
    rw [search_succ] at ended ⊢
    obtain ⟨first, _, among, ended⟩ := inquire_bind_eq_ok_iff.mp ended
    rw [place_of_inquire among] at ended
    rcases of_inquire_amongRemembered given_up among with
      rfl | ⟨rfl, none_, same⟩ | ⟨picking, r, picks, unasked, there | gone_⟩
    · exact .inl (inquire_pure_eq_ok_iff.mp ended).1.symm
    · rw [same] at ended
      obtain ⟨path, there, rfl, heard, staged⟩ := of_inquire_firstRegistry ended
      exact .inr ⟨[], [], none, path, rfl, heard, .first none_ there, by rw [staged, given_up]; rfl,
        (takes_nothing none_).after (takes_firstRegistry there)⟩
    · obtain ⟨there, rfl, heard, staged⟩ := there
      obtain ⟨rfl, rfl⟩ := inquire_pure_eq_ok_iff.mp ended
      refine .inr ⟨picking, [], none, r.path, rfl, heard, .live picks there,
        by rw [staged, given_up]; rfl, ?_⟩
      have settles := takes_amongRemembered picks unasked (by
        rw [there]
        exact takes_settleOn none)
      rw [List.append_nil] at settles
      exact settles.before (.pure _)
    · obtain ⟨stale, talk', _, heard, kept, remedied⟩ := gone_
      -- The remedy is asked for once the registry has been picked.
      have remedies : ∀ {answers found staged}, (∀ tries, answers.length < tries →
          Takes w answers (gone.map .forget) (remedy r tries) found staged) →
          Takes w (picking ++ answers) (gone.map .forget) amongRemembered found staged := by
        intro answers found staged leads
        refine takes_amongRemembered picks unasked ?_
        rw [stale]
        exact Takes.after (.say _ _) (.patience fun n enough => leads _ (by omega))
      rcases of_inquire_remedy remedied with
        rfl | ⟨misses, missing, ⟨rfl, led, staged⟩ | ⟨given, rfl, checked, led, staged⟩⟩
      · exact .inl (inquire_pure_eq_ok_iff.mp ended).1.symm
      · -- Others are left; one less is looked through.
        have fewer : (w.left (gone ++ [r.path])).length ≤ tries := by
          have less := length_left_lt picks.mem
          omega
        rcases ih fewer (by simp [staged, kept, given_up]) ended with
          cancelled | ⟨used, removed, moved?, path, rfl, later, search_, staged', takes⟩
        · exact .inl cancelled
        · refine .inr ⟨_, r :: removed, moved?, path, rfl, ?_, .removed picks stale missing search_, ?_, ?_⟩
          · simpa using heard.trans (led.trans later)
          · simp [staged', Staged.ofChoice]
          · have gives_up := remedies fun tries patient => takes_remedy missing
              (fun tries patient => takes_remedy_forgotten patient) (by simp at patient; omega)
            have answers_ : picking ++ (misses ++ .one (some 0) :: used) =
                picking ++ (misses ++ [.one (some 0)]) ++ used := by simp
            have staged_ : gone.map Staged.forget ++ Staged.ofChoice (r :: removed) moved? path =
                (gone ++ [r.path]).map .forget ++ Staged.ofChoice removed moved? path := by
              simp [Staged.ofChoice]
            have gone_ : (gone ++ [r.path]).map Staged.forget =
                gone.map .forget ++ [.forget r.path] := by simp
            rw [answers_, staged_]
            exact gives_up.bind (gone_ ▸ takes)
      · obtain ⟨rfl, rfl⟩ := inquire_pure_eq_ok_iff.mp ended
        refine .inr ⟨_, [], some r, _, rfl, heard.trans led, .moved picks stale missing checked, ?_, ?_⟩
        · rw [staged, kept, given_up]
          rfl
        · have moves := remedies fun tries patient => takes_remedy missing
            (fun tries patient => takes_remedy_moved checked patient) (by simp at patient; omega)
          exact moves.before (.pure _)

theorem inquire_modify_bind {β : Type} {s : Session} (change : Talk → Talk) (f : Unit → Inquiry β) :
    s.inquire (modify change >>= f) = Session.inquire { s with talk := change s.talk } (f ()) := rfl

theorem registry_some (given : Path) : registry (some given) = (do
    modify fun t => { t with staged := [] }
    let w ← read
    match w.checkRegistry (w.resolve given) with
    | .ok () => do
      stage (.remember (w.resolve given) none)
      return some (w.resolve given)
    | .error why => throw why) := by
  rw [registry]
  refine congrArg _ (funext fun _ => congrArg _ (funext fun w => ?_))
  dsimp only
  cases w.checkRegistry (w.resolve given) <;> rfl

theorem registry_none : registry none = (do
    modify fun t => { t with staged := [] }
    let w ← read
    match ← search w.store.preferences.registries.length with
    | .registry path => return some path
    | _ => return none) := by
  rw [registry]
  refine congrArg _ (funext fun _ => congrArg _ (funext fun w => ?_))
  rw [search, bind_assoc]
  dsimp only
  refine congrArg _ (funext fun found => ?_)
  cases found <;> rfl

/-- The registry of a command is the one that is given or that the answers lead to, and what they say is
staged; it would be the same whatever followed the answers. -/
theorem takes_of_inquire_registry {given? : Option Path} {path : Path}
    (ended : Session.inquire ⟨w, talk⟩ (registry given?) = (.ok (some path), s')) :
    ∃ used removed moved?, talk.Heard used s'.talk ∧ w.Chosen given? used removed moved? path ∧
      s'.talk.staged = Staged.ofChoice removed moved? path ∧ ∀ staged,
        Takes w used staged (registry given?) (some path) (Staged.ofChoice removed moved? path) := by
  cases given? with
  | some given =>
    rw [registry_some, inquire_modify_bind, inquire_read_bind] at ended
    dsimp only at ended
    split at ended
    · next checked =>
      rw [inquire_stage_bind] at ended
      obtain ⟨same, rfl⟩ := inquire_pure_eq_ok_iff.mp ended
      obtain rfl := Option.some.inj same
      refine ⟨[], [], none, .of_eq rfl, ⟨rfl, rfl, rfl, rfl⟩, rfl, fun staged => ?_⟩
      rw [registry_some]
      refine Takes.clear.after (Takes.read ?_)
      simp only [checked]
      exact (Takes.stage _).after (.pure _)
    · exact absurd ended (inquire_throw_ne_ok _)
  | none =>
    rw [registry_none, inquire_modify_bind, inquire_read_bind] at ended
    obtain ⟨found, m, searched, ended⟩ := inquire_bind_eq_ok_iff.mp ended
    have enough : (w.left []).length ≤ w.store.preferences.registries.length := by
      rw [left, ← (sorted_perm _ w.store.preferences.registries).length_eq]
      exact List.length_filter_le _ _
    rcases of_inquire_search enough rfl searched with
      rfl | ⟨used, removed, moved?, _, rfl, heard, way, staged, takes⟩
    · cases (inquire_pure_eq_ok_iff.mp ended).1
    · obtain ⟨same, rfl⟩ := inquire_pure_eq_ok_iff.mp ended
      obtain rfl := Option.some.inj same
      refine ⟨used, removed, moved?, heard, way, staged, fun staged => ?_⟩
      rw [registry_none]
      exact Takes.clear.after (Takes.read (takes.before (.pure _)))

/-- The registry of a command is the one that is given or that the answers lead to, and what they say is
staged. The workplace is as it was. -/
theorem of_inquire_registry {given? : Option Path} {path : Path}
    (ended : Session.inquire ⟨w, talk⟩ (registry given?) = (.ok (some path), s')) :
    ∃ used removed moved?, talk.Heard used s'.talk ∧ w.Chosen given? used removed moved? path ∧
      s'.talk.staged = Staged.ofChoice removed moved? path := by
  obtain ⟨used, removed, moved?, heard, way, staged, -⟩ := takes_of_inquire_registry ended
  exact ⟨used, removed, moved?, heard, way, staged⟩

end Inquiry
end Registrar
