import Registrar.Proofs.Disk.Walk
import Registrar.Proofs.Sorted
import Registrar.Workflow.Basic

/-!
What the choice of a registry comes to. A given path, a new place of a registry that is gone and the
first registry of the workspace are registries when they are chosen; a remembered registry that is
still there is taken at its word. So what holds of every registry that is there, and of every
remembered path where a file is, holds of the path that is chosen.
-/

namespace Registrar

namespace Inquiry

variable {α β : Type} {w : Workplace}

/-- The inquiry, made in a workplace, comes to results of a kind only. -/
def Yields (w : Workplace) (i : Inquiry α) (holds : α → Prop) : Prop :=
  ∀ talk a, (Session.inquire ⟨w, talk⟩ i).1 = .ok a → holds a

/-- What comes second is found out where the first has come to something. -/
theorem inquire_bind (s : Session) (i : Inquiry α) (f : α → Inquiry β) :
    s.inquire (i >>= f) =
      match s.inquire i with
      | (.ok a, s') => s'.inquire (f a)
      | (.error why, s') => (.error why, s') := by
  have step : ((i >>= f).run s.place).run.run s.talk = ExceptT.bindCont (m := StateM Talk)
      (fun a => (f a).run s.place) ((i.run s.place).run.run s.talk).1
        ((i.run s.place).run.run s.talk).2 := rfl
  simp only [Session.inquire, step]
  rcases (i.run s.place).run.run s.talk with ⟨why | a, talk⟩ <;> rfl

theorem Yields.pure {holds : α → Prop} {a : α} (h : holds a) : Yields w (pure a) holds := by
  intro talk b ended
  obtain rfl : a = b := Except.ok.inj ended
  exact h

theorem Yields.throw {holds : α → Prop} (why : Failure) : Yields w (throw why) holds := by
  intro talk a ended
  cases ended

theorem Yields.mono {i : Inquiry α} {first holds : α → Prop} (h : Yields w i first)
    (weaker : ∀ a, first a → holds a) : Yields w i holds :=
  fun talk a ended => weaker a (h talk a ended)

theorem Yields.bind {i : Inquiry α} {f : α → Inquiry β} {first : α → Prop} {holds : β → Prop}
    (h : Yields w i first) (rest : ∀ a, first a → Yields w (f a) holds) :
    Yields w (i >>= f) holds := by
  intro talk b ended
  rw [inquire_bind] at ended
  have here := h talk
  have same := Session.inquire_place ⟨w, talk⟩ i
  generalize Session.inquire ⟨w, talk⟩ i = result at ended here same
  rcases result with ⟨why | a, ⟨place, talk'⟩⟩
  · cases ended
  · obtain rfl : place = w := same
    exact rest a (here a rfl) talk' b ended

/-- Whatever the first comes to. -/
theorem Yields.next {i : Inquiry α} {f : α → Inquiry β} {holds : β → Prop}
    (rest : ∀ a, Yields w (f a) holds) : Yields w (i >>= f) holds := by
  have any : Yields w i fun _ => True := fun _ _ _ => trivial
  exact any.bind fun a _ => rest a

/-- What is read is the workplace. -/
theorem Yields.read {f : Workplace → Inquiry β} {holds : β → Prop} (rest : Yields w (f w) holds) :
    Yields w (read >>= f) holds := by
  have here : Yields w (MonadReader.read : Inquiry Workplace) (· = w) := by
    intro talk a ended
    exact (Except.ok.inj ended).symm
  exact here.bind fun a same => same ▸ rest

/-! ### The steps of the search -/

/-- A registry that is chosen is as it is wanted. -/
def Chosen (good : Path → Prop) : Found → Prop
  | .registry path => good path
  | _ => True

theorem yields_settleOn {path : Path} (label? : Option String) {holds : Found → Prop}
    (h : holds (.registry path)) : Yields w (settleOn path label?) holds :=
  .next fun _ => .pure h

theorem checked {path : Path} (ok : w.checkRegistry path = .ok ()) :
    w.disk.isFile path = true ∧ w.isRegistry path = true := by
  rw [Workspace.checkRegistry] at ok
  split at ok
  · cases ok
  · next there =>
    split at ok
    · cases ok
    · next registry => exact ⟨by simpa using there, by simpa using registry⟩

section
variable {good : Path → Prop}
  (checks : ∀ path, w.disk.isFile path = true → w.isRegistry path = true → good path)
include checks

theorem yields_remedy (r : Remembered) (tries : Nat) : Yields w (remedy r tries) (Chosen good) := by
  induction tries with
  | zero => exact .throw _
  | succ tries ih =>
    refine .next fun choice? => ?_
    split
    · exact .next fun _ => .next fun _ => .pure trivial
    · refine .next fun file? => ?_
      split
      · exact .pure trivial
      · refine .read ?_
        split
        · next ok =>
          obtain ⟨there, is_registry⟩ := checked ok
          exact .next fun _ => yields_settleOn _ (checks _ there is_registry)
        · exact .next fun _ => ih
    · exact .pure trivial

end

/-- An answer is what the question accepts. -/
theorem yields_ask {q : Question} {accept : Answer → Except AnswerFault α} {holds : α → Prop}
    (h : ∀ answer a, accept answer = .ok a → holds a) : Yields w (ask q accept) holds := by
  refine .next fun _ => .next fun answer? => ?_
  split
  · next a accepted =>
    cases answer? with
    | error why => cases accepted
    | ok answer => exact .pure (h answer a accepted)
  · exact .throw _

/-- What is picked is one of the items. -/
theorem yields_one (words : String) (name : α → String) (items : List α) :
    Yields w (one words name items) fun choice? => ∀ item, choice? = some item → item ∈ items := by
  refine yields_ask fun answer choice? accepted => ?_
  split at accepted
  · obtain rfl := Except.ok.inj accepted
    simp
  · split at accepted
    · next item there =>
      obtain rfl := Except.ok.inj accepted
      rintro item ⟨⟩
      exact List.mem_of_getElem? there
    · cases accepted
  · cases accepted

theorem mem_list_iff {p : Preferences} {r : Remembered} : r ∈ p.list ↔ r ∈ p.registries :=
  (sorted_perm _ _).mem_iff

theorem yields_remaining :
    Yields w remaining fun rs => ∀ r ∈ rs, r ∈ w.store.preferences.registries :=
  .next fun _ => .read <| .pure fun _ member => mem_list_iff.mp (List.mem_of_mem_filter member)

/-! ### The choice -/

section
variable {good : Path → Prop}
  (checks : ∀ path, w.disk.isFile path = true → w.isRegistry path = true → good path)
  (kept : ∀ r ∈ w.store.preferences.registries, w.disk.isFile r.path = true → good r.path)
include checks kept

theorem yields_amongRemembered : Yields w amongRemembered (Chosen good) := by
  refine .read (yields_remaining.bind fun rs known => ?_)
  -- A registry that is chosen is live, or its loss is remedied.
  have settle : ∀ r ∈ rs, Yields w
      (if w.isStale r = true then do
        Talk.say .warning ("Registry '" ++ r.label ++ "' no longer exists at " ++ r.path.text)
        remedy r ((← patience) + 1)
      else settleOn r.path none) (Chosen good) := by
    intro r member
    split
    · exact .next fun _ => .next fun _ => yields_remedy checks r _
    · next live =>
      have there : w.disk.isFile r.path = true := by simpa [Workplace.isStale] using live
      exact yields_settleOn _ (kept r (known r member) there)
  split
  · exact .pure trivial
  · split
    · refine Yields.bind (yields_one _ _ _) fun choice? among => ?_
      cases choice? with
      | none => exact .pure trivial
      | some r => exact settle r (among r rfl)
    · exact settle _ (by simp)
  · refine Yields.bind (yields_one _ _ _) fun choice? among => ?_
    cases choice? with
    | none => exact .pure trivial
    | some r => exact settle r (among r rfl)

theorem yields_remembered (tries : Nat) : Yields w (remembered tries) (Chosen good) := by
  induction tries with
  | zero => exact .pure trivial
  | succ tries ih =>
    refine (yields_amongRemembered checks kept).bind fun found sound => ?_
    split
    · exact ih
    · exact .pure sound

omit kept in
/-- The first registry of the workspace is one. -/
theorem yields_firstRegistry (proper : w.disk.top.Proper) :
    Yields w firstRegistry (Chosen good) := by
  refine .read ?_
  split
  · exact .throw _
  · next path first =>
    have member := List.mem_of_find?_eq_some first
    have is_registry : w.isRegistry path = true :=
      List.find?_some (p := fun file => w.isRegistry file) first
    exact .next fun _ =>
      yields_settleOn _ (checks path (Workspace.isFile_of_mem_sources proper member) is_registry)

/-- What holds of registries that are there, and of files that are remembered, holds of the registry
that is chosen. -/
theorem yields_registry (proper : w.disk.top.Proper) (given? : Option Path) :
    Yields w (registry given?) fun path? => ∀ path, path? = some path → good path := by
  have last : ∀ found, Chosen good found → Yields w (match found with
      | .registry path => pure (some path)
      | _ => pure none) fun path? => ∀ path, path? = some path → good path := by
    intro found sound
    split
    · refine .pure ?_
      rintro path ⟨⟩
      exact sound
    · exact .pure (by simp)
  refine .next fun _ => .read ?_
  split
  · dsimp only
    split
    · next ok =>
      obtain ⟨there, is_registry⟩ := checked ok
      exact (yields_settleOn none (checks _ there is_registry)).bind last
    · exact .bind (.throw _) last
  · refine (yields_remembered checks kept _).bind fun found sound => ?_
    split
    · exact (yields_firstRegistry checks proper).bind last
    · exact last _ sound

end

/-! ### What can be chosen -/

theorem inquire_remaining {talk : Talk} (none_ : talk.staged = []) :
    Session.inquire ⟨w, talk⟩ remaining = (.ok w.store.preferences.list, ⟨w, talk⟩) := by
  obtain ⟨respondent, events, staged⟩ := talk
  obtain rfl : staged = [] := none_
  have step : Session.inquire ⟨w, ⟨respondent, events, []⟩⟩ remaining =
      (.ok (w.store.preferences.list.filter fun r => !([] : List Path).any r.path.same),
        ⟨w, ⟨respondent, events, []⟩⟩) := rfl
  rw [step]
  simp

/-- A prepared answer that a question accepts answers it. -/
theorem inquire_ask {α : Type} (s : Session) {q : Question} {accept : Answer → Except AnswerFault α}
    {answer : Answer} {rest : List Answer} (script : s.talk.respondent = .script (answer :: rest))
    {a : α} (accepted : accept answer = .ok a) : (s.inquire (ask q accept)).1 = .ok a := by
  obtain ⟨w, ⟨respondent, events, staged⟩⟩ := s
  obtain rfl : respondent = .script (answer :: rest) := script
  have asked : Session.inquire ⟨w, ⟨.script (answer :: rest), events, staged⟩⟩
      (liftM (Talk.record (.asked q))) =
        (.ok (), ⟨w, ⟨.script (answer :: rest), events ++ [.asked q], staged⟩⟩) := rfl
  have answered : Session.inquire ⟨w, ⟨.script (answer :: rest), events ++ [.asked q], staged⟩⟩
      (liftM (Talk.answer q)) =
        (.ok (.ok answer), ⟨w, ⟨.script rest, events ++ [.asked q], staged⟩⟩) := rfl
  have taken : (Except.ok answer >>= accept) = .ok a := accepted
  rw [ask, inquire_bind, asked]
  dsimp only
  rw [take, inquire_bind, answered]
  dsimp only
  rw [taken]
  rfl

theorem inquire_one {α : Type} (s : Session) (words : String) (name : α → String) {items : List α}
    {place : Nat} {item : α} (there : items[place]? = some item) {rest : List Answer}
    (script : s.talk.respondent = .script (.one (some place) :: rest)) :
    (s.inquire (one words name items)).1 = .ok (some item) := by
  refine inquire_ask s script ?_
  dsimp only
  rw [there]

/-- A remembered registry that is still there can be chosen. -/
theorem exists_inquire_amongRemembered {r : Remembered} (member : r ∈ w.store.preferences.list)
    (live : w.disk.isFile r.path = true) :
    ∃ answers, ∀ talk, talk.respondent = .script answers → talk.staged = [] →
      (Session.inquire ⟨w, talk⟩ amongRemembered).1 = .ok (.registry r.path) := by
  obtain ⟨place, there⟩ := List.mem_iff_getElem?.mp member
  have fresh : w.isStale r = false := by simp [Workplace.isStale, live]
  refine ⟨[.one (some place)], fun talk script none_ => ?_⟩
  have read_ : Session.inquire ⟨w, talk⟩ read = (.ok w, ⟨w, talk⟩) := rfl
  rw [amongRemembered, inquire_bind, read_]
  dsimp only
  rw [inquire_bind, inquire_remaining none_]
  dsimp only
  have picked := inquire_one ⟨w, talk⟩ "Select a registry" w.offer there script
  split
  · next none_ => simp [none_] at member
  · next only single =>
    rw [single] at member there
    obtain rfl := List.mem_singleton.mp member
    rw [fresh]
    simp only [Bool.false_eq_true, if_false]
    rw [inquire_bind]
    have chosen : Session.inquire ⟨w, talk⟩ (pure (some r)) = (.ok (some r), ⟨w, talk⟩) := rfl
    rw [chosen]
    simp only [fresh, Bool.false_eq_true, if_false]
    rfl
  · next rs _ _ =>
    rw [inquire_bind]
    generalize Session.inquire ⟨w, talk⟩ (one "Select a registry" w.offer _) = result at picked ⊢
    rcases result with ⟨chosen, s⟩
    obtain rfl : chosen = .ok (some r) := picked
    simp only [fresh, Bool.false_eq_true, if_false]
    rfl

/-- A remembered registry that is still there can be what a command is about. -/
theorem exists_inquire_registry {r : Remembered} (member : r ∈ w.store.preferences.registries)
    (live : w.disk.isFile r.path = true) :
    ∃ talk, (Session.inquire ⟨w, talk⟩ (registry none)).1 = .ok (some r.path) := by
  obtain ⟨answers, chooses⟩ := exists_inquire_amongRemembered (mem_list_iff.mpr member) live
  refine ⟨{ respondent := .script answers }, ?_⟩
  have chosen := chooses ⟨.script answers, [], []⟩ rfl rfl
  obtain ⟨n, length⟩ : ∃ n, w.store.preferences.registries.length = n + 1 :=
    Nat.exists_eq_succ_of_ne_zero
      (Nat.ne_of_gt (List.length_pos_iff.mpr (List.ne_nil_of_mem member)))
  have found : (Session.inquire ⟨w, ⟨.script answers, [], []⟩⟩ (remembered (n + 1))).1 =
      .ok (.registry r.path) := by
    rw [remembered, inquire_bind]
    generalize Session.inquire ⟨w, ⟨.script answers, [], []⟩⟩ amongRemembered = result at chosen ⊢
    rcases result with ⟨ended, s⟩
    obtain rfl : ended = .ok (.registry r.path) := chosen
    rfl
  have cleared : Session.inquire ⟨w, { respondent := .script answers }⟩
      (modify fun t => { t with staged := [] }) = (.ok (), ⟨w, ⟨.script answers, [], []⟩⟩) := rfl
  have read_ : Session.inquire ⟨w, ⟨.script answers, [], []⟩⟩ read =
      (.ok w, ⟨w, ⟨.script answers, [], []⟩⟩) := rfl
  rw [registry, inquire_bind, cleared]
  dsimp only
  rw [inquire_bind, read_]
  dsimp only
  rw [length, inquire_bind]
  generalize Session.inquire ⟨w, ⟨.script answers, [], []⟩⟩ (remembered (n + 1)) = result at found ⊢
  rcases result with ⟨ended, s⟩
  obtain rfl : ended = .ok (.registry r.path) := found
  rfl

end Inquiry
end Registrar
