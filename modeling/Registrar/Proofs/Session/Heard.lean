import Registrar.Proofs.Session.Choice

/-!
What an inquiry has heard. An inquiry that comes to something has taken some answers off the front
of those that were prepared; each question takes one. The steps of an inquiry are taken apart here,
each with the session that it leaves.
-/

namespace Registrar

/-! ### Answers -/

/-- The answers that have been given on the way from one talk to another. -/
def Talk.Heard (t : Talk) (answers : List Answer) (t' : Talk) : Prop :=
  (answers = [] ∧ t'.respondent = t.respondent) ∨
    ∃ rest, t.respondent = .script (answers ++ rest) ∧ t'.respondent = .script rest

namespace Talk

variable {t t' t'' : Talk} {answers more : List Answer}

theorem Heard.of_eq (same : t'.respondent = t.respondent) : t.Heard [] t' := .inl ⟨rfl, same⟩

theorem Heard.trans (first : t.Heard answers t') (second : t'.Heard more t'') :
    t.Heard (answers ++ more) t'' := by
  rcases first with ⟨rfl, same⟩ | ⟨rest, before_, after_⟩
  · rcases second with ⟨rfl, same'⟩ | ⟨rest, before_, after_⟩
    · exact .inl ⟨rfl, same'.trans same⟩
    · exact .inr ⟨rest, by rw [← same, before_, List.nil_append], after_⟩
  · rcases second with ⟨rfl, same⟩ | ⟨rest', before_', after_'⟩
    · exact .inr ⟨rest, by rw [before_, List.append_nil], by rw [same, after_]⟩
    · obtain rfl : rest = more ++ rest' := by
        rw [after_] at before_'
        exact Respondent.script.inj before_'
      exact .inr ⟨rest', by rw [before_, List.append_assoc], after_'⟩

/-- What is said besides is not heard. -/
theorem Heard.keep (heard : t.Heard answers t') (same : t''.respondent = t'.respondent) :
    t.Heard answers t'' := by
  simpa using heard.trans (.of_eq same)

/-- The answers follow from the talks. -/
theorem Heard.unique (first : t.Heard answers t') (second : t.Heard more t') : answers = more := by
  rcases first with ⟨rfl, same⟩ | ⟨rest, before_, after_⟩ <;>
    rcases second with ⟨rfl, same'⟩ | ⟨rest', before_', after_'⟩
  · rfl
  · rw [same, before_'] at after_'
    simpa using (Respondent.script.inj after_').symm
  · rw [same', before_] at after_
    simpa using Respondent.script.inj after_
  · rw [after_] at after_'
    obtain rfl := Respondent.script.inj after_'
    rw [before_] at before_'
    exact List.append_cancel_right (Respondent.script.inj before_')

end Talk

/-! ### Steps -/

namespace Inquiry

variable {α β : Type} {s s' : Session}

theorem inquire_bind_eq_ok_iff {i : Inquiry α} {f : α → Inquiry β} {b : β} :
    s.inquire (i >>= f) = (.ok b, s') ↔
      ∃ a m, s.inquire i = (.ok a, m) ∧ m.inquire (f a) = (.ok b, s') := by
  rw [inquire_bind]
  constructor
  · intro ended
    split at ended
    · next a m first => exact ⟨a, m, first, ended⟩
    · cases ended
  · rintro ⟨a, m, first, second⟩
    rw [first]
    exact second

theorem inquire_pure (s : Session) (a : α) : s.inquire (pure a) = (.ok a, s) := rfl

theorem inquire_pure_eq_ok_iff {a b : α} : s.inquire (pure a) = (.ok b, s') ↔ a = b ∧ s = s' := by
  rw [inquire_pure, Prod.mk.injEq, Except.ok.injEq]

theorem inquire_throw_ne_ok (why : Failure) {a : α} :
    s.inquire (throw why : Inquiry α) ≠ (.ok a, s') := by
  intro ended
  cases ended

theorem inquire_read_bind (f : Workplace → Inquiry β) :
    s.inquire (read >>= f) = s.inquire (f s.place) := rfl

theorem inquire_patience_bind (f : Nat → Inquiry β) :
    s.inquire (patience >>= f) = s.inquire (f s.talk.respondent.patience) := rfl

/-- Something is said on the way. -/
theorem inquire_record_bind (e : Event) (f : Unit → Inquiry β) :
    s.inquire ((liftM (Talk.record e) : Inquiry Unit) >>= f) =
      Session.inquire { s with talk := { s.talk with events := s.talk.events ++ [e] } } (f ()) := rfl

/-- A change of what is remembered is staged on the way. -/
theorem inquire_stage_bind (change : Staged) (f : Unit → Inquiry β) :
    s.inquire (stage change >>= f) =
      Session.inquire { s with talk := { s.talk with staged := s.talk.staged ++ [change] } } (f ()) := rfl

theorem inquire_take_eq_ok_iff {q : Question} {accept : Answer → Except AnswerFault α} {a : α} :
    s.inquire (take q accept) = (.ok a, s') ↔ ∃ answer rest,
      s.talk.respondent = .script (answer :: rest) ∧ accept answer = .ok a ∧
        s' = { s with talk := { s.talk with respondent := .script rest } } := by
  obtain ⟨w, ⟨respondent, events, staged⟩⟩ := s
  cases respondent with
  | nobody =>
    have ended : Session.inquire ⟨w, ⟨.nobody, events, staged⟩⟩ (take q accept) =
        (.error (.answer .noTerminal), ⟨w, ⟨.nobody, events, staged⟩⟩) := rfl
    simp [ended]
  | script answers =>
    cases answers with
    | nil =>
      have ended : Session.inquire ⟨w, ⟨.script [], events, staged⟩⟩ (take q accept) =
          (.error (.answer (.unanswered q)), ⟨w, ⟨.script [], events, staged⟩⟩) := rfl
      simp [ended]
    | cons answer rest =>
      have answered : Session.inquire ⟨w, ⟨.script (answer :: rest), events, staged⟩⟩
          (liftM (Talk.answer q)) = (.ok (.ok answer), ⟨w, ⟨.script rest, events, staged⟩⟩) := rfl
      have taken : (Except.ok answer >>= accept) = accept answer := rfl
      rw [take, inquire_bind, answered]
      dsimp only
      rw [taken]
      cases accepted : accept answer with
      | ok a' =>
        dsimp only
        rw [inquire_pure_eq_ok_iff]
        simp [accepted, eq_comm]
      | error why =>
        dsimp only
        simp [inquire_throw_ne_ok, accepted]

/-- A question is answered by the first answer that is left, which it has to accept. -/
theorem inquire_ask_eq_ok_iff {q : Question} {accept : Answer → Except AnswerFault α} {a : α} :
    s.inquire (ask q accept) = (.ok a, s') ↔ ∃ answer rest,
      s.talk.respondent = .script (answer :: rest) ∧ accept answer = .ok a ∧
        s' = { s with talk :=
          { s.talk with respondent := .script rest, events := s.talk.events ++ [.asked q] } } := by
  rw [ask, inquire_record_bind, inquire_take_eq_ok_iff]

/-- An item is picked by its place. -/
theorem heard_of_inquire_one {words : String} {name : α → String} {items : List α}
    {choice? : Option α} (ended : s.inquire (one words name items) = (.ok choice?, s')) :
    ∃ place?, s.talk.Heard [.one place?] s'.talk ∧ s'.talk.staged = s.talk.staged ∧
      ∀ item, choice? = some item → ∃ place, place? = some place ∧ items[place]? = some item := by
  obtain ⟨answer, rest, script, accepted, rfl⟩ := inquire_ask_eq_ok_iff.mp ended
  split at accepted
  · obtain rfl := Except.ok.inj accepted
    exact ⟨none, .inr ⟨rest, script, rfl⟩, rfl, by simp⟩
  · next place =>
    split at accepted
    · next item there =>
      obtain rfl := Except.ok.inj accepted
      refine ⟨some place, .inr ⟨rest, script, rfl⟩, rfl, fun item' same => ⟨place, rfl, ?_⟩⟩
      rw [there, same]
    · cases accepted
  · cases accepted

/-- A file that is picked is read from the root. -/
theorem heard_of_inquire_file {words : String} {path? : Option Path}
    (ended : s.inquire (file words) = (.ok path?, s')) : ∃ given?,
      s.talk.Heard [.file given?] s'.talk ∧ s'.talk.staged = s.talk.staged ∧
        path? = given?.map s.place.resolve := by
  rw [file, inquire_read_bind] at ended
  obtain ⟨given?, _, asked, ended⟩ := inquire_bind_eq_ok_iff.mp ended
  obtain ⟨rfl, rfl⟩ := inquire_pure_eq_ok_iff.mp ended
  obtain ⟨answer, rest, script, accepted, rfl⟩ := inquire_ask_eq_ok_iff.mp asked
  split at accepted
  · obtain rfl := Except.ok.inj accepted
    exact ⟨_, .inr ⟨rest, script, rfl⟩, rfl, rfl⟩
  · cases accepted

/-! ### Whole inquiries -/

/-- Whatever the inquiry comes to, it has heard answers off the front, in the workplace that it was
made in. -/
def Listens (w : Workplace) (i : Inquiry α) : Prop :=
  ∀ talk a s', Session.inquire ⟨w, talk⟩ i = (.ok a, s') → ∃ answers, talk.Heard answers s'.talk

variable {w : Workplace}

theorem Listens.pure (a : α) : Listens w (pure a) := by
  rintro talk b s' ended
  obtain ⟨_, rfl⟩ := inquire_pure_eq_ok_iff.mp ended
  exact ⟨[], .of_eq rfl⟩

theorem Listens.throw (why : Failure) : Listens w (throw why : Inquiry α) :=
  fun _ _ _ ended => absurd ended (inquire_throw_ne_ok why)

theorem place_of_inquire {i : Inquiry α} {talk : Talk} {result : Except Failure α}
    (ended : Session.inquire ⟨w, talk⟩ i = (result, s')) : s' = ⟨w, s'.talk⟩ := by
  have same := congrArg (fun e => e.2.place) ended
  rw [Session.inquire_place] at same
  obtain ⟨place, talk'⟩ := s'
  obtain rfl : w = place := same
  rfl

theorem Listens.bind {i : Inquiry α} {f : α → Inquiry β} (first : Listens w i)
    (rest : ∀ a, Listens w (f a)) : Listens w (i >>= f) := by
  intro talk b s' ended
  obtain ⟨a, m, here, later⟩ := inquire_bind_eq_ok_iff.mp ended
  obtain ⟨answers, heard⟩ := first talk a m here
  rw [place_of_inquire here] at later
  obtain ⟨more, heard'⟩ := rest a _ b s' later
  exact ⟨answers ++ more, heard.trans heard'⟩

theorem Listens.read {f : Workplace → Inquiry β} (rest : Listens w (f w)) : Listens w (read >>= f) :=
  rest

theorem Listens.record (e : Event) : Listens w (liftM (Talk.record e) : Inquiry Unit) := by
  rintro talk a s' ended
  cases ended
  exact ⟨[], .of_eq rfl⟩

theorem Listens.take {q : Question} {accept : Answer → Except AnswerFault α} :
    Listens w (take q accept) := by
  intro talk a s' ended
  obtain ⟨answer, rest, script, _, rfl⟩ := inquire_take_eq_ok_iff.mp ended
  exact ⟨[answer], .inr ⟨rest, script, rfl⟩⟩

theorem Listens.ask {q : Question} {accept : Answer → Except AnswerFault α} :
    Listens w (ask q accept) :=
  (Listens.record _).bind fun _ => .take

theorem Listens.patience : Listens w patience := by
  rintro talk a s' ended
  cases ended
  exact ⟨[], .of_eq rfl⟩

theorem Listens.folder (words : String) : Listens w (folder words) :=
  .read (Listens.ask.bind fun _ => .pure _)

theorem Listens.textWithin (q : Question) (check : String → Except NameFault Unit) (tries : Nat) :
    Listens w (textWithin q check tries) := by
  induction tries with
  | zero => exact .throw _
  | succ tries ih =>
    refine Listens.take.bind fun answer? => ?_
    split
    · exact .pure _
    · dsimp only
      split
      · exact .pure _
      · exact (Listens.record _).bind fun _ => ih

theorem Listens.text (words : String) (check : String → Except NameFault Unit) :
    Listens w (text words check) :=
  (Listens.record _).bind fun _ => Listens.patience.bind fun _ => .textWithin _ _ _

end Inquiry
end Registrar
