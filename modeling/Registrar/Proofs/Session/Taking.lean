import Registrar.Proofs.Session.Heard

/-!
Answers in front of others. An inquiry that takes certain answers comes to the same result whatever comes
behind them and whatever the user has seen before.
-/

namespace Registrar

namespace Inquiry

variable {α β : Type} {w : Workplace} {answers more : List Answer} {staged staged' staged'' : List Staged}

/-- With the answers in front, the inquiry takes them, comes to the result, and stages what it may. -/
def Takes (w : Workplace) (answers : List Answer) (staged : List Staged) (i : Inquiry α) (a : α)
    (staged' : List Staged) : Prop :=
  ∀ events rest, ∃ events', Session.inquire ⟨w, ⟨.script (answers ++ rest), events, staged⟩⟩ i =
    (.ok a, ⟨w, ⟨.script rest, events', staged'⟩⟩)

theorem Takes.pure (a : α) : Takes w [] staged (pure a) a staged := fun events _ => ⟨events, rfl⟩

theorem Takes.bind {i : Inquiry α} {f : α → Inquiry β} {a : α} {b : β}
    (first : Takes w answers staged i a staged') (rest : Takes w more staged' (f a) b staged'') :
    Takes w (answers ++ more) staged (i >>= f) b staged'' := by
  intro events others
  obtain ⟨events', led⟩ := first events (more ++ others)
  obtain ⟨events'', led'⟩ := rest events' others
  refine ⟨events'', ?_⟩
  rw [inquire_bind, List.append_assoc, led]
  exact led'

/-- What comes first asks nothing. -/
theorem Takes.after {i : Inquiry α} {f : α → Inquiry β} {a : α} {b : β}
    (first : Takes w [] staged i a staged') (rest : Takes w answers staged' (f a) b staged'') :
    Takes w answers staged (i >>= f) b staged'' := first.bind rest

/-- What comes last asks nothing. -/
theorem Takes.before {i : Inquiry α} {f : α → Inquiry β} {a : α} {b : β}
    (first : Takes w answers staged i a staged') (rest : Takes w [] staged' (f a) b staged'') :
    Takes w answers staged (i >>= f) b staged'' := by
  simpa using first.bind rest

theorem Takes.read {f : Workplace → Inquiry β} {b : β} (rest : Takes w answers staged (f w) b staged') :
    Takes w answers staged (read >>= f) b staged' := rest

theorem Takes.patience {f : Nat → Inquiry β} {b : β}
    (rest : ∀ n, answers.length ≤ n → Takes w answers staged (f n) b staged') :
    Takes w answers staged (patience >>= f) b staged' := by
  intro events others
  rw [inquire_patience_bind]
  exact rest _ (by simp [Respondent.patience]) events others

theorem Takes.record (e : Event) : Takes w [] staged (liftM (Talk.record e) : Inquiry Unit) () staged :=
  fun events _ => ⟨events ++ [e], rfl⟩

theorem Takes.say (tone : Tone) (text : String) :
    Takes w [] staged (liftM (Talk.say tone text) : Inquiry Unit) () staged := .record _

theorem Takes.stage (change : Staged) : Takes w [] staged (stage change) () (staged ++ [change]) :=
  fun events _ => ⟨events, rfl⟩

/-- What is staged for another command is dropped. -/
theorem Takes.clear :
    Takes w [] staged (modify fun t => { t with staged := [] } : Inquiry Unit) () [] :=
  fun events _ => ⟨events, rfl⟩

theorem Takes.forM {l : List β} {f : β → Inquiry Unit} (each : ∀ b, Takes w [] staged (f b) () staged) :
    Takes w [] staged (l.forM f) () staged := by
  induction l with
  | nil => exact .pure ()
  | cons b rest ih => exact (each b).bind ih

/-! ### Questions -/

theorem Takes.take {q : Question} {accept : Answer → Except AnswerFault α} {answer : Answer} {a : α}
    (accepted : accept answer = .ok a) : Takes w [answer] staged (take q accept) a staged :=
  fun events rest => ⟨events, inquire_take_eq_ok_iff.mpr ⟨answer, rest, rfl, accepted, rfl⟩⟩

theorem Takes.ask {q : Question} {accept : Answer → Except AnswerFault α} {answer : Answer} {a : α}
    (accepted : accept answer = .ok a) : Takes w [answer] staged (ask q accept) a staged :=
  (Takes.record _).after (.take accepted)

theorem Takes.one {words : String} {name : α → String} {items : List α} {n : Nat} {item : α}
    (there : items[n]? = some item) :
    Takes w [.one (some n)] staged (one words name items) (some item) staged :=
  .ask (by simp only [there])

/-- Some of the items are picked by their places. -/
def Picked (items : List α) (places : List Nat) (picked : List α) : Prop :=
  picked ≠ [] ∧ places.map (items[·]?) = picked.map some

theorem Picked.isEmpty_eq_false {items picked : List α} {places : List Nat}
    (picks : Picked items places picked) : items.isEmpty = false := by
  rw [List.isEmpty_eq_false_iff]
  rintro rfl
  obtain ⟨some_, each⟩ := picks
  obtain ⟨item, rest, rfl⟩ := List.exists_cons_of_ne_nil some_
  rcases places with _ | ⟨n, places⟩ <;> simp at each

theorem Picked.mem {items picked : List α} {places : List Nat} (picks : Picked items places picked)
    {item : α} (member : item ∈ picked) : item ∈ items := by
  have there : some item ∈ places.map (items[·]?) := picks.2 ▸ List.mem_map_of_mem member
  obtain ⟨n, -, same⟩ := List.mem_map.mp there
  exact List.mem_of_getElem? same

theorem Takes.several {words : String} {name : α → String} {items : List α} {places : List Nat}
    {picked : List α} (picks : Picked items places picked) :
    Takes w [.several (some places)] staged (several words name items) (some picked) staged := by
  obtain ⟨some_, each⟩ := picks
  have inside : places.find? (items.length ≤ ·) = none := by
    refine List.find?_eq_none.mpr fun n member => ?_
    have there : items[n]? ∈ picked.map some := each ▸ List.mem_map_of_mem member
    obtain ⟨item, -, same⟩ := List.mem_map.mp there
    simpa using (List.getElem?_eq_some_iff.mp same.symm).1
  have full : places.isEmpty = false := by
    rw [List.isEmpty_eq_false_iff]
    rintro rfl
    exact some_ (by simpa using each.symm)
  have found : places.filterMap (items[·]?) = picked := by
    have kept := congrArg (List.filterMap id) each
    rw [List.filterMap_map, List.filterMap_map] at kept
    exact kept.trans List.filterMap_some
  refine .ask ?_
  simp only [inside, full, found]
  rfl

theorem Takes.confirmation {words : String} {offered : Bool} (yes : Bool) :
    Takes w [.confirmation yes] staged (confirmation words offered) yes staged :=
  .ask rfl

theorem Takes.file {words : String} (given : Path) :
    Takes w [.file (some given)] staged (file words) (some (w.resolve given)) staged :=
  .read (Takes.before (Takes.ask (a := some given) rfl) (.pure _))

theorem Takes.folder {words : String} (given : Path) :
    Takes w [.folder (some given)] staged (folder words) (some (w.resolve given)) staged :=
  .read (Takes.before (Takes.ask (a := some given) rfl) (.pure _))

/-- A text that passes the check when it is trimmed is taken at once. -/
theorem Takes.text {words : String} {check : String → Except NameFault Unit} {answer : String}
    (passes : check (String.ofList (Text.trim answer.toList)) = .ok ())
    (some_ : Text.trim answer.toList ≠ []) : Takes w [.text (some answer)] staged (text words check)
      (some (String.ofList (Text.trim answer.toList))) staged := by
  refine (Takes.record _).after (Takes.patience fun n _ => ?_)
  refine Takes.before (Takes.take (a := some answer) rfl) ?_
  have full : (String.ofList (Text.trim answer.toList)).isEmpty = false := by
    simpa using some_
  simp only [passes, full]
  exact .pure _

end Inquiry
end Registrar
