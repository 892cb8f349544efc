import Registrar.Proofs.Registry.Interposed
import Registrar.Proofs.Registry.Joined

/-!
Texts that leave no import open. A text of whole lines is sealed if no import that begins in it could
run on over its end, whatever came behind: neither its braces nor its quotation marks are open there. What
stands behind a sealed text is read as if it stood alone, so texts can be cut at such places and joined.
-/

namespace Registrar

open Pattern Text

namespace Recognition

variable {a b d t w x y : Text} {s : Statement}

/-- Whole lines at the end of which no import is open: none that begins in them goes on behind them,
whatever stands there. -/
structure Sealed (x : Text) : Prop where
  whole : AtLine x
  shut : ∀ a c b y m, x = a ++ c :: b → importStatement.matchAt? (.between a (c :: b ++ y)) = some m →
    m.stop.offset ≤ x.size

/-- No import stands in a sealed text that runs on over its end. -/
theorem Sealed.not_crosses (sealed_ : Sealed x) (split : x = a ++ b) (some_ : b ≠ []) (stands : s.Stands a) :
    ¬s.Crosses b w := by
  rintro ⟨z, r, moved, text, rfl⟩
  obtain ⟨m, -, found, -, -, ⟨tail, rest, -, -, stop⟩, -⟩ := stands.exists_matches rfl r r
  obtain ⟨c, b', rfl⟩ := List.exists_cons_of_ne_nil some_
  rw [text, List.append_assoc] at found
  have inside := sealed_.shut a c b' (z ++ r) m split found
  have behind := Text.size_pos moved
  rw [stop, split] at inside
  simp only [Cursor.between_offset, text, Text.size_append] at inside
  omega

/-- What follows the pieces of an import in a text of whole lines holds all of its tail. -/
theorem IsTail.length_le {tail r : Text} (isTail : IsTail tail) (feed : ∃ u, r = u ++ ['\n'])
    (split : r ++ y = tail ++ w) : tail.length ≤ r.length := by
  obtain ⟨u, rfl⟩ := feed
  obtain ⟨v, free, cut⟩ := isTail
  rcases List.append_eq_append_iff.mp split with ⟨z, longer, -⟩ | ⟨z, longer, -⟩
  · subst longer
    -- Only the last character of a tail is a line feed.
    rcases cut with same | same
    · exact absurd (by simp [← same]) free
    · rcases List.eq_nil_or_concat z with rfl | ⟨z, c, rfl⟩
      · simp
      · rw [List.concat_eq_append, ← List.append_assoc] at same
        obtain ⟨rfl, -⟩ := List.append_inj' same rfl
        simp at free
  · simp [longer]

/-- A text is sealed if none of its imports runs on over its end. -/
theorem sealed_of_not_crosses (whole : AtLine x)
    (closed : ∀ a b s w, x = a ++ b → b ≠ [] → Statement.Stands s a → ¬s.Crosses b w) : Sealed x := by
  refine ⟨whole, fun a c b y m split found => ?_⟩
  obtain ⟨s, z, text, stands, -, -, tail, rest, rfl, isTail, stop⟩ := exists_statement_of_match found
  have shut := fun w => closed a (c :: b) s w split (by simp) stands
  obtain ⟨r, here, behind⟩ : ∃ r, c :: b = s.text ++ r ∧ r ++ y = tail ++ rest := by
    rcases List.append_eq_append_iff.mp text with ⟨r, front, back⟩ | ⟨r, front, back⟩
    · by_cases none_ : r = []
      · subst none_
        exact ⟨[], by simpa using front.symm, by simpa using back⟩
      · exact absurd ⟨r, tail ++ rest, none_, front, rfl⟩ (shut (r ++ (tail ++ rest)))
    · exact ⟨r, front, back.symm⟩
  rw [split, here, ← List.append_assoc] at whole
  have feed := (whole.of_append (stands.ne_nil_of_atLine whole)).resolve_left
    (stands.ne_nil_of_atLine whole)
  have short := isTail.length_le feed behind
  obtain ⟨r', rfl⟩ : ∃ r', r = tail ++ r' := by
    rcases List.append_eq_append_iff.mp behind with ⟨z, rfl, -⟩ | ⟨z, rfl, -⟩
    · rw [List.length_append] at short
      obtain rfl : z = [] := List.length_eq_zero_iff.mp (by omega)
      exact ⟨[], by simp⟩
    · exact ⟨z, rfl⟩
  rw [stop, split, here]
  simp only [Cursor.between_offset, Text.size_append]
  omega

theorem sealed_nil : Sealed [] := ⟨.inl rfl, fun _ _ _ _ _ split => by simp at split⟩

/-- Sealed texts are joined to one. -/
theorem Sealed.append (first : Sealed x) (second : Sealed y) : Sealed (x ++ y) := by
  refine sealed_of_not_crosses (first.whole.append second.whole) fun a b s w split some_ stands crosses => ?_
  rcases List.append_eq_append_iff.mp split with ⟨v, rfl, rfl⟩ | ⟨v, rfl, rfl⟩
  · exact second.not_crosses rfl some_ (stands.elsewhere (edge_front first.whole.edge_eq v).symm) crosses
  · obtain ⟨z, r, moved, text, rfl⟩ := crosses
    rcases List.eq_nil_or_concat' v with rfl | ⟨u, c, rfl⟩
    · rw [List.append_nil] at first
      exact second.not_crosses (a := []) rfl (by simpa using some_)
        (stands.elsewhere first.whole.edge_eq) ⟨z, r, moved, by simpa using text, rfl⟩
    · refine first.not_crosses rfl (by simp) stands ⟨y ++ z, r, ?_, by simpa using text, rfl⟩
      simp [moved]

/-- Behind whole lines the rest of a sealed text is sealed. -/
theorem Sealed.of_append (sealed_ : Sealed (x ++ y)) (whole : AtLine x) : Sealed y := by
  have whole' : AtLine y := by
    by_cases none_ : y = []
    · exact .inl none_
    · exact sealed_.whole.of_append none_
  refine sealed_of_not_crosses whole' fun a b s w split some_ stands => ?_
  subst split
  exact sealed_.not_crosses (List.append_assoc ..).symm some_
    (stands.elsewhere (edge_front whole.edge_eq a))

/-- A sealed text is read alike wherever it stands. -/
theorem Sealed.steady (sealed_ : Sealed x) : importStatement.Steady x := by
  refine (settles_of_holds rfl (fun a b split some_ f y side _ => ?_) trivial).steady rfl
  have sides := edge_front side a
  by_cases here : ∃ s r, Statement.Stands s a ∧ b = s.text ++ r
  · obtain ⟨s, r, stands, rfl⟩ := here
    have whole := sealed_.whole
    rw [split, ← List.append_assoc] at whole
    exact stands.echoes_line sides (whole.feed_mem (stands.ne_nil_of_atLine whole))
  -- Where no import stands whole, none is found: it would run on over the end.
  have refuses : ∀ {f' : Text} (y' : Text), Cursor.edge a.getLast? = Cursor.edge f'.getLast? →
      importStatement.Refuses f' (b ++ y') := by
    intro f' y' same g
    refine List.eq_nil_iff_forall_not_mem.mpr fun e member => here ?_
    rw [ends_importStatement] at member
    obtain ⟨⟨_, h⟩, core, -⟩ := List.mem_flatMap.mp member
    obtain ⟨taken, rest, text, rfl⟩ := mem_ends core
    rw [text] at core
    obtain ⟨s, rfl, there⟩ := exists_statement ⟨_, _, core⟩
    have stands := there.elsewhere same.symm
    rcases List.append_eq_append_iff.mp text with ⟨r, front, back⟩ | ⟨r, front, -⟩
    · by_cases none_ : r = []
      · exact ⟨s, [], stands, by simpa [none_] using front.symm⟩
      · exact absurd ⟨r, rest, none_, front, rfl⟩ (sealed_.not_crosses split some_ stands)
    · exact ⟨s, r, stands, front⟩
  exact echoes_of_refuses (refuses [] rfl) (refuses y sides)

/-! ### Sealed texts -/

/-- Where a scan has passed there is no match. -/
theorem refused_of_scan {p : Pattern} {f : Text}
    (scan : Scan p (.between f (x ++ (y ++ w))) [] (.between (f ++ (x ++ y)) w)) (some_ : y ≠ []) :
    p.matchAt? (.between (f ++ x) (y ++ w)) = none := by
  have first : ∀ {c d : Cursor} {ms : List Match}, Scan p c ms d → ms = [] → c = d ∨ p.matchAt? c = none := by
    intro c d ms scan none_
    cases scan with
    | stay => exact .inl rfl
    | skip refused _ => exact .inr refused
    | hit => cases none_
  rcases scan.exists_visit (by simp) with ⟨ms₁, ms₂, none_, -, second⟩ | ⟨ms₁, m, ms₂, _, _, _, _, none_, -⟩
  · refine (first second (List.append_eq_nil_iff.mp none_.symm).2).resolve_left fun same => some_ ?_
    have rest : y ++ w = w := congrArg Cursor.rest same
    simpa using rest
  · simp at none_

/-- A text over which a scan passes whatever follows is sealed. -/
theorem sealed_of_passed (whole : AtLine x)
    (passed : ∀ y, Scan importStatement (.between [] (x ++ y)) [] (.between x y)) : Sealed x := by
  refine sealed_of_not_crosses whole fun a b s w split some_ stands crosses => ?_
  obtain ⟨z, r, -, text, rfl⟩ := crosses
  obtain ⟨m, -, found, -⟩ := stands.exists_matches rfl r r
  have scan := passed (z ++ r)
  rw [split, List.append_assoc] at scan
  have refused := refused_of_scan (f := []) scan some_
  rw [text, List.append_assoc] at found
  rw [List.nil_append, found] at refused
  cases refused

end Recognition
end Registrar
