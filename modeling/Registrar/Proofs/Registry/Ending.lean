import Registrar.Proofs.Registry.Blocks

/-!
What is put at the end of a text. A text need not end in a line feed, so its last line may go on in
what is put behind it; fields and accessors that begin there stay what they are all the same.
-/

namespace Registrar

namespace Pattern

variable {p : Pattern} {a b : Text} {d : Cursor} {ms : List Match}

/-- Inside a line that ends with its text nothing is found. -/
theorem Anchored.eq_nil_of_scan (anchored : p.Anchored) (whole : '\n' ∉ b)
    (inside : (Cursor.between a b).startsLine = false) (scan : Scan p (.between a b) ms d) : ms = [] := by
  generalize here : Cursor.between a b = c at scan
  induction scan generalizing a b with
  | stay c => rfl
  | @skip front back x ms d refused later ih =>
    obtain rfl : b = x :: back := congrArg Cursor.rest here
    have next_ := between_concat here x back
    simp only [List.mem_cons, not_or] at whole
    refine ih whole.2 ?_ next_
    have other : x ≠ '\n' := fun same => whole.1 same.symm
    simpa [Cursor.startsLine] using other
  | hit found moved later ih =>
    rw [← here, (anchored _ _ inside).matchAt?] at found
    cases found

/-- In a line that ends with its text there is a match at its beginning or none. -/
theorem Anchored.findAll_line (anchored : p.Anchored) (moves_ : p.moves = true)
    (local_ : p.Avoids fun _ => false) (whole : '\n' ∉ b) :
    p.findAll b = (p.matchAt? (.between [] b)).toList := by
  have scan := exists_scan_findAll moves_ local_ b
  generalize p.findAll b = ms at scan
  generalize here : Cursor.between [] b = c at scan ⊢
  generalize last : Cursor.between b [] = d at scan
  cases scan with
  | stay =>
    obtain rfl : [] = b := congrArg Cursor.rest (last.trans here.symm)
    rw [← here, matchAt?_eq_none_of_moves moves_]
    rfl
  | @skip front back x _ _ refused later =>
    obtain rfl : b = x :: back := congrArg Cursor.rest here
    simp only [List.mem_cons, not_or] at whole
    have other : x ≠ '\n' := fun same => whole.1 same.symm
    rw [← between_concat here x back] at later
    rw [refused, anchored.eq_nil_of_scan whole.2 (by simpa [Cursor.startsLine] using other) later]
    rfl
  | @hit front back m ms _ found moved later =>
    rw [found]
    rw [← here] at found
    obtain ⟨-, taken, rest, rfl, stop⟩ := matchAt?_some found
    have some_ : taken ≠ [] := by
      rintro rfl
      have place : Text.size [] = front.size := congrArg Cursor.offset here
      simp [stop, ← place] at moved
    obtain ⟨t, x, rfl⟩ := (List.eq_nil_or_concat taken).resolve_left some_
    have other : x ≠ '\n' := by
      rintro rfl
      simp at whole
    rw [stop] at later
    rw [anchored.eq_nil_of_scan (fun member => whole (by simp [member]))
      (by simpa [Cursor.startsLine] using other) later]
    rfl

end Pattern

open Pattern Recognition

namespace Text

/-- A text ends in a part of a line. -/
theorem exists_last_line (t : Text) : ∃ x b, t = x ++ b ∧ x.AtLine ∧ '\n' ∉ b := by
  induction t using List.reverseRecOn with
  | nil => exact ⟨[], [], rfl, atLine_nil, by simp⟩
  | append_singleton t c ih =>
    by_cases feed : c = '\n'
    · subst feed
      exact ⟨t ++ ['\n'], [], by simp, atLine_concat t, by simp⟩
    · obtain ⟨x, b, rfl, whole, free⟩ := ih
      exact ⟨x, b ++ [c], by simp, whole, by simp [free, Ne.symm feed]⟩

/-- What can be put behind a text: where this ends inside a line, what begins with a line feed. -/
def Continues (t y : Text) : Prop := t.AtLine ∨ ∃ z, y = '\n' :: z

variable {a b t y : Text}

/-- The rest of a line has its line feed, or what follows begins with one. -/
theorem Continues.lineSeen (continues : Continues (a ++ b) y) (some_ : b ≠ []) : LineSeen b y := by
  rcases continues with whole | ⟨z, rfl⟩
  · exact .inl (whole.feed_mem some_)
  · exact .inr ⟨by simp, by simp, by simp [Cursor.edge]⟩

theorem Continues.of_append (continues : Continues (a ++ b) y) : Continues b y := by
  rcases continues with whole | feed
  · by_cases none_ : b = []
    · exact .inl (.inl none_)
    · exact .inl (whole.of_append none_)
  · exact .inr feed

end Text

namespace Zones

variable {a b f t y : Text} {m : Match}

/-! ### Fields -/

/-- A match goes on over a line ending from where its pieces end first. -/
theorem exists_matchAt?_of_ends {ps : List Pattern} {c : Cursor} {g : Groups}
    {more : List (Cursor × Groups)} (ended : (all ps).ends c [] = (.between f b, g) :: more) :
    ∃ stop, (all (ps ++ [lineEnding])).matchAt? c = some ⟨c, stop, g⟩ := by
  obtain ⟨tail, rest, rfl, takes⟩ := exists_takes_lineEnding b
  obtain ⟨others, first⟩ := exists_cons_of_head? (takes f g)
  refine ⟨.between (f ++ tail) rest, ?_⟩
  rw [matchAt?_eq, ends_all_append, ends, ended, List.flatMap_cons, all, first]
  rfl

/-- A field in the last line of a text says the same when something is put behind it. -/
theorem exists_reads_behind (continues : Text.Continues b y)
    (found : fieldDeclaration.matchAt? (.between f b) = some m) :
    ∃ m', fieldDeclaration.matchAt? (.between f (b ++ y)) = some m' ∧ m.Reads 0 m' := by
  obtain ⟨ps, parts, avoids⟩ := exists_declaration_pieces
  have some_ : b ≠ [] := by
    rintro rfl
    rw [matchAt?_eq_none_of_moves rfl] at found
    cases found
  have echoes : (all ps).Echoes f f b [] y :=
    echoes_seen avoids rfl (Text.Continues.lineSeen (a := []) continues some_)
  have all_ := echoes [] [] .nil
  rw [List.append_nil] at all_
  rw [parts] at found ⊢
  generalize here : (all ps).ends (.between f b) [] = l at all_
  generalize there : (all ps).ends (.between f (b ++ y)) [] = l' at all_
  cases all_ with
  | nil =>
    rw [matchAt?_eq, ends_all_append, ends, here] at found
    cases found
  | @cons e e' _ _ same _ =>
    obtain ⟨_, g⟩ := e
    obtain ⟨_, g'⟩ := e'
    obtain ⟨taken, rest, rfl, at_, at_', like⟩ := same
    dsimp only at at_ at_' like
    subst at_ at_'
    obtain ⟨stop, found'⟩ := exists_matchAt?_of_ends here
    obtain ⟨stop', found''⟩ := exists_matchAt?_of_ends there
    rw [found'] at found
    obtain rfl := Option.some.inj found
    exact ⟨_, found'', Like.reads (like_shift like rfl)⟩

theorem anchored_fieldDeclaration : fieldDeclaration.Anchored := anchored_lineStart _

/-- Signatures in a text are settled before what continues it and closes no parameters. -/
theorem settles_accessorSignature_before (continues : Text.Continues t y) (assigns : Assigns y) :
    accessorSignature.Settles (fun z => z = [] ∨ z = y) [] t := by
  refine settles_of_holds rfl (fun a b split some_ f z side behind => ?_) (.inl rfl)
  subst split
  rcases behind with rfl | rfl
  · exact echoes_rim local_accessorSignature (edge_front side a) ⟨by simp, by simp, rfl⟩
  · refine echoes_accessorSignature (edge_front side a) (continues.lineSeen some_)
      (fun _ _ _ => .inr assigns) ?_
    rintro t r rfl
    have continues : Text.Continues ((a ++ t ++ [')']) ++ r) z := by simpa using continues
    by_cases none_ : r = []
    · subst none_
      rw [List.append_nil] at continues
      exact .inr ((continues.lineSeen (by simp)).resolve_left (by simp))
    · exact continues.lineSeen none_

end Zones

/-! ### Exports -/

namespace Host

variable (h : Host) {entries : List Entry}

/-- New exports begin a line of their own. -/
theorem continues_exportBlock (entries : List Entry) :
    Text.Continues h.text (h.exportBlock entries) := by
  by_cases whole : h.text.AtLine
  · exact .inl whole
  · have feed := Text.breakBefore_of_not_atLine whole []
    rw [List.append_nil] at feed
    exact .inr ⟨_, by rw [exportBlock, feed]; rfl⟩

/-- New exports close no parameters of a method. -/
theorem assigns_exportBlock (some_ : entries ≠ []) (proper : ∀ e ∈ entries, e.Proper h.config) :
    Assigns (h.exportBlock entries) := by
  obtain ⟨e, rest, rfl⟩ := List.exists_cons_of_ne_nil some_
  have names := (proper e (by simp)).names
  obtain ⟨accessor_, -, -, type_, context_⟩ := names.not_mem (d := ')') rfl
  obtain ⟨-, -, className_, -, -⟩ := names.not_mem (d := '\x7b') rfl
  have free : ')' ∉ h.text.breakBefore h.text.size := by
    rw [Text.breakBefore]
    split <;> simp
  refine ⟨h.text.breakBefore h.text.size ++ ("export const " ++ e.accessor ++ " = (" ++
    h.config.contextField ++ "?: " ++ h.config.contextType).toList, (": " ++ e.className ++ " ").toList,
    ("> " ++ h.className ++ ".getInstance()." ++ e.accessor ++ "(" ++ h.config.contextField ++
      ");\n").toList ++ rest.flatMap fun e =>
        (Source.exportLine h.config e.accessor e.className h.className).toList, ?_, ?_, ?_⟩
  · rw [exportBlock, List.flatMap_cons]
    unfold Source.exportLine
    simp
  · simp [free, accessor_, type_, context_]
  · simp [className_]

end Host
end Registrar
