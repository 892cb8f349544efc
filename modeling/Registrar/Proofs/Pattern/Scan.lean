import Registrar.Proofs.Pattern.Preferred

/-!
Scanning a text for the matches of a pattern. `Scan` goes from one place to a later one, over a
character where there is no match and over a match where there is one; scans follow one another,
so the matches in a text are put together from those in its parts. `Rewrites` is the same walk with
the text that a replacement leaves behind.
-/

namespace Registrar

namespace Text

/-- The text with the given lines. -/
def ofLines (lines : List Text) : Text := lines.flatMap fun line => line ++ ['\n']

@[simp] theorem ofLines_nil : ofLines [] = [] := rfl

@[simp] theorem ofLines_cons (line : Text) (lines : List Text) :
    ofLines (line :: lines) = line ++ '\n' :: ofLines lines := by
  simp [ofLines]

@[simp] theorem ofLines_append (lines lines' : List Text) :
    ofLines (lines ++ lines') = ofLines lines ++ ofLines lines' := by
  simp [ofLines]

end Text

namespace Pattern

/-- The matches that are found on the way from one place to another. -/
inductive Scan (p : Pattern) : Cursor → List Match → Cursor → Prop where
  | stay (c : Cursor) : Scan p c [] c
  | skip {front back : Text} {x : Char} {ms : List Match} {d : Cursor}
      (refused : p.matchAt? (.between front (x :: back)) = none)
      (later : Scan p (.between (front ++ [x]) back) ms d) :
      Scan p (.between front (x :: back)) ms d
  | hit {front back : Text} {m : Match} {ms : List Match} {d : Cursor}
      (found : p.matchAt? (.between front back) = some m)
      (moved : Text.size front < m.stop.offset) (later : Scan p m.stop ms d) :
      Scan p (.between front back) (m :: ms) d

variable {p : Pattern} {front back : Text} {c d : Cursor} {m : Match} {ms ms' : List Match}

theorem Scan.trans {e : Cursor} (first : Scan p c ms d) (second : Scan p d ms' e) :
    Scan p c (ms ++ ms') e := by
  induction first with
  | stay c => exact second
  | skip refused _ ih => exact .skip refused (ih second)
  | hit found moved _ ih => exact .hit found moved (ih second)

/-- A match starts where it is looked for and stops later in the same text. -/
theorem matchAt?_some (found : p.matchAt? (.between front back) = some m) :
    m.start = .between front back ∧
      ∃ taken rest, back = taken ++ rest ∧ m.stop = .between (front ++ taken) rest := by
  rw [matchAt?_eq] at found
  obtain ⟨e, first, rfl⟩ := Option.map_eq_some_iff.mp found
  exact ⟨rfl, mem_ends (List.mem_of_head? first)⟩

theorem onward_between_cons (front back : Text) (x : Char) :
    (Cursor.between front (x :: back)).onward =
      .between front (x :: back) :: (Cursor.between (front ++ [x]) back).onward := by
  simp [Cursor.onward, Cursor.places, Cursor.between]

theorem findFrom?_of_refused {x : Char}
    (refused : p.matchAt? (.between front (x :: back)) = none) :
    p.findFrom? (.between front (x :: back)) = p.findFrom? (.between (front ++ [x]) back) := by
  rw [findFrom?, onward_between_cons, List.findSome?_cons, refused]
  rfl

theorem findFrom?_of_found (found : p.matchAt? (.between front back) = some m) :
    p.findFrom? (.between front back) = some m := by
  cases back with
  | nil => simpa [findFrom?, Cursor.onward, Cursor.places, Cursor.between] using found
  | cons x back => rw [findFrom?, onward_between_cons, List.findSome?_cons, found]

theorem findFrom?_at_end (refused : p.matchAt? (.between front []) = none) :
    p.findFrom? (.between front []) = none := by
  simpa [findFrom?, Cursor.onward, Cursor.places, Cursor.between] using refused

/-- A scan without a match does not change what is found. -/
theorem Scan.findFrom?_eq (scan : Scan p c [] d) : p.findFrom? c = p.findFrom? d := by
  generalize none_ : ([] : List Match) = ms at scan
  induction scan with
  | stay c => rfl
  | skip refused _ ih => exact (findFrom?_of_refused refused).trans (ih none_)
  | hit => simp at none_

theorem findAllFrom_of_refused (fuel : Nat) {x : Char}
    (refused : p.matchAt? (.between front (x :: back)) = none) :
    p.findAllFrom fuel (.between front (x :: back)) =
      p.findAllFrom fuel (.between (front ++ [x]) back) := by
  cases fuel with
  | zero => rfl
  | succ fuel => rw [findAllFrom, findAllFrom, findFrom?_of_refused refused]

/-- The matches of a scan are the first ones that are found. -/
theorem Scan.findAllFrom_eq (scan : Scan p c ms d) (fuel : Nat) :
    p.findAllFrom (ms.length + fuel) c = ms ++ p.findAllFrom fuel d := by
  induction scan with
  | stay c => simp
  | skip refused _ ih => rw [findAllFrom_of_refused _ refused, ih]
  | @hit front back m ms d found moved _ ih =>
    obtain ⟨start, _⟩ := matchAt?_some found
    have moved' : m.start.offset < m.stop.offset := by rw [start]; exact moved
    rw [List.length_cons, Nat.add_right_comm, findAllFrom, findFrom?_of_found found]
    simp [moved', ih]

/-- Every match of a scan takes a character at least. -/
theorem Scan.length_le (scan : Scan p c ms d) : ms.length + d.rest.length ≤ c.rest.length := by
  induction scan with
  | stay c => simp
  | skip _ _ ih => exact Nat.le_trans ih (by simp)
  | @hit front back m ms d found moved _ ih =>
    obtain ⟨_, taken, rest, rfl, stop⟩ := matchAt?_some found
    rw [stop] at moved ih
    have some_ : taken ≠ [] := by
      rintro rfl
      simp at moved
    have positive := List.length_pos_iff.mpr some_
    simp only [Cursor.between_rest, List.length_append, List.length_cons] at ih ⊢
    omega

/-- The matches in a text are those of a scan through all of it. -/
theorem Scan.findAll_eq {t : Text} (scan : Scan p (.between [] t) ms (.between t []))
    (refused : p.matchAt? (.between t []) = none) : p.findAll t = ms := by
  have enough := scan.length_le
  simp only [Cursor.between_rest, List.length_nil] at enough
  have fuel : t.length + 1 = ms.length + (t.length - ms.length + 1) := by omega
  rw [findAll, Cursor.start_eq_between, fuel, scan.findAllFrom_eq, findAllFrom,
    findFrom?_at_end refused]
  simp

/-- The first match in a text is the one at which a scan without a match ends. -/
theorem Scan.find?_eq {t : Text} (scan : Scan p (.between [] t) [] (.between front back))
    (found : p.matchAt? (.between front back) = some m) : p.find? t = some m := by
  rw [find?, Cursor.start_eq_between, scan.findFrom?_eq, findFrom?_of_found found]

/-! ### Line by line -/

/-- Every match of the pattern begins where a line does. -/
def Anchored (p : Pattern) : Prop :=
  ∀ front back, (Cursor.between front back).startsLine = false → p.Refuses front back

/-- Inside a line nothing is found. -/
theorem Anchored.scan_inside (anchored : p.Anchored) {line : Text} (whole : '\n' ∉ line)
    (inside : (Cursor.between front (line ++ '\n' :: back)).startsLine = false) :
    Scan p (.between front (line ++ '\n' :: back)) []
      (.between (front ++ line ++ ['\n']) back) := by
  induction line generalizing front with
  | nil =>
    refine .skip (anchored _ _ inside).matchAt? ?_
    simpa using .stay _
  | cons x line ih =>
    have other : x ≠ '\n' := fun same => whole (by simp [same])
    have still : (Cursor.between (front ++ [x]) (line ++ '\n' :: back)).startsLine = false := by
      simpa [Cursor.startsLine] using other
    have later := ih (fun member => whole (by simp [member])) still
    refine .skip (anchored _ _ inside).matchAt? ?_
    simpa using later

/-- A line that the pattern refuses is passed over. -/
theorem Anchored.scan_line (anchored : p.Anchored) {line : Text} (whole : '\n' ∉ line)
    (refused : p.Refuses front (line ++ '\n' :: back)) :
    Scan p (.between front (line ++ '\n' :: back)) []
      (.between (front ++ line ++ ['\n']) back) := by
  cases line with
  | nil =>
    refine .skip refused.matchAt? ?_
    simpa using .stay _
  | cons x line =>
    have other : x ≠ '\n' := fun same => whole (by simp [same])
    have inside : (Cursor.between (front ++ [x]) (line ++ '\n' :: back)).startsLine = false := by
      simpa [Cursor.startsLine] using other
    have later := anchored.scan_inside (fun member => whole (by simp [member])) inside
    refine .skip refused.matchAt? ?_
    simpa using later

/-- Lines that the pattern refuses are passed over. -/
theorem Anchored.scan_lines (anchored : p.Anchored) {lines : List Text}
    (whole : ∀ line ∈ lines, '\n' ∉ line)
    (refused : ∀ line ∈ lines, ∀ front back, p.Refuses front (line ++ '\n' :: back)) :
    Scan p (.between front (Text.ofLines lines ++ back)) []
      (.between (front ++ Text.ofLines lines) back) := by
  induction lines generalizing front with
  | nil => simpa using .stay _
  | cons line lines ih =>
    have here := anchored.scan_line (whole line (by simp)) (refused line (by simp) front
      (Text.ofLines lines ++ back))
    have later : Scan p (.between (front ++ line ++ ['\n']) (Text.ofLines lines ++ back)) []
        (.between (front ++ line ++ ['\n'] ++ Text.ofLines lines) back) :=
      ih (fun other member => whole other (by simp [member]))
        (fun other member => refused other (by simp [member]))
    have both := here.trans later
    simpa using both

/-- A match that is a whole line is found, and the scan goes on behind it. -/
theorem scan_hit {taken : Text} {g : Groups} (some_ : taken ≠ [])
    (takes : p.Takes front taken back [] g) :
    Scan p (.between front (taken ++ back))
      [⟨.between front (taken ++ back), .between (front ++ taken) back, g⟩]
      (.between (front ++ taken) back) := by
  refine .hit takes.matchAt? ?_ (.stay _)
  cases taken with
  | nil => exact absurd rfl some_
  | cons x taken =>
    have := x.utf8Size_pos
    simp only [Cursor.between_offset, Text.size_append, Text.size_cons]
    omega

/-! ### Replacing -/

/-- The text that replacing leaves on the way from one place to another. -/
inductive Rewrites (p : Pattern) (new : Text) : Cursor → Text → Cursor → Prop where
  | stay (c : Cursor) : Rewrites p new c [] c
  | skip {front back out : Text} {x : Char} {d : Cursor}
      (refused : p.matchAt? (.between front (x :: back)) = none)
      (later : Rewrites p new (.between (front ++ [x]) back) out d) :
      Rewrites p new (.between front (x :: back)) (x :: out) d
  | hit {front back out : Text} {m : Match} {d : Cursor}
      (found : p.matchAt? (.between front back) = some m)
      (moved : Text.size front < m.stop.offset) (later : Rewrites p new m.stop out d) :
      Rewrites p new (.between front back) (new ++ out) d

variable {new out out' : Text}

theorem Rewrites.trans {e : Cursor} (first : Rewrites p new c out d)
    (second : Rewrites p new d out' e) : Rewrites p new c (out ++ out') e := by
  induction first with
  | stay c => exact second
  | skip refused _ ih => exact .skip refused (ih second)
  | hit found moved _ ih =>
    rw [List.append_assoc]
    exact .hit found moved (ih second)

/-- The pieces between matches and what replaces these make up the text left behind. -/
theorem Rewrites.pieces_eq {t : Text} (walk : Rewrites p new c out (.between t [])) :
    ∃ ms, Scan p c ms (.between t []) ∧ ∀ front kept back, c = .between (front ++ kept) back →
      replaceAll.pieces new (.between front (kept ++ back)) ms = kept ++ out := by
  generalize last : Cursor.between t [] = d at walk
  induction walk with
  | stay c =>
    refine ⟨[], .stay _, fun front kept back at_ => ?_⟩
    have gone : back = [] := by
      have := congrArg Cursor.rest (last.trans at_)
      simpa using this.symm
    simp [replaceAll.pieces, gone]
  | @skip front' back' out x d refused _ ih =>
    obtain ⟨ms, scan, pieces⟩ := ih last
    refine ⟨ms, .skip refused scan, fun front kept back at_ => ?_⟩
    have rest : back = x :: back' := by simpa using (congrArg Cursor.rest at_).symm
    have offset : Text.size front' = Text.size (front ++ kept) := congrArg Cursor.offset at_
    subst rest
    have onward : Cursor.between (front' ++ [x]) back' =
        .between (front ++ (kept ++ [x])) back' := by
      simp only [Cursor.between, Text.size_append, offset, Cursor.mk.injEq, and_true]
      refine ⟨by omega, by simp [← List.append_assoc]⟩
    simpa using pieces front (kept ++ [x]) back' onward
  | @hit front' back' out m d found moved _ ih =>
    obtain ⟨ms, scan, pieces⟩ := ih last
    refine ⟨m :: ms, .hit found moved scan, fun front kept back at_ => ?_⟩
    obtain ⟨start, taken, rest, split, stop⟩ := matchAt?_some found
    have later := pieces (front' ++ taken) [] rest (by simp [stop])
    rw [replaceAll.pieces, start, at_, Cursor.upTo_between, stop]
    simpa using later

/-- Replacing gives what a walk through all of the text leaves behind. -/
theorem Rewrites.replaceAll_eq {t : Text} (walk : Rewrites p new (.between [] t) out (.between t []))
    (refused : p.matchAt? (.between t []) = none) : p.replaceAll new t = out := by
  obtain ⟨ms, scan, pieces⟩ := walk.pieces_eq
  have all := pieces [] [] t rfl
  rw [replaceAll, Cursor.start_eq_between, scan.findAll_eq refused]
  simpa using all

end Pattern
end Registrar
