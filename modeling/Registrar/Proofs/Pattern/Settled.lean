import Registrar.Proofs.Pattern.Echo

/-!
Texts whose matches are settled. Where the pattern echoes at every place that a scan comes to, the
matches in a text are the same whatever goes before it and behind it, so the matches in two texts
joined are those of the first and, moved, those of the second.
-/

namespace Registrar

/-- A span farther on. -/
def Span.moved (n : Nat) (s : Span) : Span := ⟨s.start + n, s.stop + n⟩

namespace Pattern

open Cursor

/-- Every match takes a character at least. -/
def moves : Pattern → Bool
  | nothing | place _ | many _ _ => false
  | one _ => true
  | next p q => p.moves || q.moves
  | either p q => p.moves && q.moves
  | group _ p => p.moves

/-- The same match, farther on and with more behind it. -/
structure Match.Moved (n : Nat) (y : Text) (m m' : Match) : Prop where
  start : m'.start.offset = m.start.offset + n
  stop : m'.stop.offset = m.stop.offset + n
  rest : m'.stop.rest = m.stop.rest ++ y
  groups : Like 0 n m.groups m'.groups

/-- The second match says what the first does, some bytes farther on. -/
structure Match.Reads (n : Nat) (m m' : Match) : Prop where
  texts : ∀ label, m'.textOf? label = m.textOf? label
  spans : ∀ label, m'.spanOf? label = (m.spanOf? label).map (·.moved n)

/-- At a place of a text the pattern echoes whatever goes before and whatever of some texts behind. -/
def Holds (p : Pattern) (behind : Text → Prop) (a b : Text) : Prop :=
  ∀ f y, edge f.getLast? = none → behind y → p.Echoes a (f ++ a) b [] y

/-- The pattern echoes at all places that a scan of `b` behind `a` comes to. -/
inductive Settles (p : Pattern) (behind : Text → Prop) : Text → Text → Prop where
  | done (a : Text) : Settles p behind a []
  | skip {a b : Text} {x : Char} (holds : p.Holds behind a (x :: b))
      (refused : p.matchAt? (.between a (x :: b)) = none) (later : Settles p behind (a ++ [x]) b) :
      Settles p behind a (x :: b)
  | hit {a taken rest : Text} {g : Groups} (holds : p.Holds behind a (taken ++ rest))
      (found : p.matchAt? (.between a (taken ++ rest)) =
        some ⟨.between a (taken ++ rest), .between (a ++ taken) rest, g⟩)
      (some_ : taken ≠ []) (later : Settles p behind (a ++ taken) rest) :
      Settles p behind a (taken ++ rest)

variable {p q : Pattern} {behind : Text → Prop} {f f' a b x y y' taken rest : Text} {g : Groups}
  {e : Cursor × Groups} {m m' : Match} {n : Nat}

theorem lt_of_moves (moves_ : p.moves = true) (member : e ∈ p.ends (.between f b) g) :
    f.size < e.1.offset := by
  induction p generalizing f b g e with
  | nothing | place _ | many _ _ => simp [moves] at moves_
  | one accepts =>
    cases b with
    | nil => simp [ends] at member
    | cons c b =>
      rw [ends_one_cons] at member
      split at member
      · obtain rfl := List.mem_singleton.mp member
        exact offset_lt f b b c
      · simp at member
  | next p q ihp ihq =>
    obtain ⟨middle, first, second⟩ := List.mem_flatMap.mp member
    obtain ⟨taken, rest, rfl, here⟩ := mem_ends first
    rw [here] at second
    obtain ⟨taken', rest', rfl, there⟩ := mem_ends second
    rcases Bool.or_eq_true_iff.mp moves_ with moved | moved
    · have less := ihp moved first
      simp only [here, there, between_offset, Text.size_append] at less ⊢
      omega
    · have less := ihq moved second
      simp only [Text.size_append] at less
      omega
  | either p q ihp ihq =>
    obtain ⟨left, right⟩ := Bool.and_eq_true_iff.mp moves_
    rcases List.mem_append.mp member with member | member
    · exact ihp left member
    · exact ihq right member
  | group label p ih =>
    obtain ⟨inner, first, rfl⟩ := List.mem_map.mp member
    exact ih (e := inner) moves_ first

theorem lt_stop_of_matchAt? (moves_ : p.moves = true) (found : p.matchAt? (.between f b) = some m) :
    f.size < m.stop.offset := by
  rw [matchAt?_eq] at found
  obtain ⟨e, first, rfl⟩ := Option.map_eq_some_iff.mp found
  exact lt_of_moves moves_ (List.mem_of_head? first)

/-- At the end of a text nothing moves on. -/
theorem matchAt?_eq_none_of_moves (moves_ : p.moves = true) : p.matchAt? (.between f []) = none := by
  rw [matchAt?_eq, Option.map_eq_none_iff, List.head?_eq_none_iff, List.eq_nil_iff_forall_not_mem]
  intro e member
  obtain ⟨taken, rest, none_, here⟩ := mem_ends member
  obtain ⟨rfl, rfl⟩ := List.append_eq_nil_iff.mp none_.symm
  have less := lt_of_moves moves_ member
  simp [here] at less

/-- Where a pattern echoes it has the same match at both places, or none. -/
theorem Echoes.matchAt?_cases (echoes : p.Echoes f f' b y y') :
    (p.matchAt? (.between f (b ++ y)) = none ∧ p.matchAt? (.between f' (b ++ y')) = none) ∨
      ∃ taken rest g g', b = taken ++ rest ∧ Like f.size f'.size g g' ∧
        p.matchAt? (.between f (b ++ y)) =
          some ⟨.between f (b ++ y), .between (f ++ taken) (rest ++ y), g⟩ ∧
        p.matchAt? (.between f' (b ++ y')) =
          some ⟨.between f' (b ++ y'), .between (f' ++ taken) (rest ++ y'), g'⟩ := by
  have all := echoes [] [] .nil
  rw [matchAt?_eq, matchAt?_eq]
  generalize p.ends (.between f (b ++ y)) [] = l at all
  generalize p.ends (.between f' (b ++ y')) [] = l' at all
  cases all with
  | nil => exact .inl ⟨rfl, rfl⟩
  | @cons e e' _ _ same _ =>
    obtain ⟨_, g⟩ := e
    obtain ⟨_, g'⟩ := e'
    obtain ⟨taken, rest, rfl, rfl, rfl, like⟩ := same
    exact .inr ⟨taken, rest, g, g', rfl, like, rfl, rfl⟩

theorem settles_of_holds (moves_ : p.moves = true)
    (holds : ∀ a b, x = a ++ b → b ≠ [] → p.Holds behind a b) (some_ : behind []) :
    p.Settles behind [] x := by
  have later : ∀ (n : Nat) (a b : Text), b.length ≤ n → x = a ++ b → p.Settles behind a b := by
    intro n
    induction n with
    | zero =>
      intro a b short _
      obtain rfl : b = [] := List.length_eq_zero_iff.mp (Nat.le_zero.mp short)
      exact .done a
    | succ n ih =>
      intro a b short split
      cases b with
      | nil => exact .done a
      | cons c b =>
        have here := holds a (c :: b) split (by simp)
        have echoes := here [] [] rfl some_
        rw [List.length_cons] at short
        rcases echoes.matchAt?_cases with ⟨refused, -⟩ | ⟨taken, rest, g, -, split', -, found, -⟩
        · rw [List.append_nil] at refused
          exact .skip here refused (ih (a ++ [c]) b (by omega) (by simp [split]))
        · rw [List.append_nil, List.append_nil] at found
          have moved : taken ≠ [] := by
            rintro rfl
            rw [matchAt?_eq] at found
            obtain ⟨e, first, same⟩ := Option.map_eq_some_iff.mp found
            have less := lt_of_moves moves_ (List.mem_of_head? first)
            have at_ : e.1 = .between (a ++ []) rest := congrArg Match.stop same
            simp [at_] at less
          have shorter : rest.length ≤ n := by
            have total := congrArg List.length split'
            have := List.length_pos_iff.mpr moved
            simp only [List.length_append, List.length_cons] at total
            omega
          rw [split'] at found here ⊢
          exact .hit here found moved (ih (a ++ taken) rest shorter (by rw [split, split']; simp))
  exact later x.length [] x (Nat.le_refl _) rfl

/-- What is settled is scanned alike wherever it stands. -/
theorem Settles.exists_scan (settles : p.Settles behind a b) :
    ∃ ms, Scan p (.between a b) ms (.between (a ++ b) []) ∧
      ∀ f y, edge f.getLast? = none → behind y → ∃ ms',
        Scan p (.between (f ++ a) (b ++ y)) ms' (.between (f ++ a ++ b) y) ∧
          List.Forall₂ (Match.Moved f.size y) ms ms' := by
  induction settles with
  | done a =>
    refine ⟨[], ?_, fun f y _ _ => ⟨[], ?_, .nil⟩⟩
    · rw [List.append_nil]
      exact .stay _
    · rw [List.append_nil]
      exact .stay _
  | @skip a b x holds refused later ih =>
    obtain ⟨ms, here, there⟩ := ih
    refine ⟨ms, .skip refused (by simpa using here), fun f y sides fits => ?_⟩
    obtain ⟨ms', scan, moved⟩ := there f y sides fits
    refine ⟨ms', .skip ?_ (by simpa using scan), moved⟩
    rcases (holds f y sides fits).matchAt?_cases with ⟨-, refused'⟩ | ⟨_, _, _, _, _, _, found, _⟩
    · exact refused'
    · rw [List.append_nil, refused] at found
      cases found
  | @hit a taken rest g holds found some_ later ih =>
    obtain ⟨ms, here, there⟩ := ih
    refine ⟨_ :: ms, .hit found (offset_lt_append a [] rest taken some_) (by simpa using here),
      fun f y sides fits => ?_⟩
    obtain ⟨ms', scan, moved⟩ := there f y sides fits
    rcases (holds f y sides fits).matchAt?_cases with
      ⟨refused, -⟩ | ⟨taken', rest', h, h', split, like, found', there'⟩
    · rw [List.append_nil, found] at refused
      cases refused
    rw [List.append_nil, List.append_nil, found] at found'
    have stop : Cursor.between (a ++ taken) rest = .between (a ++ taken') rest' :=
      congrArg Match.stop (Option.some.inj found')
    have groups : g = h := congrArg Match.groups (Option.some.inj found')
    obtain rfl : rest = rest' := congrArg Cursor.rest stop
    obtain rfl : taken = taken' := List.append_cancel_right split
    subst groups
    refine ⟨_ :: ms', .hit there' (offset_lt_append (f ++ a) [] _ taken some_)
      (by simpa using scan), .cons ⟨?_, ?_, rfl, ?_⟩ moved⟩
    · simp only [between_offset, Text.size_append]
      omega
    · simp only [between_offset, Text.size_append]
      omega
    · have same : Like ([] ++ a : Text).size (f ++ a).size g h' := by simpa using like
      simpa using like_append.mp same

/-- Behind whole lines a place sees the same before it as at the start of a text. -/
theorem edge_front (side : edge f.getLast? = none) (a : Text) :
    edge a.getLast? = edge (f ++ a).getLast? := by
  simpa using edge_append (f := []) (side.symm : edge [].getLast? = edge f.getLast?) a

/-- A pattern that looks only to the characters beside a place has settled matches in a whole text. -/
theorem settles_whole (moves_ : p.moves = true) (local_ : p.Avoids fun _ => false) (x : Text) :
    p.Settles (· = []) [] x := by
  refine settles_of_holds moves_ (fun a b _ _ => ?_) rfl
  rintro f y sides rfl
  exact echoes_rim local_ (edge_front sides a) ⟨by simp, by simp, rfl⟩

/-- The same matches are found in a text wherever it stands, and a scan comes to its end. -/
def Steady (p : Pattern) (x : Text) : Prop := ∀ f y, edge f.getLast? = none → ∃ ms,
  Scan p (.between f (x ++ y)) ms (.between (f ++ x) y) ∧
    List.Forall₂ (Match.Moved f.size y) (p.findAll x) ms

theorem Settles.steady (settles : p.Settles (fun _ => True) [] x) (moves_ : p.moves = true) :
    p.Steady x := by
  intro f y side
  obtain ⟨ms, scan, later⟩ := settles.exists_scan
  obtain ⟨ms', scan', moved⟩ := later f y side trivial
  rw [List.nil_append] at scan
  rw [List.append_nil] at scan'
  refine ⟨ms', scan', ?_⟩
  rwa [scan.findAll_eq (matchAt?_eq_none_of_moves moves_)]

/-- A text that is passed over is steady. -/
theorem steady_of_passed (moves_ : p.moves = true)
    (passed : ∀ f y, Scan p (.between f (x ++ y)) [] (.between (f ++ x) y)) : p.Steady x := by
  intro f y _
  refine ⟨[], passed f y, ?_⟩
  have alone := passed [] []
  rw [List.append_nil, List.nil_append] at alone
  rw [alone.findAll_eq (matchAt?_eq_none_of_moves moves_)]
  exact .nil

/-- The matches in two texts joined, the first of which is steady. -/
theorem Steady.findAll_append (steady : p.Steady x) (moves_ : p.moves = true)
    (local_ : p.Avoids fun _ => false) (side : edge x.getLast? = none) (y : Text) :
    ∃ ms ms', p.findAll (x ++ y) = ms ++ ms' ∧
      List.Forall₂ (Match.Moved 0 y) (p.findAll x) ms ∧
      List.Forall₂ (Match.Moved x.size []) (p.findAll y) ms' := by
  obtain ⟨ms, first, moved⟩ := steady [] y rfl
  obtain ⟨ns, second, again⟩ := (settles_whole moves_ local_ y).exists_scan
  obtain ⟨ns', second', moved'⟩ := again x [] side rfl
  rw [List.nil_append] at first second
  rw [List.append_nil, List.append_nil] at second'
  have refused : ∀ t, p.matchAt? (.between t []) = none := fun _ => matchAt?_eq_none_of_moves moves_
  refine ⟨ms, ns', (first.trans second').findAll_eq (refused _), moved, ?_⟩
  rw [second.findAll_eq (refused _)]
  exact moved'

/-! ### Places of a scan -/

theorem like_shift {here there n : Nat} {g g' : Groups} (like : Like here there g g')
    (farther : there = here + n) : Like 0 n g g' := by
  refine like.imp ?_
  rintro a b ⟨name, same, start, stop⟩
  refine ⟨name, same, ?_, ?_⟩ <;> omega

theorem between_concat (same : Cursor.between f y = .between f' y) (c : Char) (rest : Text) :
    Cursor.between (f ++ [c]) rest = .between (f' ++ [c]) rest := by
  have sizes : f.size = f'.size := congrArg Cursor.offset same
  simp [Cursor.between, sizes]

section
variable {d : Cursor} {ms ns : List Match}

/-- A scan comes to a later place of the same text. -/
theorem Scan.exists_taken (scan : Scan p (.between a b) ms d) :
    ∃ taken rest, b = taken ++ rest ∧ d = .between (a ++ taken) rest := by
  generalize here : Cursor.between a b = c at scan
  induction scan generalizing a b with
  | stay c =>
    subst here
    exact ⟨[], b, rfl, by simp⟩
  | @skip front back x ms d refused later ih =>
    obtain rfl : b = x :: back := congrArg Cursor.rest here
    obtain ⟨taken, rest, rfl, there⟩ := ih (between_concat here x back)
    exact ⟨x :: taken, rest, rfl, by simp [there]⟩
  | @hit front back m ms d found moved later ih =>
    rw [← here] at found
    obtain ⟨-, taken, rest, rfl, stop⟩ := matchAt?_some found
    obtain ⟨taken', rest', rfl, there⟩ := ih stop.symm
    exact ⟨taken ++ taken', rest', by simp, by simp [there]⟩

/-- A scan that finds a match comes to its place. -/
theorem Scan.exists_place (scan : Scan p (.between a b) (ms ++ m :: ns) d) :
    ∃ taken rest, b = taken ++ rest ∧ Scan p (.between a b) ms (.between (a ++ taken) rest) ∧
      p.matchAt? (.between (a ++ taken) rest) = some m ∧ Scan p m.stop ns d := by
  generalize here : Cursor.between a b = c at scan ⊢
  generalize whole : ms ++ m :: ns = l at scan
  induction scan generalizing a b ms with
  | stay c => simp at whole
  | @skip front back x l d refused later ih =>
    obtain rfl : b = x :: back := congrArg Cursor.rest here
    obtain ⟨taken, rest, rfl, scan, found, behind⟩ := ih (between_concat here x back) whole
    refine ⟨x :: taken, rest, rfl, .skip refused ?_, by simpa using found, behind⟩
    simpa using scan
  | @hit front back m' l d found moved later ih =>
    cases ms with
    | nil =>
      obtain ⟨rfl, rfl⟩ := List.cons.inj whole
      exact ⟨[], b, rfl, by simpa [here] using .stay _, by simpa [here] using found, later⟩
    | cons m₁ ms =>
      obtain ⟨rfl, others⟩ := List.cons.inj whole
      have found' := found
      rw [← here] at found'
      obtain ⟨-, taken, rest, rfl, stop⟩ := matchAt?_some found'
      obtain ⟨taken', rest', rfl, scan, found'', behind⟩ := ih stop.symm others
      exact ⟨taken ++ taken', rest', by simp, .hit found moved (by simpa using scan),
        by simpa using found'', behind⟩

/-- The matches of a scan lie between its ends. -/
theorem Scan.bounds {c : Cursor} (scan : Scan p c ms d) : c.offset ≤ d.offset ∧ ∀ m ∈ ms,
    c.offset ≤ m.start.offset ∧ m.start.offset < m.stop.offset ∧ m.stop.offset ≤ d.offset := by
  induction scan with
  | stay c => exact ⟨Nat.le_refl _, by simp⟩
  | @skip front back x ms d refused later ih =>
    obtain ⟨order, within⟩ := ih
    simp only [between_offset, Text.size_append] at order within ⊢
    refine ⟨by omega, fun m member => ?_⟩
    obtain ⟨start, rest⟩ := within m member
    exact ⟨by omega, rest⟩
  | @hit front back m ms d found moved later ih =>
    obtain ⟨order, within⟩ := ih
    obtain ⟨start, -⟩ := matchAt?_some found
    have start_ : m.start.offset = front.size := by rw [start, between_offset]
    rw [between_offset]
    refine ⟨by omega, fun m' member => ?_⟩
    rcases List.mem_cons.mp member with rfl | member
    · exact ⟨by omega, by omega, order⟩
    · obtain ⟨after_, rest⟩ := within m' member
      exact ⟨by omega, rest⟩

/-- A scan that goes on beyond a place comes to it or finds a match that runs on over it. -/
theorem Scan.exists_visit {w : Text} (scan : Scan p (.between a (b ++ w)) ms d)
    (beyond : d.rest.length ≤ w.length) :
    (∃ ms₁ ms₂, ms = ms₁ ++ ms₂ ∧ Scan p (.between a (b ++ w)) ms₁ (.between (a ++ b) w) ∧
      Scan p (.between (a ++ b) w) ms₂ d) ∨
    ∃ ms₁ m ms₂ front back z rest, ms = ms₁ ++ m :: ms₂ ∧ b = front ++ back ∧ back ≠ [] ∧ z ≠ [] ∧
      w = z ++ rest ∧ Scan p (.between a (b ++ w)) ms₁ (.between (a ++ front) (back ++ w)) ∧
      p.matchAt? (.between (a ++ front) (back ++ w)) = some m ∧ m.stop = .between (a ++ b ++ z) rest ∧
      Scan p m.stop ms₂ d := by
  generalize from_ : Cursor.between a (b ++ w) = c at scan
  -- A scan from the place itself has come to it.
  have arrived : ∀ {a ms c d}, Cursor.between a ([] ++ w) = c → Scan p c ms d →
      ∃ ms₁ ms₂, ms = ms₁ ++ ms₂ ∧ Scan p c ms₁ (.between (a ++ []) w) ∧
        Scan p (.between (a ++ []) w) ms₂ d := by
    rintro a ms _ d rfl scan
    exact ⟨[], ms, rfl, by simpa using .stay _, by simpa using scan⟩
  induction scan generalizing a b with
  | stay c =>
    subst from_
    simp only [between_rest, List.length_append] at beyond
    obtain rfl : b = [] := List.length_eq_zero_iff.mp (by omega)
    exact .inl (arrived rfl (.stay _))
  | @skip front back x ms d refused later ih =>
    cases b with
    | nil => exact .inl (arrived from_ (.skip refused later))
    | cons y b =>
      obtain ⟨rfl, rfl⟩ : y = x ∧ b ++ w = back := by simpa using congrArg Cursor.rest from_
      have next_ := between_concat from_ y (b ++ w)
      rw [← next_] at later ih
      rw [← from_] at refused ⊢
      rcases ih beyond rfl with ⟨ms₁, ms₂, rfl, first, second⟩ |
          ⟨ms₁, m, ms₂, taken, rest, z, r, rfl, rfl, some_, moved, rfl, first, found, stop, last⟩
      · exact .inl ⟨ms₁, ms₂, rfl, .skip refused (by simpa using first), by simpa using second⟩
      · exact .inr ⟨ms₁, m, ms₂, y :: taken, rest, z, r, rfl, rfl, some_, moved, rfl,
          .skip refused (by simpa using first), by simpa using found, by simp [stop], last⟩
  | @hit front back m ms d found moved later ih =>
    have size_eq : a.size = front.size := congrArg Cursor.offset from_
    rw [← from_] at found ⊢
    rw [← size_eq] at moved
    obtain ⟨-, taken, rest, split, stop⟩ := matchAt?_some found
    rcases List.append_eq_append_iff.mp split with ⟨z, rfl, rfl⟩ | ⟨r, rfl, rfl⟩
    · by_cases none_ : b = []
      · subst none_
        exact .inl (arrived rfl (.hit found moved later))
      by_cases still : z = []
      · subst still
        refine .inl ⟨[m], ms, rfl, .hit found moved ?_, ?_⟩
        · simpa [stop] using .stay _
        · simpa [stop] using later
      · exact .inr ⟨[], m, ms, [], b, z, rest, rfl, rfl, none_, still, rfl, by simpa using .stay _,
          by simpa using found, by simp [stop], later⟩
    · rw [stop] at ih moved
      rcases ih beyond rfl with ⟨ms₁, ms₂, rfl, first, second⟩ |
          ⟨ms₁, m', ms₂, front, back, z, r, rfl, rfl, some_, moved', rfl, first, found', stop', last⟩
      · exact .inl ⟨m :: ms₁, ms₂, rfl, .hit found (stop ▸ moved) (by simpa [stop] using first),
          by simpa using second⟩
      · exact .inr ⟨m :: ms₁, m', ms₂, taken ++ front, back, z, r, rfl, by simp, some_, moved', rfl,
          .hit found (stop ▸ moved) (by simpa [stop] using first), by simpa using found',
          by simp [stop'], last⟩

/-- A pattern that looks only to the characters beside a place goes through a text alike behind two
others that end alike. -/
theorem Scan.elsewhere (local_ : p.Avoids fun _ => false)
    (sides : edge f.getLast? = edge f'.getLast?) (farther : f'.size = f.size + n)
    (scan : Scan p (.between f b) ms d) :
    ∃ taken rest ms', b = taken ++ rest ∧ d = .between (f ++ taken) rest ∧
      Scan p (.between f' b) ms' (.between (f' ++ taken) rest) ∧
        List.Forall₂ (Match.Moved n []) ms ms' := by
  have echoes : ∀ {f f' b}, edge f.getLast? = edge f'.getLast? → p.Echoes f f' b [] [] :=
    fun sides => echoes_rim local_ sides ⟨by simp, by simp, rfl⟩
  generalize here : Cursor.between f b = c at scan
  induction scan generalizing f f' b with
  | stay c =>
    subst here
    exact ⟨[], b, [], rfl, by simp, by simpa using .stay _, .nil⟩
  | @skip front back x ms d refused later ih =>
    obtain rfl : b = x :: back := congrArg Cursor.rest here
    obtain ⟨taken, rest, ms', rfl, there, scan, moved⟩ := ih (edge_append sides [x])
      (by simp only [Text.size_append]; omega) (between_concat here x back)
    refine ⟨x :: taken, rest, ms', rfl, by simp [there], .skip ?_ (by simpa using scan), moved⟩
    rcases (echoes sides).matchAt?_cases with ⟨-, refused'⟩ | ⟨_, _, _, _, _, _, found, _⟩
    · simpa using refused'
    · rw [List.append_nil, here, refused] at found
      cases found
  | @hit front back m ms d found moved later ih =>
    rw [← here] at found
    rcases (echoes (b := b) sides).matchAt?_cases with ⟨refused, -⟩ |
        ⟨taken, rest, g, g', rfl, like, found₁, found₂⟩
    · rw [List.append_nil, found] at refused
      cases refused
    simp only [List.append_nil] at found₁ found₂
    rw [found] at found₁
    obtain rfl := Option.some.inj found₁
    have some_ : taken ≠ [] := by
      rintro rfl
      have place := congrArg Cursor.offset here
      simp only [between_offset] at place
      simp [place] at moved
    obtain ⟨taken', rest', ms', rfl, there, scan, all_⟩ := ih (edge_append sides taken)
      (by simp only [Text.size_append]; omega) rfl
    refine ⟨taken ++ taken', rest', _ :: ms', by simp, by simp [there],
      .hit found₂ (offset_lt_append f' [] _ _ some_) (by simpa using scan),
      .cons ⟨?_, ?_, by simp, like_shift like farther⟩ all_⟩
    · simp only [between_offset]
      omega
    · simp only [between_offset, Text.size_append]
      omega

/-- The matches in a text are those of a scan through it. -/
theorem exists_scan_findAll (moves_ : p.moves = true) (local_ : p.Avoids fun _ => false) (x : Text) :
    Scan p (.between [] x) (p.findAll x) (.between x []) := by
  obtain ⟨ms, scan, -⟩ := (settles_whole moves_ local_ x).exists_scan
  rw [List.nil_append] at scan
  rwa [scan.findAll_eq (matchAt?_eq_none_of_moves moves_)]

/-- What a scan finds on its way is found in the text. -/
theorem Scan.exists_findAll {x : Text} (scan : Scan p (.between [] x) ms d) :
    ∃ ns, p.findAll x = ms ++ ns := by
  have enough := scan.length_le
  rw [Cursor.between_rest] at enough
  have fuel : x.length + 1 = ms.length + (x.length - ms.length + 1) := by omega
  exact ⟨_, by rw [findAll, Cursor.start_eq_between, fuel, scan.findAllFrom_eq]⟩

end

/-! ### What is read off matches -/

theorem Match.Moved.span (moved : m.Moved n y m') : m'.span = m.span.moved n := by
  simp only [Match.span, Cursor.spanTo, Span.moved, moved.start, moved.stop]

theorem Like.lookup {h : Groups} (like : Like 0 n g h) (label : String) :
    (g.lookup label = none ∧ h.lookup label = none) ∨
      ∃ c d, g.lookup label = some c ∧ h.lookup label = some d ∧ c.1.upTo c.2 = d.1.upTo d.2 ∧
        d.1.offset = c.1.offset + n ∧ d.2.offset = c.2.offset + n := by
  induction like with
  | nil => exact .inl ⟨rfl, rfl⟩
  | @cons c d _ _ same _ ih =>
    obtain ⟨name, c⟩ := c
    obtain ⟨_, d⟩ := d
    obtain ⟨rfl, text, start, stop⟩ := same
    rw [List.lookup_cons, List.lookup_cons]
    cases here : label == name with
    | true => exact .inr ⟨c, d, rfl, rfl, text, start.symm, stop.symm⟩
    | false => exact ih

theorem Like.reads (like : Like 0 n m.groups m'.groups) : m.Reads n m' := by
  constructor
  · intro label
    rcases like.lookup label with ⟨here, there⟩ | ⟨c, d, here, there, same, _, _⟩
    · simp [Match.textOf?, here, there]
    · simp [Match.textOf?, here, there, same]
  · intro label
    rcases like.lookup label with ⟨here, there⟩ | ⟨c, d, here, there, _, start, stop⟩
    · simp [Match.spanOf?, here, there]
    · simp [Match.spanOf?, here, there, Cursor.spanTo, Span.moved, start, stop]

end Pattern
end Registrar
