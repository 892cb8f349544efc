import Registrar.Proofs.Registry.Lacking
import Registrar.Proofs.Registry.Used

/-!
Imports that have been pruned. An import from which a class is taken out is written again with the
names that stay; it is read as an import of just these names, so it does not bind the class any more.
-/

namespace Registrar

open Pattern Text Recognition

/-! ### Names written again -/

namespace Text

variable {t front back : Text}

/-- Neither the first nor the last character is white space. -/
structure Trimmed (t : Text) : Prop where
  head : ∀ c, t.head? = some c → Letter.isBlank c = false
  last : ∀ c, t.getLast? = some c → Letter.isBlank c = false

theorem trimmed_trim (t : Text) : Trimmed (trim t) := by
  have first : ∀ c, (trimFront t).head? = some c → Letter.isBlank c = false := by
    intro c head
    have stop := List.head?_dropWhile_not Letter.isBlank t
    rw [trimFront] at head
    rwa [head] at stop
  have last : ∀ c, (trim t).getLast? = some c → Letter.isBlank c = false := by
    intro c head
    have stop := List.head?_dropWhile_not Letter.isBlank (trimFront t).reverse
    rw [trim, trimBack, List.getLast?_reverse] at head
    rwa [head] at stop
  refine ⟨fun c head => ?_, last⟩
  obtain ⟨u, split⟩ : trim t <+: trimFront t := by
    rw [← List.reverse_suffix, trim, trimBack, List.reverse_reverse]
    exact List.dropWhile_suffix _
  refine first c ?_
  rw [← split]
  cases trimmed : trim t with
  | nil => simp [trimmed] at head
  | cons x rest => simpa [trimmed] using head

/-- White space around a trimmed text is what trimming takes. -/
theorem Trimmed.trim_append (trimmed : Trimmed t) (some_ : t ≠ [])
    (before_ : ∀ c ∈ front, Letter.isBlank c = true) (after_ : ∀ c ∈ back, Letter.isBlank c = true) :
    trim (front ++ t ++ back) = t := by
  have first : trimFront (front ++ t ++ back) = t ++ back := by
    rw [trimFront, List.append_assoc, List.dropWhile_append_of_pos before_]
    cases t with
    | nil => exact absurd rfl some_
    | cons x t => rw [List.cons_append, List.dropWhile_cons_of_neg (by simp [trimmed.head x rfl])]
  have last : ∀ c ∈ back.reverse, Letter.isBlank c = true := by
    intro c member
    exact after_ c (by simpa using member)
  rw [trim, first, trimBack, List.reverse_append, List.dropWhile_append_of_pos last]
  cases list : t.reverse with
  | nil => exact absurd (List.reverse_eq_nil_iff.mp list) some_
  | cons y rest =>
    have ends_ : t.getLast? = some y := by rw [← List.head?_reverse, list, List.head?_cons]
    rw [List.dropWhile_cons_of_neg (by simp [trimmed.last y ends_]), ← list, List.reverse_reverse]

end Text

namespace Zones

variable {inner : Text} {raws : List Text} {b : Binding}

/-- An entry as it stands between braces. -/
structure IsEntry (raw : Text) : Prop where
  some_ : raw ≠ []
  whole : ',' ∉ raw
  trimmed : Text.Trimmed raw

/-- Entries that are written between braces are read back. -/
theorem bindings_join (entries : ∀ raw ∈ raws, IsEntry raw) :
    bindings (braced (Text.join ", ".toList raws)) = raws.map binding := by
  have comma : ∀ {raw : Text}, ',' ∉ raw → ∀ c ∈ raw, (c == ',') = false := by
    intro raw whole c member
    rw [beq_eq_false_iff_ne]
    rintro rfl
    exact whole member
  have trim_ : ∀ {raw : Text}, IsEntry raw → ∀ back, (∀ c ∈ back, Letter.isBlank c = true) →
      Text.trim (' ' :: raw ++ back) = raw := by
    intro raw entry back blank
    have before_ : ∀ c ∈ [' '], Letter.isBlank c = true := by simp [Letter.isBlank]
    exact entry.trimmed.trim_append entry.some_ before_ blank
  have pieces : raws ≠ [] → (splitOn (· == ',') (braced (Text.join ", ".toList raws))).map Text.trim = raws := by
    induction raws with
    | nil => exact fun none_ => absurd rfl none_
    | cons raw rest ih =>
      obtain ⟨entry, others⟩ := List.forall_mem_cons.mp entries
      intro _
      cases rest with
      | nil =>
        have free : ∀ c ∈ braced raw, (c == ',') = false := by
          have whole : ',' ∉ braced raw := by simp [braced, entry.whole]
          exact comma whole
        have one : Text.join ", ".toList [raw] = raw := by simp [Text.join]
        rw [one, splitOn_eq_singleton free, List.map_singleton, braced,
          trim_ entry [' '] (by simp [Letter.isBlank])]
      | cons raw' rest =>
        have split : braced (Text.join ", ".toList (raw :: raw' :: rest)) =
            (' ' :: raw) ++ ',' :: braced (Text.join ", ".toList (raw' :: rest)) := by
          simp [braced, Text.join, List.intercalate_cons_cons]
        have free : ∀ c ∈ ' ' :: raw, (c == ',') = false := by
          have whole : ',' ∉ ' ' :: raw := by simp [entry.whole]
          exact comma whole
        have here : Text.trim (' ' :: raw) = raw := by simpa using trim_ entry [] (by simp)
        rw [split, splitOn_append_cons (by simp), splitOn_eq_singleton free, List.map_append,
          List.map_singleton, here, ih others (by simp)]
        rfl
  by_cases none_ : raws = []
  · subst none_
    decide
  · rw [bindings, pieces none_, List.filter_eq_self.mpr fun raw member => ?_]
    simpa using (entries raw member).some_

/-- What is read between braces has been written there as an entry. -/
theorem exists_entry (member : b ∈ bindings inner) : IsEntry b.raw.toList ∧ binding b.raw.toList = b := by
  obtain ⟨raw, kept, rfl⟩ := List.mem_map.mp member
  obtain ⟨inside, some_⟩ := List.mem_filter.mp kept
  obtain ⟨piece, split, rfl⟩ := List.mem_map.mp inside
  have raw_ : (binding (Text.trim piece)).raw.toList = Text.trim piece := by simp [binding]
  rw [raw_]
  refine ⟨⟨by simpa using some_, fun member => ?_, trimmed_trim piece⟩, rfl⟩
  have piece_ : ',' ∈ piece := by
    rw [trim, trimBack, List.mem_reverse] at member
    have front := (List.dropWhile_suffix _).subset member
    rw [List.mem_reverse] at front
    exact (List.dropWhile_suffix _).subset front
  simpa using not_mem_of_mem_splitOn split ',' piece_

/-- Some of the entries in braces, written again, are read as just these. -/
theorem bindings_of_kept (keep : Binding → Bool) (inner : Text) :
    bindings (braced (Text.join ", ".toList (((bindings inner).filter keep).map (·.raw.toList)))) =
      (bindings inner).filter keep := by
  rw [bindings_join, List.map_map]
  · refine (List.map_congr_left fun b member => ?_).trans (List.map_id _)
    exact (exists_entry (List.mem_of_mem_filter member)).2
  · intro raw member
    obtain ⟨b, kept, rfl⟩ := List.mem_map.mp member
    exact (exists_entry (List.mem_of_mem_filter kept)).1

end Zones

/-! ### The default name -/

namespace Recognition

variable {f f' lead z z' y y' : Text} {s s' : Statement} {m m' : Match} {g h : Groups}
  {e : Cursor × Groups}

/-- An import up to the brace that opens its names. -/
def importHead : Pattern := next (all importFront) (char '\x7b')

/-- What follows the brace that opens the names of an import, up to the specifier. -/
def importNames : Pattern := next (group "named" (many true (one (· != '\x7d'))))
  (next (char '\x7d') (next (all importLink) (one isQuote)))

theorem ends_optional_next {p₁ p₂ p₃ q : Pattern} (c : Cursor) (g : Groups) :
    (next (Pattern.optional (all [p₁, p₂, p₃])) q).ends c g =
      (next p₁ (next p₂ (next p₃ q))).ends c g ++ q.ends c g := by
  simp only [Pattern.optional, all, ends, List.flatMap_append, List.flatMap_cons, List.flatMap_nil,
    List.append_nil, List.flatMap_assoc]

/-- Before a brace no import has come to the word before its specifier. -/
theorem ends_importLink_eq_nil (free : ∀ c ∈ lead, isMark c = false) :
    (next (all importLink) (one isQuote)).ends (.between f (lead ++ '\x7b' :: z)) g = [] := by
  refine List.eq_nil_iff_forall_not_mem.mpr fun e member => ?_
  obtain ⟨⟨_, h⟩, first, second⟩ := List.mem_flatMap.mp member
  obtain ⟨link, rest, split, rfl⟩ := mem_ends first
  have linked : IsLink link := isLink_of_reaches ⟨g, h, by rwa [← split]⟩
  obtain ⟨q, rest, rfl, quoted⟩ : ∃ q rest', rest = q :: rest' ∧ isQuote q = true := by
    cases rest with
    | nil => simp [ends] at second
    | cons q rest =>
      rw [ends_one_cons] at second
      split at second
      · next quoted => exact ⟨q, rest, rfl, quoted⟩
      · simp at second
  obtain ⟨-, rfl, -⟩ := cut_eq split free rfl linked.unmarked (isMark_of_isQuote quoted)
  exact absurd quoted (by decide)

/-- An import with names in braces is read up to the first brace, and on from there. -/
theorem ends_importOpening (free : ∀ c ∈ lead, isMark c = false) :
    importOpening.ends (.between f (lead ++ '\x7b' :: z)) g =
      (next importHead importNames).ends (.between f (lead ++ '\x7b' :: z)) g := by
  have parts : (next importHead importNames).ends (.between f (lead ++ '\x7b' :: z)) g =
      ((all importFront).ends (.between f (lead ++ '\x7b' :: z)) g).flatMap fun e =>
        (next (char '\x7b') importNames).ends e.1 e.2 := by
    rw [importHead, ends, ends, List.flatMap_assoc]
    rfl
  rw [parts, importOpening, ends]
  refine List.flatMap_congr fun e member => ?_
  obtain ⟨_, h⟩ := e
  obtain ⟨taken, rest, split, rfl⟩ := mem_ends member
  have unmarked := unmarked_of_reaches ⟨g, h, by rwa [← split]⟩
  -- What has been taken is a part of the words before the brace.
  obtain ⟨lead', rfl, rfl⟩ : ∃ lead', lead = taken ++ lead' ∧ rest = lead' ++ '\x7b' :: z := by
    rcases List.append_eq_append_iff.mp split with ⟨v, rfl, back⟩ | ⟨v, rfl, back⟩
    · cases v with
      | nil => exact ⟨[], by simp, by simpa using back.symm⟩
      | cons c v =>
        obtain ⟨rfl, -⟩ := List.cons.inj back
        exact absurd (unmarked '\x7b' (by simp)) (by decide)
    · exact ⟨v, rfl, back⟩
  have without := ends_importLink_eq_nil (f := f ++ taken) (z := z) (g := h)
    (fun c inside => free c (List.mem_append_right _ inside) : ∀ c ∈ lead', isMark c = false)
  rw [importBraces, ends_optional_next, without, List.append_nil]
  rfl

/-- What follows the brace that opens the names of an import. -/
def importRest : Pattern := next (next importNames importSource) importEnding

theorem ends_importStatement_braced (free : ∀ c ∈ lead, isMark c = false) :
    importStatement.ends (.between f (lead ++ '\x7b' :: z)) [] =
      (importHead.ends (.between f (lead ++ '\x7b' :: z)) []).flatMap fun e => importRest.ends e.1 e.2 := by
  rw [ends_importStatement, ends, ends, ends_importOpening free, ends]
  simp only [List.flatMap_assoc]
  refine List.flatMap_congr fun e _ => ?_
  rw [importRest, ends, ends, List.flatMap_assoc]

/-- The brace that opens the names is the first one. -/
theorem place_of_mem_importHead (free : ∀ c ∈ lead, isMark c = false)
    (member : e ∈ importHead.ends (.between f (lead ++ '\x7b' :: z)) g) :
    e.1 = .between (f ++ lead ++ ['\x7b']) z := by
  obtain ⟨⟨_, h⟩, first, second⟩ := List.mem_flatMap.mp member
  obtain ⟨taken, rest, split, rfl⟩ := mem_ends first
  have unmarked := unmarked_of_reaches ⟨g, h, by rwa [← split]⟩
  obtain ⟨rest, rfl, rfl⟩ := mem_ends_literal (t := ['\x7b']) second
  obtain ⟨rfl, -, rfl⟩ := cut_eq split free rfl unmarked rfl
  rfl

theorem looksBack_importRest : importRest.LooksBack := by
  simp [importRest, importNames, importSource, importEnding, importLink, gap, space, word, lineEnding]

/-- What an import with braces remembers of its default name is what its head does. -/
theorem exists_head (free : ∀ c ∈ lead, isMark c = false)
    (found : importStatement.matchAt? (.between f (lead ++ '\x7b' :: z)) = some m) :
    ∃ e more, importHead.ends (.between f (lead ++ '\x7b' :: z)) [] = e :: more ∧
      m.groups.lookup "default" = e.2.lookup "default" := by
  rw [matchAt?_eq, ends_importStatement_braced free] at found
  obtain ⟨e, first, rfl⟩ := Option.map_eq_some_iff.mp found
  obtain ⟨e₁, head, ended⟩ := List.mem_flatMap.mp (List.mem_of_head? first)
  obtain ⟨e₀, more, all_⟩ := List.exists_cons_of_ne_nil (List.ne_nil_of_mem head)
  refine ⟨e₀, more, all_, ?_⟩
  -- All heads end at the brace, so what follows the first one is an import as well.
  have place₁ := place_of_mem_importHead free head
  have place₀ := place_of_mem_importHead (e := e₀) free (by rw [all_]; exact List.mem_cons_self)
  obtain ⟨taken, rest, rfl, at_⟩ : ∃ taken rest, z = taken ++ rest ∧
      e.1 = .between (f ++ lead ++ ['\x7b'] ++ taken) rest := by
    rw [place₁] at ended
    exact mem_ends ended
  have reached : importRest.Reaches (f ++ lead ++ ['\x7b']) taken rest := by
    refine ⟨e₁.2, e.2, ?_⟩
    rwa [← at_, ← place₁]
  obtain ⟨h', follows⟩ := reached.exists_end looksBack_importRest rfl rest e₀.2
  rw [← place₀] at follows
  rw [all_, List.flatMap_cons, List.head?_append_of_ne_nil _ (List.ne_nil_of_mem follows)] at first
  exact lookup_of_mem_ends (by decide) (List.mem_of_head? first)

/-- The default name hangs on what stands before the brace that opens the names. -/
theorem default_eq (free : ∀ c ∈ lead, isMark c = false) (side : Cursor.edge f.getLast? = none)
    (found : importStatement.matchAt? (.between [] (lead ++ '\x7b' :: z)) = some m)
    (found' : importStatement.matchAt? (.between f (lead ++ '\x7b' :: z')) = some m') :
    m'.textOf? "default" = m.textOf? "default" := by
  obtain ⟨e, more, ends_, named⟩ := exists_head free found
  obtain ⟨e', more', ends_', named'⟩ := exists_head free found'
  have sides : Cursor.edge ([] : Text).getLast? = Cursor.edge f.getLast? := side.symm
  have echoes : importHead.Echoes [] f (lead ++ ['\x7b']) z z' := by
    refine (echoes_bar avoids_importFront sides (by simp) (by rfl : isMark '\x7b' = true)).next ?_
    intro taken rest split reached
    refine echoes_one ?_
    rintro rfl
    have unmarked := unmarked_of_reaches reached '\x7b' (by rw [List.append_nil] at split; simp [← split])
    exact absurd unmarked (by decide)
  have all_ := echoes [] [] .nil
  rw [List.append_assoc, List.append_assoc, List.singleton_append, List.singleton_append, ends_, ends_',
    List.forall₂_cons] at all_
  obtain ⟨⟨_, _, _, _, _, like⟩, -⟩ := all_
  have like' : Like 0 f.size e.2 e'.2 := like_shift like (by simp)
  rcases like'.lookup "default" with ⟨here, there⟩ | ⟨c, d, here, there, same, -⟩
  · simp [Match.textOf?, named, named', here, there]
  · simp [Match.textOf?, named, named', here, there, same]

end Recognition

namespace Recognition

variable {f lead inner link : Text} {quote : Char} {s : Statement}

/-- An import has a line feed only in its names or in its specifier. -/
theorem Statement.Stands.feed_not_mem (stands : s.Stands f)
    (opening : s.opening = .braced lead inner link quote) (names : '\n' ∉ inner)
    (specifier : '\n' ∉ s.specifier) : '\n' ∉ s.text := by
  have standing := stands.opening
  rw [opening] at standing
  obtain ⟨quoted, reached, -, linked⟩ := standing
  have mark : isMark '\n' = true := rfl
  have lead_ : '\n' ∉ lead := fun member => by simpa [mark] using unmarked_of_reaches reached _ member
  have link_ : '\n' ∉ link := fun member => by simpa [mark] using linked.unmarked _ member
  have other : ∀ q, isQuote q = true → '\n' ≠ q := by
    rintro q quoted rfl
    exact absurd quoted (by decide)
  simp [Statement.text, Opening.text, opening, lead_, link_, names, specifier, other _ quoted,
    other _ stands.closing]

theorem IsTail.exists_ending {tail : Text} (isTail : IsTail tail) :
    ∃ u ending, tail = u ++ ending ∧ '\n' ∉ u ∧ (ending = [] ∨ ending = ['\n']) := by
  obtain ⟨u, free, rfl | rfl⟩ := isTail
  · exact ⟨tail, [], by simp, free, .inl rfl⟩
  · exact ⟨u, ['\n'], rfl, free, .inr rfl⟩

/-- An import of names alone has no default name. -/
theorem default_eq_none {z : Text} {m : Match}
    (found : importStatement.matchAt? (.between [] ("import ".toList ++ '\x7b' :: z)) = some m) :
    m.textOf? "default" = none := by
  have some_ : (importStatement.matchAt? (.between [] ("import ".toList ++
      '\x7b' :: "a\x7d from 'a'".toList))).any (·.textOf? "default" == none) = true := by
    decide +kernel
  obtain ⟨m', found', none_⟩ := (Option.any_eq_true _ _).mp some_
  have free : "import ".toList.any isMark = false := by decide
  rw [default_eq (by simpa using free) rfl found' found]
  simpa using none_

end Recognition

theorem Zones.default_of_import? {m : Match} {i : Import} (read : import? m = some i) :
    i.default? = (m.textOf? "default").map String.ofList := by
  rw [import?] at read
  split at read
  · cases read
  · obtain rfl := Option.some.inj read
    rfl

/-! ### A line with an import -/

namespace Recognition

variable {f t rest body ending margin r : Text} {w : String} {q : Pattern} {m : Match}

/-- A pattern that begins with a word takes the word behind a margin. -/
theorem exists_of_reaches_keyworded (reached : (keyworded w q).Reaches f t rest) :
    ∃ margin r, t = margin ++ (w.toList ++ r) ∧ ∀ c ∈ margin, isGap c = true := by
  obtain ⟨t₁, t, rfl, first, reached⟩ := Reaches.exists_of_next (p := lineStart) reached
  obtain ⟨t₂, t, rfl, second, reached⟩ := Reaches.exists_of_next (p := gap) reached
  obtain ⟨t₃, t, rfl, third, -⟩ := Reaches.exists_of_next (p := word w) reached
  obtain ⟨g, h, ended⟩ := first
  have none_ : t₁ = [] := by
    rw [lineStart, ends] at ended
    split at ended
    · have still := congrArg (List.length ∘ Cursor.rest ∘ Prod.fst) (List.mem_singleton.mp ended)
      simp only [Function.comp_apply, Cursor.between_rest, List.length_append] at still
      exact List.length_eq_zero_iff.mp (by omega)
    · simp at ended
  subst none_
  obtain ⟨g, h, ended⟩ := second
  obtain ⟨margin, rest', split, gaps, same⟩ := mem_ends_many_one ended
  obtain rfl : t₃ ++ t ++ rest = rest' := congrArg (Cursor.rest ∘ Prod.fst) same
  obtain rfl := List.append_cancel_right split
  obtain ⟨g, h, ended⟩ := third
  obtain ⟨rest', split, same⟩ := mem_ends_literal ended
  obtain rfl : t ++ rest = rest' := congrArg (Cursor.rest ∘ Prod.fst) same
  obtain rfl := List.append_cancel_right split
  exact ⟨_, t, by simp, gaps⟩

theorem dropWhile_margin (gaps : ∀ c ∈ margin, isGap c = true) (r : Text) :
    (margin ++ ("import".toList ++ r)).dropWhile isGap = "import".toList ++ r := by
  rw [List.dropWhile_append_of_pos gaps]
  rfl

/-- On a line that begins with an import no other word begins a zone. -/
theorem refuses_keyworded_import (gaps : ∀ c ∈ margin, isGap c = true) {c : Char} {cs : Text}
    (word_ : w.toList = c :: cs) (mark : isGap c = false) (other : c ≠ 'i') :
    (keyworded w q).matchAt? (.between f (margin ++ ("import".toList ++ r))) = none := by
  cases found : (keyworded w q).matchAt? (.between f (margin ++ ("import".toList ++ r))) with
  | none => rfl
  | some m =>
    rw [matchAt?_eq] at found
    obtain ⟨⟨_, h⟩, first, -⟩ := Option.map_eq_some_iff.mp found
    have member := List.mem_of_head? first
    obtain ⟨taken, rest, split, rfl⟩ := mem_ends member
    rw [split] at member
    obtain ⟨margin', r', rfl, gaps'⟩ := exists_of_reaches_keyworded ⟨_, _, member⟩
    have dropped := congrArg (List.dropWhile isGap) split
    rw [dropWhile_margin gaps, List.append_assoc, List.dropWhile_append_of_pos gaps', word_] at dropped
    simp only [List.cons_append, List.dropWhile_cons_of_neg (by simpa using mark)] at dropped
    exact absurd (List.cons.inj dropped).1.symm other

/-- A line begins at its front and nowhere else. -/
theorem eq_nil_or_of_atLine (begins : AtLine f) (whole : '\n' ∉ body)
    (ends_ : ending = [] ∨ ending = ['\n']) {back : Text} (split : body ++ ending = f ++ back) :
    f = [] ∨ back = [] := by
  rcases begins with none_ | ⟨u, rfl⟩
  · exact .inl none_
  refine .inr ?_
  rcases ends_ with rfl | rfl
  · rw [List.append_nil] at split
    exact absurd (by simp [split]) whole
  · rcases List.eq_nil_or_concat back with rfl | ⟨v, c, rfl⟩
    · rfl
    · rw [List.concat_eq_append, ← List.append_assoc] at split
      obtain ⟨rfl, -⟩ := List.append_inj' split rfl
      simp at whole

/-- A whole line with an import leaves none open. -/
theorem Statement.Stands.sealed_ {s : Statement} {u : Text} (stands : s.Stands []) (whole : '\n' ∉ s.text ++ u)
    (ends_ : ending = [] ∨ ending = ['\n']) (begins : AtLine (s.text ++ u ++ ending)) :
    Sealed (s.text ++ u ++ ending) := by
  refine sealed_of_not_crosses begins fun a b s' w split some_ stands' crosses => ?_
  obtain rfl := (eq_nil_or_of_atLine stands'.atLine whole ends_ split).resolve_right some_
  obtain ⟨z, r, moved, text, -⟩ := crosses
  obtain rfl : s.text ++ u ++ ending = b := split
  have same : s'.text ++ [] = s.text ++ (u ++ ending ++ z) := by simp [text]
  obtain ⟨-, none_⟩ := Statement.eq_of_append same stands' stands
  have none_ : u = [] ∧ ending = [] ∧ z = [] := by simpa using none_.symm
  exact moved none_.2.2

/-- A match of a pattern that begins where a line does lies at the front of a line. -/
theorem eq_nil_of_found {p : Pattern} (anchored : p.Anchored) (moves_ : p.moves = true) (whole : '\n' ∉ body)
    (ends_ : ending = [] ∨ ending = ['\n']) {back : Text} (split : body ++ ending = f ++ back)
    (found : p.matchAt? (.between f back) = some m) : f = [] := by
  have begins : AtLine f := by
    by_contra inside
    have inside : (Cursor.between f back).startsLine = false := by
      rw [Bool.eq_false_iff]
      exact fun starts => inside (Cursor.startsLine_between_iff.mp starts)
    rw [(anchored f back inside).matchAt?] at found
    cases found
  refine (eq_nil_or_of_atLine begins whole ends_ split).resolve_right ?_
  rintro rfl
  rw [matchAt?_eq_none_of_moves moves_] at found
  cases found

end Recognition

namespace Removal

variable {config : Config} {className : String} {body ending margin r : Text}

/-- A line with an import has nothing else of a class. -/
theorem clean_line (split : body = margin ++ ("import".toList ++ r)) (gaps : ∀ c ∈ margin, isGap c = true)
    (whole : '\n' ∉ body) (ends_ : ending = [] ∨ ending = ['\n'])
    (imports : ∀ m i, importStatement.matchAt? (.between [] (body ++ ending)) = some m →
      Zones.import? m = some i → i.binds className = false) :
    Clean config className (body ++ ending) := by
  have lines : ∀ front line, HasLine (body ++ ending) front line → line = body ∨ line = [] := by
    rintro front line ⟨begins, back, here, rfl⟩
    rcases eq_nil_or_of_atLine begins whole ends_ here with rfl | rfl
    · obtain rfl : body ++ ending = back := here
      refine .inl ?_
      rw [Text.line_append whole]
      rcases ends_ with rfl | rfl <;> simp [Text.line]
    · exact .inr rfl
  refine ⟨⟨fun i member => ?_, fun x member => ?_, fun front line here => ?_, fun front line here => ?_⟩, ?_⟩
  · obtain ⟨m, inside, read⟩ := List.mem_filterMap.mp member
    obtain ⟨front, back, here, found⟩ := exists_of_mem_findAll inside
    obtain rfl := eq_nil_of_found (anchored_lineStart _) rfl whole ends_ here found
    obtain rfl : body ++ ending = back := here
    exact imports m i found read
  · obtain ⟨m, inside, rfl⟩ := List.mem_map.mp member
    obtain ⟨front, back, here, found⟩ := exists_of_mem_findAll inside
    obtain rfl := eq_nil_of_found (anchored_lineStart _) rfl whole ends_ here found
    obtain rfl : body ++ ending = back := here
    rw [split, List.append_assoc, List.append_assoc] at found
    have refused : fieldDeclaration.matchAt? (.between [] (margin ++ ("import".toList ++ (r ++ ending)))) = none :=
      refuses_keyworded_import (w := "private") gaps rfl rfl (by decide)
    rw [refused] at found
    cases found
  · rcases lines front line here with rfl | rfl
    · rw [opensMethod, split, dropWhile_margin gaps]
      simp [behind?, Text.dropFront?, Text.beginsWith]
    · exact opensMethod_nil _
  · rcases lines front line here with rfl | rfl
    · have other : behind? "export" line = none := by
        rw [split]
        cases margin with
        | nil => simp [behind?, Text.dropFront?, Text.beginsWith]
        | cons c margin =>
          have gapped := gaps c (by simp)
          have mark : c ≠ 'e' := by
            rintro rfl
            exact absurd gapped (by decide)
          simp [behind?, Text.dropFront?, Text.beginsWith, mark.symm]
      simp [opensExport, exported?, other]
    · exact opensExport_nil _
  · intro front margin' back here begins gaps'
    rcases eq_nil_or_of_atLine begins whole ends_ here with rfl | none_
    · exact sealed_nil
    · simp at none_

/-- An import with names in braces that stands on a line of its own, and what follows it there. -/
structure Stated (lead inner link : Text) (quote : Char) (s : Statement) (u ending : Text) : Prop where
  stands : s.Stands []
  opening : s.opening = .braced lead inner link quote
  whole : '\n' ∉ s.text ++ u
  ends_ : ending = [] ∨ ending = ['\n']

namespace Stated

variable {lead inner link u ending : Text} {quote : Char} {s : Statement}

theorem text_eq (stated : Stated lead inner link quote s u ending) : ∃ z,
    s.text ++ u ++ ending = lead ++ '\x7b' :: z := by
  simp [Statement.text, stated.opening, Opening.text]

/-- A line with an import that does not bind a class has no part of it. -/
theorem clean (stated : Stated lead inner link quote s u ending)
    (names : ∀ b ∈ Zones.bindings inner, (b.imported == className || b.bound == className) = false)
    (default_ : ∀ m, importStatement.matchAt? (.between [] (s.text ++ u ++ ending)) = some m →
      m.textOf? "default" ≠ some className.toList) :
    Clean config className (s.text ++ u ++ ending) := by
  have standing := stated.stands.opening
  rw [stated.opening] at standing
  obtain ⟨margin, r, lead_eq, gaps⟩ := exists_of_reaches_keyworded (w := "import") standing.2.1
  have split : s.text ++ u = margin ++ ("import".toList ++ (r ++ '\x7b' :: (inner ++ '\x7d' :: (link ++
      quote :: (s.specifier ++ s.closing :: u))))) := by
    simp [Statement.text, stated.opening, Opening.text, lead_eq]
  refine clean_line split gaps stated.whole stated.ends_ fun m i found read => ?_
  -- The import that is found is the one that stands there.
  obtain ⟨s', y, split, stands', named, -⟩ := exists_statement_of_match found
  rw [List.append_assoc] at split
  obtain ⟨rfl, -⟩ := Statement.eq_of_append split stated.stands stands'
  rw [stated.opening] at named
  obtain ⟨c, known, encloses, -⟩ := named
  have named_ : m.textOf? "named" = some inner := by simp [Match.textOf?, known, encloses.upTo]
  have other := default_ m found
  simp only [Zones.import?, named_] at read
  split at read
  · cases read
  obtain rfl := Option.some.inj read
  simp only [Import.binds, Option.map_some, Option.getD_some, Bool.or_eq_false_iff, List.any_eq_false]
  refine ⟨?_, fun b member => by simpa using names b member⟩
  rw [beq_eq_false_iff_ne]
  intro same
  obtain ⟨d, has, rfl⟩ := Option.map_eq_some_iff.mp same
  exact other (by simp [has])

end Stated

/-! ### The edit of an import -/

/-- An edit that replaces all of a span in a text, and by a text that has no part of a class. -/
def Replaces (config : Config) (className : String) (t : Text) (s : Span) (e : Edit) : Prop :=
  ∃ x old y new, t = x ++ (old ++ y) ∧ s = ⟨x.size, Text.size (x ++ old)⟩ ∧ old ≠ [] ∧
    s.start ≤ e.start ∧ e.start < s.stop ∧ (∀ z, e.apply (x ++ (old ++ z)) = x ++ (new ++ z)) ∧
    Clean config className new ∧ (AtLine (x ++ old) → Sealed new)

theorem clean_nil : Clean config className [] := by
  have none_ : (Zones.ofText []).imports = [] ∧ (Zones.ofText []).fields = [] := by decide
  have empty : ∀ front line, HasLine [] front line → line = [] := by
    rintro front line ⟨-, back, split, rfl⟩
    obtain ⟨rfl, rfl⟩ := List.append_eq_nil_iff.mp split.symm
    rfl
  refine ⟨⟨by simp [none_], by simp [none_], fun front line here => ?_, fun front line here => ?_⟩,
    fun front margin back split _ _ => by simp at split⟩
  · rw [empty front line here, opensMethod_nil]
  · rw [empty front line here, opensExport_nil]

theorem replaces_delete {x old y : Text} (some_ : old ≠ []) :
    Replaces config className (x ++ (old ++ y)) ⟨x.size, Text.size (x ++ old)⟩
      (.delete ⟨x.size, Text.size (x ++ old)⟩) := by
  refine ⟨x, old, y, [], rfl, rfl, some_, Nat.le_refl _, ?_, fun z => ?_, clean_nil, fun _ => sealed_nil⟩
  · have := Text.size_pos some_
    simp only [Edit.delete, Text.size_append]
    omega
  · have middle := Edit.apply_middle x old z []
    rw [← Text.size_append] at middle
    simpa [Edit.delete] using middle

variable {t x tail rest : Text} {i : Import} {others : List Import} {s : Statement}

/-- The names of an import that stay when a class is taken out. -/
def stays (className : String) (b : Binding) : Bool :=
  !(b.imported == className) && !(b.bound == className)

/-- The names that stay, as they stand between braces. -/
def staying (className : String) (bindings : List Binding) : Text :=
  Text.join ", ".toList ((bindings.filter (stays className)).map (·.raw.toList))

theorem not_mem_staying {bindings : List Binding} {c : Char} (other : c ∉ ", ".toList)
    (absent : ∀ b ∈ bindings, c ∉ b.raw.toList) : c ∉ staying className bindings := by
  intro member
  rcases mem_of_mem_join member with inside | ⟨raw, among, inside⟩
  · exact other inside
  · obtain ⟨b, kept, rfl⟩ := List.mem_map.mp among
    exact absent b (List.mem_of_mem_filter kept) inside

/-- The edit of an import that binds a class: all of it is deleted, or the names that stay are written into
the braces, or they are written again without the default name. -/
theorem pruneImport?_of_binds (binds : i.binds className = true)
    (spanned : i.bindings ≠ [] → ∃ span, i.bindingsSpan = some span) :
    pruneImport? t [className] i = some (.delete i.span) ∨
      (i.default? ≠ some className ∧ ∃ span, i.bindingsSpan = some span ∧
        pruneImport? t [className] i = some (.replace span (braced (staying className i.bindings)))) ∨
      (i.default? = some className ∧ i.bindings.filter (stays className) ≠ [] ∧
        pruneImport? t [className] i = some (.replace i.span
          (statement none (staying className i.bindings) i.specifier ++
            if (t.slice i.span).finishesWith ['\n'] then ['\n'] else []))) := by
  have contains : ∀ name, [className].contains name = (name == className) :=
    fun name => by rw [List.contains_cons, List.contains_nil, Bool.or_false]
  have kept : (i.bindings.filter fun b => !(b.imported == className) && !(b.bound == className)) =
      i.bindings.filter (stays className) := rfl
  unfold pruneImport?
  simp only [contains, kept]
  by_cases default_ : i.default? = some className
  · by_cases none_ : i.bindings.filter (stays className) = []
    · exact .inl (by simp [none_, default_])
    · refine .inr (.inr ⟨default_, none_, ?_⟩)
      simp [none_, default_, staying, -List.filter_eq_nil_iff]
  · have unhit : (i.default?.any fun name => name == className) = false := by
      cases named : i.default? with
      | none => rfl
      | some d => simpa [named] using default_
    have fewer : ((i.bindings.filter (stays className)).length == i.bindings.length) = false := by
      rw [beq_eq_false_iff_ne]
      intro same
      have all_ := List.filter_eq_self.mp (List.filter_sublist.eq_of_length same)
      rw [Import.binds, Bool.or_eq_true, List.any_eq_true] at binds
      obtain ⟨b, member, hit⟩ := binds.resolve_left (by simpa using default_)
      have stay := all_ b member
      simp only [stays, Bool.and_eq_true, Bool.not_eq_true', Bool.or_eq_true] at stay hit
      simp [stay] at hit
    obtain ⟨span, spanned⟩ := spanned (by
      rintro none_
      simp [none_] at fewer)
    simp only [unhit, fewer, spanned]
    by_cases none_ : i.bindings.filter (stays className) = [] ∧ i.default? = none
    · exact .inl (by simp [none_])
    · refine .inr (.inl ⟨default_, span, rfl, ?_⟩)
      have some_ : ((i.bindings.filter (stays className)).isEmpty &&
          (i.default?.filter fun _ => !false).isNone) = false := by
        rw [Bool.eq_false_iff]
        simpa [-List.filter_eq_nil_iff] using none_
      simp only [some_]
      rfl

/-- The names that stay do not name the class. -/
theorem not_hit_of_staying {inner : Text} :
    ∀ b ∈ Zones.bindings (braced (staying className (Zones.bindings inner))),
      (b.imported == className || b.bound == className) = false := by
  intro b member
  rw [staying, Zones.bindings_of_kept] at member
  have stay := (List.mem_filter.mp member).2
  simp only [stays, Bool.and_eq_true, Bool.not_eq_true'] at stay
  simp [stay]

theorem not_mem_braced {t : Text} {c : Char} (other : c ≠ ' ') (free : c ∉ t) : c ∉ braced t := by
  simp [braced, other, free]

/-- The other names are written into the braces. -/
theorem replaces_braces {lead inner link : Text} {quote : Char} (at_ : i.StandsIn t others x s tail rest)
    (opening : s.opening = .braced lead inner link quote) (specifier : '\n' ∉ i.specifier.toList)
    (names : ∀ b ∈ i.bindings, '\n' ∉ b.raw.toList) (other : i.default? ≠ some className) :
    Replaces config className t i.span (.replace ⟨Text.size (x ++ lead ++ ['\x7b']),
      Text.size (x ++ lead ++ ['\x7b']) + inner.size⟩ (braced (staying className i.bindings))) := by
  have text := at_.text
  have bindings := (at_.braced opening).1
  have standing := at_.stands.opening
  rw [opening] at standing
  obtain ⟨quoted, reached, closed, linked⟩ := standing
  obtain ⟨u, ending, rfl, free, ends_⟩ := at_.isTail.exists_ending
  have lead_ := unmarked_of_reaches reached
  -- The import with the other names.
  let s' : Statement := ⟨.braced lead (braced (staying className i.bindings)) link quote, s.specifier, s.closing⟩
  have stands : s'.Stands x := by
    refine ⟨⟨quoted, reached, not_mem_braced (by decide) (not_mem_staying (by decide) ?_), linked⟩,
      at_.stands.some_, at_.stands.unquoted, at_.stands.closing⟩
    exact fun b member inside => closed (Zones.mem_of_mem_raw (bindings ▸ member) inside)
  have whole : '\n' ∉ s'.text := stands.feed_not_mem rfl
    (not_mem_braced (by decide) (not_mem_staying (by decide) names)) (at_.specifier ▸ specifier)
  have side := at_.stands.atLine
  have stated : Stated lead (braced (staying className i.bindings)) link quote s' u ending :=
    ⟨stands.elsewhere side.edge_eq, rfl, by simp [whole, free], ends_⟩
  have old : s.text ++ (u ++ ending) = lead ++ '\x7b' ::
      (inner ++ '\x7d' :: (link ++ quote :: (s.specifier ++ s.closing :: (u ++ ending)))) := by
    simp [Statement.text, opening, Opening.text]
  have new_ : s'.text ++ u ++ ending = lead ++ '\x7b' :: (braced (staying className i.bindings) ++
      '\x7d' :: (link ++ quote :: (s.specifier ++ s.closing :: (u ++ ending)))) := by
    simp [s', Statement.text, Opening.text]
  have span : i.span = ⟨x.size, Text.size (x ++ (s.text ++ (u ++ ending)))⟩ := by
    rw [at_.span, List.append_assoc]
  refine ⟨x, s.text ++ (u ++ ending), rest, s'.text ++ u ++ ending, by simp [text], span, by
    simp [Statement.text], ?_, ?_, fun z => ?_, stated.clean ?_ ?_,
    fun whole => stated.stands.sealed_ stated.whole stated.ends_ ?_⟩
  · simp only [span, Edit.replace, Text.size_append]
    omega
  · rw [span, old]
    simp only [Edit.replace, Text.size_append, Text.size_cons, Text.size_nil]
    have := Char.utf8Size_pos '\x7d'
    omega
  · have middle := Edit.apply_middle (x ++ lead ++ ['\x7b']) inner
      ('\x7d' :: (link ++ quote :: (s.specifier ++ s.closing :: (u ++ ending))) ++ z)
      (braced (staying className i.bindings))
    rw [old, new_]
    simpa [Edit.replace] using middle
  · rw [bindings]
    exact not_hit_of_staying
  · intro m found
    obtain ⟨ms, m', -, -, found', read, -⟩ := at_.exists_match
    have line : s.text ++ ((u ++ ending) ++ rest) = lead ++ '\x7b' ::
        (inner ++ '\x7d' :: (link ++ quote :: (s.specifier ++ s.closing :: (u ++ ending))) ++ rest) := by
      rw [← List.append_assoc, old]
      simp
    rw [new_] at found
    rw [line] at found'
    rw [← default_eq lead_ side.edge_eq found found']
    intro same
    refine other ?_
    rw [Zones.default_of_import? read, same]
    simp
  · have behind : AtLine (x ++ s.text ++ (u ++ ending)) := by simpa using whole
    have some_ := at_.stands.ne_nil_of_atLine behind
    rw [List.append_assoc]
    rcases (behind.of_append some_).resolve_left some_ with ⟨v, split⟩
    exact .inr ⟨s'.text ++ v, by rw [split, List.append_assoc]⟩

theorem statement_eq (names : Text) (specifier : String) : statement none names specifier =
    (importPieces names specifier.toList).text ++ [';'] := by
  have opening : "\x7b ".toList = ['\x7b', ' '] := by simp
  have closing : " \x7d".toList = [' ', '\x7d'] := by simp
  have link : " from '".toList = " from ".toList ++ ['\''] := by simp
  have ends_ : "';".toList = ['\'', ';'] := by simp
  unfold statement importPieces Statement.text Opening.text braced
  dsimp only
  rw [opening, closing, link, ends_]
  generalize "import ".toList = lead
  generalize " from ".toList = words
  simp

/-- The other names are written again without the default name. -/
theorem replaces_statement {lead inner link : Text} {quote : Char} (at_ : i.StandsIn t others x s tail rest)
    (opening : s.opening = .braced lead inner link quote) (specifier : '\n' ∉ i.specifier.toList)
    (names : ∀ b ∈ i.bindings, '\n' ∉ b.raw.toList) :
    Replaces config className t i.span (.replace i.span
      (statement none (staying className i.bindings) i.specifier ++
        if (t.slice i.span).finishesWith ['\n'] then ['\n'] else [])) := by
  have text : t = x ++ ((s.text ++ tail) ++ rest) := by simp [at_.text]
  have span : i.span = ⟨x.size, Text.size (x ++ (s.text ++ tail))⟩ := by rw [at_.span, List.append_assoc]
  have some_ : s.text ++ tail ≠ [] := by simp [Statement.text]
  have bindings := (at_.braced opening).1
  have standing := at_.stands.opening
  rw [opening] at standing
  obtain ⟨-, -, closed, -⟩ := standing
  have stands : (importPieces (staying className i.bindings) i.specifier.toList).Stands [] := by
    refine stands_importPieces atLine_nil (not_mem_staying (by decide) ?_)
      (at_.specifier ▸ at_.stands.some_) (at_.specifier ▸ at_.stands.unquoted)
    exact fun b member inside => closed (Zones.mem_of_mem_raw (bindings ▸ member) inside)
  have whole : '\n' ∉ (importPieces (staying className i.bindings) i.specifier.toList).text :=
    stands.feed_not_mem rfl (not_mem_braced (by decide) (not_mem_staying (by decide) names)) specifier
  rw [statement_eq, text, span, slice_middle]
  generalize ending_ : (if (s.text ++ tail).finishesWith ['\n'] then ['\n'] else []) = ending
  have ends_ : ending = [] ∨ ending = ['\n'] := by
    subst ending_
    split
    · exact .inr rfl
    · exact .inl rfl
  have stated : Stated "import ".toList (braced (staying className i.bindings)) " from ".toList '\''
      (importPieces (staying className i.bindings) i.specifier.toList) [';'] ending :=
    ⟨stands, rfl, by simp [whole], ends_⟩
  refine ⟨x, s.text ++ tail, rest, _, rfl, rfl, some_, Nat.le_refl _, ?_, fun z => ?_, stated.clean ?_ ?_,
    fun behind => stated.stands.sealed_ stated.whole stated.ends_ ?_⟩
  · have := Text.size_pos some_
    simp only [Edit.replace, Text.size_append] at this ⊢
    omega
  · have middle := Edit.apply_middle x (s.text ++ tail) z
      ((importPieces (staying className i.bindings) i.specifier.toList).text ++ [';'] ++ ending)
    rw [← Text.size_append] at middle
    simpa [Edit.replace] using middle
  · rw [bindings]
    exact not_hit_of_staying
  · intro m found
    obtain ⟨z, line⟩ := stated.text_eq
    rw [line] at found
    rw [default_eq_none found]
    simp
  · -- The line feed at the end of the old import is written again.
    have behind := behind.of_append some_
    obtain ⟨v, split⟩ := behind.resolve_left some_
    have feed : (s.text ++ tail).finishesWith ['\n'] = true :=
      List.isSuffixOf_iff_suffix.mpr ⟨v, split.symm⟩
    rw [← ending_, if_pos feed]
    exact .inr ⟨_, rfl⟩

/-- An import that binds a class is deleted, or replaced by one that does not. Nothing of it is on several
lines but the space between its names. -/
theorem exists_replaces_prune (at_ : i.StandsIn t others x s tail rest) (binds : i.binds className = true)
    (specifier : '\n' ∉ i.specifier.toList) (names : ∀ b ∈ i.bindings, '\n' ∉ b.raw.toList) :
    ∃ e, pruneImport? t [className] i = some e ∧ Replaces config className t i.span e := by
  have spanned : i.bindings ≠ [] → ∃ lead inner link quote, s.opening = .braced lead inner link quote := by
    intro some_
    cases opening : s.opening with
    | plain words quote => exact absurd (at_.plain opening).1 some_
    | braced lead inner link quote => exact ⟨lead, inner, link, quote, rfl⟩
  have spans : i.bindings ≠ [] → ∃ span, i.bindingsSpan = some span := by
    intro some_
    obtain ⟨lead, inner, link, quote, opening⟩ := spanned some_
    exact ⟨_, (at_.braced opening).2⟩
  rcases pruneImport?_of_binds (t := t) binds spans with edit | ⟨other, span, here, edit⟩ |
    ⟨default_, kept, edit⟩
  · refine ⟨_, edit, ?_⟩
    have deleted : Replaces config className (x ++ ((s.text ++ tail) ++ rest)) _ _ :=
      replaces_delete (by simp [Statement.text])
    have text : t = x ++ ((s.text ++ tail) ++ rest) := by simp [at_.text]
    rw [at_.span, List.append_assoc, text]
    exact deleted
  · refine ⟨_, edit, ?_⟩
    cases opening : s.opening with
    | plain words quote => simp [(at_.plain opening).2] at here
    | braced lead inner link quote =>
      obtain rfl := Option.some.inj ((at_.braced opening).2 ▸ here)
      exact replaces_braces at_ opening specifier names other
  · refine ⟨_, edit, ?_⟩
    obtain ⟨lead, inner, link, quote, opening⟩ := spanned fun none_ => kept (by simp [none_])
    exact replaces_statement at_ opening specifier names

end Removal
end Registrar
