import Registrar.Proofs.Registry.Admission
import Registrar.Proofs.Registry.Without

/-!
A registry file as a roster. What additions and removals do to the text of a registry is what they
do to a list of helpers: an addition appends those it admits, in the order of the candidates, and a
removal takes out those it names and keeps the others in order. From the template on, the text
stays the layout of that list.
-/

namespace Registrar

/-- A registry file: the settings and the class it is generated with, and where it lies. -/
structure Site where
  frame : Frame
  root : Path
  path : Path

/-- What is asked of a registry file: plain settings, relative imports, and a path from the top. -/
structure Site.Plain (s : Site) : Prop where
  frame : s.frame.Plain
  relative : s.frame.config.importStyle = .relative
  absolute : s.path.isAbsolute = true

/-- A change of a registry. -/
inductive Change where
  | add (candidates : List Candidate)
  | remove (classes : List String)

namespace Site

/-! ### Texts -/

/-- The registry with a text. -/
def host (s : Site) (t : Text) : Host := ⟨s.frame.config, s.root, s.path, t⟩

/-- The text after a change; it stays as it is if there is no new one. -/
def change (s : Site) (t : Text) : Change → Text
  | .add candidates => ((s.host t).add candidates).2.getD t
  | .remove classes => (Removal.remove s.frame.config t classes).2.getD t

/-- The text after changes to the template. -/
def textAfter (s : Site) (changes : List Change) : Text :=
  changes.foldl s.change (Source.registry s.frame.config s.frame.name).toList

/-! ### Rosters -/

/-- The helper that a candidate offers: the class it declares, unless it is a registry or uses its
own accessor. -/
def offered? (s : Site) (c : Candidate) : Option Listing :=
  c.text?.bind fun text =>
    if c.isHost || Recognition.isRegistry text then none
    else
      (Recognition.className? text).bind fun className =>
        if importsOwnAccessor s.frame.config s.root s.path c.file text
            (Naming.accessor className) then none
        else some ⟨className, Specifier.of s.frame.config s.root s.path c.file⟩

/-- The helpers that are admitted to a roster: each that is offered and not refused by those before
it. -/
def admitted (s : Site) (ls : List Listing) : List Candidate → List Listing
  | [] => []
  | c :: rest =>
    match s.offered? c with
    | none => admitted s ls rest
    | some l =>
      if Listed.Refuses s.frame ls l.className then admitted s ls rest
      else l :: admitted s (ls ++ [l]) rest

/-- The roster after a change. -/
def update (s : Site) (ls : List Listing) : Change → List Listing
  | .add candidates => ls ++ s.admitted ls candidates
  | .remove classes => ls.filter (·.className ∉ classes)

/-- The roster after changes to the empty one. -/
def rosterAfter (s : Site) (changes : List Change) : List Listing := changes.foldl s.update []

/-! ### Changes that are considered -/

/-- The class that a file declares is an ordinary name, and the specifier of the file can be
quoted. -/
def Fits (s : Site) (c : Candidate) : Prop :=
  ∀ t className, c.text? = some t → Recognition.className? t = some className →
    isClassName className.toList = true ∧
      ∀ x ∈ (Specifier.of s.frame.config s.root s.path c.file).toList,
        Recognition.isQuote x = false ∧ x ≠ '\n'

/-- A change is considered if its candidates fit, and if it removes registered classes, each of them
once. -/
def Allows (s : Site) (ls : List Listing) : Change → Prop
  | .add candidates => ∀ c ∈ candidates, s.Fits c
  | .remove classes => classes.Nodup ∧ ∀ c ∈ classes, c ∈ ls.map (·.className)

/-- Each of the changes is considered when it is made. -/
def AllowsAll (s : Site) : List Listing → List Change → Prop
  | _, [] => True
  | ls, c :: rest => s.Allows ls c ∧ AllowsAll s (s.update ls c) rest

/-! ### Additions -/

variable {s : Site} {ls : List Listing} {t : Text}

theorem listed_nil (f : Frame) : Listed f [] where
  named := by simp
  specified := by simp
  distinct := by simp
  type := by simp
  field := by simp
  own := by simp

/-- What is offered is the class that the file declares and the specifier of the file. -/
theorem exists_of_offered? {c : Candidate} {l : Listing} (offered : s.offered? c = some l) :
    ∃ text, c.text? = some text ∧ Recognition.className? text = some l.className ∧
      l.specifier = Specifier.of s.frame.config s.root s.path c.file := by
  obtain ⟨text, read, offered⟩ := Option.bind_eq_some_iff.mp offered
  split at offered
  · simp at offered
  · obtain ⟨className, declared, offered⟩ := Option.bind_eq_some_iff.mp offered
    split at offered
    · simp at offered
    · obtain rfl := Option.some.inj offered
      exact ⟨text, read, declared, rfl⟩

/-- What is offered can be listed. -/
theorem Fits.offered (plain : s.Plain) {c : Candidate} (fits : s.Fits c) {l : Listing}
    (offered : s.offered? c = some l) :
    isClassName l.className.toList = true ∧ IsSpecifier l.specifier := by
  obtain ⟨text, read, declared, specifier⟩ := exists_of_offered? offered
  obtain ⟨named, quotable⟩ := fits text l.className read declared
  rw [specifier]
  exact ⟨named, isSpecifier_of plain.relative plain.absolute quotable⟩

/-- A helper that declares a class with an ordinary name, in a file that can be quoted, fits. -/
theorem fits_of_declared {s : Site} {c : Candidate} {t : Text} {className : String}
    (text : c.text? = some t) (declared : Recognition.className? t = some className)
    (named : isClassName className.toList = true)
    (quotable : (Specifier.of s.frame.config s.root s.path c.file).toList.all
      (fun x => !Recognition.isQuote x && x != '\n') = true) : s.Fits c := by
  intro t' className' text' declared'
  obtain rfl := Option.some.inj (text.symm.trans text')
  obtain rfl := Option.some.inj (declared.symm.trans declared')
  exact ⟨named, fun x member => by simpa using List.all_eq_true.mp quotable x member⟩

/-- A candidate is judged as the roster has it. -/
theorem judge_eq (plain : s.Plain) (listed : Listed s.frame ls)
    (text : t = (Layout.ofListings ls).text s.frame) {old : List Listing}
    (olds : ∀ o ∈ old, isClassName o.className.toList = true) {c : Candidate} (fits : s.Fits c) :
    ((s.host t).judge (s.host t).zones (old.map s.frame.entry) c).toOption =
      ((s.offered? c).filter fun l => !decide (Listed.Refuses s.frame (ls ++ old) l.className)).map
        s.frame.entry := by
  cases read : c.text? with
  | none => simp [Host.judge, offered?, read, Except.toOption]
  | some helper =>
    by_cases registry : (c.isHost || Recognition.isRegistry helper) = true
    · simp only [Host.judge, offered?, read, registry, if_true, Option.bind_some]
      rfl
    · cases declared : Recognition.className? helper with
      | none =>
        simp only [Host.judge, offered?, read, registry, declared, Option.bind_some]
        rfl
      | some className =>
        obtain ⟨named, _⟩ := fits helper className read declared
        have clashes := clashes_ofListings (h := s.host t)
          ⟨className, Specifier.of s.frame.config s.root s.path c.file⟩ plain.frame listed text
          named olds
        have entry : (s.host t).entry c.file className =
            s.frame.entry ⟨className, Specifier.of s.frame.config s.root s.path c.file⟩ := rfl
        have accessor : (s.frame.entry
            ⟨className, Specifier.of s.frame.config s.root s.path c.file⟩).accessor =
              Naming.accessor className := rfl
        rw [← entry] at clashes accessor
        simp only [Host.judge, offered?, read, registry, declared, Option.bind_some, accessor]
        by_cases refused : Listed.Refuses s.frame (ls ++ old) className
        · rw [if_pos (clashes.mpr refused)]
          by_cases circular : importsOwnAccessor s.frame.config s.root s.path c.file helper
              (Naming.accessor className) = true <;>
            simp [circular, refused, Except.toOption, Option.filter_some]
        · rw [if_neg (fun clash => refused (clashes.mp clash)), entry]
          simp only [host]
          by_cases circular : importsOwnAccessor s.frame.config s.root s.path c.file helper
              (Naming.accessor className) = true <;>
            simp [circular, refused, Except.toOption, Option.filter_some]

/-- The roster with those that are admitted is one that can be listed. -/
theorem listed_admitted (plain : s.Plain) {candidates : List Candidate} (listed : Listed s.frame ls)
    (fits : ∀ c ∈ candidates, s.Fits c) : Listed s.frame (ls ++ s.admitted ls candidates) := by
  induction candidates generalizing ls with
  | nil => simpa [admitted] using listed
  | cons c rest ih =>
    have later : ∀ c ∈ rest, s.Fits c := fun c member => fits c (by simp [member])
    rw [admitted]
    cases offered : s.offered? c with
    | none => exact ih listed later
    | some l =>
      obtain ⟨named, specified⟩ := (fits c (by simp)).offered plain offered
      by_cases refused : Listed.Refuses s.frame ls l.className
      · simpa only [if_pos refused] using ih listed later
      · have longer := ih (listed.append named specified refused) later
        simpa only [if_neg refused, List.append_assoc, List.singleton_append] using longer

/-- The entries that are put in are those of the helpers that are admitted. -/
theorem sort_judgeAll (plain : s.Plain) (listed : Listed s.frame ls)
    (text : t = (Layout.ofListings ls).text s.frame) {candidates : List Candidate}
    (fits : ∀ c ∈ candidates, s.Fits c) (old : List Listing)
    (olds : ∀ o ∈ old, isClassName o.className.toList = true) :
    (AdditionReport.sort
        ((s.host t).judgeAll (s.host t).zones (old.map s.frame.entry) candidates)).1 =
      (s.admitted (ls ++ old) candidates).map s.frame.entry := by
  induction candidates generalizing old with
  | nil => rfl
  | cons c rest ih =>
    have later : ∀ c ∈ rest, s.Fits c := fun c member => fits c (by simp [member])
    have judged := judge_eq plain listed text olds (fits c (by simp))
    have same := ih later old olds
    rw [Host.judgeAll]
    cases judgement : (s.host t).judge (s.host t).zones (old.map s.frame.entry) c with
    | error skipped =>
      have skip : s.admitted (ls ++ old) (c :: rest) = s.admitted (ls ++ old) rest := by
        rw [judgement] at judged
        rw [admitted]
        cases offered : s.offered? c with
        | none => rfl
        | some l =>
          rw [offered] at judged
          by_cases refused : Listed.Refuses s.frame (ls ++ old) l.className
          · exact if_pos refused
          · simp [refused, Except.toOption, Option.filter_some] at judged
      rw [skip, ← same]
      rfl
    | ok e =>
      rw [judgement] at judged
      obtain ⟨l, chosen, entry⟩ := Option.map_eq_some_iff.mp judged.symm
      obtain ⟨offered, free⟩ := Option.filter_eq_some_iff.mp chosen
      have refused : ¬Listed.Refuses s.frame (ls ++ old) l.className := by simpa using free
      obtain ⟨named, _⟩ := (fits c (by simp)).offered plain offered
      have next := ih later (old ++ [l]) (by
        intro o member
        rcases List.mem_append.mp member with member | member
        · exact olds o member
        · rwa [List.mem_singleton.mp member])
      have keep : s.admitted (ls ++ old) (c :: rest) = l :: s.admitted (ls ++ (old ++ [l])) rest := by
        rw [admitted, offered]
        simp only [if_neg refused, List.append_assoc]
      rw [keep, List.map_cons, entry, ← next, List.map_append, List.map_singleton, entry]
      rfl

/-! ### Runs -/

theorem listed_filter {f : Frame} (listed : Listed f ls) (keep : Listing → Bool) :
    Listed f (ls.filter keep) where
  named := fun l member => listed.named l (List.mem_of_mem_filter member)
  specified := fun l member => listed.specified l (List.mem_of_mem_filter member)
  distinct := listed.distinct.sublist (List.filter_sublist.map _)
  type := fun l member => listed.type l (List.mem_of_mem_filter member)
  field := fun l member => listed.field l (List.mem_of_mem_filter member)
  own := fun l member => listed.own l (List.mem_of_mem_filter member)

theorem listed_update (plain : s.Plain) (listed : Listed s.frame ls) {c : Change}
    (allows : s.Allows ls c) : Listed s.frame (s.update ls c) := by
  cases c with
  | add candidates => exact listed_admitted plain listed allows
  | remove classes => exact listed_filter listed _

/-- A change of the text of a roster gives the text of the roster after the change. -/
theorem change_text (plain : s.Plain) (listed : Listed s.frame ls) {c : Change}
    (allows : s.Allows ls c) :
    s.change ((Layout.ofListings ls).text s.frame) c =
      (Layout.ofListings (s.update ls c)).text s.frame := by
  cases c with
  | add candidates =>
    generalize text : (Layout.ofListings ls).text s.frame = t
    have entries := sort_judgeAll plain listed text.symm allows [] (by simp)
    rw [List.map_nil, List.append_nil] at entries
    simp only [change, update, Host.add]
    rw [entries, List.isEmpty_map]
    cases chosen : s.admitted ls candidates with
    | nil => simp [text]
    | cons l rest =>
      have grown := Layout.withEntries_ofListings (h := s.host t) plain.frame listed rfl text.symm
        (List.cons_ne_nil l rest)
      simpa using grown
  | remove classes =>
    obtain ⟨distinct, known⟩ := allows
    refine listed.remove plain.frame distinct fun c member => ?_
    obtain ⟨l, inside, rfl⟩ := List.mem_map.mp (known c member)
    exact listed.spares inside

theorem foldl_change (plain : s.Plain) (listed : Listed s.frame ls) {changes : List Change}
    (allows : s.AllowsAll ls changes) :
    changes.foldl s.change ((Layout.ofListings ls).text s.frame) =
        (Layout.ofListings (changes.foldl s.update ls)).text s.frame ∧
      Listed s.frame (changes.foldl s.update ls) := by
  induction changes generalizing ls with
  | nil => exact ⟨rfl, listed⟩
  | cons c rest ih =>
    obtain ⟨first, later⟩ := allows
    rw [List.foldl_cons, List.foldl_cons, change_text plain listed first]
    exact ih (listed_update plain listed first) later

theorem AllowsAll.of_append {before_ after_ : List Change}
    (allows : s.AllowsAll ls (before_ ++ after_)) : s.AllowsAll ls before_ := by
  induction before_ generalizing ls with
  | nil => trivial
  | cons c rest ih => exact ⟨allows.1, ih allows.2⟩

/-- After every change of a run from the template, the text is the layout of the roster. -/
theorem textAfter_eq_layout (s : Site) (plain : s.Plain) (changes : List Change)
    (allows : s.AllowsAll [] changes) {done : List Change} (part : done <+: changes) :
    s.textAfter done = (Layout.ofListings (s.rosterAfter done)).text s.frame ∧
      Listed s.frame (s.rosterAfter done) := by
  obtain ⟨rest, rfl⟩ := part
  have run := foldl_change plain (listed_nil s.frame) allows.of_append
  rwa [Layout.text_ofListings_nil plain.frame.template] at run

/-- The settings that a project has without asking for others are plain. -/
theorem plain_default {name : String} (named : isClassName name.toList = true) (root : Path)
    {path : Path} (absolute : path.isAbsolute = true) : Plain ⟨⟨{}, name⟩, root, path⟩ := by
  have type : isPlainName ({} : Config).contextType.toList = true := by decide +kernel
  have field : isPlainName ({} : Config).contextField.toList = true := by decide +kernel
  have fieldPrefix : isPlainName ({} : Config).fieldPrefix.toList = true := by decide +kernel
  have distinct : ({} : Config).contextField ≠ "instance" := by decide +kernel
  have module_ : ({} : Config).contextModule.toList ≠ [] := by decide +kernel
  have allUnquoted : ({} : Config).contextModule.toList.all (!Recognition.isQuote ·) = true := by
    decide +kernel
  have unquoted : ∀ c ∈ ({} : Config).contextModule.toList, Recognition.isQuote c = false :=
    fun c member => by simpa using List.all_eq_true.mp allUnquoted c member
  have allUnspaced : ({} : Config).contextModule.toList.all (!Letter.isBlank ·) = true := by
    decide +kernel
  have unspaced : ∀ c ∈ ({} : Config).contextModule.toList, Letter.isBlank c = false :=
    fun c member => by simpa using List.all_eq_true.mp allUnspaced c member
  exact ⟨⟨rfl, named, type, field, distinct, module_, unquoted, unspaced, .inr fieldPrefix⟩, rfl,
    absolute⟩

/-- Two pages are added to a new registry, and the first is removed again. -/
theorem textAfter_eq_layout_pages :
    let s : Site := ⟨⟨{}, "Site"⟩, ⟨"/w"⟩, ⟨"/w/site.ts"⟩⟩
    let page (file text : String) : Candidate := ⟨⟨file⟩, some text.toList, false⟩
    let changes := [.add [page "/w/a.page.ts" "export class APage \x7b\x7d",
      page "/w/b.page.ts" "export class BPage \x7b\x7d"], .remove ["APage"]]
    s.AllowsAll [] changes ∧
      s.textAfter changes = (Layout.ofListings [⟨"BPage", "./b.page"⟩]).text s.frame := by
  intro s page changes
  have fits : ∀ file text className : String,
      Recognition.className? text.toList = some className →
      isClassName className.toList = true →
      (Specifier.of {} ⟨"/w"⟩ ⟨"/w/site.ts"⟩ ⟨file⟩).toList.all
        (fun x => !Recognition.isQuote x && x != '\n') = true → s.Fits (page file text) := by
    intro file text className declared named quotable t className' read declared'
    obtain rfl := Option.some.inj read
    rw [declared] at declared'
    obtain rfl := Option.some.inj declared'
    exact ⟨named, fun x member => by simpa using List.all_eq_true.mp quotable x member⟩
  have allows : s.AllowsAll [] changes := by
    refine ⟨?_, ⟨by decide +kernel, by decide +kernel⟩, trivial⟩
    intro c member
    simp only [List.mem_cons, List.not_mem_nil, or_false] at member
    rcases member with rfl | rfl
    · exact fits _ _ "APage" (by decide +kernel) (by decide +kernel) (by decide +kernel)
    · exact fits _ _ "BPage" (by decide +kernel) (by decide +kernel) (by decide +kernel)
  have roster : s.rosterAfter changes = [⟨"BPage", "./b.page"⟩] := by decide +kernel
  have plain : s.Plain := plain_default (by decide +kernel) _ (by decide +kernel)
  exact ⟨allows, roster ▸ (textAfter_eq_layout s plain changes allows (List.prefix_refl _)).1⟩

end Site
end Registrar
