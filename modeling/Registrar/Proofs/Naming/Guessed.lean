import Registrar.Proofs.Naming
import Registrar.Proofs.Specifier.Decoded
import Registrar.Proofs.Workspace.Visible

/-!
The name of a class and the name of its file. The class of a helper is spelled in the style of file
names without its suffix, and guessed again from the words of the file name: every word begins where a
capital stood, so no capital and no digit is lost on the way, and two classes never share a file.
-/

namespace Registrar

/-! ### Capitals -/

theorem isAlphanum_toLower {c : Char} (h : c.isUpper = true) : c.toLower.isAlphanum = true := by
  rw [Char.isAlphanum, isAlpha_toLower h, Bool.true_or]

/-- The capital of a small letter. -/
theorem toNat_toUpper {c : Char} (h : c.isLower = true) : c.toUpper.toNat = c.toNat - 32 := by
  obtain ⟨least, most⟩ := isLower_iff.mp h
  have small : 'a'.val ≤ c.val ∧ c.val ≤ 'z'.val := ⟨least, most⟩
  have sum : (c.val + ('A'.val - 'a'.val)).toNat = (c.toNat + 4294967264) % 2 ^ 32 := UInt32.toNat_add ..
  have raised : c.toUpper = ⟨c.val + ('A'.val - 'a'.val), _⟩ := dif_pos small
  rw [raised]
  refine sum.trans ?_
  omega

/-- A capital is the one whose small letter it has. -/
theorem raise_toLower_of_isUpper {c : Char} (h : c.isUpper = true) : Letter.raise c.toLower = [c] := by
  obtain ⟨least, most⟩ := toNat_of_isUpper h
  have code := toNat_toLower h
  have small : c.toLower.isLower = true := isLower_iff.mpr (by omega)
  have back : c.toLower.toUpper = c := Char.toNat_inj.mp (by rw [toNat_toUpper small]; omega)
  rw [Letter.raise_of_ascii (by omega), back]

/-- Of the letters and digits of names, the capitals are those of ASCII. -/
theorem isUpper_of_isAlphanum {c : Char} (h : c.isAlphanum = true) : Letter.isUpper c = c.isUpper := by
  obtain ⟨_, most⟩ := toNat_of_isPlain (isPlain_of_isAlphanum h)
  have low : ¬128 ≤ c.toNat := by omega
  simp [Letter.isUpper, low]

theorem raiseFirst_concat {t : Text} (some_ : t ≠ []) (s : Text) :
    Letter.raiseFirst (t ++ s) = Letter.raiseFirst t ++ s := by
  cases t with
  | nil => exact absurd rfl some_
  | cons c rest => simp [Letter.raiseFirst]

/-- A name that an entry can have is the name of a path. -/
theorem Path.fileName?_of_isEntryName {name : String} (proper : IsEntryName name) :
    (⟨name⟩ : Path).fileName? = some name := by
  have relative : (⟨name⟩ : Path).isAbsolute = false := by
    rw [isAbsolute, beq_eq_false_iff_ne]
    exact fun slash => proper.whole (List.mem_of_head? slash)
  have single : (⟨name⟩ : Path).pieces = [name.toList] := by
    rw [pieces, relative]
    exact Text.splitOn_eq_singleton fun c member => by
      rw [beq_eq_false_iff_ne]
      rintro rfl
      exact proper.whole member
  have steps : (⟨name⟩ : Path).components.getLast? = some (.name name) := by
    rw [components, relative, single, List.filterMap_cons_some proper.step]
    simp only [Bool.false_eq_true, if_false]
    split <;> rfl
  rw [fileName?, steps]

namespace Naming

/-! ### The suffix -/

theorem hasSuffix_iff {t suffix : Text} :
    hasSuffix t suffix = true ↔ suffix.map Char.toLower <:+ t.map Char.toLower := by
  rw [hasSuffix, Bool.and_eq_true, decide_eq_true_eq, beq_iff_eq, List.suffix_iff_eq_drop,
    List.length_map, List.length_map, ← List.map_drop]
  constructor
  · rintro ⟨-, same⟩
    exact same.symm
  · intro same
    have lengths := congrArg List.length same
    simp only [List.length_map, List.length_drop] at lengths
    exact ⟨by omega, same.symm⟩

/-- What has the suffix is the rest with the suffix again. -/
theorem withoutSuffix_append {suffix base : String} (some_ : suffix.toList ≠ [])
    (some_base : base.toList ≠ []) : withoutSuffix suffix (base ++ suffix) = base := by
  have ends_ : hasSuffix (base ++ suffix).toList suffix.toList = true :=
    hasSuffix_iff.mpr (by simp)
  have filled : suffix.isEmpty = false := by simpa using some_
  have longer : suffix.toList.length < (base ++ suffix).toList.length := by
    have := List.length_pos_iff.mpr some_base
    simp [String.toList_append]
    omega
  rw [withoutSuffix]
  simp only [filled, Bool.not_false, Bool.true_and, ends_, longer, decide_true, if_true]
  simp [String.toList_append]

/-! ### Words -/

variable {isSeparator : Char → Bool} {separator : Char}

/-- Words spelled apart are run together to the name again. -/
theorem pascal_separateCapitals (separates : isSeparator separator = true)
    (whole : ∀ c : Char, c.isAlphanum = true → isSeparator c = false) {word rest : Text}
    (some_ : word ≠ []) (word_ : ∀ c ∈ word, c.isAlphanum = true)
    (rest_ : ∀ c ∈ rest, c.isAlphanum = true) :
    pascal isSeparator (word ++ separateCapitals separator rest) = Letter.raiseFirst word ++ rest := by
  induction rest generalizing word with
  | nil =>
    have single := Text.splitOn_eq_singleton fun c member => whole c (word_ c member)
    simp [separateCapitals, pascal, single]
  | cons c rest ih =>
    obtain ⟨first, later⟩ := List.forall_mem_cons.mp rest_
    cases capital : c.isUpper with
    | false =>
      have kept : separateCapitals separator (c :: rest) = c :: separateCapitals separator rest := by
        simp [separateCapitals, isUpper_of_isAlphanum first, capital]
      have longer : ∀ d ∈ word ++ [c], d.isAlphanum = true := by
        intro d member
        rcases List.mem_append.mp member with member | member
        · exact word_ d member
        · rwa [List.mem_singleton.mp member]
      have more := @ih (word ++ [c]) (by simp) longer later
      rw [kept, ← List.singleton_append, ← List.append_assoc, more, raiseFirst_concat some_,
        List.append_assoc, List.singleton_append]
    | true =>
      have cut : separateCapitals separator (c :: rest) =
          separator :: ([c.toLower] ++ separateCapitals separator rest) := by
        simp [separateCapitals, isUpper_of_isAlphanum first, capital, lower_of_isUpper capital]
      have letter : ∀ d ∈ [c.toLower], d.isAlphanum = true :=
        List.forall_mem_singleton.mpr (isAlphanum_toLower capital)
      have more := @ih [c.toLower] (by simp) letter later
      have single := Text.splitOn_eq_singleton fun c member => whole c (word_ c member)
      rw [pascal] at more ⊢
      rw [cut, Text.splitOn_append_cons separates, List.flatMap_append, more, single]
      simp [Letter.raiseFirst, raise_toLower_of_isUpper capital]

/-- However a name is spelled, its words run together are the name. -/
theorem pascal_inStyle (style : CaseStyle) (dashes : isSeparator '-' = true)
    (lines : isSeparator '_' = true) (whole : ∀ c : Char, c.isAlphanum = true → isSeparator c = false)
    {name : String} (proper : isClassName name.toList = true) :
    pascal isSeparator (inStyle style name).toList = name.toList := by
  obtain ⟨x, rest, split, capital, all⟩ := isClassName_iff.mp proper
  have letter : ∀ d ∈ [x.toLower], d.isAlphanum = true :=
    List.forall_mem_singleton.mpr (isAlphanum_toLower capital)
  have raised : Letter.raiseFirst [x.toLower] = [x] := by
    simp [Letter.raiseFirst, raise_toLower_of_isUpper capital]
  have apart : ∀ separator, isSeparator separator = true →
      pascal isSeparator (separated separator name.toList) = name.toList := by
    intro separator separates
    have more := pascal_separateCapitals separates whole (by simp) letter all
    rw [split, separated, lower_of_isUpper capital, more, raised, List.singleton_append]
  cases style with
  | pascal =>
    have single : Text.splitOn isSeparator name.toList = [name.toList] :=
      Text.splitOn_eq_singleton fun c member => by
        rcases List.mem_cons.mp (split ▸ member) with rfl | member
        · exact whole c (isAlphanum_of_isUpper capital)
        · exact whole c (all c member)
    rw [inStyle, pascal, single, List.flatMap_singleton, raiseFirst_of_isClassName proper]
  | camel =>
    have single : Text.splitOn isSeparator ([x.toLower] ++ rest) = [[x.toLower] ++ rest] :=
      Text.splitOn_eq_singleton fun c member => by
        rcases List.mem_append.mp member with member | member
        · exact whole c (letter c member)
        · exact whole c (all c member)
    rw [inStyle, String.toList_ofList, split, lowerFirst, lower_of_isUpper capital, pascal, single,
      List.flatMap_singleton, raiseFirst_concat (by simp), raised, List.singleton_append]
  | kebab =>
    rw [inStyle, String.toList_ofList]
    exact apart '-' dashes
  | snake =>
    rw [inStyle, String.toList_ofList]
    exact apart '_' lines

/-- A spelled name has letters, digits and the separators of the styles. -/
theorem mem_inStyle {style : CaseStyle} {name : String} (proper : isClassName name.toList = true)
    {c : Char} (member : c ∈ (inStyle style name).toList) : c.isAlphanum = true ∨ c = '-' ∨ c = '_' := by
  obtain ⟨x, rest, split, capital, all⟩ := isClassName_iff.mp proper
  have apart : ∀ separator, c ∈ separated separator name.toList → c.isAlphanum = true ∨ c = separator := by
    intro separator inside
    rw [split, separated, lower_of_isUpper capital, List.singleton_append] at inside
    rcases List.mem_cons.mp inside with rfl | inside
    · exact .inl (isAlphanum_toLower capital)
    · obtain ⟨d, among, from_⟩ := List.mem_flatMap.mp inside
      rw [isUpper_of_isAlphanum (all d among)] at from_
      split at from_
      · next upper =>
        rw [lower_of_isUpper upper] at from_
        rcases List.mem_cons.mp from_ with rfl | from_
        · exact .inr rfl
        · rw [List.mem_singleton.mp from_]
          exact .inl (isAlphanum_toLower upper)
      · rw [List.mem_singleton.mp from_]
        exact .inl (all d among)
  cases style with
  | pascal =>
    rw [inStyle, split] at member
    rcases List.mem_cons.mp member with rfl | member
    · exact .inl (isAlphanum_of_isUpper capital)
    · exact .inl (all c member)
  | camel =>
    rw [inStyle, String.toList_ofList, split, lowerFirst, lower_of_isUpper capital,
      List.singleton_append] at member
    rcases List.mem_cons.mp member with rfl | member
    · exact .inl (isAlphanum_toLower capital)
    · exact .inl (all c member)
  | kebab =>
    rw [inStyle, String.toList_ofList] at member
    exact (apart '-' member).imp_right .inl
  | snake =>
    rw [inStyle, String.toList_ofList] at member
    exact (apart '_' member).imp_right .inr

/-! ### The file of a class -/

/-- Classes are named in capitals and small letters, and files have the usual extensions. -/
structure IsUsual (config : Config) : Prop where
  suffix : isClassName config.classSuffix.toList = true
  helpers : config.helperExtension = ".page.ts"
  sources : config.sourceExtension = ".ts"

/-- A name of a class but for the suffix, which it does not have in any case of its letters. -/
structure IsBase (config : Config) (base : String) : Prop where
  named : isClassName base.toList = true
  bare : ¬config.classSuffix.toList.map Char.toLower <:+ base.toList.map Char.toLower

variable {config : Config} {base : String}

theorem IsBase.ne_nil (proper : IsBase config base) : base.toList ≠ [] :=
  ne_nil_of_isPlainName (isPlainName_of_isClassName proper.named)

theorem IsUsual.suffix_ne_nil (usual : IsUsual config) : config.classSuffix.toList ≠ [] :=
  ne_nil_of_isPlainName (isPlainName_of_isClassName usual.suffix)

/-- The suffix is put to a base. -/
theorem IsBase.canonical_eq (proper : IsBase config base) :
    canonical config.classSuffix base = base ++ config.classSuffix := by
  have trimmed : Text.trim ([] ++ base.toList ++ []) = base.toList :=
    Text.trim_append proper.ne_nil (by simp) (fun c member => isBlank_of_isPlain
      (all_of_isPlainName (isPlainName_of_isClassName proper.named) c member)) (by simp)
  have bare : hasSuffix base.toList config.classSuffix.toList = false := by
    rw [← Bool.not_eq_true, hasSuffix_iff]
    exact proper.bare
  rw [List.nil_append, List.append_nil] at trimmed
  rw [canonical, trimmed]
  simp [bare]

theorem IsUsual.fileStem_eq (usual : IsUsual config) (proper : IsBase config base) :
    fileStem config (base ++ config.classSuffix) = inStyle config.fileCase base := by
  rw [fileStem, withoutSuffix_append usual.suffix_ne_nil proper.ne_nil]

/-- The stem of a file has no extension that is left. -/
theorem IsUsual.withoutExtension_eq (usual : IsUsual config) (proper : IsBase config base) :
    withoutExtension config.sourceExtension (inStyle config.fileCase base) =
      inStyle config.fileCase base := by
  rw [usual.sources]
  rcases Specifier.withoutExtension_cases ".ts" (inStyle config.fileCase base) with
    ⟨stem, split⟩ | ⟨-, same⟩
  · have dot : '.' ∈ (inStyle config.fileCase base).toList := by simp [split, String.toList_append]
    rcases mem_inStyle proper.named dot with letter | other | other
    · exact absurd letter (by decide)
    · exact absurd other (by decide)
    · exact absurd other (by decide)
  · exact same

/-- A file is named like an entry of a folder. -/
theorem IsUsual.isEntryName (usual : IsUsual config) (proper : IsBase config base) :
    IsEntryName (inStyle config.fileCase base ++ config.helperExtension) := by
  have whole : '/' ∉ (inStyle config.fileCase base ++ ".page.ts").toList := by
    rw [String.toList_append, List.mem_append]
    rintro (inside | inside)
    · rcases mem_inStyle proper.named inside with letter | other | other
      · exact absurd letter (by decide)
      · exact absurd other (by decide)
      · exact absurd other (by decide)
    · exact absurd inside (by decide)
  rw [usual.helpers]
  refine ⟨?_, whole⟩
  -- The name is longer than the steps that are none.
  have long : ∀ step : Text, step.length ≤ 2 →
      (inStyle config.fileCase base ++ ".page.ts").toList ≠ step := by
    rintro step short rfl
    simp [String.toList_append] at short
  have some_ := long [] (by simp)
  have dot := long ['.'] (by simp)
  have dots := long ['.', '.'] (by simp)
  rw [Path.component?, Path.isIdle]
  simp only [List.isEmpty_iff, beq_iff_eq, some_, dot, dots, Bool.or_eq_true, or_self, if_false,
    String.ofList_toList]

/-- From the file of a class in a folder the class is guessed. -/
theorem IsUsual.guessClass_child (usual : IsUsual config) (proper : IsBase config base) (dir : Path) :
    guessClass config (dir.child (fileStem config (base ++ config.classSuffix) ++
      config.helperExtension)) = base ++ config.classSuffix := by
  rw [usual.fileStem_eq proper]
  have entry := usual.isEntryName proper
  have named : (dir.child (inStyle config.fileCase base ++ config.helperExtension)).fileName? =
      some (inStyle config.fileCase base ++ config.helperExtension) := by
    by_cases written : dir.text.toList = []
    · have empty : dir.text.isEmpty = true := by simpa using written
      rw [Path.child, Path.join, empty, Bool.or_true, if_pos rfl]
      exact Path.fileName?_of_isEntryName entry
    · exact Path.fileName?_child written entry
  have whole : ∀ c : Char, c.isAlphanum = true → (c == '-' || c == '_' || c == '.') = false := by
    intro c letter
    have other : ∀ d : Char, d.isAlphanum = false → (c == d) = false := by
      rintro d none_
      rw [beq_eq_false_iff_ne]
      rintro rfl
      simp [letter] at none_
    rw [other '-' rfl, other '_' rfl, other '.' rfl]
    rfl
  have words := pascal_inStyle config.fileCase rfl rfl whole proper.named
  rw [guessClass, named, Option.getD_some, Specifier.withoutExtension_append,
    usual.withoutExtension_eq proper]
  rw [words, String.ofList_toList, proper.canonical_eq]

/-- The name of a class and the name of its file give each other, in every style and in every folder, so
two classes never have the same file in a folder. -/
theorem guessClass_fileStem (usual : IsUsual config) :
    (∀ base, IsBase config base →
      canonical config.classSuffix base = base ++ config.classSuffix ∧
        ∀ dir : Path, guessClass config (dir.child (fileStem config (base ++ config.classSuffix) ++
          config.helperExtension)) = base ++ config.classSuffix) ∧
      ∀ base other, IsBase config base → IsBase config other → ∀ dir : Path,
        (dir.child (fileStem config (base ++ config.classSuffix) ++ config.helperExtension)).same
            (dir.child (fileStem config (other ++ config.classSuffix) ++ config.helperExtension)) =
          true → base ++ config.classSuffix = other ++ config.classSuffix := by
  refine ⟨fun base proper => ⟨proper.canonical_eq, usual.guessClass_child proper⟩, ?_⟩
  intro base other proper proper' dir same
  have steps : ∀ p q : Path, p.same q = true → guessClass config p = guessClass config q := by
    intro p q same
    rw [Path.same, beq_iff_eq] at same
    rw [guessClass, guessClass, Path.fileName?, Path.fileName?, same]
  rw [← usual.guessClass_child proper dir, ← usual.guessClass_child proper' dir]
  exact steps _ _ same

/-- A run of capitals is spelled letter by letter, and read again. -/
theorem guessClass_fileStem_run :
    let config : Config := { fileCase := .kebab }
    IsUsual config ∧ IsBase config "UserQA" ∧ fileStem config "UserQAPage" = "user-q-a" ∧
      canonical "Page" "UserQA" = "UserQAPage" ∧
      guessClass config ((⟨"/w/pages"⟩ : Path).child "user-q-a.page.ts") = "UserQAPage" := by
  intro config
  have usual : IsUsual config := ⟨by decide, rfl, rfl⟩
  have proper : IsBase config "UserQA" := ⟨by decide, by decide⟩
  have spelled : fileStem config "UserQAPage" = "user-q-a" := by decide +kernel
  obtain ⟨named, guessed⟩ := (guessClass_fileStem usual).1 "UserQA" proper
  refine ⟨usual, proper, spelled, named, ?_⟩
  have whole := guessed ⟨"/w/pages"⟩
  rwa [show "UserQA" ++ config.classSuffix = "UserQAPage" from rfl, spelled] at whole

end Naming
end Registrar
