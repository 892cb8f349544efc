import Registrar.Proofs.Specifier.Decoded

/-!
Specifiers from the root. What stands below the root behind the project's prefix is decoded as long as
the specifier can be told from that of a package and from one that is relative: by a prefix, and by one
that does not begin with a dot.
-/

namespace Registrar

namespace Path

variable {p root : Path} {pieces : List Text} {names rest : List String}

/-! ### The rest of a path -/

theorem filterMap_dropSteps (n : Nat) (pieces : List Text) :
    (dropSteps n pieces).filterMap component? = (pieces.filterMap component?).drop n := by
  induction n generalizing pieces with
  | zero => exact filterMap_dropWhile pieces
  | succ n ih =>
    rw [dropSteps, ih, ← filterMap_dropWhile pieces]
    cases dropped : pieces.dropWhile isIdle with
    | nil => simp
    | cons piece later =>
      have busy : isIdle piece = false := by
        have head := List.head?_dropWhile_not isIdle pieces
        rw [dropped] at head
        simpa using head
      obtain ⟨step, step_eq⟩ := exists_step_of_busy busy
      simp [step_eq]

theorem dropSteps_subset (n : Nat) (pieces : List Text) : dropSteps n pieces ⊆ pieces := by
  induction n generalizing pieces with
  | zero => exact (List.dropWhile_sublist isIdle).subset
  | succ n ih =>
    intro piece member
    exact (List.dropWhile_sublist isIdle).subset (List.mem_of_mem_tail (ih _ member))

theorem isIdle_head?_dropSteps {n : Nat} {piece : Text}
    (head : (dropSteps n pieces).head? = some piece) : isIdle piece = false := by
  induction n generalizing pieces with
  | zero =>
    have first := List.head?_dropWhile_not isIdle pieces
    rw [dropSteps] at head
    simpa [head] using first
  | succ n ih => exact ih head

/-- The first piece that says something stays in front. -/
theorem head?_withoutIdleEnd {piece : Text} (busy : isIdle piece = false) (later : List Text) :
    (withoutIdleEnd true (piece :: later)).head? = some piece := by
  have front : (withoutIdleEnd true (piece :: later)).filterMap component? ≠ [] := by
    obtain ⟨step, step_eq⟩ := exists_step_of_busy busy
    rw [filterMap_withoutIdleEnd, List.filterMap_cons, step_eq]
    simp
  rw [withoutIdleEnd_eq] at front ⊢
  have kept : (piece :: later).reverse.dropWhile isIdle <:+ (piece :: later).reverse :=
    List.dropWhile_suffix isIdle
  have front' := List.reverse_prefix.mpr kept
  rw [List.reverse_reverse] at front'
  obtain ⟨back, split⟩ := front'
  cases whole : ((piece :: later).reverse.dropWhile isIdle).reverse with
  | nil => exact absurd (by rw [whole]; rfl) front
  | cons first others =>
    rw [whole] at split
    simp [(List.cons.inj split).1]

/-- Pieces of which the first says something are those of a relative path. -/
theorem components_ofPieces_false {piece : Text} {later : List Text} (busy : isIdle piece = false)
    (whole : ∀ p ∈ piece :: later, '/' ∉ p) :
    (ofPieces false (piece :: later)).components = (piece :: later).filterMap component? := by
  obtain ⟨x, letters, rfl⟩ : ∃ x letters, piece = x :: letters :=
    List.exists_cons_of_ne_nil fun none_ => by simp [none_, isIdle] at busy
  have other : x ≠ '/' := fun slash => whole _ (List.mem_cons_self ..) (by simp [slash])
  have text : (ofPieces false ((x :: letters) :: later)).text.toList =
      Text.join ['/'] ((x :: letters) :: later) := by simp [ofPieces]
  have head : (Text.join ['/'] ((x :: letters) :: later)).head? = some x := by
    cases later <;> simp [Text.join, List.intercalate]
  have relative : (ofPieces false ((x :: letters) :: later)).isAbsolute = false := by
    rw [isAbsolute, text, head]
    simpa using other
  have split : (ofPieces false ((x :: letters) :: later)).pieces = (x :: letters) :: later := by
    rw [pieces, relative, text]
    exact Text.splitOn_join (by simp) whole
  have dot : (x :: letters) ≠ ['.'] := fun same => by rw [same] at busy; simp [isIdle] at busy
  rw [components, relative, split, if_neg (by simp), if_neg (by simpa using dot)]

/-- The rest of a path that begins as the root does has the steps that come behind those of the root. -/
theorem exists_below? (absolute : p.isAbsolute = true) (absolute' : root.isAbsolute = true)
    (under : p.isUnder root = true) :
    ∃ q, p.below? root = some q ∧ p.components = root.components ++ q.components := by
  have steps := components_of_isAbsolute absolute'
  have read := filterMap_dropSteps (root.pieces.filterMap component?).length p.pieces
  have whole : ∀ piece ∈ withoutIdleEnd true
      (dropSteps (root.pieces.filterMap component?).length p.pieces), '/' ∉ piece :=
    fun piece member => not_mem_of_mem_pieces (dropSteps_subset _ _ (withoutIdleEnd_subset _ member))
  obtain ⟨rest, split⟩ : root.components <+: p.components := by
    rwa [isUnder, List.isPrefixOf_iff_prefix] at under
  have left : (p.pieces.filterMap component?).drop (root.pieces.filterMap component?).length = rest := by
    rw [components_of_isAbsolute absolute, steps, List.cons_append] at split
    rw [← (List.cons.inj split).2, List.drop_left]
  rw [left, ← filterMap_withoutIdleEnd] at read
  refine ⟨_, by rw [below?, under, steps]; rfl, ?_⟩
  rw [← split, ← read, List.append_cancel_left_eq]
  cases dropped : dropSteps (root.pieces.filterMap component?).length p.pieces with
  | nil => decide
  | cons first others =>
    have busy : isIdle first = false := isIdle_head?_dropSteps (by rw [dropped]; rfl)
    have head := head?_withoutIdleEnd busy others
    rw [dropped] at whole
    cases kept : withoutIdleEnd true (first :: others) with
    | nil => simp [kept] at head
    | cons piece later =>
      rw [kept] at head whole
      obtain rfl : piece = first := by simpa using head
      exact (components_ofPieces_false busy whole).symm

/-! ### Names behind a folder -/

/-- What is read from a folder as names with slashes between them leads on by the names. -/
theorem normal_join_names {folder : Path} {front rest : List String} (absolute : folder.isAbsolute = true)
    (names : namesOf folder.components = front) (some_ : rest ≠ [])
    (proper : ∀ n ∈ rest, IsEntryName n) :
    (folder.join ⟨String.ofList (Text.join ['/'] (rest.map String.toList))⟩).normal =
      ofNames true (front ++ rest) := by
  have whole : ∀ piece ∈ rest.map String.toList, '/' ∉ piece := by
    intro piece member
    obtain ⟨n, inside, rfl⟩ := List.mem_map.mp member
    exact (proper n inside).whole
  obtain ⟨n, others, rfl⟩ := List.exists_cons_of_ne_nil some_
  obtain ⟨x, letters, letters_eq⟩ := List.exists_cons_of_ne_nil (proper n (by simp)).ne_nil
  have slash : (Text.join ['/'] ((n :: others).map String.toList)).head? ≠ some '/' := by
    have head : (Text.join ['/'] ((n :: others).map String.toList)).head? = some x := by
      cases others <;> simp [Text.join, List.intercalate, letters_eq]
    rw [head]
    rintro same
    obtain rfl := Option.some.inj same
    exact (proper n (by simp)).whole (by simp [letters_eq])
  have joined := components_join absolute slash
  rw [Text.splitOn_join (by simp) whole, filterMap_names proper] at joined
  have top := isAbsolute_of_head? (p := folder.join _) (by
    rw [joined, components_of_isAbsolute absolute]; rfl)
  rw [normal, top, joined, namesOf_append, names, foldl_follow_names]

end Path

namespace Specifier

open Path

variable {config : Config} {root importer file : Path} {stem : String}

/-- A file below the root that a specifier with the source extension can name. -/
structure Hangs (config : Config) (root file : Path) (stem : String) : Prop where
  top : root.isAbsolute = true ∧ root.IsNormal
  target : file.Descends
  below : file.isUnder root = true
  strict : file.same root = false
  named : file.fileName? = some (stem ++ config.sourceExtension)
  proper : stem ∉ ["", ".", ".."]

/-- The names of the root and those that lead on from it. -/
theorem Hangs.exists_names (hangs : Hangs config root file stem) : ∃ front middle,
    root = ofNames true front ∧ (∀ m ∈ front, IsEntryName m) ∧
      (∀ m ∈ middle ++ [stem], IsEntryName m) ∧
      file.components = root.components ++ (middle ++ [stem ++ config.sourceExtension]).map .name := by
  obtain ⟨front, proper, rfl⟩ := hangs.top.2.exists_names hangs.top.1
  have proper' : ∀ m ∈ namesOf file.components, IsEntryName m := isEntryName_of_mem_namesOf
  have steps := hangs.target.components_eq
  have under := hangs.below
  rw [isUnder, components_ofNames proper, steps, List.isPrefixOf_iff_prefix, List.prefix_cons_inj,
    List.prefix_map_iff] at under
  obtain ⟨l, ⟨rest, whole⟩, same⟩ := under
  obtain rfl : l = front :=
    List.map_injective_iff.mpr (fun a b same => by simpa using same) same.symm
  rcases List.eq_nil_or_concat' rest with rfl | ⟨middle, last, rfl⟩
  · have same : file.same (ofNames true l) = true := by
      rw [Path.same, steps, components_ofNames proper, ← whole, List.append_nil]
      exact beq_self_eq_true _
    simp [hangs.strict] at same
  · have last_eq : last = stem ++ config.sourceExtension := by
      have named := hangs.named
      rw [fileName?, steps, ← whole, ← List.append_assoc, List.map_append, ← List.cons_append,
        List.map_singleton, List.getLast?_concat] at named
      exact Option.some.inj named
    subst last_eq
    rw [← whole] at proper'
    refine ⟨l, middle, rfl, proper, fun m member => ?_, ?_⟩
    · rcases List.mem_append.mp member with member | member
      · exact proper' m (by simp [member])
      · have left := @isEntryName_withoutExtension config.sourceExtension _
          (proper' (stem ++ config.sourceExtension) (by simp))
          (by rw [withoutExtension_append]; exact hangs.proper)
        rwa [List.mem_singleton.mp member, ← withoutExtension_append stem config.sourceExtension]
    · rw [steps, ← whole, components_ofNames proper, List.map_append, List.cons_append]

/-- The specifier is the prefix and the way from the root without the extension. -/
theorem of_eq_of_absolute (style : config.importStyle = .absolute) {middle : List String}
    (down : file.Descends) (absolute : root.isAbsolute = true) (steps : file.components =
      root.components ++ (middle ++ [stem ++ config.sourceExtension]).map .name) (importer : Path) :
    of config root importer file = config.importPrefix ++
      String.ofList (Text.join ['/'] ((middle ++ [stem]).map String.toList)) := by
  have under : file.isUnder root = true := by
    rw [isUnder, steps, List.isPrefixOf_iff_prefix]
    exact List.prefix_append ..
  obtain ⟨rest, below, split⟩ := exists_below? down.absolute absolute under
  have read : rest.components = (middle ++ [stem ++ config.sourceExtension]).map .name :=
    List.append_cancel_left (split.symm.trans steps)
  rw [of, style, below]
  dsimp only
  rw [read, List.filterMap_map]
  -- The steps are names, so that none is left out.
  change config.importPrefix ++ String.ofList (dropExtension _ (Text.join _
    (List.filterMap (some ∘ String.toList) (middle ++ [stem ++ config.sourceExtension])))) = _
  rw [List.filterMap_eq_map, List.map_append, List.map_singleton, String.toList_append,
    join_concat_append, dropExtension_append, List.map_append, List.map_singleton]

/-- A prefix that says something and begins with no dot is taken off again. -/
theorem base?_append {rest : Text} (some_ : config.importPrefix ≠ "")
    (dot : config.importPrefix.toList.head? ≠ some '.') (importer : Path) :
    base? config root importer (config.importPrefix ++ String.ofList rest) =
      some (root.join ⟨String.ofList rest⟩).normal := by
  have filled : config.importPrefix.isEmpty = false := by simpa using some_
  obtain ⟨x, letters, letters_eq⟩ : ∃ x letters, config.importPrefix.toList = x :: letters :=
    List.exists_cons_of_ne_nil fun none_ => some_ (String.toList_inj.mp none_)
  have head : (config.importPrefix ++ String.ofList rest).toList.head? ≠ some '.' := by
    rwa [String.toList_append, letters_eq, List.cons_append, List.head?_cons, ← List.head?_cons,
      ← letters_eq]
  rw [base?, if_neg (fun same => head (eq_of_beq same)), filled, String.toList_append,
    String.toList_ofList, Text.dropFront?_append]
  rfl

/-- Specifiers from the root lead back behind a prefix that says something and begins with no dot:
what they are read as stands for the file. Without a prefix a specifier that begins with no dot is taken
for that of a package. -/
theorem rooted_decoded (style : config.importStyle = .absolute)
    (hangs : Hangs config root file stem) (importer : Path) :
    (config.importPrefix ≠ "" ∧ config.importPrefix.toList.head? ≠ some '.' →
      ∃ base, base? config root importer (of config root importer file) = some base ∧
        baseMatches config base file = true) ∧
    (config.importPrefix = "" ∧ (of config root importer file).toList.head? ≠ some '.' →
      base? config root importer (of config root importer file) = none) := by
  obtain ⟨front, middle, rfl, proper, proper', steps⟩ := hangs.exists_names
  have spec := of_eq_of_absolute style hangs.target hangs.top.1 steps importer
  constructor
  · rintro ⟨some_, dot⟩
    have names : namesOf (ofNames true front).components = front := by
      rw [components_ofNames proper, namesOf_top]
    have names' : namesOf file.components = front ++ middle ++ [stem ++ config.sourceExtension] := by
      rw [steps, namesOf_append, names, foldl_follow_names, List.append_assoc]
    have base := @base?_append config (ofNames true front)
      (Text.join ['/'] ((middle ++ [stem]).map String.toList)) some_ dot importer
    rw [← spec, normal_join_names hangs.top.1 names (by simp) proper', ← List.append_assoc] at base
    refine ⟨_, base, ?_⟩
    rw [baseMatches, withExtension_ofNames, hangs.target.normal_eq, names']
    simp
  · rintro ⟨none_, dot⟩
    rw [base?, if_neg (by simpa using dot), if_pos (by simp [none_])]

/-- A prefix, a root that is the top, and slashes that say nothing. -/
theorem rooted_decoded_page :
    let config : Config := { importStyle := .absolute, importPrefix := "@" }
    let file : Path := ⟨"//a//.b/login.page.ts"⟩
    config.importStyle = .absolute ∧ Hangs config ⟨"/"⟩ file "login.page" ∧
      of config ⟨"/"⟩ ⟨"site.ts"⟩ file = "@a/.b/login.page" ∧
      ∃ base, base? config ⟨"/"⟩ ⟨"site.ts"⟩ "@a/.b/login.page" = some base ∧
        baseMatches config base file = true := by
  intro config file
  have hangs : Hangs config ⟨"/"⟩ file "login.page" :=
    ⟨⟨by decide +kernel, show Path.normal _ = _ by decide +kernel⟩, by decide +kernel,
      by decide +kernel, by decide +kernel, by decide +kernel, by decide +kernel⟩
  have written : of config ⟨"/"⟩ ⟨"site.ts"⟩ file = "@a/.b/login.page" := by decide +kernel
  have decoded := (rooted_decoded rfl hangs ⟨"site.ts"⟩).1 (by decide +kernel)
  exact ⟨rfl, hangs, written, by rwa [written] at decoded⟩

/-- Without a prefix a file's specifier is taken for that of a package; behind a prefix that begins with
a dot it is read from the folder of the importing file; and a step upward is not written at all. -/
theorem rooted_misread :
    let config (front : String) : Config := { importStyle := .absolute, importPrefix := front }
    let root : Path := ⟨"/w"⟩
    let importer : Path := ⟨"/w/b/site.ts"⟩
    let read (front : String) (file : Path) : Option (Path × Bool) :=
      (base? (config front) root importer (of (config front) root importer file)).map fun base =>
        (base, baseMatches (config front) base file)
    read "" ⟨"/w/a/x.page.ts"⟩ = none ∧
      read "./" ⟨"/w/a/x.page.ts"⟩ = some (⟨"/w/b/a/x.page"⟩, false) ∧
      read "@/" ⟨"/w/a/../x.page.ts"⟩ = some (⟨"/w/a/x.page"⟩, false) := by
  decide +kernel

end Specifier
end Registrar
