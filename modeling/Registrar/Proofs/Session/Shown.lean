import Registrar.Proofs.Specifier.Rooted
import Registrar.Session.Basic

/-!
Paths given and paths shown. Below an absolute root a given path is settled once and for all, and what
is shown of a path leads back to it: from the root if it lies there, and else as it is.
-/

namespace Registrar

namespace Workspace

variable {w : Workspace} {p : Path}

/-- A given path is followed from the names of the root. -/
theorem resolve_eq (absolute : w.root.isAbsolute = true) (p : Path) : w.resolve p =
    .ofNames true (p.components.foldl Path.follow (Path.namesOf w.root.components)) := by
  rw [resolve, Path.normal, Path.isAbsolute_join, absolute, Bool.true_or, Path.namesOf_join]

/-- A path in normal form that begins at the top is settled. -/
theorem resolve_of_isNormal (absolute : p.isAbsolute = true) (normal : p.IsNormal) :
    w.resolve p = p := by
  rw [resolve, Path.join, absolute, Bool.true_or, if_pos rfl]
  exact normal

theorem isAbsolute_resolve (absolute : w.root.isAbsolute = true) (p : Path) :
    (w.resolve p).isAbsolute = true := by
  rw [resolve, Path.isAbsolute_normal, Path.isAbsolute_join, absolute, Bool.true_or]

theorem isNormal_resolve (w : Workspace) (p : Path) : (w.resolve p).IsNormal := Path.normal_normal _

/-- What is shown of a path is read as the path itself would be. -/
theorem resolve_shown (absolute : w.root.isAbsolute = true) (p : Path) :
    w.resolve ⟨w.shown p⟩ = w.resolve p := by
  by_cases under : p.isUnder w.root = true
  · have top : p.isAbsolute = true := by
      refine Path.isAbsolute_of_head? ?_
      obtain ⟨rest, split⟩ := List.isPrefixOf_iff_prefix.mp under
      rw [← split, Path.components_of_isAbsolute absolute]
      rfl
    obtain ⟨q, below, split⟩ := Path.exists_below? top absolute under
    have shown_eq : w.shown p = q.text := by rw [shown, below, Option.getD_some]
    -- The root is run through once, in front of what is shown or as the front of the path.
    calc w.resolve ⟨w.shown p⟩
      _ = .ofNames true (q.components.foldl Path.follow (Path.namesOf w.root.components)) := by
        rw [shown_eq, resolve_eq absolute]
      _ = .ofNames true (Path.namesOf p.components) := by rw [split, Path.namesOf_append]
      _ = w.resolve p := by
        rw [resolve_eq absolute, Path.namesOf, Path.foldl_follow_components,
          Path.foldl_follow_components, if_pos top, if_pos top]
  · have whole : p.below? w.root = none := by rw [Path.below?, Bool.eq_false_iff.mpr under]; rfl
    rw [shown, whole, Option.getD_none]

end Workspace

namespace Session

/-- Following a path is a run over its steps, and joined paths are runs one after the other: a normal form
holds the names that the run ends with and no other step, and it can stand in for a path wherever
another one is read from it. So in a session with an absolute root every path is settled by reading it
once, and what is shown of a settled path is read as that path, below the root or elsewhere. -/
theorem settles_paths :
    (∀ p q : Path,
      p.normal.components =
        (if p.isAbsolute then [.top] else []) ++ (Path.namesOf p.components).map .name ∧
      (.here ∉ p.normal.components ∧ .up ∉ p.normal.components) ∧
      p.normal.normal = p.normal ∧
      Path.namesOf (p.join q).components = q.components.foldl Path.follow (Path.namesOf p.components) ∧
      (p.join q).normal = (p.normal.join q).normal) ∧
    ∀ s : Session, s.place.root.isAbsolute = true →
      (∀ p, (s.place.resolve p).isAbsolute = true ∧ (s.place.resolve p).IsNormal ∧
        s.place.resolve (s.place.resolve p) = s.place.resolve p) ∧
      ∀ p : Path, p.isAbsolute = true → p.IsNormal → s.place.resolve ⟨s.place.shown p⟩ = p := by
  refine ⟨fun p q => ⟨p.components_normal, p.not_mem_components_normal, p.normal_normal,
    p.namesOf_join q, (p.normal_join q).symm⟩, fun s absolute => ⟨fun p => ?_, fun p top normal => ?_⟩⟩
  · have top := Workspace.isAbsolute_resolve absolute p
    have normal := s.place.isNormal_resolve p
    exact ⟨top, normal, Workspace.resolve_of_isNormal top normal⟩
  · rw [Workspace.resolve_shown absolute, Workspace.resolve_of_isNormal top normal]

/-- A hidden file below the root, and one beside it whose path begins with the same letters. -/
theorem settles_paths_beside :
    let s : Session := ⟨⟨⟨{}, ⟨"/w"⟩, {}⟩, {}, 0⟩, {}⟩
    let inside : Path := ⟨"/w/.b/a.ts"⟩
    let beside : Path := ⟨"/w2/a.ts"⟩
    s.place.root.isAbsolute = true ∧
      (inside.isAbsolute = true ∧ inside.IsNormal ∧ s.place.shown inside = ".b/a.ts" ∧
        s.place.resolve ⟨".b/a.ts"⟩ = inside) ∧
      beside.isAbsolute = true ∧ beside.IsNormal ∧ s.place.shown beside = "/w2/a.ts" ∧
        s.place.resolve ⟨"/w2/a.ts"⟩ = beside := by
  intro s inside beside
  have absolute : s.place.root.isAbsolute = true := by decide +kernel
  have top : inside.isAbsolute = true ∧ beside.isAbsolute = true := by decide +kernel
  have normal : inside.IsNormal ∧ beside.IsNormal :=
    ⟨show Path.normal _ = _ by decide +kernel, show Path.normal _ = _ by decide +kernel⟩
  have shown : s.place.shown inside = ".b/a.ts" ∧ s.place.shown beside = "/w2/a.ts" := by
    decide +kernel
  have back := (settles_paths.2 s absolute).2
  exact ⟨absolute, ⟨top.1, normal.1, shown.1, shown.1 ▸ back inside top.1 normal.1⟩,
    top.2, normal.2, shown.2, shown.2 ▸ back beside top.2 normal.2⟩

end Session
end Registrar
