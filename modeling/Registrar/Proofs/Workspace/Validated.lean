import Registrar.Proofs.Sorted
import Registrar.Workspace.Validation

/-!
What a validation reports, by kinds: an orphaned entry comes from the orphans of a registry that was
read, an unregistered helper has a file that no registry hands out, and the helpers that are counted
as registered are those that have one.
-/

namespace Registrar.Workspace

variable {w : Workspace} {registryPaths : List Path} {registries : List (Path × Zones)}

/-- What a validation goes through: the workspace below the normal form of its root. -/
def settled (w : Workspace) : Workspace := { w with root := w.root.normal }

/-- The helpers that a validation counts as registered. -/
def counted (w : Workspace) (registries : List (Path × Zones)) : List HelperFile :=
  w.helperFiles.filter fun h => (w.registered registries).hasFile h.file

theorem mem_of_mapM_eq_ok {α β ε : Type} {f : α → Except ε β} {l : List α} {r : List β}
    (mapped : l.mapM f = .ok r) :
    (∀ b ∈ r, ∃ a ∈ l, f a = .ok b) ∧ ∀ a ∈ l, ∃ b ∈ r, f a = .ok b := by
  induction l generalizing r with
  | nil =>
    obtain rfl : [] = r := Except.ok.inj mapped
    simp
  | cons a rest ih =>
    rw [List.mapM_cons] at mapped
    cases first : f a with
    | error why => simp [first, bind, Except.bind] at mapped
    | ok b =>
      simp only [first, bind, Except.bind] at mapped
      cases others : rest.mapM f with
      | error why => simp [others] at mapped
      | ok more =>
        simp only [others, pure, Except.pure, Except.ok.injEq] at mapped
        subst mapped
        obtain ⟨of_mem, mem_of⟩ := ih others
        constructor
        · rw [List.forall_mem_cons]
          refine ⟨⟨a, by simp, first⟩, fun b' inside => ?_⟩
          obtain ⟨a', known, same⟩ := of_mem b' inside
          exact ⟨a', List.mem_cons_of_mem _ known, same⟩
        · rw [List.forall_mem_cons]
          refine ⟨⟨b, by simp, first⟩, fun a' inside => ?_⟩
          obtain ⟨b', known, same⟩ := mem_of a' inside
          exact ⟨b', List.mem_cons_of_mem _ known, same⟩

/-- Registries that are read are read one by one. -/
theorem mem_of_readRegistries (read : w.readRegistries registryPaths = .ok registries) :
    (∀ e ∈ registries, ∃ t, w.read e.1 = .ok t ∧ e.2 = Zones.ofText t) ∧
      ∀ r ∈ registryPaths, ∃ t, w.read r = .ok t ∧ (r, Zones.ofText t) ∈ registries := by
  have one : ∀ {r : Path} {e : Path × Zones},
      (w.read r).map (fun text => (r, Zones.ofText text)) = .ok e →
        ∃ t, w.read r = .ok t ∧ e = (r, Zones.ofText t) := by
    intro r e mapped
    cases read : w.read r with
    | error why => simp [read, Except.map] at mapped
    | ok t =>
      simp only [read, Except.map, Except.ok.injEq] at mapped
      exact ⟨t, rfl, mapped.symm⟩
  obtain ⟨of_mem, mem_of⟩ := mem_of_mapM_eq_ok read
  constructor
  · intro e member
    obtain ⟨r, _, mapped⟩ := of_mem e member
    obtain ⟨t, read, rfl⟩ := one mapped
    exact ⟨t, read, rfl⟩
  · intro r member
    obtain ⟨e, inside, mapped⟩ := mem_of r member
    obtain ⟨t, read, rfl⟩ := one mapped
    exact ⟨t, read, inside⟩

/-! ### Kinds of findings -/

theorem issue_of_mem_nestedPairs {config : Config} {f : Finding}
    (member : f ∈ nestedPairs config registryPaths) : ∃ other, f.issue = .nested other := by
  induction registryPaths with
  | nil => simp [nestedPairs] at member
  | cons a rest ih =>
    rw [nestedPairs] at member
    rcases List.mem_append.mp member with member | member
    · obtain ⟨b, _, pair⟩ := List.mem_filterMap.mp member
      rw [nestedPair] at pair
      split at pair
      · split at pair
        · exact ⟨a, by rw [← Option.some.inj pair]; rfl⟩
        · split at pair
          · exact ⟨b, by rw [← Option.some.inj pair]; rfl⟩
          · simp at pair
      · simp at pair
    · exact ih member

theorem issue_of_mem_staleFindings {p : Preferences} {f : Finding}
    (member : f ∈ w.staleFindings p) : ∃ label, f.issue = .stale label := by
  obtain ⟨r, _, rfl⟩ := List.mem_map.mp member
  exact ⟨r.label, rfl⟩

theorem exists_of_mem_orphanFindings {f : Finding} (member : f ∈ w.orphanFindings registries) :
    ∃ e ∈ registries, ∃ o ∈ w.orphansIn e.1 e.2,
      f = .of w.config e.1 (.orphaned o.className o.specifier) := by
  obtain ⟨e, inside, member⟩ := List.mem_flatMap.mp member
  obtain ⟨o, orphan, rfl⟩ := List.mem_map.mp member
  exact ⟨e, inside, o, orphan, rfl⟩

/-- A finding about a helper is about its file; it is no orphan, and the file of one that is not
registered is handed out by no registry. -/
theorem of_mem_helperFindings {registered : Registered} {first? : Option Path} {h : HelperFile}
    {f : Finding} (member : f ∈ w.helperFindings registryPaths registered first? h) :
    f.file = h.file ∧ (∀ c s, f.issue ≠ .orphaned c s) ∧
      ∀ c, f.issue = .unregistered c → registered.hasFile h.file = false := by
  rw [helperFindings] at member
  split at member
  · split at member
    · obtain rfl := List.mem_singleton.mp member
      simp [Finding.of]
    · simp at member
  · rcases List.mem_append.mp member with member | member
    · rcases List.mem_append.mp member with member | member
      · obtain ⟨first, _, rfl⟩ := Option.map_eq_some_iff.mp (Option.mem_toList.mp member)
        simp [Finding.of]
      · obtain ⟨r, _, rfl⟩ := List.mem_map.mp member
        simp [Finding.of]
    · split at member
      · next missing =>
        obtain rfl := List.mem_singleton.mp member
        simp only [Bool.and_eq_true, Bool.not_eq_true'] at missing
        exact ⟨rfl, by simp [Finding.of], fun _ _ => missing.1.2⟩
      · simp at member

theorem exists_of_mem_allHelperFindings {registered : Registered} {seen : List (String × Path)}
    {helpers : List HelperFile} {f : Finding}
    (member : f ∈ w.allHelperFindings registryPaths registered seen helpers) :
    ∃ h first?, f ∈ w.helperFindings registryPaths registered first? h := by
  induction helpers generalizing seen with
  | nil => simp [allHelperFindings] at member
  | cons h rest ih =>
    rw [allHelperFindings] at member
    split at member <;> rcases List.mem_append.mp member with member | member
    · exact ⟨h, _, member⟩
    · exact ih member
    · exact ⟨h, _, member⟩
    · exact ih member

/-- What is reported of orphans and of unregistered helpers, and how many helpers are registered. -/
theorem of_validate {p : Preferences} {report : ValidationReport}
    (valid : w.validate p = .ok report) : ∃ registries,
      w.settled.readRegistries w.settled.registries = .ok registries ∧
      (∀ f ∈ report.findings, ∀ c s, f.issue = .orphaned c s → ∃ e ∈ registries, e.1 = f.file ∧
        ∃ o ∈ w.settled.orphansIn e.1 e.2, o.className = c) ∧
      (∀ f ∈ report.findings, ∀ c, f.issue = .unregistered c →
        (w.settled.registered registries).hasFile f.file = false) ∧
      report.diagnostics.registeredHelpers = (w.settled.counted registries).length := by
  rw [validate] at valid
  cases read : w.settled.readRegistries w.settled.registries with
  | error why =>
    rw [settled] at read
    simp [read, bind, Except.bind] at valid
  | ok registries =>
    have read' := read
    rw [settled] at read'
    simp only [read', bind, Except.bind, pure, Except.pure, Except.ok.injEq] at valid
    subst valid
    refine ⟨registries, rfl, fun f member c s issue => ?_, fun f member c issue => ?_, rfl⟩
    all_goals
      simp only [(sorted_perm ..).mem_iff, List.mem_append] at member
      rcases member with ((member | member) | member) | member
    · obtain ⟨other, kind⟩ := issue_of_mem_nestedPairs member
      simp [kind] at issue
    · obtain ⟨e, inside, o, orphan, rfl⟩ := exists_of_mem_orphanFindings member
      simp only [Finding.of, Issue.orphaned.injEq] at issue
      exact ⟨e, inside, rfl, o, orphan, issue.1⟩
    · obtain ⟨h, first?, member⟩ := exists_of_mem_allHelperFindings member
      exact absurd issue ((of_mem_helperFindings member).2.1 c s)
    · obtain ⟨label, kind⟩ := issue_of_mem_staleFindings member
      simp [kind] at issue
    · obtain ⟨other, kind⟩ := issue_of_mem_nestedPairs member
      simp [kind] at issue
    · obtain ⟨e, _, o, _, rfl⟩ := exists_of_mem_orphanFindings member
      simp [Finding.of] at issue
    · obtain ⟨h, first?, member⟩ := exists_of_mem_allHelperFindings member
      obtain ⟨file, _, missing⟩ := of_mem_helperFindings member
      rw [file]
      exact missing c issue
    · obtain ⟨label, kind⟩ := issue_of_mem_staleFindings member
      simp [kind] at issue

end Registrar.Workspace
