import Registrar.Proofs.Workflow.Unstaged

/-!
A choice of a registry in two phases. The choice leaves the workplace as it is; a commit makes what the
answers said, and no command makes what another one has left staged. To forget a registry is to forget
its path, so of two entries at one path neither outlives the other.
-/

namespace Registrar
namespace Session

open Inquiry Action

/-- To commit what a choice has staged forgets what was removed and moved, and then uses what was
chosen. -/
theorem foldl_made_ofChoice (now : Stamp) (removed : List Remembered) (moved? : Option Remembered)
    (path : Path) (p : Preferences) :
    ((Staged.ofChoice removed moved? path).map (Staged.made now)).foldl Preferences.after p =
      (((removed ++ moved?.toList).map (·.path)).foldl Preferences.remove p).upsert now path
        (moved?.map (·.label)) := by
  rw [Staged.ofChoice, List.map_append, List.foldl_append, List.map_map, List.foldl_map,
    List.foldl_map, List.foldl_map]
  rfl

/-- A choice of a registry touches nothing but the talk. Where it comes to a registry and is committed,
that registry comes first and has the label of the one that has moved there, all that stood at the
paths of those removed or moved is gone, and all that stands elsewhere is kept. Whatever was staged
before some commands makes no difference to them. -/
theorem settled_of_commitChoice (s : Session) (given? : Option Path) :
    (s.inquire (registry given?)).2.place = s.place ∧
    (∀ path chosen committed,
      (∀ r ∈ s.place.store.preferences.registries, r.lastUsed.toNat + 1 < UInt64.size) →
      s.inquire (registry given?) = (.ok (some path), chosen) →
      chosen.act commitChoice = (.ok (), committed) →
      ∃ used removed moved?, s.talk.Heard used chosen.talk ∧
        s.place.Chosen given? used removed moved? path ∧
        s.place.store.preferences.Settled committed.place.store.preferences
          ((removed ++ moved?.toList).map (·.path)) path (moved?.map (·.label))) ∧
    ∀ (staged : List Staged) (commands : List (Bool × CommandLine.Command)),
      let unstaged : Session := { s with talk := { s.talk with staged } }
      (CommandLine.performAll unstaged commands).1 = (CommandLine.performAll s commands).1 ∧
        (CommandLine.performAll s commands).2.Like (CommandLine.performAll unstaged commands).2 := by
  refine ⟨rfl, fun path chosen committed early ended made => ?_, fun staged commands => ?_⟩
  · obtain ⟨used, removed, moved?, heard, way, staged⟩ := of_inquire_registry ended
    have kept : chosen.place = s.place := (congrArg (·.2.place) ended).symm
    have now := preferences_of_commitChoice made
    rw [staged, kept, foldl_made_ofChoice] at now
    rw [now]
    exact ⟨used, removed, moved?, heard, way, Preferences.settled_upsert early _ _ _ _⟩
  · exact CommandLine.overlooks_performAll commands s _ ⟨rfl, rfl, rfl⟩

/-- Three registries are remembered and only the first of the list is still there. The user gives up the
second. -/
def someGone (second third : Path) : Session where
  place :=
    { disk := { top := Folder.empty.put "w" (.folder (Folder.empty.put "b.ts" (.file ⟨.text [], 0⟩))) }
      root := ⟨"/w"⟩
      config := {}
      store := { preferences :=
        { registries := [⟨third, "third", 1⟩, ⟨second, "second", 2⟩, ⟨⟨"/w/b.ts"⟩, "first", 3⟩] } }
      clock := 9 }
  talk := { respondent := .script [.one (some 1), .one (some 0), .one (some 0)] }

theorem settled_of_commitChoice_someGone :
    let s := someGone ⟨"/w/a.ts"⟩ ⟨"/w/c.ts"⟩
    let committed := ((s.inquire (registry none)).2.act commitChoice).2
    ∃ removed moved?,
      s.place.Chosen none [.one (some 1), .one (some 0), .one (some 0)] removed moved? ⟨"/w/b.ts"⟩ ∧
        s.place.store.preferences.Settled committed.place.store.preferences
          ((removed ++ moved?.toList).map (·.path)) ⟨"/w/b.ts"⟩ (moved?.map (·.label)) := by
  intro s committed
  have chosen : (s.inquire (registry none)).1.toOption = some (some ⟨"/w/b.ts"⟩) := by decide +kernel
  have made : ((s.inquire (registry none)).2.act commitChoice).1.toOption = some () := by
    decide +kernel
  have told : (s.inquire (registry none)).2.talk.respondent = .script [] := by decide +kernel
  obtain ⟨used, removed, moved?, heard, way, settled⟩ := (settled_of_commitChoice s none).2.1 _ _ _
    (by decide +kernel) (Prod.ext (toOption_eq_some_iff.mp chosen) rfl)
    (Prod.ext (toOption_eq_some_iff.mp made) rfl)
  have spoken : s.talk.Heard [.one (some 1), .one (some 0), .one (some 0)]
      (s.inquire (registry none)).2.talk := .inr ⟨[], rfl, told⟩
  obtain rfl := heard.unique spoken
  exact ⟨removed, moved?, way, settled⟩

/-- The second and the third stand at one path: the third is gone with the second. -/
theorem someGone_twice :
    let s := someGone ⟨"/w/a.ts"⟩ ⟨"/w/a.ts"⟩
    let chosen := s.inquire (registry none)
    let committed := chosen.2.act commitChoice
    chosen.1.toOption = some (some ⟨"/w/b.ts"⟩) ∧ committed.1.toOption = some () ∧
      chosen.2.talk.respondent = .script [.one (some 0)] ∧
      s.place.store.preferences.list.map (·.label) = ["first", "second", "third"] ∧
      committed.2.place.store.preferences.list.map (·.label) = ["first"] := by
  decide +kernel

end Session
end Registrar
