import Registrar.Proofs.Session.Heard
import Registrar.Proofs.Workflow.Cleanup
import Registrar.Proofs.Workflow.Deleting
import Registrar.Workflow.Use

/-!
No file uses itself. The helpers that are offered for a file are the registry's but for the own one of
the file, which is found by the class that the file declares; so where the accessors of a registry
return different types, what is put into a file never returns the file's own class. Who asks for the
own accessor is told so, and nothing is changed.
-/

namespace Registrar

open Inquiry

/-- No two accessors return the same type. -/
def Zones.ReturnsApart (z : Zones) : Prop := (z.accessors.filterMap (·.returns)).Nodup

instance (z : Zones) : Decidable z.ReturnsApart :=
  inferInstanceAs (Decidable (List.Nodup _))

namespace UsePlan

/-- What is put into a file is the call of an accessor of a registry that returns an imported class,
and not the file's own. -/
structure IsOffered (plan : UsePlan) (z : Zones) (own? : Option String) : Prop where
  listed : ∃ a ∈ z.accessors, a.name = plan.accessor ∧ a.returns = some plan.className
  imported : z.importsName plan.className = true
  other : own? ≠ some plan.accessor

/-- The call has been put into its file; besides, preferences may have been written. -/
def IsDone (plan : UsePlan) (w w' : Workplace) : Prop :=
  ∃ disk, w.use plan.file plan.line plan.registry plan.accessor plan.className = .ok disk ∧
    Workplace.Saves { w with disk } w'

end UsePlan

/-! ### The own accessor -/

namespace Zones

variable {z : Zones} {a : Accessor} {type : String}

theorem mem_helpers_iff : (a, type) ∈ z.helpers ↔
    a ∈ z.accessors ∧ a.returns = some type ∧ z.importsName type = true := by
  rw [helpers, List.mem_filterMap]
  constructor
  · rintro ⟨a', member, some_⟩
    split at some_
    · next type' returns =>
      split at some_
      · next imported =>
        obtain ⟨rfl, rfl⟩ := Prod.mk.inj (Option.some.inj some_)
        exact ⟨member, returns, imported⟩
      · cases some_
    · cases some_
  · rintro ⟨member, returns, imported⟩
    exact ⟨a, member, by simp [returns, imported]⟩

/-- Where types are returned once, the accessor of a type that is returned is the one that returns
it. -/
theorem ReturnsApart.accessorOf? (apart : z.ReturnsApart) (member : a ∈ z.accessors)
    (returns : a.returns = some type) : z.accessorOf? type = some a := by
  obtain ⟨b, found⟩ : ∃ b, z.accessorReturning? type = some b :=
    Option.isSome_iff_exists.mp (List.find?_isSome.mpr ⟨a, member, by simp [returns]⟩)
  have returns' : b.returns = some type := by simpa using List.find?_some found
  have same : a = b := by
    by_contra other
    have pairs := List.pairwise_filterMap.mp apart
    have : Std.Symm fun x y : Accessor => ∀ t, x.returns = some t → ∀ t', y.returns = some t' → t ≠ t' :=
      ⟨fun x y differ t there t' there' => (differ t' there' t there).symm⟩
    exact pairs.forall member (List.mem_of_find?_eq_some found) other type returns type returns' rfl
  rw [Zones.accessorOf?, found, same, Option.some_or]

end Zones

/-- What is listed and not the own accessor is offered. -/
theorem UsePlan.isOffered_of_mem {plan : UsePlan} {z : Zones} {own? : Option String}
    (member : (plan.accessor, plan.className) ∈
      (z.helpers.map fun (a, type) => (a.name, type)).filter fun (name, _) => own? != some name) :
    plan.IsOffered z own? := by
  obtain ⟨listed, other⟩ := List.mem_filter.mp member
  obtain ⟨⟨a, type⟩, known, same⟩ := List.mem_map.mp listed
  obtain ⟨named, rfl⟩ := Prod.mk.inj same
  obtain ⟨there, returns, imported⟩ := Zones.mem_helpers_iff.mp known
  exact ⟨⟨a, there, named, returns⟩, imported, by simpa using other⟩

/-- Where types are returned once, what is offered for a file does not return the class that the file
declares. -/
theorem UsePlan.IsOffered.className?_ne {plan : UsePlan} {w : Workspace} {file registry : Path}
    {t text : Text} {own? : Option String} (offered : plan.IsOffered (Zones.ofText t) own?)
    (readRegistry : w.read registry = .ok t) (readFile : w.read file = .ok text)
    (own : w.ownAccessor? file registry = .ok own?) (apart : (Zones.ofText t).ReturnsApart) :
    Recognition.className? text ≠ some plan.className := by
  intro declared
  obtain ⟨a, member, named, returns⟩ := offered.listed
  have found : w.ownAccessor? file registry = .ok (some plan.accessor) := by
    rw [Workspace.ownAccessor?, readFile, readRegistry]
    simp only [bind, Except.bind, declared, offered.imported, if_true,
      apart.accessorOf? member returns, Option.map_some, named]
    rfl
  exact offered.other (Except.ok.inj (own.symm.trans found))

/-! ### The inquiry -/

namespace Inquiry

variable {s s' : Session}

theorem inquire_readText_eq_ok_iff {file : Path} {t : Text} :
    s.inquire (readText file) = (.ok t, s') ↔ s.place.disk.readText file = .ok t ∧ s = s' := by
  rw [readText, inquire_read_bind]
  cases s.place.disk.readText file with
  | ok t' =>
    dsimp only
    rw [inquire_pure_eq_ok_iff, Except.ok.injEq]
  | error why => simp [inquire_throw_ne_ok]

theorem inquire_withRegistry_eq_ok_iff {Plan : Type} {given? : Option Path}
    {next : Path → Inquiry (Decision Plan)} {decision : Decision Plan} :
    s.inquire (withRegistry given? next) = (.ok decision, s') ↔
      ∃ path? m, s.inquire (registry given?) = (.ok path?, m) ∧
        match path? with
        | none => .cancel = decision ∧ m = s'
        | some path => m.inquire (next path) = (.ok decision, s') := by
  rw [withRegistry, inquire_bind_eq_ok_iff]
  refine exists_congr fun path? => exists_congr fun m => and_congr_right fun _ => ?_
  cases path? with
  | none => exact inquire_pure_eq_ok_iff
  | some path => rfl

/-- What the accessors are said to be does not matter for which of them are offered. -/
theorem inquire_usable (s : Session) (z : Zones) (own? : Option String) : ∃ m,
    s.inquire (usable z own?) = (.ok ((z.helpers.map fun (a, type) => (a.name, type)).filter
      fun (name, _) => own? != some name), m) ∧ m.place = s.place := by
  obtain ⟨events, said⟩ := inquire_forM_say
    ((z.helpers.map fun (a, type) => (a.name, type)).filter fun (name, _) => own? == some name)
    (fun (name, className) =>
      "Not offering " ++ name ++ ": this file declares " ++ className ++ " itself") s
  rw [usable, inquire_bind, said]
  exact ⟨_, rfl, rfl⟩

end Inquiry

namespace Using

/-- What a use comes to once its registry, with the text `t`, is found. -/
structure Decides (options : Using) (w : Workspace) (registry : Path) (t : Text)
    (own? : Option String) (decision : Decision UsePlan) : Prop where
  read : w.disk.readText registry = .ok t
  own : w.ownAccessor? (w.resolve options.file) registry = .ok own?
  /-- Who asks for the own accessor gets nothing. -/
  skips : ∀ wanted, options.accessor? = some wanted → own? = some wanted → decision = .rest
  plans : ∀ plan, decision = .carryOut plan → plan.file = w.resolve options.file ∧
    plan.line = options.line ∧ plan.registry = registry ∧ plan.IsOffered (Zones.ofText t) own?

end Using

namespace Workflow

variable {s s' : Session} {options : Using} {decision : Decision UsePlan}

/-- A use that comes to something has found its registry, and has offered what it may. -/
theorem of_inquire_use (ended : s.inquire (use options).inquire = (.ok decision, s')) :
    ∃ path?, (s.inquire (registry options.registry?)).1 = .ok path? ∧
      match path? with
      | none => decision = .cancel
      | some path => ∃ t own?, options.Decides s.place.toWorkspace path t own? decision := by
  rw [use, inquire_read_bind] at ended
  dsimp only at ended
  split at ended
  · obtain ⟨_, _, failed, -⟩ := inquire_bind_eq_ok_iff.mp ended
    exact absurd failed (inquire_throw_ne_ok _)
  obtain ⟨path?, m, chosen, ended⟩ := inquire_withRegistry_eq_ok_iff.mp ended
  refine ⟨path?, by rw [chosen], ?_⟩
  have same : m.place = s.place := by rw [← s.inquire_place (registry options.registry?), chosen]
  cases path? with
  | none => exact ended.1.symm
  | some path =>
    dsimp only at ended ⊢
    split at ended
    · obtain ⟨_, _, failed, -⟩ := inquire_bind_eq_ok_iff.mp ended
      exact absurd failed (inquire_throw_ne_ok _)
    obtain ⟨t, _, got, ended⟩ := inquire_bind_eq_ok_iff.mp ended
    obtain ⟨there, rfl⟩ := inquire_readText_eq_ok_iff.mp got
    rw [same] at there
    split at ended
    · next own? own =>
      obtain ⟨_, _, known, ended⟩ := inquire_bind_eq_ok_iff.mp ended
      obtain ⟨rfl, rfl⟩ := inquire_pure_eq_ok_iff.mp known
      obtain ⟨helpers, m', offered, ended⟩ := inquire_bind_eq_ok_iff.mp ended
      obtain ⟨m'', usable_, -⟩ := inquire_usable m (Zones.ofText t) own?
      obtain ⟨rfl, rfl⟩ := Prod.mk.inj (usable_.symm.trans offered) |>.imp_left Except.ok.inj
      refine ⟨t, own?, there, own, ?_, ?_⟩
      · rintro wanted asked rfl
        rw [asked] at ended
        simp only [BEq.rfl, if_true] at ended
        obtain ⟨_, _, -, ended⟩ := inquire_bind_eq_ok_iff.mp ended
        exact (inquire_pure_eq_ok_iff.mp ended).1.symm
      · rintro plan rfl
        -- Whether it is asked for or picked, the accessor is among those that are offered.
        have planned : ∀ helper ∈ ((Zones.ofText t).helpers.map fun (a, type) => (a.name, type)).filter
              fun (name, _) => own? != some name,
            plan = ⟨s.place.resolve options.file, options.line, path, helper.1, helper.2⟩ →
              plan.file = s.place.resolve options.file ∧ plan.line = options.line ∧
                plan.registry = path ∧ plan.IsOffered (Zones.ofText t) own? := by
          rintro helper member rfl
          exact ⟨rfl, rfl, rfl, UsePlan.isOffered_of_mem member⟩
        split at ended
        · split at ended
          · obtain ⟨_, _, -, ended⟩ := inquire_bind_eq_ok_iff.mp ended
            cases (inquire_pure_eq_ok_iff.mp ended).1
          · split at ended
            · next found =>
              refine planned _ (List.mem_of_find?_eq_some found) ?_
              exact (Decision.carryOut.inj (inquire_pure_eq_ok_iff.mp ended).1).symm
            · exact absurd ended (inquire_throw_ne_ok _)
        · split at ended
          · obtain ⟨_, _, failed, -⟩ := inquire_bind_eq_ok_iff.mp ended
            exact absurd failed (inquire_throw_ne_ok _)
          obtain ⟨choice?, m₂, picked, ended⟩ := inquire_bind_eq_ok_iff.mp ended
          split at ended
          · next accessor className =>
            obtain ⟨_, -, -, among⟩ := heard_of_inquire_one picked
            obtain ⟨place, -, item⟩ := among _ rfl
            refine planned _ (List.mem_of_getElem? item) ?_
            exact (Decision.carryOut.inj (inquire_pure_eq_ok_iff.mp ended).1).symm
          · cases (inquire_pure_eq_ok_iff.mp ended).1
    · obtain ⟨_, _, failed, -⟩ := inquire_bind_eq_ok_iff.mp ended
      exact absurd failed (inquire_throw_ne_ok _)

/-- Carrying out a use changes nothing, or puts the call into the file. -/
theorem act_use (s : Session) (options : Using) (plan : UsePlan) :
    (s.act ((use options).carryOut plan)).2.place = s.place ∨
      plan.IsDone s.place (s.act ((use options).carryOut plan)).2.place := by
  obtain ⟨tells, steps, only⟩ : ∃ tells : Action Unit, (use options).carryOut plan =
      (Action.changeDisk (fun w =>
        (w.use plan.file plan.line plan.registry plan.accessor plan.className).map ((), ·)) >>= fun _ =>
          Action.commitChoice >>= fun _ => tells) ∧ tells.OnlyTells :=
    ⟨_, rfl, Action.onlyTells_place.bind fun w => Action.onlyTells_talk _⟩
  rw [steps, Action.act_bind]
  cases used : s.place.use plan.file plan.line plan.registry plan.accessor plan.className with
  | error why =>
    rw [Action.act_changeDisk_error (show _ = Except.error why by rw [used]; rfl)]
    exact .inl rfl
  | ok disk =>
    rw [Action.act_changeDisk_ok (show _ = Except.ok ((), disk) by rw [used]; rfl)]
    dsimp only
    have saves := (Action.act_commitChoice { s with place := { s.place with disk } }).1
    rw [Action.act_bind]
    generalize Session.act { s with place := { s.place with disk } } Action.commitChoice = result
      at saves
    rcases result with ⟨why | _, s'⟩
    · exact .inr ⟨disk, used, saves⟩
    · refine .inr ⟨disk, used, ?_⟩
      dsimp only
      rw [(only s').2]
      exact saves

end Workflow

/-- What a workflow changes is what is done about its plan. -/
theorem Session.follow_place_cases {Plan : Type} (s : Session) (w : Workflow Plan) :
    (s.follow w).2.place = s.place ∨ ∃ plan s', s.inquire w.inquire = (.ok (.carryOut plan), s') ∧
      (s.follow w).2.place = (s'.act (w.carryOut plan)).2.place := by
  have same := s.inquire_place w.inquire
  rw [follow]
  generalize s.inquire w.inquire = inquired at same
  rcases inquired with ⟨why | _ | _ | plan, s'⟩
  · exact .inl same
  · exact .inl same
  · exact .inl same
  · refine .inr ⟨plan, s', rfl, ?_⟩
    dsimp only
    rcases s'.act (w.carryOut plan) with ⟨why | _, s''⟩ <;> rfl

/-- A call is put into a text that can be read. -/
theorem Workspace.exists_read_of_use {w : Workspace} {file registry : Path} {line : Nat}
    {accessor className : String} {disk : Disk}
    (used : w.use file line registry accessor className = .ok disk) :
    ∃ text, w.disk.readText file = .ok text := by
  cases read : w.disk.readText file with
  | ok text => exact ⟨text, rfl⟩
  | error why =>
    rw [Workspace.use, Workspace.read, read] at used
    cases used

/-- A use that has changed anything has put the call of an accessor into its file, and where the
accessors of the registry return different types, the accessor does not return the class that the file
declares. A use that asks for the own accessor of its file changes nothing. -/
theorem Session.follow_use_apart (s : Session) (options : Using) :
    let file := s.place.resolve options.file
    let after := (s.follow (Workflow.use options)).2.place
    (after ≠ s.place → ∃ (plan : UsePlan) (t text : Text) (own? : Option String),
      (s.inquire (registry options.registry?)).1 = .ok (some plan.registry) ∧ plan.file = file ∧
        plan.line = options.line ∧ s.place.disk.readText plan.registry = .ok t ∧
        s.place.disk.readText file = .ok text ∧ s.place.ownAccessor? file plan.registry = .ok own? ∧
        plan.IsOffered (Zones.ofText t) own? ∧ plan.IsDone s.place after ∧
        ((Zones.ofText t).ReturnsApart → Recognition.className? text ≠ some plan.className)) ∧
      ∀ path wanted, (s.inquire (registry options.registry?)).1 = .ok (some path) →
        s.place.ownAccessor? file path = .ok (some wanted) → options.accessor? = some wanted →
          after = s.place := by
  intro file after
  have either : after = s.place ∨ ∃ plan s',
      s.inquire (Workflow.use options).inquire = (.ok (.carryOut plan), s') ∧
        plan.IsDone s.place after := by
    rcases s.follow_place_cases (Workflow.use options) with same | ⟨plan, s', planned, carried⟩
    · exact .inl same
    · have same := s.inquire_place (Workflow.use options).inquire
      rw [planned] at same
      have acted := Workflow.act_use s' options plan
      rw [same, ← carried] at acted
      exact acted.imp_right fun done => ⟨plan, s', planned, done⟩
  constructor
  · intro changed
    obtain same | ⟨plan, s', planned, done⟩ := either
    · exact absurd same changed
    obtain ⟨path?, chosen, decided⟩ := Workflow.of_inquire_use planned
    cases path? with
    | none => cases decided
    | some path =>
      obtain ⟨t, own?, decides⟩ := decided
      obtain ⟨atFile, atLine, rfl, offered⟩ := decides.plans plan rfl
      obtain ⟨disk, used, -⟩ := id done
      obtain ⟨text, read⟩ := Workspace.exists_read_of_use used
      rw [atFile] at read
      refine ⟨plan, t, text, own?, chosen, atFile, atLine, decides.read, read, decides.own, offered,
        done, fun apart => ?_⟩
      exact offered.className?_ne (by rw [Workspace.read, decides.read]; rfl)
        (by rw [Workspace.read, read]; rfl) decides.own apart
  · intro path wanted chosen own asked
    obtain same | ⟨plan, s', planned, -⟩ := either
    · exact same
    obtain ⟨path?, chosen', decided⟩ := Workflow.of_inquire_use planned
    obtain rfl := Except.ok.inj (chosen.symm.trans chosen')
    obtain ⟨t, own?, decides⟩ := decided
    obtain rfl := Except.ok.inj (own.symm.trans decides.own)
    cases decides.skips wanted asked rfl

/-- A login page is offered the cart page of its registry, and asks in vain for itself. -/
theorem Session.follow_use_apart_login :
    let page (name : String) : File := ⟨.text ("export class " ++ name ++ " \x7b\x7d\n").toList, 0⟩
    let registry := ("import \x7b Cart \x7d from './cart.page';\nimport \x7b Login \x7d from './login.page';\n" ++
      "export class Site \x7b\n  private static instance: Site;\n  public getCart(): Cart \x7b\x7d\n" ++
      "  public getLogin(): Login \x7b\x7d\n\x7d\n").toList
    let files := ((Folder.empty.put "cart.page.ts" (.file (page "Cart"))).put "login.page.ts"
      (.file (page "Login"))).put "site.ts" (.file ⟨.text registry, 0⟩)
    let s : Session := ⟨⟨⟨{ top := Folder.empty.put "w" (.folder files) }, ⟨"/w"⟩, {}⟩, {}, 0⟩,
      { respondent := .script [.one (some 0)] }⟩
    let options : Using := ⟨⟨"login.page.ts"⟩, 2, none, some ⟨"site.ts"⟩⟩
    (∃ plan : UsePlan, plan.IsDone s.place (s.follow (Workflow.use options)).2.place ∧
        plan.className ≠ "Login") ∧
      (s.follow (Workflow.use { options with accessor? := some "getLogin" })).2.place = s.place := by
  intro page registry files s options
  constructor
  · have changed : (s.follow (Workflow.use options)).2.place ≠ s.place := by
      intro same
      have text := congrArg (fun w => w.disk.readText? ⟨"/w/login.page.ts"⟩) same
      exact absurd text (by decide +kernel)
    obtain ⟨plan, t, text, own?, chosen, -, -, readRegistry, readFile, -, -, done, apart⟩ :=
      (s.follow_use_apart options).1 changed
    have chosen' : (s.inquire (Inquiry.registry options.registry?)).1.toOption =
        some (some ⟨"/w/site.ts"⟩) := by
      decide +kernel
    rw [chosen] at chosen'
    obtain ⟨file, line, path, accessor, className⟩ := plan
    obtain rfl : path = ⟨"/w/site.ts"⟩ := Option.some.inj (Option.some.inj chosen')
    have t_ : s.place.disk.readText? ⟨"/w/site.ts"⟩ = some registry := by decide +kernel
    have text_ : s.place.disk.readText? (s.place.resolve options.file) =
        some "export class Login \x7b\x7d\n".toList := by
      decide +kernel
    rw [Disk.readText?, readRegistry] at t_
    rw [Disk.readText?, readFile] at text_
    have declared : Recognition.className? text = some "Login" := by
      rw [Option.some.inj text_]
      decide +kernel
    have returns : (Zones.ofText t).ReturnsApart := by
      rw [Option.some.inj t_]
      decide +kernel
    exact ⟨_, done, fun own => apart returns (declared.trans (congrArg some own.symm))⟩
  · have chosen : (s.inquire (Inquiry.registry (some ⟨"site.ts"⟩))).1 = .ok (some ⟨"/w/site.ts"⟩) :=
      toOption_eq_some_iff.mp (by decide +kernel)
    have own : s.place.ownAccessor? (s.place.resolve options.file) ⟨"/w/site.ts"⟩ =
        .ok (some "getLogin") :=
      toOption_eq_some_iff.mp (by decide +kernel)
    exact (s.follow_use_apart { options with accessor? := some "getLogin" }).2 _ _ chosen own rfl

end Registrar
