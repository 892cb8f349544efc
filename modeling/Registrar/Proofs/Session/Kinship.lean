import Registrar.Proofs.Session.Heard
import Registrar.Proofs.Workflow.Deleting
import Registrar.Workflow.Creation

/-!
Sessions that are kin. They have the same answers left, and workplaces that are the same but for the
time; they may differ in what the user has seen, or in what is staged. What is asked, said and changed on
the disk comes to the same in both of them, so whole commands do, up to the step that looks at what they
differ in.
-/

namespace Registrar

/-- A relation of sessions that is kept when both are answered alike, are told the same and have the same
disk. -/
structure Kinship (R : Session → Session → Prop) : Prop where
  place {s s' : Session} (kin : R s s') : s'.place = { s.place with clock := s'.place.clock }
  respondent {s s' : Session} (kin : R s s') : s'.talk.respondent = s.talk.respondent
  hears {s s' : Session} (kin : R s s') (respondent : Respondent) :
    R { s with talk := { s.talk with respondent } } { s' with talk := { s'.talk with respondent } }
  sees {s s' : Session} (kin : R s s') (e : Event) :
    R { s with talk := { s.talk with events := s.talk.events ++ [e] } }
      { s' with talk := { s'.talk with events := s'.talk.events ++ [e] } }
  finds {s s' : Session} (kin : R s s') (disk : Disk) :
    R { s with place := { s.place with disk } } { s' with place := { s'.place with disk } }

/-- Kin come to the same result, and are then in another relation. -/
def Parallel {α : Type} (R P : Session → Session → Prop) (run : Session → α × Session) : Prop :=
  ∀ s s' : Session, R s s' → (run s').1 = (run s).1 ∧ P (run s).2 (run s').2

variable {R P : Session → Session → Prop} {α β : Type}

/-- A run that goes on after its first part, unless that has failed. -/
theorem Parallel.next {first : Session → Except Failure α × Session}
    {rest : α → Session → Except Failure β × Session} {run : Session → Except Failure β × Session}
    (parts : ∀ s, run s = match first s with
      | (.ok a, m) => rest a m
      | (.error why, m) => (.error why, m))
    (begins : Parallel R R first) (ends : ∀ a, Parallel R P (rest a)) (weaker : ∀ {s s'}, R s s' → P s s') :
    Parallel R P run := by
  intro s s' kin
  obtain ⟨same, left⟩ := begins s s' kin
  rw [parts, parts]
  generalize first s = ended at same left
  generalize first s' = ended' at same left
  obtain ⟨_, m⟩ := ended
  obtain ⟨result, m'⟩ := ended'
  obtain rfl := same
  cases result with
  | error why => exact ⟨rfl, weaker left⟩
  | ok a => exact ends a m m' left

/-! ### Inquiries -/

namespace Inquiry

/-- The plan of a new registry in the folder that was settled on, if one was. -/
def fileRegistry (w : Workplace) (label? : Option String) (name : String) (settled? : Option Path) :
    Inquiry (Decision RegistryPlan) := do
  let some folder := settled? | return .cancel
  let stem := Naming.fileStem w.config name
  match w.config.checkFileName stem with
  | .error why => throw (.name why)
  | .ok () =>
    let path := folder.child (stem ++ w.config.registryExtension)
    if w.disk.holds path then throw (.occupied path)
    else return .carryOut ⟨folder, path, name, label?⟩

/-- What is found out of a new registry once its folder and its name are known. -/
def planRegistry (w : Workplace) (label? : Option String) (folder : Path) (name : String) :
    Inquiry (Decision RegistryPlan) := do
  let settled? ← if w.config.preventNesting then do settledFolder ((← patience) + 1) folder
    else pure (some folder)
  fileRegistry w label? name settled?

theorem inquire_newRegistry (options : NewRegistry) : (Workflow.newRegistry options).inquire = (do
    let w ← read
    let some folder ← folderOr options.folder? registryFolderWords | return .cancel
    let some name ← named (options.name?.map fun name => String.ofList (Text.trim name.toList))
      "Registry class name" w.config.checkClassName | return .cancel
    planRegistry w options.label? folder name) :=
  rfl

/-- The plan of a new helper, and of the registry that it is put into if it is to be. -/
def registerHelper (into? : Option Path) (folder path : Path) (className : String)
    (register : Bool) : Inquiry (Decision HelperPlan) :=
  if register then
    withRegistry into? fun registry => return .carryOut ⟨folder, path, className, some registry⟩
  else return .carryOut ⟨folder, path, className, none⟩

/-- What is found out of a new helper once its folder and its name are known. -/
def planHelper (w : Workplace) (register? : Option Bool) (into? : Option Path) (folder : Path)
    (name : String) : Inquiry (Decision HelperPlan) := do
  let className := Naming.canonical w.config.classSuffix name
  let path := folder.child (Naming.fileStem w.config className ++ w.config.helperExtension)
  if w.disk.holds path then throw (.occupied path)
  let register ← match register? with
    | some register => pure register
    | none => confirmation ("Register " ++ className ++ " in a registry?") true
  registerHelper into? folder path className register

theorem inquire_newHelper (options : NewHelper) : (Workflow.newHelper options).inquire = (do
    let w ← read
    let some folder ← folderOr options.folder? "Directory for the helper" | return .cancel
    let some name ← named options.name? "Helper class name" w.config.checkHelperName
      | return .cancel
    planHelper w options.register? options.registry? folder name) :=
  rfl

/-- The inquiry comes to the same for kin. -/
def Heedless (R : Session → Session → Prop) (i : Inquiry α) : Prop := Parallel R R (·.inquire i)

theorem Heedless.pure (a : α) : Heedless R (pure a) := fun _ _ kin => ⟨rfl, kin⟩

theorem Heedless.throw (why : Failure) : Heedless R (throw why : Inquiry α) := fun _ _ kin => ⟨rfl, kin⟩

theorem Heedless.bind {i : Inquiry α} {f : α → Inquiry β} (first : Heedless R i)
    (rest : ∀ a, Heedless R (f a)) : Heedless R (i >>= f) :=
  Parallel.next (fun s => inquire_bind s i f) first rest id

theorem Heedless.forM {l : List β} {f : β → Inquiry Unit} (each : ∀ b, Heedless R (f b)) :
    Heedless R (l.forM f) := by
  induction l with
  | nil => exact .pure ()
  | cons b rest ih => exact (each b).bind fun _ => ih

section
variable (kinship : Kinship R)
include kinship

/-- What is read is the workplace at some time, which must not matter. -/
theorem Heedless.read {f : Workplace → Inquiry β} (rest : ∀ w, Heedless R (f w))
    (timeless : ∀ w clock, f { w with clock } = f w) : Heedless R (read >>= f) := by
  intro s s' kin
  dsimp only
  rw [inquire_read_bind, inquire_read_bind, kinship.place kin, timeless]
  exact rest s.place s s' kin

theorem Heedless.patience {f : Nat → Inquiry β} (rest : ∀ n, Heedless R (f n)) :
    Heedless R (patience >>= f) := by
  intro s s' kin
  dsimp only
  rw [inquire_patience_bind, inquire_patience_bind, kinship.respondent kin]
  exact rest _ s s' kin

theorem Heedless.record (e : Event) : Heedless R (liftM (Talk.record e) : Inquiry Unit) :=
  fun _ _ kin => ⟨rfl, kinship.sees kin e⟩

theorem Heedless.take {q : Question} {accept : Answer → Except AnswerFault α} :
    Heedless R (take q accept) := by
  have answers : Heedless R (liftM (Talk.answer q) : Inquiry (Except AnswerFault Answer)) := by
    intro s s' kin
    have left := kinship.respondent kin
    have hears := kinship.hears kin
    obtain ⟨w, ⟨respondent, events, staged⟩⟩ := s
    obtain ⟨w', ⟨respondent', events', staged'⟩⟩ := s'
    obtain rfl : respondent' = respondent := left
    cases respondent' with
    | nobody => exact ⟨rfl, kin⟩
    | script answers =>
      cases answers with
      | nil => exact ⟨rfl, kin⟩
      | cons answer rest => exact ⟨rfl, hears (.script rest)⟩
  refine answers.bind fun answer => ?_
  split
  · exact .pure _
  · exact .throw _

theorem Heedless.ask {q : Question} {accept : Answer → Except AnswerFault α} :
    Heedless R (ask q accept) :=
  (Heedless.record kinship _).bind fun _ => .take kinship

theorem Heedless.folder (words : String) : Heedless R (folder words) :=
  .read kinship (fun _ => (Heedless.ask kinship).bind fun _ => .pure _) fun _ _ => rfl

theorem Heedless.file (words : String) : Heedless R (file words) :=
  .read kinship (fun _ => (Heedless.ask kinship).bind fun _ => .pure _) fun _ _ => rfl

theorem Heedless.textWithin (q : Question) (check : String → Except NameFault Unit) (tries : Nat) :
    Heedless R (textWithin q check tries) := by
  induction tries with
  | zero => exact .throw _
  | succ tries ih =>
    refine (Heedless.take kinship).bind fun answer? => ?_
    split
    · exact .pure _
    · dsimp only
      split
      · exact .pure _
      · exact (Heedless.record kinship _).bind fun _ => ih

theorem Heedless.text (words : String) (check : String → Except NameFault Unit) :
    Heedless R (text words check) :=
  (Heedless.record kinship _).bind fun _ => .patience kinship fun _ => .textWithin kinship _ _ _

theorem Heedless.named (given? : Option String) (words : String)
    (check : String → Except NameFault Unit) : Heedless R (named given? words check) := by
  cases given? with
  | none => exact .text kinship _ _
  | some given =>
    rw [Inquiry.named]
    split
    · exact .pure _
    · exact .throw _

theorem Heedless.folderOr (given? : Option Path) (words : String) :
    Heedless R (folderOr given? words) := by
  cases given? with
  | none => exact .folder kinship _
  | some given => exact .read kinship (fun _ => .pure _) fun _ _ => rfl

theorem Heedless.settledFolder (tries : Nat) (folder : Path) :
    Heedless R (settledFolder tries folder) := by
  induction tries generalizing folder with
  | zero => exact .throw _
  | succ tries ih =>
    rw [Inquiry.settledFolder]
    refine .read kinship (fun w => ?_) fun _ _ => rfl
    dsimp only
    generalize w.nesting folder (if folder.isUnder w.root = true then some w.root else none) = n
    split
    · exact .pure _
    · refine (Heedless.record kinship _).bind fun _ => (Heedless.ask kinship).bind fun choice? => ?_
      split
      · exact .pure _
      · refine (Heedless.folder kinship _).bind fun other? => ?_
        split
        · exact ih _
        · exact .pure _
      · exact .pure _

theorem Heedless.confirmed {Plan : Type} (sure : Bool) (words : String) (offered : Bool)
    (plan : Plan) : Heedless R (confirmed sure words offered plan) := by
  rw [Inquiry.confirmed]
  split
  · exact .pure _
  · refine (Heedless.ask kinship).bind fun yes => ?_
    split <;> exact .pure _

theorem heedless_planRegistry (w : Workplace) (label? : Option String) (folder : Path) (name : String) :
    Heedless R (planRegistry w label? folder name) := by
  have finishes : ∀ settled?, Heedless R (fileRegistry w label? name settled?) := by
    intro settled?
    cases settled? with
    | none => exact .pure _
    | some folder =>
      rw [fileRegistry]
      split
      · exact .throw _
      · dsimp only
        split
        · exact .throw _
        · exact .pure _
  rw [planRegistry]
  split
  · exact .patience kinship fun tries => (Heedless.settledFolder kinship _ _).bind finishes
  · exact (Heedless.pure _).bind finishes

/-- The plan of a new registry is the same for kin. -/
theorem heedless_newRegistry (options : NewRegistry) :
    Heedless R (Workflow.newRegistry options).inquire := by
  rw [inquire_newRegistry]
  refine .read kinship (fun w => (Heedless.folderOr kinship _ _).bind fun folder? => ?_) fun _ _ => rfl
  split
  · refine (Heedless.named kinship _ _ _).bind fun name? => ?_
    split
    · exact heedless_planRegistry kinship _ _ _ _
    · exact .pure _
  · exact .pure _

end

end Inquiry

/-! ### Actions -/

namespace Action

/-- The action comes to the same for kin. -/
def Heedless (R : Session → Session → Prop) (a : Action α) : Prop := Parallel R R (·.act a)

theorem Heedless.pure (a : α) : Heedless R (pure a) := fun _ _ kin => ⟨rfl, kin⟩

/-- What comes to the same is done before what leaves the relation. -/
theorem Heedless.next {a : Action α} {f : α → Action β} (first : Heedless R a)
    (rest : ∀ x, Parallel R P (·.act (f x))) (weaker : ∀ {s s'}, R s s' → P s s') :
    Parallel R P (·.act (a >>= f)) :=
  Parallel.next (fun s => act_bind s a f) first rest weaker

theorem Heedless.bind {a : Action α} {f : α → Action β} (first : Heedless R a)
    (rest : ∀ x, Heedless R (f x)) : Heedless R (a >>= f) :=
  first.next rest id

section
variable (kinship : Kinship R)
include kinship

/-- What is looked at is the workplace at some time, which must not matter. -/
theorem parallel_place {f : Workplace → Action β} (rest : ∀ w, Parallel R P (·.act (f w)))
    (timeless : ∀ w clock, f { w with clock } = f w) : Parallel R P (·.act (place >>= f)) := by
  intro s s' kin
  have looks : ∀ s : Session, s.act (place >>= f) = s.act (f s.place) := fun _ => rfl
  dsimp only
  rw [looks, looks, kinship.place kin, timeless]
  exact rest s.place s s' kin

theorem Heedless.say (tone : Tone) (text : String) :
    Heedless R (liftM (Talk.say tone text) : Action Unit) :=
  fun _ _ kin => ⟨rfl, kinship.sees kin _⟩

theorem Heedless.changeDisk {f : Workplace → Except Failure (α × Disk)}
    (timeless : ∀ w clock, f { w with clock } = f w) : Heedless R (changeDisk f) := by
  intro s s' kin
  have same : f s'.place = f s.place := by rw [kinship.place kin, timeless]
  dsimp only
  cases changed : f s.place with
  | error why =>
    rw [act_changeDisk_error changed, act_changeDisk_error (same.trans changed)]
    exact ⟨rfl, kin⟩
  | ok result =>
    rw [act_changeDisk_ok changed, act_changeDisk_ok (same.trans changed)]
    exact ⟨rfl, kinship.finds kin _⟩

theorem Heedless.atPath (deed : Deed) (path : Path) (f : Disk → Except FileError Disk) :
    Heedless R (atPath deed path f) :=
  .changeDisk kinship fun _ _ => rfl

end

theorem Heedless.forM {l : List β} {f : β → Action Unit} (each : ∀ b, Heedless R (f b)) :
    Heedless R (l.forM f) := by
  induction l with
  | nil => exact .pure ()
  | cons b rest ih => exact (each b).bind fun _ => ih

end Action

/-! ### Workflows -/

namespace Workflow

variable {Plan : Type} {c : Plan → Action Unit}

theorem follow_carryOut_ok {s m : Session} {plan : Plan} (acted : s.act (c plan) = (.ok (), m)) :
    s.follow ⟨pure (.carryOut plan), c⟩ = (.ok .completed, m) := by
  simp only [Session.follow, Inquiry.inquire_pure, acted]

theorem follow_carryOut_error {s m : Session} {plan : Plan} {why : Failure}
    (acted : s.act (c plan) = (.error why, m)) :
    s.follow ⟨pure (.carryOut plan), c⟩ = (.error why, m) := by
  simp only [Session.follow, Inquiry.inquire_pure, acted]

/-- What is asked first leads to the rest of the workflow. -/
theorem follow_bind (s : Session) (i : Inquiry α) (f : α → Inquiry (Decision Plan)) :
    s.follow ⟨i >>= f, c⟩ = match s.inquire i with
      | (.ok a, s) => s.follow ⟨f a, c⟩
      | (.error why, s) => (.error why, s) := by
  rw [Session.follow, Inquiry.inquire_bind]
  rcases s.inquire i with ⟨why | a, m⟩ <;> rfl

theorem parallel_carryOut {plan : Plan} (carried : Parallel R P (·.act (c plan))) :
    Parallel R P (·.follow ⟨pure (.carryOut plan), c⟩) := by
  intro s s' kin
  obtain ⟨same, left⟩ := carried s s' kin
  dsimp only at same left ⊢
  generalize acted : s.act (c plan) = ended at same left
  generalize acted' : s'.act (c plan) = ended' at same left
  obtain ⟨_, m⟩ := ended
  obtain ⟨result, m'⟩ := ended'
  obtain rfl := same
  cases result with
  | error why =>
    rw [follow_carryOut_error acted, follow_carryOut_error acted']
    exact ⟨rfl, left⟩
  | ok =>
    rw [follow_carryOut_ok acted, follow_carryOut_ok acted']
    exact ⟨rfl, left⟩

theorem parallel_read (kinship : Kinship R) {f : Workplace → Inquiry (Decision Plan)}
    (rest : ∀ w, Parallel R P (·.follow ⟨f w, c⟩)) (timeless : ∀ w clock, f { w with clock } = f w) :
    Parallel R P (·.follow ⟨read >>= f, c⟩) := by
  intro s s' kin
  have reads : ∀ s : Session, s.follow ⟨MonadReader.read >>= f, c⟩ = s.follow ⟨f s.place, c⟩ :=
    fun _ => rfl
  dsimp only
  rw [reads, reads, kinship.place kin, timeless]
  exact rest s.place s s' kin

section
variable (weaker : ∀ {s s'}, R s s' → P s s')
include weaker

theorem parallel_throw (why : Failure) : Parallel R P (·.follow ⟨throw why, c⟩) :=
  fun _ _ kin => ⟨rfl, weaker kin⟩

theorem parallel_cancel : Parallel R P (·.follow ⟨pure .cancel, c⟩) :=
  fun _ _ kin => ⟨rfl, weaker kin⟩

theorem parallel_rest : Parallel R P (·.follow ⟨pure .rest, c⟩) := fun _ _ kin => ⟨rfl, weaker kin⟩

theorem parallel_bind {i : Inquiry α} {f : α → Inquiry (Decision Plan)}
    (first : Inquiry.Heedless R i) (rest : ∀ a, Parallel R P (·.follow ⟨f a, c⟩)) :
    Parallel R P (·.follow ⟨i >>= f, c⟩) :=
  Parallel.next (fun s => follow_bind s i f) first rest weaker

/-- Where kin come to the same plan, what is done about it decides. -/
theorem parallel_whole {i : Inquiry (Decision Plan)} (asked : Inquiry.Heedless R i)
    (carried : ∀ plan, Parallel R P (·.act (c plan))) : Parallel R P (·.follow ⟨i, c⟩) := by
  have parts : (⟨i, c⟩ : Workflow Plan) = ⟨i >>= pure, c⟩ := by rw [bind_pure]
  rw [parts]
  refine parallel_bind weaker asked fun decision => ?_
  cases decision with
  | cancel => exact parallel_cancel weaker
  | rest => exact parallel_rest weaker
  | carryOut plan => exact parallel_carryOut (carried plan)

/-- What a new helper comes to, where it comes to the same with a registry and without one. -/
theorem parallel_newHelper (kinship : Kinship R) (options : NewHelper)
    (registers : ∀ folder path className register, Parallel R P (·.follow
      ⟨Inquiry.registerHelper options.registry? folder path className register,
        (newHelper options).carryOut⟩)) :
    Parallel R P (·.follow (newHelper options)) := by
  have plans : ∀ w folder name, Parallel R P (·.follow
      ⟨Inquiry.planHelper w options.register? options.registry? folder name,
        (newHelper options).carryOut⟩) := by
    intro w folder name
    rw [Inquiry.planHelper]
    dsimp only
    split
    · exact parallel_throw weaker _
    · split
      · exact parallel_bind weaker (.pure _) (registers _ _ _)
      · exact parallel_bind weaker (.ask kinship) (registers _ _ _)
  have parts : newHelper options = ⟨_, (newHelper options).carryOut⟩ :=
    congrArg (Workflow.mk · _) (Inquiry.inquire_newHelper options)
  rw [parts]
  refine parallel_read kinship (fun w => parallel_bind weaker
    (Inquiry.Heedless.folderOr kinship _ _) fun folder? => ?_) fun _ _ => rfl
  split
  · refine parallel_bind weaker (Inquiry.Heedless.named kinship _ _ _) fun name? => ?_
    split
    · exact plans _ _ _
    · exact parallel_cancel weaker
  · exact parallel_cancel weaker

end

end Workflow
end Registrar
