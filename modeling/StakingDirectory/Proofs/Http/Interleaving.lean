/-
**Requests whose sections interleave.**

* `Task` is how far a request is, and `Task.step` runs its next section;
* `Interleaving` runs the sections of several requests in any order, `inTurn` runs whole requests
  one after the other;
* `Task.Ran` says once what a section can come to: it looks, serves the whole request, or acts upon
  an earlier look. Sections of requests that bring no version back go forward (`Task.Ran.leadsTo`);
* `Sections.Stable`: what was found in a first section is what the whole request would do later on;
* `Interleaving.exists_order`: then each section leaves the service alone or stands for the whole
  request (`Task.Ran.whole`), and an interleaving comes to the same as the requests in turn, each of
  them at the last of its sections.
-/

import Mathlib.Logic.Function.Basic
import StakingDirectory.Proofs.Http.Act
import StakingDirectory.Proofs.Service.Freshness

namespace StakingDirectory

/-! ### Tasks -/

/-- How far a request is. -/
inductive Task where
  | waiting
  /-- The first section has found what is to be done in the second one. -/
  | between (act : Act)
  | answered (answer : Answer)

/-- Runs the next section of a request. A request without sections is answered in one step. -/
def Task.step (sections : Sections) (service : Service) : Task → Option (Task × Service)
  | .waiting =>
    match sections with
    | .none answer => some (.answered answer, service)
    | .one act => some (.answered (act service).1, (act service).2)
    | .two look =>
      match look service with
      | .error answer => some (.answered answer, service)
      | .ok act => some (.between act, service)
  | .between act => some (.answered (act service).1, (act service).2)
  | .answered _ => none

section Requests

variable {ι : Type} [DecidableEq ι]

/-- **Sections run in the order of a schedule**, those of one request one after the other. -/
inductive Interleaving (sections : ι → Sections) :
    (ι → Task) → Service → List ι → (ι → Task) → Service → Prop
  | done (tasks : ι → Task) (service : Service) :
      Interleaving sections tasks service [] tasks service
  | step {tasks after : ι → Task} {service between final : Service} {who : ι} {task : Task}
      {schedule : List ι} (ran : (tasks who).step (sections who) service = some (task, between))
      (rest : Interleaving sections (Function.update tasks who task) between schedule after final) :
      Interleaving sections tasks service (who :: schedule) after final

/-- Whole requests run one after the other; gives their answers and the last state. -/
def inTurn (sections : ι → Sections) : List ι → Service → List (ι × Answer) × Service
  | [], service => ([], service)
  | who :: rest, service =>
    let (answer, service) := (sections who).run service
    let (answers, service) := inTurn sections rest service
    ((who, answer) :: answers, service)

omit [DecidableEq ι] in
theorem inTurn_cons_eq {sections : ι → Sections} {who : ι} {rest : List ι} {service final : Service}
    {answers : ι → Answer} :
    inTurn sections (who :: rest) service =
        ((who :: rest).map fun who => (who, answers who), final) ↔
      ((sections who).run service).1 = answers who ∧
        inTurn sections rest ((sections who).run service).2 =
          (rest.map fun who => (who, answers who), final) := by
  simp [inTurn, Prod.ext_iff, and_assoc]

variable {mint : Mint} {bound : Nat} {sections : ι → Sections} {service between final : Service}

/-! ### Steps -/

/-- What the next section of a request can come to. -/
inductive Task.Ran (sections : Sections) (service : Service) : Task → Task → Service → Prop
  | looked {look : Service → Except Answer Act} {act : Act} (two : sections = .two look)
      (passed : look service = .ok act) : Ran sections service .waiting (.between act) service
  | served {answer : Answer} {after : Service} (whole : sections.run service = (answer, after)) :
      Ran sections service .waiting (.answered answer) after
  | acted (act : Act) :
      Ran sections service (.between act) (.answered (act service).1) (act service).2

/-- **A section looks, serves the whole request, or acts upon an earlier look.** -/
theorem Task.ran_of_step {task next : Task} {sections : Sections}
    (ran : task.step sections service = some (next, between)) :
    Ran sections service task next between := by
  cases task with
  | answered => cases ran
  | between act =>
    cases ran
    exact .acted act
  | waiting =>
    cases sections with
    | none | one =>
      cases ran
      exact .served rfl
    | two look =>
      simp only [Task.step] at ran
      cases found : look service with
      | error answer =>
        rw [found] at ran
        cases ran
        exact .served (Sections.run_two_error found)
      | ok act =>
        rw [found] at ran
        cases ran
        exact .looked rfl found

/-! ### Going forward -/

/-- Every act of a request goes forward. -/
def Sections.Onward (mint : Mint) (sections : Sections) : Prop :=
  ∃ asks, sections.Perform mint asks ∧ ∀ command, asks (some command) → command.Forward

theorem Sections.Onward.leadsTo {sections : Sections} (onward : sections.Onward mint)
    (service : Service) : Service.LeadsTo mint service (sections.run service).2 := by
  obtain ⟨asks, perform, forward⟩ := onward
  rcases (perform.run service).2 with same | ⟨command, known, after, -⟩
  · rw [same]
  · rw [after]
    exact Service.leadsTo_after mint service (forward command known)

/-- What a first section found to be done goes forward at any time. -/
theorem Sections.Onward.act_leadsTo {look : Service → Except Answer Act} {act : Act}
    {earlier : Service} (onward : (Sections.two look).Onward mint)
    (passed : look earlier = .ok act) (service : Service) :
    Service.LeadsTo mint service (act service).2 := by
  obtain ⟨asks, perform, forward⟩ := onward
  cases perform with
  | two honest performs =>
    obtain ⟨asked, known, performed⟩ := performs earlier act passed
    rw [performed.after]
    cases asked with
    | none => exact .refl
    | some command => exact Service.leadsTo_after mint service (forward command known)

/-- What is to be done in a second section was found in the first one. -/
def Task.Found (sections : Sections) : Task → Prop
  | .between act => ∃ look earlier, sections = .two look ∧ look earlier = .ok act
  | _ => True

/-- **Every section goes forward.** -/
theorem Task.Ran.leadsTo {task next : Task} {sections : Sections}
    (ran : Ran sections service task next between) (onward : sections.Onward mint)
    (found : task.Found sections) :
    Service.LeadsTo mint service between ∧ next.Found sections := by
  cases ran with
  | @looked look act two passed => exact ⟨.refl, look, service, two, passed⟩
  | served whole =>
    have leads := onward.leadsTo service
    rw [whole] at leads
    exact ⟨leads, trivial⟩
  | acted act =>
    obtain ⟨look, earlier, rfl, passed⟩ := found
    exact ⟨onward.act_leadsTo passed service, trivial⟩

/-! ### What was found is found again -/

/-- An archive in good order, and tokens to come that are new. -/
structure Service.Settled (mint : Mint) (bound : Nat) (service : Service) : Prop where
  tidy : service.archive.Tidy none
  fresh : service.Fresh mint bound

theorem Service.LeadsTo.settled (leads : Service.LeadsTo mint service between)
    (settled : service.Settled mint bound) (within : between.issued ≤ bound) :
    between.Settled mint bound :=
  ⟨(leads.grows settled.tidy).1, (leads.fresh settled.tidy settled.fresh within).1⟩

/-- What a first section found to be done is what the request would do later on, as long as the
service only goes forward and issues no more tokens than are known to be new. -/
def Sections.Stable (mint : Mint) (bound : Nat) : Sections → Prop
  | .two look => ∀ {earlier later : Service} {act : Act}, earlier.Settled mint bound →
      Service.LeadsTo mint earlier later → later.issued ≤ bound → look earlier = .ok act →
        (Sections.two look).run later = act later
  | _ => True

/-- What is to be done in a second section is what the whole request would do, now and later on. -/
def Task.Lasting (mint : Mint) (bound : Nat) (sections : Sections) (service : Service) : Task → Prop
  | .between act => ∀ later, Service.LeadsTo mint service later → later.issued ≤ bound →
      sections.run later = act later
  | _ => True

theorem Task.Lasting.mono {task : Task} {sections : Sections}
    (lasting : task.Lasting mint bound sections service)
    (leads : Service.LeadsTo mint service between) : task.Lasting mint bound sections between := by
  cases task with
  | waiting | answered => trivial
  | between act => exact fun later further => lasting later (leads.trans further)

/-- **A section finds what is to be done and leaves the service alone, or it stands for the whole
request.** -/
theorem Task.Ran.whole {task next : Task} {sections : Sections}
    (ran : Ran sections service task next between) (stable : sections.Stable mint bound)
    (settled : service.Settled mint bound) (within : service.issued ≤ bound)
    (lasting : task.Lasting mint bound sections service) :
    next.Lasting mint bound sections between ∧
    ((between = service ∧ ∀ answer, next ≠ .answered answer) ∨
      ∃ answer, next = .answered answer ∧ sections.run service = (answer, between)) := by
  cases ran with
  | looked two passed =>
    subst two
    exact ⟨fun later leads inside => stable settled leads inside passed, .inl ⟨rfl, nofun⟩⟩
  | @served answer _ whole => exact ⟨trivial, .inr ⟨answer, rfl, whole⟩⟩
  | acted act => exact ⟨trivial, .inr ⟨_, rfl, lasting service .refl within⟩⟩

/-! ### Runs -/

/-- A request that is answered stays so. -/
theorem Interleaving.answered {tasks after : ι → Task} {schedule : List ι}
    (interleaving : Interleaving sections tasks service schedule after final) {who : ι}
    {answer : Answer} (given : tasks who = .answered answer) : after who = .answered answer := by
  induction interleaving with
  | done => exact given
  | @step tasks _ _ _ _ other _ _ ran _ ih =>
    refine ih ?_
    have different : who ≠ other := by
      rintro rfl
      rw [given] at ran
      cases Task.ran_of_step ran
    rw [Function.update_of_ne different, given]

/-- What holds of all tasks and of one that takes another's place. -/
theorem forall_update {P : ι → Task → Prop} {tasks : ι → Task} {who : ι} {task : Task}
    (before : ∀ other, P other (tasks other)) (changed : P who task) :
    ∀ other, P other (Function.update tasks who task other) := by
  intro other
  by_cases same : other = who
  · subst same
    rw [Function.update_self]
    exact changed
  · rw [Function.update_of_ne same]
    exact before other

/-- **Interleavings go forward.** -/
theorem Interleaving.leadsTo {tasks after : ι → Task} {schedule : List ι}
    (interleaving : Interleaving sections tasks service schedule after final)
    (onward : ∀ who, (sections who).Onward mint)
    (found : ∀ who, (tasks who).Found (sections who)) : Service.LeadsTo mint service final := by
  induction interleaving with
  | done => exact .refl
  | @step _ _ _ _ _ who _ _ ran _ ih =>
    obtain ⟨leads, next⟩ := (Task.ran_of_step ran).leadsTo (onward who) (found who)
    exact leads.trans
      (ih (forall_update (P := fun who task => task.Found (sections who)) found next))

/-- **An interleaving comes to the same as the requests in turn**, each of them at the last of its
sections. -/
theorem Interleaving.exists_order {tasks after : ι → Task} {schedule : List ι}
    (interleaving : Interleaving sections tasks service schedule after final)
    (onward : ∀ who, (sections who).Onward mint) (stable : ∀ who, (sections who).Stable mint bound)
    (settled : service.Settled mint bound) (within : final.issued ≤ bound)
    (found : ∀ who, (tasks who).Found (sections who))
    (lasting : ∀ who, (tasks who).Lasting mint bound (sections who) service)
    {answers : ι → Answer} (ended : ∀ who, after who = .answered (answers who)) :
    ∃ order : List ι, order.Sublist schedule ∧ order.Nodup ∧
      (∀ who, who ∈ order ↔ ∀ answer, tasks who ≠ .answered answer) ∧
      inTurn sections order service = (order.map fun who => (who, answers who), final) := by
  induction interleaving with
  | done tasks service =>
    refine ⟨[], .slnil, List.nodup_nil, fun who => ?_, rfl⟩
    exact iff_of_false List.not_mem_nil fun unanswered => unanswered _ (ended who)
  | @step tasks _ service between final who next schedule ran rest ih =>
    have ran := Task.ran_of_step ran
    obtain ⟨leads, found'⟩ := ran.leadsTo (onward who) (found who)
    have allFound := forall_update (P := fun who task => task.Found (sections who)) found found'
    have inside : between.issued ≤ bound :=
      Nat.le_trans (rest.leadsTo onward allFound).issued_le within
    obtain ⟨lasting', done⟩ := ran.whole (stable who) settled
      (Nat.le_trans leads.issued_le inside) (lasting who)
    have waiting : ∀ answer, tasks who ≠ .answered answer := by
      intro answer given
      rw [given] at ran
      cases ran
    obtain ⟨order, sublist, nodup, members, run⟩ := ih (leads.settled settled inside) within
      allFound (forall_update (P := fun who task => task.Lasting mint bound (sections who) between)
        (fun who => (lasting who).mono leads) lasting') ended
    have others : ∀ other, other ≠ who →
        (other ∈ order ↔ ∀ answer, tasks other ≠ .answered answer) := by
      intro other different
      rw [members, Function.update_of_ne different]
    rcases done with ⟨rfl, unanswered⟩ | ⟨answer, rfl, whole⟩
    · -- The request is still to be placed.
      refine ⟨order, sublist.cons who, nodup, fun other => ?_, run⟩
      by_cases same : other = who
      · subst same
        rw [members, Function.update_self]
        exact iff_of_true unanswered waiting
      · exact others other same
    · have given : answers who = answer := by
        have last := rest.answered (Function.update_self who _ tasks)
        rw [ended who] at last
        cases last
        rfl
      have absent : who ∉ order := by
        rw [members, Function.update_self]
        exact fun unanswered => unanswered answer rfl
      refine ⟨who :: order, sublist.cons_cons who, nodup.cons absent, fun other => ?_, ?_⟩
      · by_cases same : other = who
        · subst same
          exact iff_of_true List.mem_cons_self waiting
        · rw [List.mem_cons, or_iff_right same]
          exact others other same
      · refine inTurn_cons_eq.mpr ⟨?_, ?_⟩
        · rw [whole, given]
        · rw [whole]
          exact run

end Requests

end StakingDirectory
