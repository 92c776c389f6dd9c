/-
**Concurrent requests are served as if one after the other.**

A request may look at the service in one section and act in another one.

* `Endpoint.stable`: between the two, a token that acts for a node goes on doing so; and where a
  node may no longer be registered, the registration is refused as the whole request would be then;
* `interleaved_in_turn`: any interleaving of requests, none of which reverts, gives the answers and
  the service that the requests give in turn, in some order that fits their sections. At most one of
  them registers a node (`registers_once`).
-/

import Mathlib.Data.Fintype.Basic
import Mathlib.Tactic.FinCases
import StakingDirectory.Proofs.Http.Effects
import StakingDirectory.Proofs.Http.Interleaving

namespace StakingDirectory

open Operation

variable {mint : Mint} {bound : Nat} {α : Type}

/-! ### Stable sections -/

namespace Sections

theorem stable_orRefuse {read : Except Refusal Sections}
    (stable : ∀ sections, read = .ok sections → sections.Stable mint bound) :
    (orRefuse read).Stable mint bound := by
  cases read with
  | ok sections => exact stable sections rfl
  | error refusal => trivial

theorem Stable.mapAnswer {sections : Sections} (stable : sections.Stable mint bound)
    (change : Answer → Answer) : (sections.mapAnswer change).Stable mint bound := by
  cases sections with
  | none | one => trivial
  | two look =>
    intro earlier later act settled leads within passed
    refine (run_mapAnswer change (.two look) later).trans ?_
    cases looked : look earlier with
    | error answer =>
      simp only [looked] at passed
      cases passed
    | ok found =>
      simp only [looked] at passed
      cases passed
      rw [stable settled leads within looked]
      rfl

/-- **A session that was looked at acts for its node later on.** -/
theorem stable_authenticated (request : Request) (act : Address → Except Refusal Act) :
    (checked (Endpoint.authenticate request) act).Stable mint bound := by
  intro earlier later found settled leads within passed
  obtain ⟨node, known, acted⟩ := bind_eq_ok.mp (checked_eq_ok.mp passed)
  obtain ⟨token, carried, known⟩ := bind_eq_ok.mp known
  have still : Endpoint.authenticate request later = .ok node :=
    bind_eq_ok.mpr
      ⟨token, carried, leads.authenticate settled.tidy settled.fresh within known⟩
  refine (run_checked (Endpoint.authenticate request) act later).trans ?_
  rw [bind_eq_ok.mpr ⟨node, still, acted⟩]

end Sections

namespace Endpoint

/-- **A registration looks again**, and is refused as it would be if it began only then. -/
theorem stable_registration (email : String) (node : Address) (signature : Bytes) :
    (Sections.checked (fun service => service.directory.checkRegistration email node) fun _ => do
      acceptSignature (Signature.verifyRegistration email node signature)
      return .changing (Service.onDirectory (Directory.registerNode email node))
        (.served "node registered")).Stable mint bound := by
  intro earlier later found settled leads within passed
  obtain ⟨_, -, acted⟩ := bind_eq_ok.mp (Sections.checked_eq_ok.mp passed)
  obtain ⟨_, signed, same⟩ := bind_eq_ok.mp acted
  cases same
  refine (Sections.run_checked _ _ later).trans ?_
  cases now : later.directory.checkRegistration email node with
  | ok position =>
    rw [ok_bind, signed]
    rfl
  | error refusal =>
    show (Answer.refuse refusal, later) =
      (Answer.served _ (Operation.outcome _ later).1, (Operation.outcome _ later).2)
    rw [Service.outcome_onRegistration, now]
    rfl

/-- **What an endpoint finds in a first section, it would find at the time of the second one.** -/
theorem stable (mint : Mint) (bound : Nat) (request : Request) (endpoint : Endpoint) :
    (endpoint.sections mint request).Stable mint bound := by
  cases endpoint with
  | uploadDeposits | publishedSet | setVersion | statuses | uploadExits =>
    exact Sections.stable_authenticated request _
  | registerNode =>
    refine Sections.stable_orRefuse fun sections passed => ?_
    obtain ⟨registration, -, passed⟩ := bind_eq_ok.mp passed
    obtain ⟨node, -, passed⟩ := bind_eq_ok.mp passed
    obtain ⟨signature, -, same⟩ := bind_eq_ok.mp passed
    cases same
    exact stable_registration registration.email node signature
  | beginSession => trivial
  | login =>
    refine Sections.stable_orRefuse fun sections passed => ?_
    obtain ⟨login, -, passed⟩ := bind_eq_ok.mp passed
    obtain ⟨token, -, passed⟩ := bind_eq_ok.mp passed
    obtain ⟨node, -, passed⟩ := bind_eq_ok.mp passed
    obtain ⟨signature, -, passed⟩ := bind_eq_ok.mp passed
    obtain ⟨_, -, same⟩ := bind_eq_ok.mp passed
    cases same
    trivial
  | addUser | takeSnapshot | revertToSnapshot =>
    refine Sections.stable_orRefuse fun sections passed => ?_
    obtain ⟨_, -, same⟩ := bind_eq_ok.mp passed
    cases same
    trivial
  | whitelistNode | addVault =>
    refine Sections.stable_orRefuse fun sections passed => ?_
    obtain ⟨_, -, passed⟩ := bind_eq_ok.mp passed
    obtain ⟨_, -, same⟩ := bind_eq_ok.mp passed
    cases same
    trivial
  | cycleSet =>
    refine Sections.stable_orRefuse fun sections passed => ?_
    obtain ⟨_, -, passed⟩ := bind_eq_ok.mp passed
    obtain ⟨_, -, passed⟩ := bind_eq_ok.mp passed
    obtain ⟨_, -, same⟩ := bind_eq_ok.mp passed
    cases same
    trivial

end Endpoint

namespace Request

theorem stable (mint : Mint) (bound : Nat) (request : Request) :
    (request.sections mint).Stable mint bound := by
  unfold Request.sections
  cases Endpoint.find request.method request.path with
  | noPath | noMethod => trivial
  | endpoint endpoint =>
    have stable := endpoint.stable mint bound request
    dsimp only
    split
    · exact stable.mapAnswer Answer.bodiless
    · exact stable

theorem Forward.onward {request : Request} (forward : request.Forward) (mint : Mint) :
    (request.sections mint).Onward mint := by
  refine ⟨_, request.perform mint, ?_⟩
  rintro command ⟨endpoint, found, asked⟩
  refine asked.forward ?_
  rintro rfl
  exact forward found

end Request

/-! ### Registrations -/

/-- The request asks for a node to be registered. -/
def Request.Registers (request : Request) (node : Address) : Prop :=
  Endpoint.find request.method request.path = .endpoint .registerNode ∧
    ∃ registration, Endpoint.readBody RegistrationRequest.codec request = .ok registration ∧
      Endpoint.readAddress "node address" registration.node = .ok node

/-- What is served with status 200 at the endpoint passed the check of the directory. -/
theorem Request.Registers.passed {request : Request} {node : Address} {service : Service}
    (registers : request.Registers node)
    (served : ((request.sections mint).run service).1.status = 200) :
    ∃ email position, service.directory.checkRegistration email node = .ok position ∧
      ((request.sections mint).run service).2 = service.withState
        { service.live with directory := service.directory.withRegistered node position } := by
  obtain ⟨found, registration, body, address⟩ := registers
  obtain ⟨status, after⟩ := Request.run_of_find mint found service
  have sections : Endpoint.sections mint request .registerNode =
      .orRefuse (Endpoint.serveRegistration request) := rfl
  rw [status, sections] at served
  obtain ⟨act, passed⟩ := Sections.read_of_status served
  rw [passed] at served
  rw [after, sections, passed]
  obtain ⟨_, body', passed⟩ := bind_eq_ok.mp passed
  obtain rfl := Except.ok.inj (body.symm.trans body')
  obtain ⟨_, address', passed⟩ := bind_eq_ok.mp passed
  obtain rfl := Except.ok.inj (address.symm.trans address')
  obtain ⟨signature, -, same⟩ := bind_eq_ok.mp passed
  cases same
  obtain ⟨position, act, known, acted, ran⟩ := Sections.passed_of_status served
  obtain ⟨_, -, does⟩ := bind_eq_ok.mp acted
  cases does
  refine ⟨registration.email, position, known, ?_⟩
  rw [Sections.orRefuse, ran]
  show (Operation.outcome _ service).2 = _
  rw [Service.outcome_onRegistration, known]
  rfl

theorem Directory.isRegistered_withRegistered {directory : Directory} {address : Address}
    {node : Node} (there : directory.node? address = some node) (position : Nat) :
    (directory.withRegistered address position).isRegistered address = true := by
  unfold Directory.node? at there
  simp [Directory.isRegistered, Directory.node?, Directory.withRegistered, there]

/-- **A node that is registered upon a request was not registered before.** -/
theorem Request.Registers.registered {request : Request} {node : Address} {service : Service}
    (registers : request.Registers node) (tidy : service.archive.Tidy none)
    (served : ((request.sections mint).run service).1.status = 200) :
    service.directory.isRegistered node = false ∧
      ((request.sections mint).run service).2.directory.isRegistered node = true := by
  obtain ⟨email, position, known, after⟩ := registers.passed served
  obtain ⟨-, old, there, waiting, -⟩ := Directory.checkRegistration_eq_ok.mp known
  rw [after, Service.directory_withState tidy]
  refine ⟨?_, Directory.isRegistered_withRegistered there position⟩
  rwa [Directory.isRegistered, there]

section InTurn

variable {ι : Type} {requests : ι → Request} {answers : ι → Answer} {node : Address}

/-- **Of requests in turn, at most one registers a node**, and none if it is registered already. -/
theorem registers_once {order : List ι} {service final : Service}
    (forward : ∀ who, (requests who).Forward) (tidy : service.archive.Tidy none)
    (run : inTurn (fun who => (requests who).sections mint) order service =
      (order.map fun who => (who, answers who), final)) :
    (∀ who ∈ order, (requests who).Registers node → (answers who).status = 200 →
      service.directory.isRegistered node = false) ∧
    ∀ first ∈ order, ∀ second ∈ order, first ≠ second →
      (requests first).Registers node → (requests second).Registers node →
        ¬ ((answers first).status = 200 ∧ (answers second).status = 200) := by
  induction order generalizing service with
  | nil => exact ⟨fun _ member => absurd member List.not_mem_nil,
      fun _ member => absurd member List.not_mem_nil⟩
  | cons who rest ih =>
    obtain ⟨answered, run⟩ := inTurn_cons_eq.mp run
    obtain ⟨tidy', grows⟩ := (((forward who).onward mint).leadsTo service).grows tidy
    obtain ⟨later, pairs⟩ := ih tidy' run
    have head : (requests who).Registers node → (answers who).status = 200 →
        service.directory.isRegistered node = false ∧
          (((requests who).sections mint).run service).2.directory.isRegistered node = true :=
      fun registers served => registers.registered tidy (answered ▸ served)
    -- What registers the node first keeps those behind it from doing so.
    have behind : ∀ other ∈ rest, (requests who).Registers node →
        (requests other).Registers node →
          ¬ ((answers who).status = 200 ∧ (answers other).status = 200) := by
      rintro other member registers registers' ⟨served, served'⟩
      have free := later other member registers' served'
      rw [(head registers served).2] at free
      cases free
    refine ⟨fun other member registers served => ?_, fun first inside second inside' different => ?_⟩
    · rcases List.mem_cons.mp member with rfl | member
      · exact (head registers served).1
      · rw [← Bool.not_eq_true]
        intro taken
        cases (grows.directory.isRegistered taken).symm.trans
          (later other member registers served)
    · rcases List.mem_cons.mp inside with rfl | before <;>
        rcases List.mem_cons.mp inside' with rfl | after
      · exact absurd rfl different
      · exact behind second after
      · exact fun registers registers' both => behind first before registers' registers both.symm
      · exact pairs first before second after different

end InTurn

/-! ### Concurrent requests -/

/-- **Concurrent requests are served as if one after the other.** After any run, let the sections
of some requests, none of which reverts, run in any order, and let the tokens that are issued
meanwhile be new. Then the requests in turn give the same answers and leave the same service, in
some order in which each request stands at one of its sections. Of several requests that register
one node, at most one is answered with status 200. -/
theorem interleaved_in_turn (mint : Mint) (commands : List Service.Command) {ι : Type}
    [DecidableEq ι] (requests : ι → Request) (forward : ∀ who, (requests who).Forward)
    (schedule : List ι) (answers : ι → Answer) (final : Service)
    (interleaved : Interleaving (fun who => (requests who).sections mint) (fun _ => .waiting)
      (Service.played mint commands) schedule (fun who => .answered (answers who)) final)
    (fresh : (Service.played mint commands).Fresh mint final.issued) :
    (∃ order : List ι, order.Sublist schedule ∧ order.Nodup ∧ (∀ who, who ∈ order) ∧
      inTurn (fun who => (requests who).sections mint) order (Service.played mint commands) =
        (order.map fun who => (who, answers who), final)) ∧
    ∀ (node : Address) (first second : ι), first ≠ second →
      (requests first).Registers node → (requests second).Registers node →
        ¬ ((answers first).status = 200 ∧ (answers second).status = 200) := by
  have tidy := Service.tidy_played mint commands
  obtain ⟨order, sublist, nodup, members, run⟩ := interleaved.exists_order
    (fun who => (forward who).onward mint) (fun who => (requests who).stable mint final.issued)
    ⟨tidy, fresh⟩ (Nat.le_refl _) (fun _ => trivial) (fun _ => trivial) fun _ => rfl
  have all : ∀ who, who ∈ order := fun who => (members who).mpr nofun
  refine ⟨⟨order, sublist, nodup, all, run⟩, fun node first second different => ?_⟩
  exact (registers_once forward tidy run).2 first (all first) second (all second) different

/-! ### Two registrations at once -/

/-- The first account asks to be registered. -/
def firstPost : Request where
  method := "POST"
  path := "/api/node-address"
  query := ""
  body := Bytes.ofText <| "[\"a\",\"" ++ Hex.marked Signature.firstAccount.bytes ++ "\",\"" ++
    Hex.marked Signature.firstRegistration ++ "\"]"

/-- What is done in the second section of that. -/
def firstAct : Act :=
  .changing (Service.onDirectory (Directory.registerNode "a" Signature.firstAccount))
    (.served "node registered")

theorem firstAct_apply (service : Service) :
    firstAct service =
      let outcome := settled
        (service.directory.checkRegistration "a" Signature.firstAccount)
        (fun position =>
          ((), service.withState
            { service.live with
              directory := service.directory.withRegistered Signature.firstAccount position }))
        service
      (.served "node registered" outcome.1, outcome.2) := by
  rw [← Service.outcome_onRegistration]
  rfl

theorem readBody_firstPost : Endpoint.readBody RegistrationRequest.codec firstPost =
    .ok ⟨"a", Hex.marked Signature.firstAccount.bytes, Hex.marked Signature.firstRegistration⟩ := by
  decide +kernel

theorem find_firstPost :
    Endpoint.find firstPost.method firstPost.path = .endpoint .registerNode := by
  decide

theorem sections_firstPost (mint : Mint) :
    firstPost.sections mint =
      .checked (fun service =>
        service.directory.checkRegistration "a" Signature.firstAccount) fun _ => .ok firstAct :=
  Request.sections_registration find_firstPost (by decide) readBody_firstPost
    Signature.verifyRegistration_firstAccount

/-- Two requests to register the first account, and one to begin a session. -/
def rivals : Fin 3 → Request
  | 0 | 1 => firstPost
  | 2 => { method := "GET", path := "/api/nonce", query := "" }

/-- Their answers. -/
def rivalAnswers : Fin 3 → Answer
  | 0 => .served "node registered" (.ok ())
  | 1 => .refuse (.alreadyRegistered Signature.firstAccount)
  | 2 => .data NonceGrant.codec (.ok ⟨Session.nonceOf (Mint.numbered 0), Mint.numbered 0⟩)

/-- The first account waits to be registered. -/
def expectingFirst : List Service.Command :=
  [.change (.addUser "a"), .change (.whitelistNode "a" Signature.firstAccount)]

theorem played_expectingFirst : Service.played .numbered expectingFirst =
    .alone { directory := Service.expecting "a" Signature.firstAccount } 0 := by
  show ((Service.alone {} 0).after _ _).after _ _ = _
  rw [Service.after_addUser, Service.after_whitelisting]

/-- The first account is registered, and a session has begun. -/
def rivalsServed : Service :=
  .alone
    { directory := Service.admitted "a" Signature.firstAccount
      sessions := ({} : Sessions).withBegun (Mint.numbered 0) } 1

/-- Both registrations look before one of them acts, and a session begins in between. -/
theorem interleaving_rivals :
    Interleaving (fun who => (rivals who).sections .numbered) (fun _ => .waiting)
      (Service.played .numbered expectingFirst) [0, 1, 2, 0, 1]
      (fun who => .answered (rivalAnswers who)) rivalsServed := by
  have known := Service.checkRegistration_expecting "a" Signature.firstAccount
  have taken : (Service.admitted "a" Signature.firstAccount).checkRegistration "a"
      Signature.firstAccount = .error (.alreadyRegistered Signature.firstAccount) := by
    decide
  have look : ∀ {state : State} {issued : Nat},
      state.directory = Service.expecting "a" Signature.firstAccount →
      Task.step (firstPost.sections .numbered) (.alone state issued) .waiting =
        some (.between firstAct, .alone state issued) := by
    intro state issued waiting
    rw [sections_firstPost]
    simp only [Task.step, Sections.checked, Service.directory_alone, waiting, known, ok_bind]
  have begins : Task.step ((rivals 2).sections .numbered)
      (.alone { directory := Service.expecting "a" Signature.firstAccount } 0) .waiting =
        some (.answered (rivalAnswers 2),
          .alone
            { directory := Service.expecting "a" Signature.firstAccount
              sessions := ({} : Sessions).withBegun (Mint.numbered 0) } 1) := by
    have found : Endpoint.find (rivals 2).method (rivals 2).path = .endpoint .beginSession := by
      decide
    rw [Request.sections, found]
    rfl
  have registers : ∀ sections, Task.step sections
      (.alone
        { directory := Service.expecting "a" Signature.firstAccount
          sessions := ({} : Sessions).withBegun (Mint.numbered 0) } 1) (.between firstAct) =
        some (.answered (rivalAnswers 0), rivalsServed) := by
    intro sections
    rw [Task.step, firstAct_apply, Service.directory_alone, known]
    rfl
  have refused : ∀ sections, Task.step sections rivalsServed (.between firstAct) =
      some (.answered (rivalAnswers 1), rivalsServed) := by
    intro sections
    rw [Task.step, firstAct_apply, rivalsServed, Service.directory_alone, taken]
    rfl
  obtain ⟨after, ran, ended⟩ : ∃ after, Interleaving (fun who => (rivals who).sections .numbered)
      (fun _ => .waiting) (Service.played .numbered expectingFirst) [0, 1, 2, 0, 1] after
      rivalsServed ∧ after = fun who => .answered (rivalAnswers who) := by
    rw [played_expectingFirst]
    refine ⟨_, .step (look rfl) (.step (look rfl) (.step begins
      (.step (registers _) (.step (refused _) (.done _ _))))), ?_⟩
    funext who
    fin_cases who <;> rfl
  exact ended ▸ ran

/-- The second registration is refused as if it came last. -/
theorem interleaved_in_turn_rivals :
    (∀ who, (rivals who).Forward) ∧
    (Service.played .numbered expectingFirst).Fresh .numbered rivalsServed.issued ∧
    (rivals 0).Registers Signature.firstAccount ∧ (rivals 1).Registers Signature.firstAccount ∧
    (rivalAnswers 0).status = 200 ∧ (rivalAnswers 1).status ≠ 200 ∧
    ∃ order : List (Fin 3), order.Sublist [0, 1, 2, 0, 1] ∧ order.Nodup ∧ (∀ who, who ∈ order) ∧
      inTurn (fun who => (rivals who).sections .numbered) order
        (Service.played .numbered expectingFirst) =
          (order.map fun who => (who, rivalAnswers who), rivalsServed) := by
  have forward : ∀ who, (rivals who).Forward := by
    intro who
    unfold Request.Forward
    fin_cases who <;> decide
  have fresh : (Service.played .numbered expectingFirst).Fresh .numbered rivalsServed.issued := by
    rw [played_expectingFirst]
    refine ⟨fun _ _ _ => rfl, fun first second later before inside => ?_⟩
    rw [show rivalsServed.issued = 1 from rfl] at inside
    omega
  have registers : firstPost.Registers Signature.firstAccount :=
    ⟨find_firstPost, _, readBody_firstPost,
      Endpoint.readAddress_marked _ _⟩
  obtain ⟨inOrder, once⟩ := interleaved_in_turn .numbered expectingFirst rivals forward
    [0, 1, 2, 0, 1] rivalAnswers rivalsServed interleaving_rivals fresh
  have apart := once Signature.firstAccount 0 1 (by decide) registers registers
  exact ⟨forward, fresh, registers, registers, rfl, fun served => apart ⟨rfl, served⟩, inOrder⟩

end StakingDirectory
