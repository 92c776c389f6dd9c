/-
**What requests do to the service.**

* `Answer.Honest`: an answer tells of success exactly when its status is 200;
* `Endpoint.Asks` lists what each endpoint can ask of the service, which is one command or only a
  look;
* `Act.Performs` says that an act does what a command does, and answers with status 200 exactly when
  the command succeeds;
* `Endpoint.perform`: whatever a request carries, its sections do what its endpoint can ask, so that
  a request at one go is a command or leaves the service alone (`Perform.run`).
-/

import StakingDirectory.Http.Endpoint
import StakingDirectory.Proofs.Service.Run

namespace StakingDirectory

open Operation

variable {mint : Mint} {α : Type}

/-! ### Answers -/

namespace Answer

/-- The body of an answer tells of success exactly when its status is 200. -/
def Honest (answer : Answer) : Prop :=
  ∀ json, answer.body = some json → ∃ members, json = .object members ∧
    members.lookup "ok" = some (.bool (decide (answer.status = 200)))

theorem honest_refuse (refusal : Refusal) : (refuse refusal).Honest := by
  intro json told
  cases told
  refine ⟨_, rfl, ?_⟩
  rw [decide_eq_false (show (refuse refusal).status ≠ 200 from refusal.status_ne_ok)]
  rfl

theorem honest_data (codec : Json.Codec α) (result : Except Refusal α) :
    (data codec result).Honest := by
  cases result with
  | ok value =>
    intro json told
    cases told
    exact ⟨_, rfl, rfl⟩
  | error refusal => exact honest_refuse refusal

theorem honest_served (message : String) (result : Except Refusal α) :
    (served message result).Honest := by
  cases result with
  | ok value =>
    intro json told
    cases told
    exact ⟨_, rfl, rfl⟩
  | error refusal => exact honest_refuse refusal

theorem honest_bodiless (answer : Answer) : answer.bodiless.Honest := by
  intro json told
  cases told

theorem status_data (codec : Json.Codec α) (result : Except Refusal α) :
    (data codec result).status = 200 ↔ result.isOk = true := by
  cases result with
  | ok value => exact iff_of_true rfl rfl
  | error refusal => exact iff_of_false refusal.status_ne_ok Bool.false_ne_true

theorem status_served (message : String) (result : Except Refusal α) :
    (served message result).status = 200 ↔ result.isOk = true := by
  cases result with
  | ok value => exact iff_of_true rfl rfl
  | error refusal => exact iff_of_false refusal.status_ne_ok Bool.false_ne_true

end Answer

/-! ### Acts -/

/-- The service after a command, or as it was. -/
def Service.afterAsked (service : Service) (mint : Mint) : Option Service.Command → Service
  | none => service
  | some command => service.after mint command

/-- **An act does what a command does**, or nothing to the service. -/
structure Act.Performs (mint : Mint) (asked : Option Service.Command) (act : Act) : Prop where
  after : ∀ service, (act service).2 = service.afterAsked mint asked
  status : ∀ command ∈ asked, ∀ service,
    (act service).1.status = 200 ↔ ((command.operation mint).outcome service).1.isOk = true
  honest : ∀ service, (act service).1.Honest

namespace Act

theorem performs_reading {answer : Service → Answer} (honest : ∀ service, (answer service).Honest) :
    (reading answer).Performs mint none where
  after _ := rfl
  status _ member := by cases member
  honest := honest

theorem performs_changing {operation : Operation Service α} {command : Service.Command}
    (wrap : α → Service.Answer) {answer : Except Refusal α → Answer}
    (same : ∀ service,
      (command.operation mint).outcome service = (wrap <$> operation).outcome service)
    (status : ∀ result, (answer result).status = 200 ↔ result.isOk = true)
    (honest : ∀ result, (answer result).Honest) :
    (changing operation answer).Performs mint (some command) where
  after service := by
    show (operation.outcome service).2 = ((command.operation mint).outcome service).2
    rw [same, outcome_map]
  status other member service := by
    cases member
    rw [same, outcome_map, isOk_map]
    exact status (operation.outcome service).1
  honest service := honest (operation.outcome service).1

/-- A change of the directory as an act. -/
theorem performs_change {operation : Operation Directory α} {change : Directory.Change}
    (wrap : α → Directory.Reply) {answer : Except Refusal α → Answer}
    (same : change.operation = wrap <$> operation)
    (status : ∀ result, (answer result).status = 200 ↔ result.isOk = true)
    (honest : ∀ result, (answer result).Honest) :
    (changing (Service.onDirectory operation) answer).Performs mint (some (.change change)) := by
  refine performs_changing (fun value => .reply (wrap value)) (fun service => ?_) status
    honest
  simp only [Service.Command.operation, same, outcome_map, Service.outcome_onDirectory]
  cases (operation.outcome service.directory).1 <;> rfl

/-- What is served with status 200 is done in the directory. -/
theorem changed_of_status {operation : Operation Directory α}
    {answer : Except Refusal α → Answer} {service : Service}
    (status : ∀ result, (answer result).status = 200 ↔ result.isOk = true)
    (served : (changing (Service.onDirectory operation) answer service).1.status = 200) :
    (operation.outcome service.directory).1.isOk = true ∧
      (changing (Service.onDirectory operation) answer service).2 = service.withState
        { service.live with directory := (operation.outcome service.directory).2 } := by
  have outcome := Service.outcome_onDirectory operation service
  have succeeds : ((Service.onDirectory operation).outcome service).1.isOk = true :=
    (status _).mp served
  rw [outcome] at succeeds
  exact ⟨succeeds, congrArg Prod.snd outcome⟩

theorem Performs.bodiless {act : Act} {asked : Option Service.Command}
    (performs : act.Performs mint asked) : (act.mapAnswer Answer.bodiless).Performs mint asked where
  after := performs.after
  status := performs.status
  honest service := Answer.honest_bodiless (act service).1

end Act

/-! ### Sections -/

namespace Sections

variable {asks : Option Service.Command → Prop}

/-- The sections of a request do what can be asked, and all its answers are honest. -/
inductive Perform (mint : Mint) (asks : Option Service.Command → Prop) : Sections → Prop
  | none {answer : Answer} (honest : answer.Honest) : Perform mint asks (.none answer)
  | one {act : Act} {asked : Option Service.Command} (known : asks asked)
      (performs : act.Performs mint asked) : Perform mint asks (.one act)
  | two {look : Service → Except Answer Act}
      (honest : ∀ service answer, look service = .error answer → answer.Honest)
      (performs : ∀ service act, look service = .ok act →
        ∃ asked, asks asked ∧ act.Performs mint asked) :
      Perform mint asks (.two look)

theorem Perform.mono {sections : Sections} {more : Option Service.Command → Prop}
    (perform : sections.Perform mint asks) (weaker : ∀ asked, asks asked → more asked) :
    sections.Perform mint more := by
  cases perform with
  | none honest => exact .none honest
  | one known performs => exact .one (weaker _ known) performs
  | two honest performs =>
    refine .two honest fun service act passed => ?_
    obtain ⟨asked, known, between⟩ := performs service act passed
    exact ⟨asked, weaker asked known, between⟩

theorem Perform.bodiless {sections : Sections} (perform : sections.Perform mint asks) :
    (sections.mapAnswer Answer.bodiless).Perform mint asks := by
  cases perform with
  | none honest => exact .none (Answer.honest_bodiless _)
  | one known performs => exact .one known performs.bodiless
  | @two look honest performs =>
    refine .two (fun service answer refused => ?_) fun service act passed => ?_
    · split at refused
      · cases refused
        exact Answer.honest_bodiless _
      · cases refused
    · split at passed
      · cases passed
      · rename_i between found
        cases passed
        obtain ⟨asked, known, between⟩ := performs service between found
        exact ⟨asked, known, between.bodiless⟩

theorem perform_orRefuse {read : Except Refusal Sections}
    (perform : ∀ sections, read = .ok sections → sections.Perform mint asks) :
    (orRefuse read).Perform mint asks := by
  cases read with
  | ok sections => exact perform sections rfl
  | error refusal => exact .none (Answer.honest_refuse refusal)

/-- A look that is passed, together with what follows from it. -/
theorem checked_eq_ok {result : Except Refusal Act} {act : Act} :
    (match result with
      | .ok act => Except.ok act
      | .error refusal => .error (Answer.refuse refusal)) = .ok act ↔ result = .ok act := by
  cases result <;> simp

theorem perform_checked {look : Service → Except Refusal α} {act : α → Except Refusal Act}
    (performs : ∀ value found, act value = .ok found →
      ∃ asked, asks asked ∧ found.Performs mint asked) :
    (checked look act).Perform mint asks := by
  refine .two (fun service answer refused => ?_) fun service found passed => ?_
  · split at refused
    · cases refused
    · cases refused
      exact Answer.honest_refuse _
  · obtain ⟨value, -, acted⟩ := bind_eq_ok.mp (checked_eq_ok.mp passed)
    exact performs value found acted

theorem run_checked (look : Service → Except Refusal α) (act : α → Except Refusal Act)
    (service : Service) :
    (checked look act).run service =
      match look service >>= act with
      | .ok act => act service
      | .error refusal => (.refuse refusal, service) := by
  simp only [checked, Sections.run]
  cases look service >>= act <;> rfl

/-- What is served with status 200 passed its look, and did its act. -/
theorem passed_of_status {look : Service → Except Refusal α} {act : α → Except Refusal Act}
    {service : Service} (served : ((checked look act).run service).1.status = 200) :
    ∃ value found, look service = .ok value ∧ act value = .ok found ∧
      (checked look act).run service = found service := by
  rw [run_checked] at served ⊢
  cases passed : look service >>= act with
  | error refusal =>
    rw [passed] at served
    exact absurd served refusal.status_ne_ok
  | ok found =>
    obtain ⟨value, known, acted⟩ := bind_eq_ok.mp passed
    exact ⟨value, found, known, acted, rfl⟩

/-- What is served with status 200 was read. -/
theorem read_of_status {read : Except Refusal Sections} {service : Service}
    (served : ((orRefuse read).run service).1.status = 200) :
    ∃ sections, read = .ok sections := by
  cases read with
  | error refusal => exact absurd served refusal.status_ne_ok
  | ok sections => exact ⟨sections, rfl⟩

theorem run_two_error {look : Service → Except Answer Act} {service : Service} {answer : Answer}
    (refused : look service = .error answer) :
    (Sections.two look).run service = (answer, service) := by
  simp only [Sections.run, refused]

theorem run_two_ok {look : Service → Except Answer Act} {service : Service} {act : Act}
    (passed : look service = .ok act) : (Sections.two look).run service = act service := by
  simp only [Sections.run, passed]

theorem run_mapAnswer (change : Answer → Answer) (sections : Sections) (service : Service) :
    (sections.mapAnswer change).run service =
      (change (sections.run service).1, (sections.run service).2) := by
  cases sections with
  | none | one => rfl
  | two look =>
    simp only [mapAnswer, run]
    cases look service <;> rfl

/-- **A request at one go is a command, or leaves the service alone.** -/
theorem Perform.run {sections : Sections} (perform : sections.Perform mint asks)
    (service : Service) :
    (sections.run service).1.Honest ∧
    ((sections.run service).2 = service ∨
      ∃ command, asks (some command) ∧ (sections.run service).2 = service.after mint command ∧
        ((sections.run service).1.status = 200 ↔
          ((command.operation mint).outcome service).1.isOk = true)) := by
  have acted : ∀ {act : Act} {asked : Option Service.Command}, asks asked →
      act.Performs mint asked → (act service).1.Honest ∧ ((act service).2 = service ∨
        ∃ command, asks (some command) ∧ (act service).2 = service.after mint command ∧
          ((act service).1.status = 200 ↔
            ((command.operation mint).outcome service).1.isOk = true)) := by
    intro act asked known performs
    refine ⟨performs.honest service, ?_⟩
    cases asked with
    | none => exact .inl (performs.after service)
    | some command =>
      exact .inr ⟨command, known, performs.after service, performs.status command rfl service⟩
  cases perform with
  | none honest => exact ⟨honest, .inl rfl⟩
  | one known performs => exact acted known performs
  | @two look honest performs =>
    cases found : look service with
    | error answer =>
      rw [run_two_error found]
      exact ⟨honest service answer found, .inl rfl⟩
    | ok act =>
      obtain ⟨asked, known, between⟩ := performs service act found
      rw [run_two_ok found]
      exact acted known between

end Sections

/-! ### Endpoints -/

namespace Endpoint

/-- What an endpoint can ask of the service: a command, or only a look. -/
inductive Asks : Endpoint → Option Service.Command → Prop
  | beginSession : Asks .beginSession (some .createSession)
  | login (token nonce : String) (node : Address) (signature : Bytes) :
      Asks .login (some (.login token nonce node signature))
  | registerNode (email : String) (node : Address) (signature : Bytes) :
      Asks .registerNode (some (.registerNode email node signature))
  | publishedSet : Asks .publishedSet none
  | uploadDeposits (node : Address) (batch : List Deposit) :
      Asks .uploadDeposits (some (.change (.uploadDeposits node batch)))
  | setVersion : Asks .setVersion none
  | statuses : Asks .statuses none
  | uploadExits (node : Address) (network : String) (batch : List ExitEntry) :
      Asks .uploadExits (some (.change (.uploadExits node network batch)))
  | addUser (email : String) : Asks .addUser (some (.change (.addUser email)))
  | whitelistNode (email : String) (node : Address) :
      Asks .whitelistNode (some (.change (.whitelistNode email node)))
  | addVault (vault : Address) (network : String) :
      Asks .addVault (some (.change (.addVault vault network)))
  | takeSnapshot (name : String) : Asks .takeSnapshot (some (.takeSnapshot name))
  | revertToSnapshot (name : String) : Asks .revertToSnapshot (some (.revertToSnapshot name))
  | cycleSet (vault : Address) (network : String) (limit : Nat) :
      Asks .cycleSet (some (.change (.cycleSet vault network limit)))

theorem Asks.forward {endpoint : Endpoint} {command : Service.Command}
    (asks : endpoint.Asks (some command)) (other : endpoint ≠ .revertToSnapshot) :
    command.Forward := by
  cases asks with
  | revertToSnapshot name => exact absurd rfl other
  | _ => trivial

theorem acceptSignature_eq_ok {check : Except Signature.Fault Unit} :
    acceptSignature check = .ok () ↔ check = .ok () := by
  cases check <;> simp [acceptSignature]

/-- A login whose signature was found good is a login. -/
theorem performs_login {token nonce : String} {node : Address} {signature : Bytes}
    {answer : Except Refusal String → Answer}
    (signed : Signature.verifyLogin nonce node signature = .ok ())
    (status : ∀ result, (answer result).status = 200 ↔ result.isOk = true)
    (honest : ∀ result, (answer result).Honest) :
    (Act.changing (Service.onLive (Service.loginLive token nonce node)) answer).Performs mint
      (some (.login token nonce node signature)) := by
  refine Act.performs_changing .token (fun service => ?_) status honest
  rw [Service.Command.operation, Service.login, signed]
  rfl

/-- A registration whose signature was found good is a registration. -/
theorem performs_registration {email : String} {node : Address} {signature : Bytes}
    {answer : Except Refusal Unit → Answer}
    (signed : Signature.verifyRegistration email node signature = .ok ())
    (status : ∀ result, (answer result).status = 200 ↔ result.isOk = true)
    (honest : ∀ result, (answer result).Honest) :
    (Act.changing (Service.onDirectory (Directory.registerNode email node)) answer).Performs mint
      (some (.registerNode email node signature)) := by
  refine Act.performs_changing (fun () => .reply .done) (fun service => ?_) status honest
  rw [Service.Command.operation, outcome_map, outcome_map, Service.outcome_registerNode,
    Service.outcome_onRegistration, Service.checkRegistration, signed]
  cases service.directory.checkRegistration email node <;> rfl

/-- An answer with data that come out of what an operation gives. -/
theorem status_data_map {β : Type} (codec : Json.Codec β) (give : α → β)
    (result : Except Refusal α) :
    (Answer.data codec (result.map give)).status = 200 ↔ result.isOk = true := by
  rw [Answer.status_data, isOk_map]

/-- **Whatever a request carries, its sections do what its endpoint can ask.** -/
theorem perform (mint : Mint) (request : Request) (endpoint : Endpoint) :
    (endpoint.sections mint request).Perform mint endpoint.Asks := by
  have reading : ∀ {β : Type} (codec : Json.Codec β) (read : Service → Except Refusal β),
      (Act.reading fun service => .data codec (read service)).Performs mint none :=
    fun codec read => Act.performs_reading fun service => Answer.honest_data codec (read service)
  have serving : ∀ {β : Type} {operation : Operation Directory β} {change : Directory.Change}
      {wrap : β → Directory.Reply}, change.operation = wrap <$> operation → ∀ message : String,
      (Act.changing (Service.onDirectory operation) (.served message)).Performs mint
        (some (.change change)) :=
    fun same message => Act.performs_change _ same (Answer.status_served message)
      (Answer.honest_served message)
  cases endpoint with
  | beginSession =>
    exact .one .beginSession (Act.performs_changing .session (fun _ => rfl)
      (status_data_map _ _) fun _ => Answer.honest_data _ _)
  | login =>
    refine Sections.perform_orRefuse fun sections passed => ?_
    obtain ⟨login, -, passed⟩ := bind_eq_ok.mp passed
    obtain ⟨token, -, passed⟩ := bind_eq_ok.mp passed
    obtain ⟨node, -, passed⟩ := bind_eq_ok.mp passed
    obtain ⟨signature, -, passed⟩ := bind_eq_ok.mp passed
    obtain ⟨_, signed, same⟩ := bind_eq_ok.mp passed
    cases same
    exact .one (.login token login.nonce node signature)
      (performs_login (acceptSignature_eq_ok.mp signed) (status_data_map _ _)
        fun _ => Answer.honest_data _ _)
  | registerNode =>
    refine Sections.perform_orRefuse fun sections passed => ?_
    obtain ⟨registration, -, passed⟩ := bind_eq_ok.mp passed
    obtain ⟨node, -, passed⟩ := bind_eq_ok.mp passed
    obtain ⟨signature, -, same⟩ := bind_eq_ok.mp passed
    cases same
    refine Sections.perform_checked fun _ act acted => ?_
    obtain ⟨_, signed, same⟩ := bind_eq_ok.mp acted
    cases same
    exact ⟨_, .registerNode registration.email node signature,
      performs_registration (acceptSignature_eq_ok.mp signed) (Answer.status_served _)
        (Answer.honest_served _)⟩
  | uploadDeposits =>
    refine Sections.perform_checked fun node act acted => ?_
    obtain ⟨batch, -, same⟩ := bind_eq_ok.mp acted
    cases same
    exact ⟨_, .uploadDeposits node batch, serving rfl _⟩
  | publishedSet =>
    refine Sections.perform_checked fun node act acted => ?_
    obtain ⟨⟨vault, network⟩, -, same⟩ := bind_eq_ok.mp acted
    cases same
    exact ⟨_, .publishedSet, reading _ _⟩
  | setVersion =>
    refine Sections.perform_checked fun node act acted => ?_
    obtain ⟨⟨vault, network⟩, -, same⟩ := bind_eq_ok.mp acted
    cases same
    exact ⟨_, .setVersion, reading _ _⟩
  | statuses =>
    refine Sections.perform_checked fun node act acted => ?_
    obtain ⟨network, -, same⟩ := bind_eq_ok.mp acted
    cases same
    exact ⟨_, .statuses, reading _ _⟩
  | uploadExits =>
    refine Sections.perform_checked fun node act acted => ?_
    obtain ⟨network, -, acted⟩ := bind_eq_ok.mp acted
    obtain ⟨batch, -, same⟩ := bind_eq_ok.mp acted
    cases same
    exact ⟨_, .uploadExits node network batch, serving rfl _⟩
  | addUser =>
    refine Sections.perform_orRefuse fun sections passed => ?_
    obtain ⟨email, -, same⟩ := bind_eq_ok.mp passed
    cases same
    exact .one (.addUser email) (serving rfl _)
  | whitelistNode =>
    refine Sections.perform_orRefuse fun sections passed => ?_
    obtain ⟨email, -, passed⟩ := bind_eq_ok.mp passed
    obtain ⟨node, -, same⟩ := bind_eq_ok.mp passed
    cases same
    exact .one (.whitelistNode email node) (serving rfl _)
  | addVault =>
    refine Sections.perform_orRefuse fun sections passed => ?_
    obtain ⟨vault, -, passed⟩ := bind_eq_ok.mp passed
    obtain ⟨network, -, same⟩ := bind_eq_ok.mp passed
    cases same
    exact .one (.addVault vault network) (serving rfl _)
  | takeSnapshot =>
    refine Sections.perform_orRefuse fun sections passed => ?_
    obtain ⟨name, -, same⟩ := bind_eq_ok.mp passed
    cases same
    exact .one (.takeSnapshot name) (Act.performs_changing (fun _ => .reply .done)
      (fun _ => rfl) (Answer.status_served _) (Answer.honest_served _))
  | revertToSnapshot =>
    refine Sections.perform_orRefuse fun sections passed => ?_
    obtain ⟨name, -, same⟩ := bind_eq_ok.mp passed
    cases same
    exact .one (.revertToSnapshot name) (Act.performs_changing (fun _ => .reply .done)
      (fun _ => rfl) (Answer.status_served _) (Answer.honest_served _))
  | cycleSet =>
    refine Sections.perform_orRefuse fun sections passed => ?_
    obtain ⟨vault, -, passed⟩ := bind_eq_ok.mp passed
    obtain ⟨network, -, passed⟩ := bind_eq_ok.mp passed
    obtain ⟨limit, -, same⟩ := bind_eq_ok.mp passed
    cases same
    exact .one (.cycleSet vault network limit) (Act.performs_change .published rfl
      (status_data_map _ _) fun _ => Answer.honest_data _ _)

end Endpoint

/-- What stands at a method and a path can ask this of the service. -/
def Endpoint.Found.Asks (found : Endpoint.Found) (asked : Option Service.Command) : Prop :=
  ∃ endpoint, found = .endpoint endpoint ∧ endpoint.Asks asked

/-- **Every request does what can be asked at its method and path.** -/
theorem Request.perform (mint : Mint) (request : Request) :
    (request.sections mint).Perform mint (Endpoint.find request.method request.path).Asks := by
  unfold Request.sections
  cases found : Endpoint.find request.method request.path with
  | noPath =>
    refine .none fun json told => ?_
    cases told
  | noMethod =>
    refine .none fun json told => ?_
    cases told
  | endpoint endpoint =>
    have perform := (endpoint.perform mint request).mono fun asked known =>
      (⟨endpoint, rfl, known⟩ : Endpoint.Found.Asks (.endpoint endpoint) asked)
    dsimp only
    split
    · exact perform.bodiless
    · exact perform

end StakingDirectory
