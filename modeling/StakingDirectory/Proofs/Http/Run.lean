/-
**Runs of requests.**

* `served` serves requests in turn on a new service, and `gathered` collects what a look at each of
  them finds;
* `Request.handedIn` are the records that a request hands in for a node, and `Request.published`
  those that it publishes on a network; `Request.HandsIn` spells out what it takes to hand a batch
  in;
* `Request.handles`: a request that brings no version back does nothing else to deposits;
* `every_served`: what such requests keep of the live state, runs of any requests keep of all
  retained states. All of these are in good order (`sound_served`).
-/

import StakingDirectory.Proofs.Allotment.Provenance
import StakingDirectory.Proofs.Http.Effects
import StakingDirectory.Proofs.Service.Freshness

namespace StakingDirectory

open Operation Directory

variable {mint : Mint} {service : Service} {α : Type}

/-! ### Serving in turn -/

namespace Service

/-- The service after requests in turn. -/
def serving (service : Service) (mint : Mint) (requests : List Request) : Service :=
  requests.foldl (fun service request => (request.serve mint service).2) service

/-- The service that requests make of a new one. -/
def served (mint : Mint) (requests : List Request) : Service :=
  serving {} mint requests

/-- What a look at each request finds, before it is served. -/
def gathered (mint : Mint) (look : Request → Service → List α) : Service → List Request → List α
  | _, [] => []
  | service, request :: rest =>
    look request service ++ gathered mint look (request.serve mint service).2 rest

theorem serving_append (service : Service) (mint : Mint) (earlier later : List Request) :
    service.serving mint (earlier ++ later) = (service.serving mint earlier).serving mint later :=
  List.foldl_append

theorem serving_eq (service : Service) (mint : Mint) (requests : List Request) :
    service.serving mint requests =
      (requests.map (Request.sections mint)).foldl
        (fun service sections => (sections.run service).2) service := by
  rw [List.foldl_map]
  rfl

theorem served_concat (mint : Mint) (requests : List Request) (request : Request) :
    served mint (requests ++ [request]) = (request.serve mint (served mint requests)).2 :=
  serving_append {} mint requests [request]

theorem gathered_append (look : Request → Service → List α) (service : Service)
    (earlier later : List Request) :
    gathered mint look service (earlier ++ later) =
      gathered mint look service earlier ++
        gathered mint look (service.serving mint earlier) later := by
  induction earlier generalizing service with
  | nil => rfl
  | cons request rest ih =>
    rw [List.cons_append, gathered, gathered, ih, List.append_assoc]
    rfl

theorem gathered_concat (look : Request → Service → List α) (requests : List Request)
    (request : Request) :
    gathered mint look {} (requests ++ [request]) =
      gathered mint look {} requests ++ look request (served mint requests) := by
  rw [gathered_append, gathered, gathered, List.append_nil]
  rfl

theorem gathered_eq_nil {look : Request → Service → List α} {requests : List Request}
    (nothing : ∀ request ∈ requests, ∀ service, look request service = []) (service : Service) :
    gathered mint look service requests = [] := by
  induction requests generalizing service with
  | nil => rfl
  | cons request rest ih =>
    rw [gathered, nothing request List.mem_cons_self, List.nil_append]
    exact ih (fun other member => nothing other (List.mem_cons_of_mem _ member)) _

/-- What is gathered was found at some request. -/
theorem mem_gathered {look : Request → Service → List α} {requests : List Request} {item : α}
    (member : item ∈ gathered mint look service requests) :
    ∃ before request later, requests = before ++ request :: later ∧
      item ∈ look request (service.serving mint before) := by
  induction requests generalizing service with
  | nil => cases member
  | cons request rest ih =>
    rcases List.mem_append.mp member with now | later
    · exact ⟨[], request, rest, rfl, now⟩
    · obtain ⟨before, other, after, rfl, inside⟩ := ih later
      exact ⟨request :: before, other, after, rfl, inside⟩

end Service

/-! ### Handing in and publishing -/

theorem Endpoint.find_eq_endpoint {method path : String} {endpoint : Endpoint}
    (found : find method path = .endpoint endpoint) :
    ∃ methods, (path, methods) ∈ routes ∧
      ((if method = "HEAD" then "GET" else method), endpoint) ∈ methods := by
  have member : ∀ {β : Type} {key : String} {value : β} {entries : List (String × β)},
      entries.lookup key = some value → (key, value) ∈ entries := by
    intro β key value entries known
    obtain ⟨earlier, later, rfl, -⟩ := List.lookup_eq_some_iff.mp known
    exact List.mem_append_right earlier List.mem_cons_self
  unfold find at found
  split at found
  · cases found
  · rename_i methods known
    split at found
    · cases found
    · rename_i other there
      cases found
      exact ⟨methods, member known, member there⟩

/-- Deposits are handed in by `POST` at one path, under both roots. -/
theorem Endpoint.find_uploadDeposits {method path : String}
    (found : find method path = .endpoint .uploadDeposits) :
    method = "POST" ∧ path ∈ ["/api/deposit-data", "/api/dev/deposit-data"] := by
  have table : ∀ route ∈ routes, ∀ entry ∈ route.2, entry.2 = .uploadDeposits →
      entry.1 = "POST" ∧ route.1 ∈ ["/api/deposit-data", "/api/dev/deposit-data"] := by
    decide
  obtain ⟨methods, listed, inside⟩ := find_eq_endpoint found
  obtain ⟨name, place⟩ := table _ listed _ inside rfl
  refine ⟨?_, place⟩
  split at name
  · exact absurd name (by decide)
  · exact name

namespace Request

/-- **A request hands a batch in**: it is made in the session of a registered node, its body is the
batch, and it is answered with status 200. -/
structure HandsIn (mint : Mint) (request : Request) (service : Service) (node : Address)
    (batch : List Deposit) : Prop where
  method : request.method = "POST"
  path : request.path ∈ ["/api/deposit-data", "/api/dev/deposit-data"]
  session : Endpoint.authenticate request service = .ok node
  registered : service.directory.isRegistered node = true
  body : Endpoint.readBody Deposit.codec.list request = .ok batch
  accepted : (request.serve mint service).1.status = 200

/-- The records that a request hands in, beside the node that it acts for. -/
def handedIn (mint : Mint) (request : Request) (service : Service) : List (Address × Deposit) :=
  if Endpoint.find request.method request.path = .endpoint .uploadDeposits ∧
      (request.serve mint service).1.status = 200 then
    match Endpoint.authenticate request service, Endpoint.readBody Deposit.codec.list request with
    | .ok node, .ok batch => batch.map (Prod.mk node)
    | _, _ => []
  else []

/-- The records that a request publishes, beside their network: the latest set of the vault that is
named in it, once it was served. -/
def published (mint : Mint) (request : Request) (service : Service) : List (String × Deposit) :=
  if Endpoint.find request.method request.path = .endpoint .cycleSet ∧
      (request.serve mint service).1.status = 200 then
    match (Query.parse request.query).requireAddress "vault",
        (Query.parse request.query).require "network" with
    | .ok vault, .ok network =>
      ((request.serve mint service).2.directory.latestSet vault network).map (Prod.mk network)
    | _, _ => []
  else []

variable {request : Request}

theorem mem_handedIn {entry : Address × Deposit}
    (member : entry ∈ request.handedIn mint service) :
    ∃ batch, request.HandsIn mint service entry.1 batch ∧ entry.2 ∈ batch := by
  unfold handedIn at member
  split at member
  · rename_i accepted
    obtain ⟨found, status⟩ := accepted
    obtain ⟨method, path⟩ := Endpoint.find_uploadDeposits found
    split at member
    · rename_i node batch known body
      obtain ⟨deposit, inside, rfl⟩ := List.mem_map.mp member
      obtain ⟨token, -, acts⟩ := bind_eq_ok.mp known
      obtain ⟨-, -, -, -, registered⟩ := Service.authenticate_eq_ok.mp acts
      exact ⟨batch, ⟨method, path, known, registered, body, status⟩, inside⟩
    · cases member
  · cases member

theorem handedIn_of_find {endpoint : Endpoint}
    (found : Endpoint.find request.method request.path = .endpoint endpoint)
    (other : endpoint ≠ .uploadDeposits) : request.handedIn mint service = [] := by
  refine if_neg ?_
  rw [found]
  rintro ⟨same, -⟩
  exact other (Endpoint.Found.endpoint.inj same)

theorem published_of_find {endpoint : Endpoint}
    (found : Endpoint.find request.method request.path = .endpoint endpoint)
    (other : endpoint ≠ .cycleSet) : request.published mint service = [] := by
  refine if_neg ?_
  rw [found]
  rintro ⟨same, -⟩
  exact other (Endpoint.Found.endpoint.inj same)

/-- What is refused hands nothing in and publishes nothing. -/
theorem nothing_of_refused (refused : (request.serve mint service).1.status ≠ 200) :
    request.handedIn mint service = [] ∧ request.published mint service = [] :=
  ⟨if_neg fun both => refused both.2, if_neg fun both => refused both.2⟩

/-! ### What requests do to deposits -/

/-- **A request to hand in that is served** is made for a node that may hand its batch in. -/
theorem served_upload
    (found : Endpoint.find request.method request.path = .endpoint .uploadDeposits)
    (status : (request.serve mint service).1.status = 200) :
    ∃ node batch old pubkeys, Endpoint.authenticate request service = .ok node ∧
      Endpoint.readBody Deposit.codec.list request = .ok batch ∧
      service.directory.checkDeposits node batch = .ok (old, pubkeys) ∧
      (request.serve mint service).2 = service.withState
        { service.live with
          directory := service.directory.withNode node
            (old.acceptDeposits (pubkeys.zip batch)).1 } := by
  have sections : Endpoint.sections mint request .uploadDeposits =
      .checked (Endpoint.authenticate request) fun node => do
        let batch ← Endpoint.readBody Deposit.codec.list request
        return .changing (Service.onDirectory (Directory.uploadDeposits node batch))
          (.served "deposit data uploaded") := rfl
  obtain ⟨same, after⟩ := run_of_find mint found service
  rw [serve] at status ⊢
  rw [same, sections] at status
  obtain ⟨node, act, known, acted, ran⟩ := Sections.passed_of_status status
  obtain ⟨batch, body, does⟩ := bind_eq_ok.mp acted
  cases does
  rw [ran] at status
  rw [after, sections, ran]
  obtain ⟨succeeds, changed⟩ := Act.changed_of_status (Answer.status_served _) status
  rw [outcome_uploadDeposits] at succeeds changed
  cases passed : service.directory.checkDeposits node batch with
  | error refusal =>
    rw [passed] at succeeds
    cases succeeds
  | ok value =>
    rw [passed] at changed
    exact ⟨node, batch, value.1, value.2, known, body, passed, changed⟩

/-- **A request to cycle that is served** names a vault that exists. -/
theorem served_cycle
    (found : Endpoint.find request.method request.path = .endpoint .cycleSet)
    (status : (request.serve mint service).1.status = 200) :
    ∃ address network limit vault,
      (Query.parse request.query).requireAddress "vault" = .ok address ∧
      (Query.parse request.query).require "network" = .ok network ∧
      service.directory.vault? address network = some vault ∧
      (request.serve mint service).2 = service.withState
        { service.live with directory := service.directory.cycled address network limit } := by
  have sections : Endpoint.sections mint request .cycleSet = .orRefuse do
      let address ← (Query.parse request.query).requireAddress "vault"
      let network ← (Query.parse request.query).require "network"
      let limit ← Endpoint.readLimit (Query.parse request.query)
      return .one <| .changing (Service.onDirectory (Directory.cycleSet address network limit))
        fun result => .data SetVersion.codec (result.map SetVersion.mk) := rfl
  obtain ⟨same, after⟩ := run_of_find mint found service
  rw [serve] at status ⊢
  rw [same, sections] at status
  obtain ⟨act, read⟩ := Sections.read_of_status status
  rw [read] at status
  rw [after, sections, read]
  obtain ⟨address, named, read⟩ := bind_eq_ok.mp read
  obtain ⟨network, placed, read⟩ := bind_eq_ok.mp read
  obtain ⟨limit, -, does⟩ := bind_eq_ok.mp read
  cases does
  obtain ⟨succeeds, changed⟩ := Act.changed_of_status (Endpoint.status_data_map _ _) status
  cases known : service.directory.vault? address network with
  | none =>
    rw [outcome_cycleSet_of_none known] at succeeds
    cases succeeds
  | some vault => exact ⟨address, network, limit, vault, named, placed, known, changed⟩

/-- What the other endpoints can ask of the service leaves deposits alone. -/
theorem keeps_asked {endpoint : Endpoint} {command : Service.Command}
    (asked : endpoint.Asks (some command))
    (other : endpoint ∉ [.uploadDeposits, .cycleSet, .revertToSnapshot])
    (tidy : service.archive.Tidy none) :
    Keeps service.directory (service.after mint command).directory := by
  have unchanged : Keeps service.directory service.directory := .refl _
  cases asked with
  | beginSession =>
    show Keeps _ (service.withState _).directory
    rw [Service.directory_withState tidy]
    exact unchanged
  | login token nonce node signature =>
    rw [Service.after, Service.Command.operation, outcome_map, Service.outcome_login]
    refine settled_state (P := fun next : Service => Keeps service.directory next.directory)
      unchanged fun _ _ => ?_
    rw [Service.directory_withState tidy]
    exact unchanged
  | registerNode email node signature =>
    rw [Service.after, Service.Command.operation, outcome_map, Service.outcome_registerNode]
    refine settled_state (P := fun next : Service => Keeps service.directory next.directory)
      unchanged fun position _ => ?_
    rw [Service.directory_withState tidy]
    exact keeps_withRegistered service.directory node position
  | uploadExits | addUser | whitelistNode | addVault =>
    rw [Service.directory_change tidy]
    refine keeps_change ?_ service.directory
    trivial
  | takeSnapshot name =>
    show Keeps _ (service.takeSnapshot name).live.directory
    rw [Service.live_takeSnapshot tidy]
    exact unchanged
  | uploadDeposits | cycleSet | revertToSnapshot => exact absurd (by decide) other

/-- **A request that brings no version back hands in or publishes**, or leaves deposits alone. -/
theorem handles (forward : request.Forward) (tidy : service.archive.Tidy none)
    (genuine : Genuine service.directory) :
    Handles service.directory (request.handedIn mint service) (request.published mint service)
      (request.serve mint service).2.directory := by
  by_cases status : (request.serve mint service).1.status = 200
  · cases found : Endpoint.find request.method request.path with
    | noPath | noMethod =>
      rw [serve, Request.sections, found] at status
      simp [Sections.run] at status
    | endpoint endpoint =>
      by_cases hands : endpoint = .uploadDeposits
      · subst hands
        obtain ⟨node, batch, old, pubkeys, known, body, passed, after⟩ :=
          served_upload found status
        have handed : request.handedIn mint service = batch.map (Prod.mk node) := by
          rw [handedIn, if_pos ⟨found, status⟩, known, body]
        obtain ⟨⟨there, -⟩, keys⟩ := checkDeposits_eq_ok.mp passed
        rw [handed, published_of_find found (by decide), after, Service.directory_withState tidy]
        exact .upload there (keys.imp fun _ _ => And.left)
      · by_cases cycles : endpoint = .cycleSet
        · subst cycles
          obtain ⟨address, network, limit, vault, named, placed, known, after⟩ :=
            served_cycle found status
          have shown : request.published mint service =
              (service.directory.chooseSet network limit).map (Prod.mk network) := by
            rw [published, if_pos ⟨found, status⟩, named, placed, after]
            simp only [Service.directory_withState tidy, latestSet_cycled genuine known]
          rw [handedIn_of_find found (by decide), shown, after, Service.directory_withState tidy]
          exact .cycle known limit
        · rw [handedIn_of_find found hands, published_of_find found cycles]
          rcases ((request.perform mint).run service).2 with
            same | ⟨command, ⟨other, there, asked⟩, after, -⟩
          · rw [serve, same]
            exact .quiet (.refl _)
          · obtain rfl := Endpoint.Found.endpoint.inj (found.symm.trans there)
            rw [serve, after]
            refine .quiet (keeps_asked asked ?_ tidy)
            simp only [List.mem_cons, List.not_mem_nil, or_false, not_or]
            exact ⟨hands, cycles, fun reverts => forward (reverts ▸ found)⟩
  · obtain ⟨handed, published⟩ := nothing_of_refused status
    rw [handed, published, unchanged_of_refused status]
    exact .quiet (.refl _)

end Request

/-! ### All retained states -/

namespace Service

/-- **A request gives all retained states what it leaves the live state with**, unless it brings a
version back, which has this already. -/
theorem every_serve {P : State → Prop} (every : service.archive.Every P) (request : Request)
    (live : request.Forward → P (request.serve mint service).2.live) :
    (request.serve mint service).2.archive.Every P := by
  rcases ((request.perform mint).run service).2 with
    same | ⟨command, ⟨endpoint, found, asked⟩, after, -⟩
  · rw [Request.serve, same]
    exact every
  · by_cases forward : request.Forward
    · have holds := live forward
      rw [Request.serve, after] at holds ⊢
      exact every_after every command holds
    · have reverts : endpoint = .revertToSnapshot := by
        rw [Request.Forward, not_not, found] at forward
        exact Endpoint.Found.endpoint.inj forward
      subst reverts
      cases asked with
      | revertToSnapshot name =>
        rw [Request.serve, after, Service.after, Command.operation, outcome_map,
          outcome_revertToSnapshot]
        exact every.revert name

theorem tidy_served (mint : Mint) (requests : List Request) :
    (served mint requests).archive.Tidy none := by
  unfold served serving
  refine List.foldlRecOn (motive := fun service : Service => service.archive.Tidy none) requests _
    (Archive.tidy_ofState _) fun between tidy request _ => ?_
  exact (every_serve (P := fun _ => True) ⟨tidy, trivial, fun _ => trivial⟩ request
    fun _ => trivial).tidy

/-- **What forward requests keep of the live state, runs keep of all retained states.** -/
theorem every_served {P : List Request → State → Prop} (empty : P [] {})
    (mono : ∀ {requests : List Request} {state : State} (request : Request),
      P requests state → P (requests ++ [request]) state)
    (step : ∀ requests request, request.Forward → P requests (served mint requests).live →
      P (requests ++ [request]) (request.serve mint (served mint requests)).2.live)
    (requests : List Request) : (served mint requests).archive.Every (P requests) := by
  induction requests using List.reverseRec with
  | nil => exact Archive.every_ofState empty
  | append_singleton requests request every =>
    rw [served_concat]
    exact every_serve (every.mono fun _ => mono request) request fun forward =>
      step requests request forward every.live

/-- What requests ask of the service publishes chosen sets only. -/
theorem Command.Steady.of_asks {endpoint : Endpoint} {command : Command}
    (asked : endpoint.Asks (some command)) (forward : endpoint ≠ .revertToSnapshot) :
    command.Steady := by
  cases asked with
  | revertToSnapshot name => exact absurd rfl forward
  | _ => trivial

/-- A request that brings no version back leaves the directory in good order. -/
theorem Ready.serve (ready : Ready service) {request : Request} (forward : request.Forward) :
    Ready (request.serve mint service).2 := by
  rcases ((request.perform mint).run service).2 with
    same | ⟨command, ⟨endpoint, found, asked⟩, after, -⟩
  · rw [Request.serve, same]
    exact ready
  · rw [Request.serve, after]
    refine (ready.after mint (.of_asks asked ?_)).1
    rintro rfl
    exact forward found

/-- **All retained states are in good order**, whatever was requested. -/
theorem sound_served (mint : Mint) (requests : List Request) :
    (served mint requests).archive.Every fun state => Sound state.directory :=
  every_served (P := fun _ state => Sound state.directory) sound_empty (fun _ sound => sound)
    (fun earlier _ forward sound =>
      (Ready.serve ⟨tidy_served mint earlier, sound⟩ forward).sound) requests

end Service

end StakingDirectory
