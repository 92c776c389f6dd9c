/-
**What becomes of the deposits that are handed in.**

* `published_handed_in`: in all retained states, a published record was handed in, as it is, with a
  request that was served for a registered node, and it is on the network of its vault;
* `deposit_of_last_published`: while no version is brought back, a node has the deposit that it
  handed in first for a key, until a record for the key is published. From then on it has the record
  that was published last, which some node handed in first.

A set that is published is marked with all nodes that hold one of its keys, whoever handed the
record in. So the record need not be that of the node (`deposit_replaced`), as two nodes show that
hand in different records for one key (`bothHandIn`).
-/

import StakingDirectory.Proofs.Http.Linearization
import StakingDirectory.Proofs.Http.Run

namespace StakingDirectory

open Operation Directory

variable {mint : Mint} {requests : List Request}

namespace Service

/-! ### Whole runs -/

/-- The records that requests hand in, each beside the node that it is handed in for. -/
def deposited (mint : Mint) (requests : List Request) : List (Address × Deposit) :=
  gathered mint (Request.handedIn mint) {} requests

/-- The records for a key that requests publish on a network while a node holds the key. -/
def publishedOver (mint : Mint) (node : Address) (network : String) (pubkey : Pubkey)
    (requests : List Request) : List Deposit :=
  gathered mint (fun request service =>
    if service.directory.Holds network pubkey node then
      publishedFor (request.published mint service) network pubkey
    else []) {} requests

/-- **All retained states hold only what was handed in.** -/
theorem sourced_served (mint : Mint) (requests : List Request) :
    (served mint requests).archive.Every fun state =>
      Sourced ((deposited mint requests).map Prod.snd) state.directory := by
  refine every_served (P := fun requests state =>
    Sourced ((deposited mint requests).map Prod.snd) state.directory) sourced_empty
    (fun {requests state} request sourced => ?mono)
    (fun requests request forward sourced => ?step) requests
  case mono =>
    rw [deposited, gathered_concat, List.map_append]
    exact sourced.mono (List.subset_append_left _ _)
  case step =>
    have sound := (sound_served mint requests).live
    rw [deposited, gathered_concat, List.map_append]
    exact sourced.handles sound
      (request.handles forward (tidy_served mint requests) sound.genuine)

/-- **Runs that bring no version back keep the origins of all deposits.** -/
theorem traced_served (mint : Mint) (requests : List Request)
    (forward : ∀ request ∈ requests, request.Forward) :
    Traced (deposited mint requests)
      (fun node network pubkey => publishedOver mint node network pubkey requests)
      (served mint requests).directory := by
  induction requests using List.reverseRec with
  | nil => exact traced_empty
  | append_singleton requests request ih =>
    have traced := ih fun other member => forward other (List.mem_append_left _ member)
    have sound := (sound_served mint requests).live
    have last := forward request (List.mem_append_right _ List.mem_cons_self)
    simp only [deposited, publishedOver, gathered_concat, served_concat]
    exact traced.handles sound (request.handles last (tidy_served mint requests) sound.genuine)

end Service

open Service

/-! ### One key from two nodes -/

/-- Asks for something by a path and a query. -/
def getRequest (path query : String) : Request where
  method := "GET"
  path
  query

/-- Sends a body in the session with the token of a number. -/
def postRequest (number : Nat) (path : String) (body : Bytes) : Request where
  method := "POST"
  path
  query := ""
  headers := [("Authorization", Bytes.ofText (Bearer.value (Mint.numbered number)))]
  body

/-- The text in quotation marks. -/
def quoted (text : String) : Bytes := 34 :: (Bytes.ofText text ++ [34])

/-- A body of a text with an address that signs it. -/
def signedBody (text : String) (node : Address) (signature : Bytes) : Bytes :=
  [91] ++ quoted text ++ [44] ++ quoted (Hex.marked node.bytes) ++ [44] ++
    quoted (Hex.marked signature) ++ [93]

/-- A plain record with an amount. -/
def paying (amount : UInt64) : Deposit :=
  { plainDeposit 3 (repeated 9) "n" with amount }

/-- A body of one such record. -/
def payingBody (amount : String) : Bytes :=
  Bytes.ofText "[[" ++ quoted (Hex.encode (paying 0).pubkey) ++ [44] ++
    quoted (Hex.encode (paying 0).credentials) ++ [44] ++ Bytes.ofText amount ++
    Bytes.ofText ",\"\",\"\",\"\",\"\",\"n\"]]"

/-- The second account asks to be registered. -/
def secondPost : Request :=
  { firstPost with body := signedBody "a" Signature.secondAccount Signature.secondRegistration }

/-- The first account logs in. -/
def firstLoginPost : Request :=
  postRequest 0 "/api/login"
    (signedBody Signature.firstNonce Signature.firstAccount Signature.firstLogin)

/-- The second account logs in. -/
def secondLoginPost : Request :=
  postRequest 1 "/api/login"
    (signedBody Signature.secondNonce Signature.secondAccount Signature.secondLogin)

/-- Both accounts come in, and a vault. -/
def bothArrive : List Request :=
  [getRequest "/admin/add-user" "email=a",
    getRequest "/admin/whitelist-node" "email=a&address=7E5F4552091A69125d5DfCb7b8C2659029395Bdf",
    firstPost,
    getRequest "/admin/whitelist-node" "email=a&address=2B5AD5c4795c026514f8317c7a215E218DcCD6cF",
    secondPost,
    getRequest "/admin/add-vault" "address=0909090909090909090909090909090909090909&network=n",
    getRequest "/api/nonce" "", getRequest "/api/nonce" "", firstLoginPost, secondLoginPost]

/-- Each of them hands in a record for one key, and that of the first one is published. -/
def handInAndPublish : List Request :=
  [postRequest 0 "/api/deposit-data" (payingBody "32"),
    postRequest 1 "/api/deposit-data" (payingBody "33"),
    getRequest "/admin/cycle-set"
      "vault=0909090909090909090909090909090909090909&network=n&user-limit=1"]

/-- Both accounts come in and hand in. -/
def bothHandIn : List Request := bothArrive ++ handInAndPublish

theorem sections_secondPost (mint : Mint) :
    secondPost.sections mint =
      .checked (fun service =>
        service.directory.checkRegistration "a" Signature.secondAccount) fun _ =>
          .ok (.changing (Service.onDirectory (Directory.registerNode "a" Signature.secondAccount))
            (.served "node registered")) := by
  have body : Endpoint.readBody RegistrationRequest.codec secondPost = .ok
      ⟨"a", Hex.marked Signature.secondAccount.bytes, Hex.marked Signature.secondRegistration⟩ := by
    decide +kernel
  exact Request.sections_registration find_firstPost (by decide) body
    Signature.verifyRegistration_secondAccount

/-- The login of an account is left to find its session. -/
def loggingIn (number : Nat) (nonce : String) (node : Address) : Sections :=
  .one (.changing (Service.onLive (Service.loginLive (Mint.numbered number) nonce node))
    fun result => .data TokenGrant.codec (result.map TokenGrant.mk))

theorem sections_firstLoginPost (mint : Mint) :
    firstLoginPost.sections mint = loggingIn 0 Signature.firstNonce Signature.firstAccount := by
  have body : Endpoint.readBody LoginRequest.codec firstLoginPost = .ok
      ⟨Signature.firstNonce, Hex.marked Signature.firstAccount.bytes,
        Hex.marked Signature.firstLogin⟩ := by
    decide +kernel
  have carried : Bearer.token firstLoginPost.headers = .ok (Mint.numbered 0) := by decide +kernel
  exact Request.sections_login (by decide) (by decide) body carried
    Signature.verifyLogin_firstAccount

theorem sections_secondLoginPost (mint : Mint) :
    secondLoginPost.sections mint =
      loggingIn 1 Signature.secondNonce Signature.secondAccount := by
  have body : Endpoint.readBody LoginRequest.codec secondLoginPost = .ok
      ⟨Signature.secondNonce, Hex.marked Signature.secondAccount.bytes,
        Hex.marked Signature.secondLogin⟩ := by
    decide +kernel
  have carried : Bearer.token secondLoginPost.headers = .ok (Mint.numbered 1) := by decide +kernel
  exact Request.sections_login (by decide) (by decide) body carried
    Signature.verifyLogin_secondAccount

/-- What the second account holds in the end. -/
def takenOver : Validator where
  pubkey := repeated 3
  vault := repeated 9
  deposit := paying 32
  used := true

/-- What the first account hands in ends up as the deposit of the second one as well. -/
theorem served_bothHandIn :
    deposited .numbered bothHandIn =
        [(Signature.firstAccount, paying 32), (Signature.secondAccount, paying 33)] ∧
      (served .numbered bothHandIn).directory.validatorsAt Signature.secondAccount "n" =
        [takenOver] ∧
      ((served .numbered bothHandIn).live.directory.vault? (repeated 9) "n").map Vault.latestSet =
        some [paying 32] := by
  have elsewhere : ∀ request ∈ bothArrive,
      Endpoint.find request.method request.path ≠ .endpoint .uploadDeposits := by
    decide
  have nothing : gathered .numbered (Request.handedIn .numbered) {} bothArrive = [] :=
    gathered_eq_nil (fun request member _ => if_neg fun both => elsewhere request member both.1) {}
  rw [served, deposited, bothHandIn, gathered_append, nothing, serving_append, serving_eq]
  simp only [bothArrive, List.map_cons, List.map_nil, sections_firstPost, sections_secondPost,
    sections_firstLoginPost, sections_secondLoginPost]
  decide +kernel

theorem forward_bothHandIn : ∀ request ∈ bothHandIn, request.Forward := by
  unfold Request.Forward
  decide

theorem mem_takenOver : takenOver ∈
    (served .numbered bothHandIn).directory.validatorsAt Signature.secondAccount "n" := by
  rw [served_bothHandIn.2.1]
  exact List.mem_cons_self

/-! ### Published records -/

/-- **Published records are genuine.** Whatever was requested of a new service, in the live state
and in that of every name, a record of the latest set of a vault is on the network of the vault. It
is, as it stands, a record of a batch that was handed in with a request which was answered with
status 200, in the session of a node that was registered then. -/
theorem published_handed_in (mint : Mint) (requests : List Request) (state : State)
    (retained : state = (served mint requests).live ∨
      ∃ name, (served mint requests).archive.state? name = some state)
    (address : Address) (network : String) (vault : Vault)
    (found : state.directory.vault? address network = some vault) (deposit : Deposit)
    (member : deposit ∈ vault.latestSet) :
    deposit.network = network ∧
      ∃ before request later node batch, requests = before ++ request :: later ∧
        request.HandsIn mint (served mint before) node batch ∧ deposit ∈ batch := by
  have sourced := (sourced_served mint requests).of_retained retained
  have inside : deposit ∈ state.directory.latestSet address network := by
    rw [latestSet, found]
    exact member
  obtain ⟨place, handed⟩ := sourced.published inside
  obtain ⟨entry, listed, rfl⟩ := List.mem_map.mp handed
  obtain ⟨before, request, later, same, now⟩ := mem_gathered listed
  obtain ⟨batch, handsIn, inBatch⟩ := request.mem_handedIn now
  exact ⟨place, before, request, later, entry.1, batch, same, handsIn, inBatch⟩

/-- The published record was handed in. -/
theorem published_handed_in_bothHandIn :
    ∃ vault, (served .numbered bothHandIn).live.directory.vault? (repeated 9) "n" = some vault ∧
      paying 32 ∈ vault.latestSet ∧ (paying 32).network = "n" ∧
      ∃ before request later node batch, bothHandIn = before ++ request :: later ∧
        request.HandsIn .numbered (served .numbered before) node batch ∧ paying 32 ∈ batch := by
  obtain ⟨vault, found, latest⟩ := Option.map_eq_some_iff.mp served_bothHandIn.2.2
  have member : paying 32 ∈ vault.latestSet := by
    rw [latest]
    exact List.mem_cons_self
  exact ⟨vault, found, member, published_handed_in .numbered bothHandIn
    (served .numbered bothHandIn).live (.inl rfl) (repeated 9) "n" vault found (paying 32) member⟩

/-! ### Stored records -/

/-- **While no version is brought back, a node has the deposit that was published last for a key**
since it holds the key. As long as none was, it has the one that it handed in first itself. In both
cases some node handed in first what it has. -/
theorem deposit_of_last_published (mint : Mint) (requests : List Request)
    (forward : ∀ request ∈ requests, request.Forward) (node : Address) (network : String)
    (validator : Validator)
    (member : validator ∈ (served mint requests).directory.validatorsAt node network) :
    ∃ own other,
      (handedFor (deposited mint requests) node network validator.pubkey).head? = some own ∧
      (handedFor (deposited mint requests) other network validator.pubkey).head? =
        some validator.deposit ∧
      validator.deposit =
        (publishedOver mint node network validator.pubkey requests).getLast?.getD own := by
  obtain ⟨own, origin⟩ := (traced_served mint requests forward).stored member
  obtain ⟨other, given⟩ := origin.giver
  exact ⟨own, other, origin.first, given, origin.last⟩

/-- The second account has the deposit of the first one. -/
theorem deposit_of_last_published_bothHandIn :
    (∀ request ∈ bothHandIn, request.Forward) ∧
    takenOver ∈ (served .numbered bothHandIn).directory.validatorsAt Signature.secondAccount "n" ∧
    ∃ own other,
      (handedFor (deposited .numbered bothHandIn) Signature.secondAccount "n"
        takenOver.pubkey).head? = some own ∧
      (handedFor (deposited .numbered bothHandIn) other "n" takenOver.pubkey).head? =
        some takenOver.deposit ∧
      takenOver.deposit =
        (publishedOver .numbered Signature.secondAccount "n" takenOver.pubkey
          bothHandIn).getLast?.getD own :=
  ⟨forward_bothHandIn, mem_takenOver,
    deposit_of_last_published .numbered bothHandIn forward_bothHandIn Signature.secondAccount "n"
      takenOver mem_takenOver⟩

/-- **A deposit need not be one that its node handed in.** -/
theorem deposit_replaced :
    ¬ ∀ (mint : Mint) (requests : List Request), (∀ request ∈ requests, request.Forward) →
      ∀ (node : Address) (network : String) (validator : Validator),
        validator ∈ (served mint requests).directory.validatorsAt node network →
          (handedFor (deposited mint requests) node network validator.pubkey).head? =
            some validator.deposit := by
  intro own
  have same := own .numbered bothHandIn forward_bothHandIn Signature.secondAccount "n" takenOver
    mem_takenOver
  rw [served_bothHandIn.1] at same
  have given : (handedFor
      [(Signature.firstAccount, paying 32), (Signature.secondAccount, paying 33)]
      Signature.secondAccount "n" takenOver.pubkey).head? = some (paying 33) := by
    decide
  have other : some (paying 33) ≠ some takenOver.deposit := by decide
  exact other (given.symm.trans same)

end StakingDirectory
