/-
**What was found of a token or of a node is found again later.**

* `Fresh` says that the tokens that are still to be issued, up to a bound, are unknown and
  different. Forward steps within the bound keep this, and leave the tokens that are known where
  they are (`Proceeds.fresh`);
* `LeadsTo.authenticate`: a token that acts for a node acts for it from then on, whatever forward
  commands come between.
-/

import StakingDirectory.Proofs.Service.Growth

namespace StakingDirectory

/-- Registered nodes stay registered. -/
theorem Directory.Grows.isRegistered {before after : Directory} (grows : before.Grows after)
    {node : Address} (registered : before.isRegistered node = true) :
    after.isRegistered node = true := by
  unfold Directory.isRegistered at registered ⊢
  cases found : before.node? node with
  | none =>
    rw [found] at registered
    cases registered
  | some old =>
    obtain ⟨later, there, grown⟩ := grows.nodes node old found
    rw [found] at registered
    rw [there]
    exact grown.registered registered

namespace Service

variable {mint : Mint} {bound : Nat} {service next : Service}

/-! ### Tokens to come -/

/-- The tokens that are still to be issued, up to a bound, are unknown and different. -/
structure Fresh (mint : Mint) (bound : Nat) (service : Service) : Prop where
  unknown : ∀ number, service.issued ≤ number → number < bound →
    service.live.sessions.byToken[mint number]? = none
  distinct : ∀ first second, service.issued ≤ first → first < second → second < bound →
    mint first ≠ mint second

/-- Tokens keep their places. -/
def KeepsTokens (before after : Service) : Prop :=
  Stays (fun one other : Nat => other = one) (fun token : String =>
    before.live.sessions.byToken[token]?) fun token => after.live.sessions.byToken[token]?

theorem KeepsTokens.refl (service : Service) : KeepsTokens service service :=
  .of_eq (fun _ => rfl) fun _ => rfl

theorem KeepsTokens.trans {first second third : Service} (earlier : KeepsTokens first second)
    (later : KeepsTokens second third) : KeepsTokens first third :=
  Stays.trans (fun one other => other.trans one) earlier later

theorem Proceeds.issued_le (proceeds : Proceeds mint service next) :
    service.issued ≤ next.issued := by
  cases proceeds with
  | directory | login | snapshot => exact Nat.le_refl _
  | begin => exact Nat.le_succ _

theorem LeadsTo.issued_le (leads : LeadsTo mint service next) :
    service.issued ≤ next.issued := by
  induction leads with
  | refl => exact Nat.le_refl _
  | tail _ last ih => exact Nat.le_trans ih last.issued_le

/-- **A step within the bound takes no token that is known**, and leaves the others to come. -/
theorem Proceeds.fresh (proceeds : Proceeds mint service next)
    (tidy : service.archive.Tidy none) (fresh : Fresh mint bound service)
    (within : next.issued ≤ bound) : Fresh mint bound next ∧ KeepsTokens service next := by
  -- Only a session that begins changes the index or the count.
  have same : next.issued = service.issued →
      next.live.sessions.byToken = service.live.sessions.byToken →
      Fresh mint bound next ∧ KeepsTokens service next := by
    intro count index
    refine ⟨⟨?_, ?_⟩, .of_eq (fun _ => rfl) fun token => by rw [index]⟩
    · rw [count, index]
      exact fresh.unknown
    · rw [count]
      exact fresh.distinct
  cases proceeds with
  | directory steps => exact same rfl (by rw [live_withState tidy])
  | login node there waiting => exact same rfl (by rw [live_withState tidy]; rfl)
  | snapshot name => exact same rfl (by rw [live_takeSnapshot tidy])
  | begin =>
    have index : ∀ token : String,
        (service.archive.withLive
          { service.live with
            sessions := service.live.sessions.withBegun
              (mint service.issued) }).liveState.sessions.byToken[token]? =
          if mint service.issued = token then some service.live.sessions.list.length
          else service.live.sessions.byToken[token]? := by
      intro token
      rw [Archive.liveState_withLive tidy]
      simp [Sessions.withBegun, Session.begin, Std.ExtTreeMap.getElem?_insert]
    refine ⟨⟨fun number later inside => ?_, fun first second later => ?_⟩,
      fun token place known => ⟨place, ?_, rfl⟩⟩
    · refine (index _).trans ?_
      rw [if_neg (fresh.distinct _ _ (Nat.le_refl _) later inside)]
      exact fresh.unknown number (Nat.le_of_succ_le later) inside
    · exact fresh.distinct first second (Nat.le_of_succ_le later)
    · refine (index token).trans ?_
      refine (if_neg ?_).trans known
      rintro rfl
      cases (fresh.unknown _ (Nat.le_refl _) within).symm.trans known

/-- **Going forward within the bound takes no token that is known.** -/
theorem LeadsTo.fresh (leads : LeadsTo mint service next) (tidy : service.archive.Tidy none)
    (fresh : Fresh mint bound service) (within : next.issued ≤ bound) :
    Fresh mint bound next ∧ KeepsTokens service next := by
  induction leads with
  | refl => exact ⟨fresh, .refl service⟩
  | @tail between last earlier step ih =>
    obtain ⟨still, before⟩ := ih (Nat.le_trans step.issued_le within)
    obtain ⟨after, kept⟩ := step.fresh (LeadsTo.grows earlier tidy).1 still within
    exact ⟨after, before.trans kept⟩

/-! ### Authentication -/

/-- A token acts for a node if its session is logged in as the node, which is registered. -/
theorem authenticate_eq_ok {token : String} {node : Address} :
    service.authenticate token = .ok node ↔ ∃ session,
      service.live.sessions.withToken? token = some session ∧ session.loggedIn = true ∧
        session.node = some node ∧ service.directory.isRegistered node = true := by
  unfold authenticate
  cases service.live.sessions.withToken? token with
  | none => simp
  | some session =>
    simp only [Option.some.injEq, exists_eq_left']
    obtain ⟨nonce, given, owner, loggedIn⟩ := session
    cases loggedIn with
    | false => simp
    | true =>
      cases owner with
      | none => simp
      | some other =>
        by_cases registered : service.directory.isRegistered other = true
        · simp only [registered, if_true, Except.ok.injEq, Option.some.injEq, true_and]
          exact ⟨fun same => ⟨same, same ▸ registered⟩, And.left⟩
        · simp only [registered, Option.some.injEq, true_and]
          refine iff_of_false (by simp) ?_
          rintro ⟨rfl, also⟩
          exact registered also

/-- **A token that acts for a node acts for it from then on.** -/
theorem LeadsTo.authenticate (leads : LeadsTo mint service next)
    (tidy : service.archive.Tidy none) (fresh : Fresh mint bound service)
    (within : next.issued ≤ bound) {token : String} {node : Address}
    (known : service.authenticate token = .ok node) : next.authenticate token = .ok node := by
  obtain ⟨session, found, loggedIn, owner, registered⟩ := authenticate_eq_ok.mp known
  have grows := (leads.grows tidy).2
  obtain ⟨place, known, there⟩ := Option.bind_eq_some_iff.mp found
  obtain ⟨position, now, rfl⟩ := (leads.fresh tidy fresh within).2 token place known
  obtain ⟨later, stays, grown⟩ := grows.sessions position session there
  obtain rfl := grown.settled loggedIn
  exact authenticate_eq_ok.mpr ⟨later, Option.bind_eq_some_iff.mpr ⟨position, now, stays⟩,
    loggedIn, owner, grows.directory.isRegistered registered⟩

end Service

end StakingDirectory
