import Patroclus.Foundation.Clean
import Patroclus.Foundation.Returns
import Patroclus.Api.Lifetime
import Patroclus.Api.Server

/-!
# Lifetimes that can be counted

A lifetime comes in as a `u64`. It is cast to an `i64`, made a duration and added to a
reading of the clock, and nothing checks it before. The arithmetic goes wrong exactly if the
lifetime is longer than a duration can be, or ends after the calendar does: a lifetime from
`2 ^ 63` on is counted backwards, and others panic.
-/

namespace Patroclus

open Foundation

namespace Instant

/-- The cast keeps the seconds, and they lead from a time to a date that is not earlier. -/
structure Counts (t : Instant) (seconds : Nat) : Prop where
  kept : asI64 seconds = seconds
  ends : ∃ expiry, t.addSeconds (asI64 seconds) = some expiry
  later : ∀ expiry, t.addSeconds (asI64 seconds) = some expiry → t ≤ expiry

/-- The seconds make a duration that ends within the calendar. -/
def Reaches (t : Instant) (seconds : Nat) : Prop :=
  (seconds : Int) ≤ (2 ^ 63 - 1) / 1000 ∧ minUtc ≤ t + seconds * 1000000000 ∧
    t + seconds * 1000000000 ≤ maxUtc

instance (t : Instant) (seconds : Nat) : Decidable (t.Reaches seconds) :=
  inferInstanceAs (Decidable (_ ∧ _ ∧ _))

theorem counts_iff {t : Instant} {seconds : Nat} : t.Counts seconds ↔ t.Reaches seconds := by
  constructor
  · rintro ⟨hkept, ⟨expiry, hsum⟩, -⟩
    rw [hkept] at hsum
    obtain ⟨⟨-, hduration⟩, hdate, rfl⟩ := addSeconds_eq_some.mp hsum
    exact ⟨hduration, hdate⟩
  · rintro ⟨hduration, hdate⟩
    have hkept : asI64 seconds = seconds := asI64_of_lt (by omega)
    refine ⟨hkept, ⟨_, addSeconds_eq_some.mpr ⟨⟨?_, ?_⟩, ?_, rfl⟩⟩, fun expiry hsum => ?_⟩
    · rw [hkept]
      omega
    · rwa [hkept]
    · rwa [hkept]
    · rw [addSeconds_eq hsum, hkept]
      exact Int.le_add_of_nonneg_right (Int.mul_nonneg (Int.natCast_nonneg _) (by decide))

end Instant

/-- What is left of a child's lifetime, in whole seconds, when `delegate` reads the clock
again. -/
def DelegationReadings.left (readings : DelegationReadings) (expiresInSeconds : Nat) : Nat :=
  ((min readings.parent (readings.requested + expiresInSeconds * 1000000000)).secondsSince
    readings.remaining).toNat

/-- The arithmetic of a delegation: the request panics nowhere, its lifetime and what is left
of it are kept by their casts, and the requested expiry is not earlier than its reading. -/
structure DelegationCounts (p : Platform) (presenter : Uuid) (req : DelegateRequest)
    (parent : AgentClaims) (s : Serving) : Prop where
  returns : (delegate p (some presenter) req).Avoids (· = Failure.panic) s
  kept : asI64 req.expiresInSeconds = req.expiresInSeconds ∧
    asI64 ((delegationReadings parent s).left req.expiresInSeconds) =
      (delegationReadings parent s).left req.expiresInSeconds
  later : ∀ requested, (delegationReadings parent s).requested.addSeconds
    (asI64 req.expiresInSeconds) = some requested →
      (delegationReadings parent s).requested ≤ requested

section

variable (p : Platform)

/-- `principal_delegate` up to its first reading of the clock: the agent, its owner and the
owner's principal. -/
def grantParties (req : PrincipalDelegateRequest) : Handler (Agent × Uuid × Principal) := do
  let agent ← Database.getAgent p req.agentId
  match agent.ownerId with
  | none => raise (.agentNotFound "agent has no owner principal")
  | some principalId =>
      let principal ← Database.getPrincipal p principalId
      return (agent, principalId, principal)

/-- The grant of a root lifetime to an agent that has been found. -/
def grantTo (parties : Agent × Uuid × Principal) (req : PrincipalDelegateRequest) :
    Handler PrincipalDelegateResponse := do
  let expiresAt ← orPanic ((← utcNow).addSeconds (asI64 req.expiresInSeconds))
  let grantId ← Database.createGrant p parties.1.id parties.2.1 none req.scopes req.constraints
    expiresAt
  let (jwt, jti) ← issue p (.principalDelegate grantId) (grantParams p parties.2.2 parties.1 req)
  Database.recordToken p jti (some grantId) parties.1.id req.scopes (agentAudience parties.1.id)
    expiresAt
  return ⟨grantId, jwt, req.scopes, expiresAt⟩

theorem principalDelegate_eq (req : PrincipalDelegateRequest) :
    principalDelegate p req = grantParties p req >>= fun parties => grantTo p parties req := by
  rw [principalDelegate, grantParties, bind_assoc]
  congr
  funext agent
  cases agent.ownerId with
  | none => rfl
  | some principalId =>
      dsimp only
      rw [bind_assoc]
      rfl

end

/-- The arithmetic of a root grant, after the parties have been found. -/
structure GrantCounts (p : Platform) (req : PrincipalDelegateRequest) (s s₁ : Serving) :
    Prop where
  returns : (principalDelegate p req).Avoids (· = Failure.panic) s
  kept : asI64 req.expiresInSeconds = req.expiresInSeconds ∧
    asI64 (min req.expiresInSeconds p.config.maxTtlSeconds) =
      min req.expiresInSeconds p.config.maxTtlSeconds
  later : ∀ expiresAt, (s₁.tape.now s₁.tick).addSeconds (asI64 req.expiresInSeconds) =
    some expiresAt → s₁.tape.now s₁.tick ≤ expiresAt

/-- The row of the grant is written. -/
def StoresGrant (p : Platform) (parties : Agent × Uuid × Principal)
    (req : PrincipalDelegateRequest) (s₁ : Serving) : Prop :=
  ∃ id s₂, Database.createGrant p parties.1.id parties.2.1 none req.scopes req.constraints
    (s₁.tape.now s₁.tick + req.expiresInSeconds * 1000000000) s₁.next = (.ok id, s₂)

section

variable {p : Platform} {s s₁ : Serving}

/-! ## What does not panic -/

theorem sql_avoids_panic {α : Type} {statement : Db → Except String (α × Db)} :
    (sql statement).Avoids (· = Failure.panic) s := by
  intro e finish run
  rw [sql] at run
  split at run
  · rw [← Except.error.inj (Prod.mk.inj run).1]
    intro hpanic
    cases hpanic
  · split at run
    · rw [← Except.error.inj (Prod.mk.inj run).1]
      intro hpanic
      cases hpanic
    · cases run

theorem recordToken_avoids_panic {jti : String} {grantId : Option Uuid} {agentId : Uuid}
    {scopes : List String} {audience : String} {expiresAt : Instant} :
    (Database.recordToken p jti grantId agentId scopes audience expiresAt).Avoids
      (· = Failure.panic) s :=
  (Action.avoids_bind_of_run utcNow_run).mpr sql_avoids_panic

theorem createAuditEntry_avoids_panic {entry : CreateAuditEntry} :
    (Database.createAuditEntry p entry).Avoids (· = Failure.panic) s := by
  rw [Database.createAuditEntry, Action.avoids_bind_of_run (Action.attempt_run _ _),
    Action.avoids_bind_of_run utcNow_run, Action.avoids_bind_pure]
  exact sql_avoids_panic

/-- An addition panics if there is no sum. -/
theorem orPanic_avoids_iff {α : Type} {value : Option α} :
    (orPanic value).Avoids (· = Failure.panic) s ↔ ∃ a, value = some a := by
  cases value with
  | none => exact iff_of_false (fun h => h _ _ rfl rfl) nofun
  | some a => exact iff_of_true (Action.avoids_of_run rfl) ⟨a, rfl⟩

/-- Signing panics if there is no expiry. -/
theorem issue_avoids_iff {origin : Origin} {params : IssueTokenParams} :
    (issue p origin params).Avoids (· = Failure.panic) s ↔
      ∃ expiry, params.expiry (s.tape.now (s.tick + 2)) = some expiry := by
  have hissue : issue p origin params s = _ := issue_run s
  cases hexpiry : params.expiry (s.tape.now (s.tick + 2)) with
  | none =>
      rw [sign, hexpiry] at hissue
      rw [Action.avoids_of_error hissue]
      refine iff_of_false (fun h => h rfl) ?_
      rintro ⟨expiry, hsome⟩
      cases hsome
  | some expiry =>
      refine iff_of_true (fun e finish run => ?_) ⟨expiry, rfl⟩
      rw [run, sign, hexpiry] at hissue
      dsimp only at hissue
      split at hissue
      · cases hissue
      · rename_i hsign
        split at hsign
        · cases hsign
          rw [Except.error.inj (Prod.mk.inj hissue).1]
          intro hpanic
          cases hpanic
        · cases hsign

/-! ## Delegations -/

/-- The expiry of a child is computed if there is a requested one. -/
theorem delegationExpiry_avoids_iff {claims : AgentClaims} {expiresInSeconds : Nat} :
    (delegationExpiry claims expiresInSeconds).Avoids (· = Failure.panic) s.next.next ↔
      ∃ requested, (delegationReadings claims s).requested.addSeconds (asI64 expiresInSeconds) =
        some requested := by
  rw [delegationExpiry, delegationReadings]
  cases Instant.fromTimestamp claims.exp with
  | some parent =>
      dsimp only
      rw [pure_bind, Action.avoids_bind_of_run utcNow_run, Action.avoids_bind_iff,
        orPanic_avoids_iff]
      exact and_iff_left fun _ _ _ => Action.avoids_of_run rfl
  | none =>
      dsimp only
      rw [Action.avoids_bind_of_run utcNow_run, Action.avoids_bind_of_run utcNow_run,
        Action.avoids_bind_iff, orPanic_avoids_iff]
      exact and_iff_left fun _ _ _ => Action.avoids_of_run rfl

/-- Without a panic, the expiry is returned. -/
theorem delegationExpiry_returns {claims : AgentClaims} {expiresInSeconds : Nat}
    {requested : Instant} (h : (delegationReadings claims s).requested.addSeconds
      (asI64 expiresInSeconds) = some requested) :
    (delegationExpiry claims expiresInSeconds).Returns (fun _ _ => True) s.next.next := by
  have hsum {now : Instant} (hnow : now.addSeconds (asI64 expiresInSeconds) = some requested)
      (middle : Serving) : orPanic (now.addSeconds (asI64 expiresInSeconds)) middle =
        (.ok requested, middle) := by
    rw [hnow]
    rfl
  rw [delegationReadings] at h
  rw [delegationExpiry]
  cases hparent : Instant.fromTimestamp claims.exp with
  | some parent =>
      rw [hparent] at h
      refine .bind_run rfl (.bind_run utcNow_run ?_)
      refine .bind_run (hsum h _) ?_
      exact .bind_run utcNow_run (.pure trivial)
  | none =>
      rw [hparent] at h
      refine .bind_run utcNow_run (.bind_run utcNow_run ?_)
      refine .bind_run (hsum h _) ?_
      exact .bind_run utcNow_run (.pure trivial)

theorem recordDelegation_avoids_panic {claims : AgentClaims} {req : DelegateRequest}
    {jti : String} {expiresAt : Instant} :
    (recordDelegation p claims req jti expiresAt).Avoids (· = Failure.panic) s := by
  rw [recordDelegation, Action.avoids_bind_iff]
  refine ⟨recordToken_avoids_panic, fun _ middle _ => ?_⟩
  rw [Action.avoids_bind_pure]
  exact createAuditEntry_avoids_panic

/-- A delegation panics if the requested expiry or the one to be signed is no date. -/
theorem delegate_avoids_iff {presenter : Uuid} {req : DelegateRequest} {parent : AgentClaims}
    (admitted : Admits p presenter req s parent) :
    let readings := delegationReadings parent s
    (delegate p (some presenter) req).Avoids (· = Failure.panic) s ↔
      ∃ requested expiry, readings.requested.addSeconds (asI64 req.expiresInSeconds) =
        some requested ∧ readings.issued.addSeconds (asI64
          ((min readings.parent requested).secondsSince readings.remaining).toNat) =
            some expiry := by
  intro readings
  have hauth : authenticated (some presenter) s = (.ok presenter, s) := rfl
  rw [delegate, Action.avoids_bind_of_run hauth,
    Action.avoids_bind_of_run (admitDelegation_eq_ok.mpr ⟨admitted, rfl⟩), Action.avoids_bind_iff,
    delegationExpiry_avoids_iff]
  have hissue {expiry : Instant × Nat} {s₂ : Serving}
      (run : delegationExpiry parent req.expiresInSeconds s.next.next = (.ok expiry, s₂)) :
      (issue p (.delegate presenter req.parentGrantToken) (childParams p parent req expiry.2) >>=
        fun result => recordDelegation p parent req result.2 expiry.1 >>= fun _ =>
          pure ⟨result.1, expiry.1, req.scopes⟩ : Handler DelegateResponse).Avoids
            (· = Failure.panic) s₂ ↔ ∃ signed, readings.issued.addSeconds (asI64 expiry.2) =
              some signed := by
    obtain ⟨-, -, -, -, hissued⟩ := delegationExpiry_readings run
    rw [Action.avoids_bind_iff, issue_avoids_iff, hissued]
    refine and_iff_left fun result middle _ => ?_
    rw [Action.avoids_bind_pure]
    exact recordDelegation_avoids_panic
  constructor
  · rintro ⟨⟨requested, hrequested⟩, hrest⟩
    obtain ⟨expiry, s₂, run, -⟩ := delegationExpiry_returns hrequested
    obtain ⟨_, hsame, rfl, -, -⟩ := delegationExpiry_readings run
    obtain rfl := Option.some.inj (hrequested.symm.trans hsame)
    obtain ⟨signed, hsigned⟩ := (hissue run).mp (hrest _ _ run)
    exact ⟨requested, signed, hrequested, hsigned⟩
  · rintro ⟨requested, signed, hrequested, hsigned⟩
    refine ⟨⟨requested, hrequested⟩, fun expiry s₂ run => ?_⟩
    obtain ⟨_, hsame, rfl, -, -⟩ := delegationExpiry_readings run
    obtain rfl := Option.some.inj (hrequested.symm.trans hsame)
    exact (hissue run).mpr ⟨signed, hsigned⟩

/-- The arithmetic of a delegation is sound exactly if the requested lifetime and what is left
of it can be counted. -/
theorem delegationCounts_iff {presenter : Uuid} {req : DelegateRequest} {parent : AgentClaims}
    (admitted : Admits p presenter req s parent) :
    DelegationCounts p presenter req parent s ↔
      (delegationReadings parent s).requested.Reaches req.expiresInSeconds ∧
      (delegationReadings parent s).issued.Reaches
        ((delegationReadings parent s).left req.expiresInSeconds) := by
  have hleft {requested : Instant} (kept : asI64 req.expiresInSeconds = req.expiresInSeconds)
      (h : (delegationReadings parent s).requested.addSeconds (asI64 req.expiresInSeconds) =
        some requested) : ((min (delegationReadings parent s).parent requested).secondsSince
          (delegationReadings parent s).remaining).toNat =
            (delegationReadings parent s).left req.expiresInSeconds := by
    rw [DelegationReadings.left, Instant.addSeconds_eq h, kept]
  rw [← Instant.counts_iff, ← Instant.counts_iff]
  constructor
  · rintro ⟨hreturns, ⟨hkept, hleftKept⟩, hlater⟩
    obtain ⟨requested, signed, hrequested, hsigned⟩ := (delegate_avoids_iff admitted).mp hreturns
    rw [hleft hkept hrequested] at hsigned
    refine ⟨⟨hkept, ⟨requested, hrequested⟩, hlater⟩, hleftKept, ⟨signed, hsigned⟩, ?_⟩
    intro expiry hexpiry
    rw [Instant.addSeconds_eq hexpiry, hleftKept]
    exact Int.le_add_of_nonneg_right (Int.mul_nonneg (Int.natCast_nonneg _) (by decide))
  · rintro ⟨⟨hkept, ⟨requested, hrequested⟩, hlater⟩, hleftKept, ⟨signed, hsigned⟩, -⟩
    refine ⟨(delegate_avoids_iff admitted).mpr ⟨requested, signed, hrequested, ?_⟩,
      ⟨hkept, hleftKept⟩, hlater⟩
    rw [hleft hkept hrequested]
    exact hsigned

/-! ## Root grants -/

theorem createGrant_avoids_panic {agentId principalId : Uuid} {parentGrantId : Option Uuid}
    {scopes : List String} {constraints : Option Json} {expiresAt : Instant} :
    (Database.createGrant p agentId principalId parentGrantId scopes constraints
      expiresAt).Avoids (· = Failure.panic) s := by
  rw [Database.createGrant, Action.avoids_bind_of_run nowV7_run,
    Action.avoids_bind_of_run utcNow_run, Action.avoids_bind_pure]
  exact sql_avoids_panic

/-- A root grant panics if the requested expiry is no date, or the one to be signed is none
and the grant has been stored. -/
theorem grantTo_avoids_iff {parties : Agent × Uuid × Principal} {req : PrincipalDelegateRequest} :
    (grantTo p parties req).Avoids (· = Failure.panic) s₁ ↔
      ∃ expiresAt, (s₁.tape.now s₁.tick).addSeconds (asI64 req.expiresInSeconds) =
        some expiresAt ∧ ∀ id s₂, Database.createGrant p parties.1.id parties.2.1 none req.scopes
          req.constraints expiresAt s₁.next = (.ok id, s₂) →
            ∃ expiry, (s₁.tape.now (s₁.tick + 6)).addSeconds
              (asI64 (min req.expiresInSeconds p.config.maxTtlSeconds)) = some expiry := by
  have hissue {id : Uuid} {s₂ : Serving} {expiresAt : Instant}
      (run : Database.createGrant p parties.1.id parties.2.1 none req.scopes req.constraints
        expiresAt s₁.next = (.ok id, s₂)) :
      (issue p (.principalDelegate id) (grantParams p parties.2.2 parties.1 req) >>=
        fun result => Database.recordToken p result.2 (some id) parties.1.id req.scopes
          (agentAudience parties.1.id) expiresAt >>= fun _ =>
            pure ⟨id, result.1, req.scopes, expiresAt⟩ :
              Handler PrincipalDelegateResponse).Avoids (· = Failure.panic) s₂ ↔
        ∃ expiry, (s₁.tape.now (s₁.tick + 6)).addSeconds
          (asI64 (min req.expiresInSeconds p.config.maxTtlSeconds)) = some expiry := by
    obtain ⟨-, -, row, -, -, rfl⟩ := Database.createGrant_row run
    rw [Action.avoids_bind_iff, issue_avoids_iff]
    refine and_iff_left fun result middle _ => ?_
    rw [Action.avoids_bind_pure]
    exact recordToken_avoids_panic
  rw [grantTo, Action.avoids_bind_of_run utcNow_run, Action.avoids_bind_iff, orPanic_avoids_iff]
  constructor
  · rintro ⟨⟨expiresAt, hsum⟩, hrest⟩
    have hstored := hrest expiresAt s₁.next (by rw [hsum]; rfl)
    rw [Action.avoids_bind_iff] at hstored
    exact ⟨expiresAt, hsum, fun id s₂ run => (hissue run).mp (hstored.2 id s₂ run)⟩
  · rintro ⟨expiresAt, hsum, hstored⟩
    refine ⟨⟨expiresAt, hsum⟩, fun _ _ hpure => ?_⟩
    obtain ⟨hsame, rfl⟩ := orPanic_eq_ok hpure
    obtain rfl := Option.some.inj (hsum.symm.trans hsame)
    rw [Action.avoids_bind_iff]
    exact ⟨createGrant_avoids_panic, fun id s₂ run => (hissue run).mpr (hstored id s₂ run)⟩

/-- The arithmetic of a root grant is sound exactly if the requested lifetime can be counted,
and so can the capped one once the grant is stored. -/
theorem grantCounts_iff {parties : Agent × Uuid × Principal} {req : PrincipalDelegateRequest}
    (found : grantParties p req s = (.ok parties, s₁)) :
    GrantCounts p req s s₁ ↔ (s₁.tape.now s₁.tick).Reaches req.expiresInSeconds ∧
      (StoresGrant p parties req s₁ → (s₁.tape.now (s₁.tick + 6)).Reaches
        (min req.expiresInSeconds p.config.maxTtlSeconds)) := by
  have hreturns : (principalDelegate p req).Avoids (· = Failure.panic) s ↔
      (grantTo p parties req).Avoids (· = Failure.panic) s₁ := by
    rw [principalDelegate_eq, Action.avoids_bind_of_run found]
  rw [← Instant.counts_iff, ← Instant.counts_iff]
  constructor
  · rintro ⟨havoids, ⟨hkept, hcapped⟩, hlater⟩
    obtain ⟨expiresAt, hsum, hsigns⟩ := grantTo_avoids_iff.mp (hreturns.mp havoids)
    refine ⟨⟨hkept, ⟨expiresAt, hsum⟩, hlater⟩, ?_⟩
    rintro ⟨id, s₂, hstored⟩
    rw [← hkept, ← Instant.addSeconds_eq hsum] at hstored
    refine ⟨hcapped, hsigns id s₂ hstored, fun expiry hexpiry => ?_⟩
    rw [Instant.addSeconds_eq hexpiry, hcapped]
    exact Int.le_add_of_nonneg_right (Int.mul_nonneg (Int.natCast_nonneg _) (by decide))
  · rintro ⟨hcounts, hcapped⟩
    obtain ⟨expiresAt, hsum⟩ := hcounts.ends
    have hsmall : min req.expiresInSeconds p.config.maxTtlSeconds < 2 ^ 63 := by
      have hduration := (Instant.counts_iff.mp hcounts).1
      omega
    refine ⟨hreturns.mpr (grantTo_avoids_iff.mpr ⟨expiresAt, hsum, fun id s₂ hstored => ?_⟩),
      ⟨hcounts.kept, asI64_of_lt hsmall⟩, hcounts.later⟩
    rw [Instant.addSeconds_eq hsum, hcounts.kept] at hstored
    exact (hcapped ⟨id, s₂, hstored⟩).ends

/-- A request neither panics nor wraps, and expires no earlier than it is made, exactly if its
lifetime can be counted from the reading of the handler, and what is signed of it from that of
the issuer. -/
theorem lifetimes_count_iff (p : Platform) (s : Serving) :
    (∀ presenter req parent, Admits p presenter req s parent →
      (DelegationCounts p presenter req parent s ↔
        (delegationReadings parent s).requested.Reaches req.expiresInSeconds ∧
        (delegationReadings parent s).issued.Reaches
          ((delegationReadings parent s).left req.expiresInSeconds))) ∧
    ∀ req parties s₁, grantParties p req s = (.ok parties, s₁) →
      (GrantCounts p req s s₁ ↔ (s₁.tape.now s₁.tick).Reaches req.expiresInSeconds ∧
        (StoresGrant p parties req s₁ → (s₁.tape.now (s₁.tick + 6)).Reaches
          (min req.expiresInSeconds p.config.maxTtlSeconds))) :=
  ⟨fun _ _ _ admitted => delegationCounts_iff admitted, fun _ _ _ found => grantCounts_iff found⟩

end

/-- A grant of ten minutes, and a minute of it that is delegated. -/
theorem lifetimes_count_iff_granting :
    (∃ s₁, GrantCounts delegationPlatform ⟨⟨300⟩, ["read"], none, 600⟩
      (enrolledWorld.serving (.steady opening 400)) s₁) ∧
    DelegationCounts delegationPlatform ⟨300⟩ ⟨Jwt.tableToken rootClaims, ⟨300⟩, ["read"], 60⟩
      rootClaims ((enrolledWorld.step delegationPlatform granting).serving
        (.steady opening 500)) := by
  constructor
  · obtain ⟨-, hgrants⟩ := lifetimes_count_iff delegationPlatform
      (enrolledWorld.serving (.steady opening 400))
    refine ⟨_, (hgrants ⟨⟨300⟩, ["read"], none, 600⟩ _ _ (Prod.ext (by decide +kernel) rfl)).mpr
      ⟨by decide +kernel, fun _ => by decide +kernel⟩⟩
  · obtain ⟨hdelegations, -⟩ := lifetimes_count_iff delegationPlatform
      ((enrolledWorld.step delegationPlatform granting).serving (.steady opening 500))
    refine (hdelegations _ _ _ ⟨TokenVerifier.verify_ok_iff.mpr ?_, ?_, ?_⟩).mpr
      ⟨by decide +kernel, by decide +kernel⟩
    · exact ⟨by decide +kernel, by decide +kernel, by decide +kernel, by decide +kernel⟩
    · decide +kernel
    · decide +kernel

/-- Sound arithmetic, as a promise about every `u64` that is sent. -/
def LifetimesCount : Prop :=
  ∀ (p : Platform) (s : Serving),
    (∀ presenter req parent, req.expiresInSeconds < 2 ^ 64 → Admits p presenter req s parent →
      DelegationCounts p presenter req parent s) ∧
    ∀ req parties s₁, req.expiresInSeconds < 2 ^ 64 → grantParties p req s = (.ok parties, s₁) →
      GrantCounts p req s s₁

/-- The greatest `u64` is cast to minus one. -/
theorem not_lifetimesCount : ¬ LifetimesCount := by
  intro h
  obtain ⟨-, hgrants⟩ := h delegationPlatform (enrolledWorld.serving (.steady opening 400))
  have hcounts := hgrants ⟨⟨300⟩, ["read"], none, 2 ^ 64 - 1⟩ _ _ (by decide)
    (Prod.ext (by decide +kernel) rfl)
  exact absurd hcounts.kept.1 (by decide)

end Patroclus
