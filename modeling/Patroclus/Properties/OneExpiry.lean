import Patroclus.Api.Lifetime
import Patroclus.Api.Server

/-!
# One expiry for a token

A minted token has an expiry in its claims, one in its row and one in the answer. The row
and the answer always agree. Where the clock stands still they agree with the claims of an
access token to within a second, with those of a root grant exactly if its lifetime was
not capped, and with those of a child grant exactly if it was not cut to whole seconds.
-/

namespace Patroclus

open Foundation

/-- The expiries of a minted token lie less than one second apart. -/
def OneExpiry (p : Platform) (token : String) (expiresAt : Instant) (s finish : Serving) : Prop :=
  ∃ claims row, p.jwt.payload token = some claims ∧
    finish.app.db.tokens = s.app.db.tokens ++ [row] ∧ row.id = claims.jti ∧
    row.expiresAt = p.toRfc3339 expiresAt ∧ |claims.exp * 1000000000 - expiresAt| < 1000000000

/-- Two lifetimes come to the same time, within a second: they are equal, or the first is one
second longer and the clock is not at the beginning of a second. -/
def SameLifetime (signed recorded now : Int) : Prop :=
  signed = recorded ∨ signed = recorded + 1 ∧ now % 1000000000 ≠ 0

/-- The requested lifetime of a child ends before its parent does, and is not negative as an
`i64`; or the parent ends first, and has ended already or is a number of seconds away. -/
def ChildAligned (parent : AgentClaims) (expiresInSeconds : Nat) (now : Instant) : Prop :=
  match Instant.fromTimestamp parent.exp with
  | none => SameLifetime (max 0 (asI64 expiresInSeconds)) (asI64 expiresInSeconds) now
  | some expiry =>
      if now + asI64 expiresInSeconds * 1000000000 ≤ expiry then
        SameLifetime (max 0 (asI64 expiresInSeconds)) (asI64 expiresInSeconds) now
      else expiry ≤ now ∨ now % 1000000000 = 0

/-! ## Rounding -/

/-- The seconds of a sum, against the sum. -/
theorem sameLifetime_iff {signed recorded now : Int} :
    |(now / 1000000000 + signed) * 1000000000 - (now + recorded * 1000000000)| < 1000000000 ↔
      SameLifetime signed recorded now := by
  rw [abs_lt, SameLifetime]
  omega

theorem sameLifetime_self (lifetime now : Int) : SameLifetime lifetime lifetime now :=
  .inl rfl

/-- For unsigned lifetimes, a cap makes no difference exactly if it is not reached. A cap of
zero seconds on a lifetime that reads as minus one is the exception. -/
theorem sameLifetime_min_iff {requested maxTtl : Nat} {now : Int} (small : requested < 2 ^ 64)
    (cap : maxTtl < 2 ^ 64) :
    SameLifetime (asI64 (min requested maxTtl)) (asI64 requested) now ↔
      requested ≤ maxTtl ∨ requested = 2 ^ 64 - 1 ∧ maxTtl = 0 ∧ now % 1000000000 ≠ 0 := by
  rw [SameLifetime]
  obtain hle | hlt := le_or_gt requested maxTtl
  · rw [Nat.min_eq_left hle]
    exact iff_of_true (.inl rfl) (.inl hle)
  · rw [Nat.min_eq_right hlt.le, asI64, asI64, Nat.mod_eq_of_lt small, Nat.mod_eq_of_lt cap]
    split <;> split <;> omega

/-- What is left of a lifetime that ends at a whole second. -/
theorem remaining_iff {exp now : Int} (later : now / 1000000000 ≤ exp) :
    |(now / 1000000000 + ((exp * 1000000000 - now) / 1000000000).toNat) * 1000000000 -
      exp * 1000000000| < 1000000000 ↔ exp * 1000000000 ≤ now ∨ now % 1000000000 = 0 := by
  rw [abs_lt]
  omega

/-- What is left of a requested lifetime. -/
theorem requested_iff {seconds now : Int} :
    |(now / 1000000000 + ((now + seconds * 1000000000 - now) / 1000000000).toNat) * 1000000000 -
      (now + seconds * 1000000000)| < 1000000000 ↔ SameLifetime (max 0 seconds) seconds now := by
  have hleft : (now + seconds * 1000000000 - now) / 1000000000 = seconds := by omega
  rw [hleft, Int.toNat_eq_max, max_comm, sameLifetime_iff]

/-- A reading is less than a second after the second that it lies in. -/
theorem cut_lt (now : Int) : |(now / 1000000000 + ((now - now) / 1000000000).toNat) * 1000000000 -
    now| < 1000000000 := by
  rw [abs_lt]
  omega

/-! ## Minted tokens -/

section

variable {p : Platform} {s finish : Serving} {now : Instant}

/-- The expiries of a token lie apart as its claims and its answer do. -/
theorem oneExpiry_iff_abs_lt {token : String} {expiresAt : Instant} {claims : AgentClaims}
    (signs : p.jwt.payload token = some claims)
    (records : ∃ row, finish.app.db.tokens = s.app.db.tokens ++ [row] ∧ row.id = claims.jti ∧
      row.expiresAt = p.toRfc3339 expiresAt) : OneExpiry p token expiresAt s finish ↔
        |claims.exp * 1000000000 - expiresAt| < 1000000000 := by
  constructor
  · rintro ⟨claims', row, hsigns, -, -, -, hclose⟩
    rw [signs] at hsigns
    rw [Option.some.inj hsigns]
    exact hclose
  · intro hclose
    obtain ⟨row, htokens, hid, htext⟩ := records
    exact ⟨claims, row, signs, htokens, hid, htext, hclose⟩

/-- An expiry that is counted in seconds, against another one from the same reading. -/
theorem counted_iff {issued answer expiry : Instant} {exp signed recorded : Int}
    (sum : issued.addSeconds signed = some expiry) (exact' : exp = expiry.timestamp)
    (answers : issued.addSeconds recorded = some answer) :
    |exp * 1000000000 - answer| < 1000000000 ↔ SameLifetime signed recorded issued := by
  rw [exact', Instant.addSeconds_eq sum, Instant.timestamp_add, Instant.addSeconds_eq answers]
  exact sameLifetime_iff

theorem AccessExpires.oneExpiry {info : IssuedTokenInfo} {claims : AgentClaims}
    (h : AccessExpires p info s finish now now claims) :
    OneExpiry p info.jwt info.expiresAt s finish := by
  obtain ⟨expiry, hsum, hexp⟩ := h.expiry
  rw [oneExpiry_iff_abs_lt h.signs h.records, counted_iff hsum hexp h.answers]
  exact sameLifetime_self _ _

theorem GrantExpires.expiry_iff {req : PrincipalDelegateRequest}
    {response : PrincipalDelegateResponse} {claims : AgentClaims}
    (h : GrantExpires p req response s finish now now claims) :
    OneExpiry p response.delegationToken response.expiresAt s finish ↔
      SameLifetime (asI64 (min req.expiresInSeconds p.config.maxTtlSeconds))
        (asI64 req.expiresInSeconds) now := by
  obtain ⟨expiry, hsum, hexp⟩ := h.expiry
  rw [oneExpiry_iff_abs_lt h.signs h.records, counted_iff hsum hexp h.answers]

theorem ChildExpires.expiry_iff {auth : Option Uuid} {req : DelegateRequest}
    {response : DelegateResponse} {parent child : AgentClaims} {requested : Instant}
    (h : ChildExpires p auth req response s finish parent child requested)
    (clock : ∀ n, s.tape.now n = now) :
    OneExpiry p response.delegatedToken response.expiresAt s finish ↔
      ChildAligned parent req.expiresInSeconds now := by
  have hmonotone : Monotone s.tape.now := fun i j _ => by rw [clock, clock]
  obtain ⟨presenter, -, hverified⟩ := h.verified
  obtain ⟨-, -, hlater, -⟩ := TokenVerifier.verify_ok_iff.mp hverified
  rw [clock] at hlater
  have hanswer := h.answers
  have hrequested := Instant.addSeconds_eq h.requests
  rw [oneExpiry_iff_abs_lt h.signs h.records, h.exp_eq hmonotone, ChildAligned]
  cases hparent : Instant.fromTimestamp parent.exp with
  | some expiry =>
      simp only [delegationReadings, hparent, clock] at hanswer hrequested ⊢
      rw [hrequested] at hanswer
      rw [hanswer]
      split
      · rename_i hwithin
        rw [min_eq_right hwithin]
        exact requested_iff
      · rename_i hbeyond
        rw [min_eq_left (not_le.mp hbeyond).le, Instant.fromTimestamp_eq hparent]
        exact remaining_iff hlater
  | none =>
      simp only [delegationReadings, hparent, clock] at hanswer hrequested ⊢
      rw [hrequested] at hanswer
      rw [hanswer]
      obtain hnonneg | hneg := le_or_gt 0 (asI64 req.expiresInSeconds)
      · rw [min_eq_left (le_add_of_nonneg_right (Int.mul_nonneg hnonneg (by decide))),
          max_eq_right hnonneg]
        exact iff_of_true (cut_lt now) (sameLifetime_self _ _)
      · have hback : asI64 req.expiresInSeconds * 1000000000 ≤ 0 := by omega
        rw [min_eq_right (add_le_of_nonpos_right hback)]
        exact requested_iff

/-- When the clock stands still during a call, the token that it mints has one expiry: every
access token; a child grant exactly if it is aligned; a root grant exactly if the cap makes no
difference to its lifetime (`sameLifetime_min_iff`). -/
theorem oneExpiry_iff (clock : ∀ n, s.tape.now n = now) :
    (∀ auth req response info, requestAccess p auth req s = (.ok response, finish) →
      response.token = some info → OneExpiry p info.jwt info.expiresAt s finish) ∧
    (∀ auth req response, delegate p auth req s = (.ok response, finish) →
      ∃ presenter parent, auth = some presenter ∧
        TokenVerifier.verify p s.app.jtiStore now now req.parentGrantToken
          (some (agentAudience presenter)) = .ok parent ∧
        (OneExpiry p response.delegatedToken response.expiresAt s finish ↔
          ChildAligned parent req.expiresInSeconds now)) ∧
    ∀ req response, principalDelegate p req s = (.ok response, finish) →
      (OneExpiry p response.delegationToken response.expiresAt s finish ↔
        SameLifetime (asI64 (min req.expiresInSeconds p.config.maxTtlSeconds))
          (asI64 req.expiresInSeconds) now) := by
  refine ⟨?_, ?_, ?_⟩
  · intro auth req response info run token
    obtain ⟨i, j, claims, h⟩ := requestAccess_expires run token
    rw [clock, clock] at h
    exact h.oneExpiry
  · intro auth req response run
    obtain ⟨parent, child, requested, h⟩ := delegate_expires run
    obtain ⟨presenter, hauth, hverified⟩ := h.verified
    rw [clock, clock] at hverified
    exact ⟨presenter, parent, hauth, hverified, h.expiry_iff clock⟩
  · intro req response run
    obtain ⟨i, j, claims, h⟩ := principalDelegate_expires run
    rw [clock, clock] at h
    exact h.expiry_iff

end

/-- A grant of ten minutes is below the cap of an hour. -/
theorem oneExpiry_iff_granting : ∃ response finish,
    principalDelegate delegationPlatform ⟨⟨300⟩, ["read"], none, 600⟩
      (enrolledWorld.serving (.steady opening 400)) = (.ok response, finish) ∧
    OneExpiry delegationPlatform response.delegationToken response.expiresAt
      (enrolledWorld.serving (.steady opening 400)) finish := by
  have hrun : principalDelegate delegationPlatform ⟨⟨300⟩, ["read"], none, 600⟩
      (enrolledWorld.serving (.steady opening 400)) =
        (.ok ⟨⟨406⟩, Jwt.tableToken rootClaims, ["read"], 700 * 1000000000⟩, _) :=
    Prod.ext (by decide +kernel) rfl
  exact ⟨_, _, hrun, ((oneExpiry_iff fun _ => rfl).2.2 _ _ hrun).mpr (sameLifetime_self _ _)⟩

/-- One expiry for each token, as a promise about every minting call. -/
def OneExpiryForEach : Prop :=
  ∀ (p : Platform) (s finish : Serving) (now : Instant), (∀ n, s.tape.now n = now) →
    (∀ auth req response info, requestAccess p auth req s = (.ok response, finish) →
      response.token = some info → OneExpiry p info.jwt info.expiresAt s finish) ∧
    (∀ auth req response, delegate p auth req s = (.ok response, finish) →
      OneExpiry p response.delegatedToken response.expiresAt s finish) ∧
    ∀ req response, principalDelegate p req s = (.ok response, finish) →
      OneExpiry p response.delegationToken response.expiresAt s finish

/-- The claims of a grant that was asked for for two hours. -/
def cappedClaims : AgentClaims := { rootClaims with exp := 3700 }

def cappedPlatform : Platform :=
  .concrete (Jwt.ofTable [cappedClaims] (by decide)) (parseKnown denyByDefault [])

def cappedServing : Serving :=
  (initialWorld.run cappedPlatform enrolment).serving (.steady opening 400)

/-- The row of a capped grant has the expiry that was asked for. -/
theorem not_oneExpiryForEach : ¬ OneExpiryForEach := by
  intro h
  have hrun : principalDelegate cappedPlatform ⟨⟨300⟩, ["read"], none, 7200⟩ cappedServing =
      (.ok ⟨⟨406⟩, Jwt.tableToken cappedClaims, ["read"], 7300 * 1000000000⟩, _) :=
    Prod.ext (by decide +kernel) rfl
  obtain ⟨claims, row, hsigns, -, -, -, hclose⟩ :=
    (h cappedPlatform cappedServing _ opening fun _ => rfl).2.2 _ _ hrun
  have hclaims : cappedPlatform.jwt.payload (Jwt.tableToken cappedClaims) = some cappedClaims := by
    decide +kernel
  rw [hclaims] at hsigns
  rw [← Option.some.inj hsigns] at hclose
  exact absurd hclose (by decide)

end Patroclus
