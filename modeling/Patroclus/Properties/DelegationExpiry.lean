import Patroclus.Api.Lifetime
import Patroclus.Api.Server

/-!
# How long a child outlives its parent

The expiry of a child grant is capped by that of its parent, but what is signed is a
number of whole seconds, counted from a later reading of the clock. The row and the answer
never lie after the parent. The signed expiry does not either, exactly if the child is
signed before the seconds that were cut off, and one more, have passed.
-/

namespace Patroclus

open Foundation

/-- The time from the computation of the remaining lifetime to the signature is below one
second, what was cut off from the remaining lifetime, and what the request leaves of the
parent. If the parent has expired already, its last second is not over. -/
def DelegationReadings.SignedInTime (readings : DelegationReadings) (expiresInSeconds : Nat) :
    Prop :=
  let requested : Instant := readings.requested + asI64 expiresInSeconds * 1000000000
  let effective : Instant := min readings.parent requested
  if effective ≤ readings.remaining then readings.issued < readings.parent + 1000000000
  else readings.issued - readings.remaining <
    1000000000 + (effective - readings.remaining) % 1000000000 + (readings.parent - effective)

instance (readings : DelegationReadings) (expiresInSeconds : Nat) :
    Decidable (readings.SignedInTime expiresInSeconds) := by
  unfold DelegationReadings.SignedInTime
  infer_instance

/-- Whole seconds that are added to a later reading. -/
theorem signed_le_iff (exp effective remaining issued : Int) :
    issued / 1000000000 + ((effective - remaining) / 1000000000).toNat ≤ exp ↔
      if effective ≤ remaining then issued < exp * 1000000000 + 1000000000
      else issued - remaining <
        1000000000 + (effective - remaining) % 1000000000 + (exp * 1000000000 - effective) := by
  split <;> omega

section

variable {p : Platform} {auth : Option Uuid} {req : DelegateRequest} {response : DelegateResponse}
  {s finish : Serving} {parent child : AgentClaims} {requested : Instant}

/-- The answered expiry is never after that of the parent. -/
theorem ChildExpires.answer_le
    (h : ChildExpires p auth req response s finish parent child requested) :
    response.expiresAt ≤ parent.exp * 1000000000 := by
  rw [h.answers]
  cases hparent : Instant.fromTimestamp parent.exp with
  | some expiry =>
      rw [← Instant.fromTimestamp_eq hparent, delegationReadings, hparent]
      exact min_le_left _ _
  | none =>
      obtain ⟨presenter, -, hverified⟩ := h.verified
      obtain ⟨-, ⟨hnonneg, -⟩, -⟩ := TokenVerifier.verify_ok_iff.mp hverified
      exact (min_le_right _ _).trans ((Instant.addSeconds_le h.requests).trans
        (Instant.lt_of_fromTimestamp_eq_none hparent hnonneg).le)

/-- The signed expiry is not after that of the parent exactly if it is signed in time. -/
theorem ChildExpires.exp_le_iff
    (h : ChildExpires p auth req response s finish parent child requested)
    (clock : Monotone s.tape.now) : child.exp ≤ parent.exp ↔
      (Instant.fromTimestamp parent.exp = none ∨
        (delegationReadings parent s).SignedInTime req.expiresInSeconds) := by
  cases hparent : Instant.fromTimestamp parent.exp with
  | some expiry =>
      have hreading : (delegationReadings parent s).parent = parent.exp * 1000000000 := by
        rw [delegationReadings, hparent]
        exact Instant.fromTimestamp_eq hparent
      have hanswer : response.expiresAt = min (delegationReadings parent s).parent
          ((delegationReadings parent s).requested + asI64 req.expiresInSeconds * 1000000000) := by
        rw [h.answers, Instant.addSeconds_eq h.requests]
      rw [h.exp_eq clock, DelegationReadings.SignedInTime, ← hanswer, hreading]
      simp only [reduceCtorEq, false_or]
      exact signed_le_iff _ _ _ _
  | none =>
      obtain ⟨presenter, -, hverified⟩ := h.verified
      obtain ⟨-, ⟨hnonneg, -⟩, -⟩ := TokenVerifier.verify_ok_iff.mp hverified
      have hlate := Instant.lt_of_fromTimestamp_eq_none hparent hnonneg
      obtain ⟨expiry, hexpiry, hexp⟩ := h.expiry
      have hbefore := Instant.timestamp_mono ((Instant.addSeconds_le hexpiry).trans hlate.le)
      have hseconds : Instant.timestamp (parent.exp * 1000000000) = parent.exp :=
        Int.mul_ediv_cancel _ (by decide)
      rw [hseconds, ← hexp] at hbefore
      exact iff_of_true hbefore (.inl rfl)

/-- A child that `delegate` issues, with its row and the answer, lies within its parent
exactly if it is signed in time. -/
theorem child_within_parent_iff (clock : Monotone s.tape.now)
    (run : delegate p auth req s = (.ok response, finish)) :
    ∃ parent child row presenter, auth = some presenter ∧
      TokenVerifier.verify p s.app.jtiStore (s.tape.now s.tick) (s.tape.now (s.tick + 1))
        req.parentGrantToken (some (agentAudience presenter)) = .ok parent ∧
      p.jwt.payload response.delegatedToken = some child ∧
      finish.app.db.tokens = s.app.db.tokens ++ [row] ∧ row.id = child.jti ∧
      row.expiresAt = p.toRfc3339 response.expiresAt ∧
      (child.exp ≤ parent.exp ∧ response.expiresAt ≤ parent.exp * 1000000000 ↔
        (Instant.fromTimestamp parent.exp = none ∨
          (delegationReadings parent s).SignedInTime req.expiresInSeconds)) := by
  obtain ⟨parent, child, requested, h⟩ := delegate_expires run
  obtain ⟨row, htokens, hid, htext⟩ := h.records
  obtain ⟨presenter, hauth, hverified⟩ := h.verified
  exact ⟨parent, child, row, presenter, hauth, hverified, h.signs, htokens, hid, htext,
    (and_iff_left h.answer_le).trans (h.exp_le_iff clock)⟩

end

/-- The enrolled agent delegates its grant, which expires after 600 seconds, to itself. -/
def redelegation (expiresInSeconds : Nat) : DelegateRequest :=
  ⟨Jwt.tableToken rootClaims, ⟨300⟩, ["read"], expiresInSeconds⟩

def lateWorld : World := enrolledWorld.step delegationPlatform granting

/-- A delegation for a minute, while the grant has ten left. -/
theorem child_within_parent_iff_early : ∃ child,
    delegationPlatform.jwt.payload (Jwt.tableToken childClaims) = some child ∧
      child.exp ≤ rootClaims.exp := by
  have hrun : delegate delegationPlatform (some ⟨300⟩) (redelegation 60)
      (lateWorld.serving (.steady opening 500)) =
        (.ok ⟨Jwt.tableToken childClaims, 160 * 1000000000, ["read"]⟩, _) :=
    Prod.ext (by decide +kernel) rfl
  have hclock : Monotone (lateWorld.serving (.steady opening 500)).tape.now := fun _ _ _ => le_rfl
  obtain ⟨parent, child, -, presenter, hauth, hverified, hsigned, -, -, -, hiff⟩ :=
    child_within_parent_iff hclock hrun
  obtain rfl := Option.some.inj hauth
  have hparent := TokenVerifier.verify_claims hverified
  have hroot : delegationPlatform.jwt.payload (Jwt.tableToken rootClaims) = some rootClaims := by
    decide +kernel
  rw [show (redelegation 60).parentGrantToken = Jwt.tableToken rootClaims from rfl,
    hroot] at hparent
  obtain rfl := Option.some.inj hparent
  exact ⟨child, hsigned, (hiff.mpr (.inr (by decide +kernel))).1⟩

/-- The grant of a child as a promise about its parent. -/
def ChildrenExpireFirst : Prop :=
  ∀ (p : Platform) (auth : Option Uuid) (req : DelegateRequest) (response : DelegateResponse)
    (s finish : Serving) (presenter : Uuid) (parent child : AgentClaims), Monotone s.tape.now →
    delegate p auth req s = (.ok response, finish) → auth = some presenter →
    TokenVerifier.verify p s.app.jtiStore (s.tape.now s.tick) (s.tape.now (s.tick + 1))
      req.parentGrantToken (some (agentAudience presenter)) = .ok parent →
    p.jwt.payload response.delegatedToken = some child → child.exp ≤ parent.exp

def lateChildClaims : AgentClaims :=
  { childClaims with
    exp := 701
    iat := 691 }

/-- A platform that can sign the root grant and a child that expires later. -/
def latePlatform : Platform :=
  .concrete (Jwt.ofTable [rootClaims, lateChildClaims] (by decide)) (parseKnown denyByDefault [])

/-- A clock that moves on by a second before the child is signed. -/
def secondPasses : Tape :=
  { Tape.steady opening 500 with
    now := fun n => if n < 4 then 690 * 1000000000 else 691 * 1000000000 }

def secondPassing : Serving :=
  ((initialWorld.run latePlatform enrolment).step latePlatform granting).serving secondPasses

theorem secondPasses_monotone : Monotone secondPasses.now := by
  intro i j hle
  show (if i < 4 then 690 * 1000000000 else 691 * 1000000000 : Int) ≤
    if j < 4 then 690 * 1000000000 else 691 * 1000000000
  split <;> split <;> omega

/-- A second that passes before the signature is a second that the child gains. -/
theorem not_childrenExpireFirst : ¬ ChildrenExpireFirst := by
  intro h
  have hrun : delegate latePlatform (some ⟨300⟩) (redelegation 3600) secondPassing =
      (.ok ⟨Jwt.tableToken lateChildClaims, 700 * 1000000000, ["read"]⟩, _) :=
    Prod.ext (by decide +kernel) rfl
  have hle := h latePlatform (some ⟨300⟩) (redelegation 3600) _ secondPassing _ ⟨300⟩ rootClaims
    lateChildClaims secondPasses_monotone hrun rfl (TokenVerifier.verify_ok_iff.mpr
      ⟨by decide +kernel, by decide +kernel, by decide +kernel, by decide +kernel⟩)
    (by decide +kernel)
  exact absurd hle (by decide)

end Patroclus
