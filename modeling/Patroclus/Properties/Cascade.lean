import Patroclus.Api.Decision
import Patroclus.Api.Delegation

/-!
# Cascading revocation

The lineage of a grant is made of the tokens recorded for it and of all their
descendants by delegation. Revoking the grant writes to the `grants` table alone:
no token of the lineage is entered in the set that `verify` asks. From the
revocation on, the lineage is rejected in every state of a run exactly if each of
its tokens was revoked one by one or had expired already, and no restart forgets
such a revocation before the token has expired.

Clocks are assumed not to run backwards, and drawn ids to be new.
-/

namespace Patroclus

open Foundation

/-- The tokens recorded for a grant, and the tokens delegated from them. -/
inductive Guarded.InLineage (g : Guarded) (grantId : Uuid) : Minted → Prop where
  | recorded {m : Minted} {row : TokenRow} (signed : m ∈ g.ledger) (stored : row ∈ g.tokens)
      (id : row.id = m.claims.jti) (grant : row.grantId = some grantId) : InLineage g grantId m
  | delegated {parent m : Minted} {presenter : Uuid} (descends : InLineage g grantId parent)
      (signed : m ∈ g.ledger) (origin : m.origin = .delegate presenter parent.token) :
      InLineage g grantId m

/-- The token has expired; one with a negative expiry is never accepted. -/
def Minted.ExpiredAt (m : Minted) (clock : Instant) : Prop :=
  m.claims.exp < clock.timestamp ∨ m.claims.exp < 0

/-- The token is rejected from this time on, as far as the revoked ids remain known. -/
def Minted.DeadAt (m : Minted) (jtiStore : Finset String) (clock : Instant) : Prop :=
  m.claims.jti ∈ jtiStore ∨ m.ExpiredAt clock

/-- The verifier rejects every token of the lineage, now and at any later time. -/
def World.LineageRejected (p : Platform) (w : World) (grantId : Uuid) : Prop :=
  ∀ m, w.guarded.InLineage grantId m →
    ∀ (audience : Option String) (decodeNow now : Instant) (claims : AgentClaims), w.clock ≤ now →
      TokenVerifier.verify p w.app.jtiStore decodeNow now m.token audience ≠ .ok claims

def Guarded.LineageDead (g : Guarded) (grantId : Uuid) (clock : Instant) : Prop :=
  ∀ m, g.InLineage grantId m → m.DeadAt g.jtiStore clock

/-- The clock does not run backwards, and the ids that the input draws are new. -/
structure World.Orderly (grantId : Uuid) (w : World) (input : Input) : Prop where
  arrival : w.clock ≤ input.arrival
  readings : ∀ n, input.arrival ≤ input.tape.now n
  grant : ∀ n, input.tape.uuid n ≠ grantId
  jti : ∀ n, ∀ row ∈ w.app.db.tokens, row.id ≠ (input.tape.uuid n).toString

/-- A restart finds the lineage expired. -/
def World.KeepsCascade (grantId : Uuid) (w : World) (input : Input) : Prop :=
  input.event = .restart → ∀ m, w.guarded.InLineage grantId m → m.ExpiredAt input.arrival

/-- The input is a revocation of the grant that the server answers with success. -/
structure World.RevokesGrant (p : Platform) (w : World) (grantId : Uuid) (input : Input) :
    Prop where
  up : w.up = true
  event : input.event = .call (.revokeGrant grantId)
  answered : ∃ ids, (revokeGrant p grantId (w.serving input.tape)).1 = .ok ids

section

variable {p : Platform} {w : World} {input : Input} {grantId : Uuid}

/-! ## The ledger lists signed tokens -/

/-- Every entry of the ledger reads back as its claims, and names the issuer. -/
def World.LedgerSigned (p : Platform) (w : World) : Prop :=
  ∀ m ∈ w.guarded.ledger, p.jwt.payload m.token = some m.claims ∧
    m.claims.iss = p.config.tokenIssuer

theorem World.LedgerSigned.step (h : w.LedgerSigned p) : (w.step p input).LedgerSigned p := by
  have mints {stored : TokenRow → Prop} {origin : Origin} {params : IssueTokenParams}
      {minted : Minted} {after : Guarded} (hsigned : Signed p origin params minted)
      (hmints : Guarded.Mints stored minted w.guarded after) :
      ∀ m ∈ after.ledger, p.jwt.payload m.token = some m.claims ∧
        m.claims.iss = p.config.tokenIssuer := by
    intro m hm
    rw [hmints.ledger] at hm
    obtain hm | hm := List.mem_append.mp hm
    · exact h m hm
    · rw [List.mem_singleton.mp hm]
      obtain ⟨iat, exp, jti, hclaims⟩ := hsigned.claims
      exact ⟨hsigned.payload, by rw [hclaims]; rfl⟩
  rw [World.LedgerSigned]
  have heffect := World.step_effect (p := p) w input
  generalize (w.step p input).guarded = after at heffect ⊢
  cases heffect with
  | kept | revoked | stopped | restored | restarted => exact h
  | access _ _ signed hmints | delegation _ _ signed hmints | grant _ _ signed hmints =>
      exact mints (sign_signed signed) hmints

theorem World.LedgerSigned.run (h : w.LedgerSigned p) (inputs : List Input) :
    (w.run p inputs).LedgerSigned p := by
  have hpreserved (w : World) (input : Input) (hw : w.LedgerSigned p) (_ : True) :
      (w.step p input).LedgerSigned p := hw.step
  exact Along.invariant hpreserved h (.of_forall fun _ _ _ => trivial)

theorem ledgerSigned_initialWorld : initialWorld.LedgerSigned p := fun m hm => by cases hm

theorem World.step_clock : (w.step p input).clock = input.arrival := by
  rw [World.step]
  cases input.event with
  | restart => rfl
  | call call =>
      dsimp only
      split <;> rfl

theorem Guarded.InLineage.signed {g : Guarded} {m : Minted} (h : g.InLineage grantId m) :
    m ∈ g.ledger := by
  cases h with
  | recorded signed => exact signed
  | delegated _ signed => exact signed

/-- A lineage is rejected for good exactly if each of its tokens is revoked in memory or
has expired. -/
theorem World.lineageRejected_iff (h : w.LedgerSigned p) :
    w.LineageRejected p grantId ↔ w.guarded.LineageDead grantId w.clock := by
  constructor
  · intro hrejected m hm
    by_contra hdead
    obtain ⟨hjti, hexpired⟩ := not_or.mp hdead
    obtain ⟨hexp, hnonneg⟩ := not_or.mp hexpired
    obtain ⟨hpayload, hiss⟩ := h m hm.signed
    refine hrejected m hm none w.clock w.clock m.claims (le_refl _)
      (TokenVerifier.verify_ok_iff.mpr ⟨hpayload, ⟨?_, ?_, hiss, .inl rfl⟩, ?_, hjti⟩)
    · omega
    · omega
    · omega
  · intro hdead m hm audience decodeNow now claims hlater hverify
    obtain ⟨hpayload, ⟨hnonneg, -⟩, hnow, hjti⟩ := TokenVerifier.verify_ok_iff.mp hverify
    rw [(h m hm.signed).1] at hpayload
    cases hpayload
    have htime := Instant.timestamp_mono hlater
    obtain hrevoked | hexpired | hnegative := hdead m hm
    · exact hjti hrevoked
    · omega
    · omega

/-! ## A dead lineage grows no further -/

theorem Minted.DeadAt.later {m : Minted} {jtiStore more : Finset String} {clock later : Instant}
    (h : m.DeadAt jtiStore clock) (grows : jtiStore ⊆ more) (le : clock ≤ later) :
    m.DeadAt more later := by
  have htime := Instant.timestamp_mono le
  obtain hrevoked | hexpired | hnegative := h
  · exact .inl (grows hrevoked)
  · exact .inr (.inl (by omega))
  · exact .inr (.inr hnegative)

/-- The lineage depends on the ledger, and on the ids and the grants of the rows. -/
theorem Guarded.InLineage.transfer {before after : Guarded} {m : Minted}
    (h : after.InLineage grantId m) (ledger : after.ledger = before.ledger)
    (rows : ∀ row ∈ after.tokens, ∃ old ∈ before.tokens,
      old.id = row.id ∧ old.grantId = row.grantId) : before.InLineage grantId m := by
  induction h with
  | recorded signed stored id grant =>
      obtain ⟨old, hold, hid, hgrant⟩ := rows _ stored
      exact .recorded (ledger ▸ signed) hold (hid.trans id) (hgrant.trans grant)
  | delegated _ signed origin ih => exact .delegated ih (ledger ▸ signed) origin

theorem revokeRows_unchanged {cond : TokenRow → Bool} {rows : List TokenRow} {row : TokenRow}
    (h : row ∈ revokeRows cond rows) :
    ∃ old ∈ rows, old.id = row.id ∧ old.grantId = row.grantId := by
  obtain ⟨old, hold, rfl⟩ := mem_revokeRows.mp h
  refine ⟨old, hold, ?_⟩
  split <;> exact ⟨rfl, rfl⟩

theorem stopRows_unchanged {id : Uuid} {fault : Option String} {rows : List TokenRow}
    {row : TokenRow} (h : row ∈ stopRows id fault rows) :
    ∃ old ∈ rows, old.id = row.id ∧ old.grantId = row.grantId := by
  cases fault with
  | some message => exact ⟨row, h, rfl, rfl⟩
  | none => exact revokeRows_unchanged h

/-- A new token joins the lineage only as a child of it, or under a row of its grant. -/
theorem Guarded.InLineage.of_mints {before after : Guarded} {stored : TokenRow → Prop}
    {minted m : Minted} (h : after.InLineage grantId m)
    (mints : Guarded.Mints stored minted before after)
    (other : ∀ row, stored row → row.grantId ≠ some grantId)
    (fresh : ∀ row ∈ before.tokens, row.id ≠ minted.claims.jti)
    (orphan : ∀ parent presenter, before.InLineage grantId parent →
      minted.origin ≠ .delegate presenter parent.token) : before.InLineage grantId m := by
  have hledger {entry : Minted} (hentry : entry ∈ after.ledger) :
      entry ∈ before.ledger ∨ entry = minted := by
    rw [mints.ledger] at hentry
    exact (List.mem_append.mp hentry).imp_right List.mem_singleton.mp
  induction h with
  | recorded signed hrow id grant =>
      obtain hold | hnew := mints.mem_tokens hrow
      · obtain hsigned | rfl := hledger signed
        · exact .recorded hsigned hold id grant
        · exact absurd id (fresh _ hold)
      · exact absurd grant (other _ hnew)
  | delegated _ signed origin ih =>
      obtain hsigned | rfl := hledger signed
      · exact .delegated ih hsigned origin
      · exact absurd origin (orphan _ _ ih)

/-- While the lineage is dead, a step that is not a restart keeps it dead, and a restart
does exactly under the guard. -/
theorem World.lineageDead_step_iff (signed : w.LedgerSigned p) (orderly : w.Orderly grantId input)
    (dead : w.guarded.LineageDead grantId w.clock) :
    (w.step p input).guarded.LineageDead grantId (w.step p input).clock ↔
      w.KeepsCascade grantId input := by
  have hrejected := (World.lineageRejected_iff signed).mpr dead
  have served {call : Call} {after : Guarded} (event : input.event = .call call)
      (grows : w.guarded.jtiStore ⊆ after.jtiStore)
      (shrinks : ∀ m, after.InLineage grantId m → w.guarded.InLineage grantId m) :
      after.LineageDead grantId input.arrival ↔ w.KeepsCascade grantId input := by
    refine iff_of_true (fun m hm => (dead m (shrinks m hm)).later grows orderly.arrival) ?_
    intro hrestart
    rw [event] at hrestart
    cases hrestart
  have hfresh {now clock : Instant} {n : Nat} {origin : Origin} {params : IssueTokenParams}
      {minted : Minted}
      (hsigned : sign p origin params now (input.tape.uuid n) clock = .ok minted) :
      ∀ row ∈ w.guarded.tokens, row.id ≠ minted.claims.jti := by
    rw [sign_jti hsigned]
    exact orderly.jti n
  rw [World.step_clock]
  have heffect := World.step_effect (p := p) w input
  generalize (w.step p input).guarded = after at heffect ⊢
  cases heffect with
  | kept event => exact served event (Finset.Subset.refl _) fun _ hm => hm
  | access event allowed signed mints =>
      rw [allowed.tape] at signed
      refine served event mints.jtiStore.symm.subset fun m hm => hm.of_mints mints ?_
        (hfresh signed) ?_
      · intro row hrow
        rw [hrow.grantId]
        nofun
      · rw [(sign_signed signed).origin]
        intro parent presenter _ horigin
        cases horigin
  | @delegation auth req presenter claims s₁ s₂ expiry minted after event allowed signed mints =>
      rw [allowed.tape] at signed
      obtain ⟨hadmits, -⟩ := admitDelegation_eq_ok.mp allowed.admitted
      refine served event mints.jtiStore.symm.subset fun m hm => hm.of_mints mints ?_
        (hfresh signed) ?_
      · intro row hrow
        rw [hrow.grantId]
        nofun
      · rw [(sign_signed signed).origin]
        intro parent presenter' hparent horigin
        have hverified := hadmits.verified
        rw [(Origin.delegate.inj horigin).2] at hverified
        exact hrejected parent hparent _ _ _ claims
          (orderly.arrival.trans (orderly.readings _)) hverified
  | @grant req agent principal newId s₁ minted after event stored signed mints =>
      have htape : s₁.tape = input.tape := congrArg Prod.snd stored.framed
      rw [htape] at signed
      obtain ⟨n, hdrawn⟩ := stored.drawn
      refine served event mints.jtiStore.symm.subset fun m hm => hm.of_mints mints ?_
        (hfresh signed) ?_
      · intro row hrow
        rw [hrow.grantId, hdrawn]
        exact fun h => orderly.grant n (Option.some.inj h)
      · rw [(sign_signed signed).origin]
        intro parent presenter _ horigin
        cases horigin
  | revoked event =>
      exact served event (Finset.subset_insert _ _) fun m hm =>
        hm.transfer rfl fun row hrow => revokeRows_unchanged hrow
  | stopped event =>
      exact served event (Finset.Subset.refl _) fun m hm =>
        hm.transfer rfl fun row hrow => stopRows_unchanged hrow
  | restored event =>
      exact served event (Finset.Subset.refl _) fun m hm =>
        hm.transfer rfl fun row hrow => ⟨row, hrow, rfl, rfl⟩
  | restarted event =>
      constructor
      · intro hdead _ m hm
        rcases hdead m (hm.transfer rfl fun row hrow => ⟨row, hrow, rfl, rfl⟩)
          with hrevoked | hexpired
        · cases hrevoked
        · exact hexpired
      · intro hexpired m hm
        exact .inr (hexpired event m (hm.transfer rfl fun row hrow => ⟨row, hrow, rfl, rfl⟩))

/-! ## Runs after a revocation -/

/-- Revoking a grant leaves the tokens, their revocations and the ledger as they are. -/
theorem World.RevokesGrant.guarded (h : w.RevokesGrant p grantId input) :
    (w.step p input).guarded = w.guarded :=
  (World.guarded_step_call h.event h.up).trans (keeps_serve rfl _)

/-- In every run, the lineage of a revoked grant is rejected in each state from the
revocation on exactly if the revocation finds it dead and each later restart finds it
expired. -/
theorem lineageRejected_along_iff {before later : List Input} {revoke : Input}
    (revokes : (initialWorld.run p before).RevokesGrant p grantId revoke)
    (orderly : Along (World.step p) (World.Orderly grantId)
      ((initialWorld.run p before).step p revoke) later) :
    (∀ done, done <+: later →
      (((initialWorld.run p before).step p revoke).run p done).LineageRejected p grantId) ↔
    (initialWorld.run p before).guarded.LineageDead grantId revoke.arrival ∧
      Along (World.step p) (World.KeepsCascade grantId)
        ((initialWorld.run p before).step p revoke) later := by
  have hsigned : ((initialWorld.run p before).step p revoke).LedgerSigned p :=
    (ledgerSigned_initialWorld.run before).step
  have hstart : ((initialWorld.run p before).step p revoke).guarded.LineageDead grantId
      ((initialWorld.run p before).step p revoke).clock ↔
        (initialWorld.run p before).guarded.LineageDead grantId revoke.arrival := by
    rw [revokes.guarded, World.step_clock]
  rw [← hstart]
  generalize (initialWorld.run p before).step p revoke = w at hsigned orderly ⊢
  have hexact (w : World) (input : Input) (horderly : w.Orderly grantId input)
      (h : w.LedgerSigned p ∧ w.guarded.LineageDead grantId w.clock) :
      ((w.step p input).LedgerSigned p ∧
        (w.step p input).guarded.LineageDead grantId (w.step p input).clock) ↔
      w.KeepsCascade grantId input :=
    (and_iff_right h.1.step).trans (World.lineageDead_step_iff h.1 horderly h.2)
  constructor
  · intro hrejected
    have hdead (done : List Input) (hdone : done <+: later) :
        (w.run p done).guarded.LineageDead grantId (w.run p done).clock :=
      (World.lineageRejected_iff (hsigned.run done)).mp (hrejected done hdone)
    have hnow := hdead [] List.nil_prefix
    exact ⟨hnow, (Along.iff_invariant hexact orderly ⟨hsigned, hnow⟩).mpr fun done hdone =>
      ⟨hsigned.run done, hdead done hdone⟩⟩
  · rintro ⟨hnow, hkeeps⟩ done hdone
    obtain ⟨hsigned, hdead⟩ :=
      (Along.iff_invariant hexact orderly ⟨hsigned, hnow⟩).mp hkeeps done hdone
    exact (World.lineageRejected_iff hsigned).mpr hdead

end

/-- An event at a number of seconds, whose handler draws the id 700 again and again. -/
def atSeconds (event : Event) (seconds : Int) : Input where
  event := event
  arrival := seconds * 1000000000
  tape := ⟨fun _ => seconds * 1000000000, fun _ => ⟨700⟩, fun _ => [], fun _ => none⟩

def rootMinted : Minted :=
  ⟨.principalDelegate ⟨406⟩, Jwt.tableToken rootClaims, rootClaims, opening⟩

/-- The grant, which ends at second 700, is revoked at 800, and the server restarts at 900. -/
theorem lineageRejected_along_iff_expired :
    let w := initialWorld.run delegationPlatform (enrolment ++ [granting])
    let revoke := atSeconds (.call (.revokeGrant ⟨406⟩)) 800
    let later := [atSeconds .restart 900]
    (∀ done, done <+: later → ((w.step delegationPlatform revoke).run delegationPlatform
      done).LineageRejected delegationPlatform ⟨406⟩) ↔
    w.guarded.LineageDead ⟨406⟩ revoke.arrival ∧
      Along (World.step delegationPlatform) (World.KeepsCascade ⟨406⟩)
        (w.step delegationPlatform revoke) later := by
  refine lineageRejected_along_iff ⟨by decide, rfl, [⟨406⟩], by decide⟩
    ⟨⟨by decide, fun _ => le_refl _, fun _ => ?_, fun _ => ?_⟩, trivial⟩
  · change (⟨700⟩ : Uuid) ≠ ⟨406⟩
    decide
  · change ∀ row ∈ (_ : List TokenRow), row.id ≠ (⟨700⟩ : Uuid).toString
    decide

/-- The cascade as a promise about every revoked grant. -/
def CascadeReaches (p : Platform) : Prop :=
  ∀ (grantId : Uuid) (before later : List Input) (revoke : Input),
    (initialWorld.run p before).RevokesGrant p grantId revoke →
    Along (World.step p) (World.Orderly grantId) ((initialWorld.run p before).step p revoke) later →
    (((initialWorld.run p before).step p revoke).run p later).LineageRejected p grantId

/-- The token of a grant passes right after the revocation of the grant. -/
theorem not_cascadeReaches : ¬ ∀ p, CascadeReaches p := by
  intro h
  have hrejected := h delegationPlatform ⟨406⟩ (enrolment ++ [granting]) []
    (atSeconds (.call (.revokeGrant ⟨406⟩)) 160) ⟨by decide, rfl, [⟨406⟩], by decide⟩ trivial
  have hrow : ∃ row ∈ (((initialWorld.run delegationPlatform (enrolment ++ [granting])).step
      delegationPlatform (atSeconds (.call (.revokeGrant ⟨406⟩)) 160)).run delegationPlatform
        []).guarded.tokens, row.id = rootMinted.claims.jti ∧ row.grantId = some ⟨406⟩ := by decide
  obtain ⟨row, hstored, hid, hgrant⟩ := hrow
  exact hrejected rootMinted (.recorded (by decide) hstored hid hgrant) none
    (160 * 1000000000) (160 * 1000000000) rootClaims (by decide)
    (TokenVerifier.verify_ok_iff.mpr ⟨by decide, by decide, by decide, by decide⟩)

end Patroclus
