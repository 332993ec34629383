import Patroclus.Properties.TokenKinds
import Mathlib.Data.List.Chain

/-!
# The lineage of a token

Whatever is called in whatever order, the tokens that the server has signed form a forest:
a token of depth `n` has `n` ancestors among the tokens signed before it, the first of which
was not delegated, and along them scopes only shrink while subject and constraints stay. No
lineage is longer than the configured depth. Only forged signatures are excluded.
-/

namespace Patroclus

open Foundation

/-- A token that was delegated from another. -/
structure Minted.ChildOf (m parent : Minted) : Prop where
  presented : ∃ presenter, m.origin = .delegate presenter parent.token ∧
    parent.claims.aud = agentAudience presenter
  subject : m.claims.sub = parent.claims.sub
  constraints : m.claims.constraints = parent.claims.constraints
  scopes : ∀ scope ∈ splitWhitespace m.claims.scope, scope ∈ splitWhitespace parent.claims.scope

/-- The subject and the actor of a token, as its descendants record them. -/
def Minted.hop (m : Minted) : DelegationHop := ⟨m.claims.sub, m.claims.act.sub⟩

/-- The ancestors of a token, from the root down, among the tokens signed before it. -/
structure Descends (p : Platform) (before : List Minted) (m : Minted) (ancestors : List Minted) :
    Prop where
  signedBefore : ancestors.Sublist before
  root : ∀ first ∈ (ancestors ++ [m]).head?, ∀ presenter parent,
    first.origin ≠ .delegate presenter parent
  links : (ancestors ++ [m]).IsChain fun parent child => child.ChildOf parent
  depth : m.claims.act.delegationDepth = ancestors.length
  bound : ancestors.length ≤ p.config.maxDelegationDepth
  chain : m.claims.act.delegationChain.getD [] = ancestors.map Minted.hop
  subject : ∀ a ∈ ancestors, m.claims.sub = a.claims.sub
  constraints : ∀ a ∈ ancestors, m.claims.constraints = a.claims.constraints
  scopes : ∀ a ∈ ancestors, ∀ scope ∈ splitWhitespace m.claims.scope,
    scope ∈ splitWhitespace a.claims.scope

/-- Every token of a ledger is genuine and has its ancestors before it. -/
def Traced (p : Platform) (ledger : List Minted) : Prop :=
  ∀ before m, before ++ [m] <+: ledger → p.jwt.payload m.token = some m.claims ∧
    ∃ ancestors, Descends p before m ancestors

section

variable {p : Platform} {w : World} {input : Input} {ledger before : List Minted}
  {m parent : Minted} {ancestors : List Minted}

/-- A token without ancestors. -/
theorem Descends.of_root (origin : ∀ presenter parent, m.origin ≠ .delegate presenter parent)
    (depth : m.claims.act.delegationDepth = 0) (chain : m.claims.act.delegationChain = none) :
    Descends p before m [] where
  signedBefore := List.nil_sublist before
  root := by
    intro first hfirst
    obtain rfl := Option.some.inj hfirst
    exact origin
  links := List.isChain_singleton m
  depth := depth
  bound := Nat.zero_le _
  chain := by rw [chain]; rfl
  subject := nofun
  constraints := nofun
  scopes := nofun

/-- The child of a token descends from it and from its ancestors. -/
theorem Descends.child {earlier : List Minted} (h : Descends p earlier parent ancestors)
    (signed : earlier ++ [parent] <+: before) (child : m.ChildOf parent)
    (depth : m.claims.act.delegationDepth = nextDepth parent.claims)
    (bound : nextDepth parent.claims ≤ p.config.maxDelegationDepth)
    (chain : m.claims.act.delegationChain = some (childChain parent.claims)) :
    Descends p before m (ancestors ++ [parent]) := by
  have hmax := p.config.maxDelegationDepth_lt
  have hnext : nextDepth parent.claims = ancestors.length + 1 := by
    have hbound := h.bound
    rw [nextDepth, h.depth, Nat.mod_eq_of_lt (by omega)]
  have holder (P : Minted → Prop) (hparent : P parent) (hancestors : ∀ a ∈ ancestors, P a) :
      ∀ a ∈ ancestors ++ [parent], P a := by
    intro a ha
    obtain ha | ha := List.mem_append.mp ha
    · exact hancestors a ha
    · rw [List.mem_singleton.mp ha]
      exact hparent
  exact {
    signedBefore := (h.signedBefore.append_right [parent]).trans signed.sublist
    root := by
      intro first hfirst
      refine h.root first ?_
      rwa [List.head?_append_of_ne_nil _ (by simp)] at hfirst
    links := by
      refine List.isChain_append.mpr ⟨h.links, List.isChain_singleton m, ?_⟩
      intro last hlast next hnextMem
      rw [List.getLast?_concat] at hlast
      obtain rfl := Option.some.inj hlast
      obtain rfl := Option.some.inj hnextMem
      exact child
    depth := by rw [depth, hnext, List.length_append, List.length_singleton]
    bound := by
      rw [List.length_append, List.length_singleton, ← hnext]
      exact bound
    chain := by
      rw [chain, Option.getD_some, childChain, h.chain, List.map_append]
      rfl
    subject := holder _ child.subject fun a ha => child.subject.trans (h.subject a ha)
    constraints := holder _ child.constraints fun a ha =>
      child.constraints.trans (h.constraints a ha)
    scopes := holder _ child.scopes fun a ha scope hscope =>
      h.scopes a ha scope (child.scopes scope hscope) }

theorem Traced.concat (h : Traced p ledger) (payload : p.jwt.payload m.token = some m.claims)
    (descends : ∃ ancestors, Descends p ledger m ancestors) : Traced p (ledger ++ [m]) := by
  intro before m' hprefix
  obtain heq | hearlier := List.prefix_concat_iff.mp hprefix
  · obtain ⟨rfl, hlast⟩ := List.append_inj' heq rfl
    obtain rfl := List.singleton_inj.mp hlast
    exact ⟨payload, descends⟩
  · exact h before m' hearlier

/-- A token that verifies and was not forged has been signed with its claims. -/
theorem Traced.signed (h : Traced p ledger) {token : String} {claims : AgentClaims}
    (hpayload : p.jwt.payload token = some claims) (hm : m ∈ ledger) (htoken : m.token = token) :
    m.claims = claims ∧ ∃ earlier ancestors, earlier ++ [m] <+: ledger ∧
      Descends p earlier m ancestors := by
  obtain ⟨earlier, after, rfl⟩ := List.append_of_mem hm
  have hprefix : earlier ++ [m] <+: earlier ++ m :: after := ⟨after, by simp⟩
  obtain ⟨hgenuine, ancestors, hdescends⟩ := h earlier m hprefix
  rw [htoken, hpayload] at hgenuine
  exact ⟨(Option.some.inj hgenuine).symm, earlier, ancestors, hprefix, hdescends⟩

theorem traced_step (h : Traced p w.ledger) (unforged : w.PresentsUnforged p input) :
    Traced p (w.step p input).ledger := by
  change Traced p (w.step p input).guarded.ledger
  have heffect := World.step_effect (p := p) w input
  generalize (w.step p input).guarded = after at heffect ⊢
  cases heffect with
  | kept | revoked | stopped | restored | restarted => exact h
  | access event allowed signed mints =>
      obtain ⟨horigin, hpayload, ⟨iat, exp, jti, hclaims⟩, -⟩ := sign_signed signed
      rw [mints.ledger]
      refine h.concat hpayload ⟨[], .of_root ?_ ?_ ?_⟩
      · rw [horigin]
        exact nofun
      · rw [hclaims]
        rfl
      · rw [hclaims]
        rfl
  | @delegation auth req presenter claims s₁ s₂ expiry minted after event allowed signed mints =>
      obtain ⟨horigin, hpayload, ⟨iat, exp, jti, hclaims⟩, -⟩ := sign_signed signed
      obtain ⟨hadmits, -⟩ := admitDelegation_eq_ok.mp allowed.admitted
      have hparent := TokenVerifier.verify_claims hadmits.verified
      obtain ⟨parent, hmem, htoken⟩ := unforged _ _ event rfl claims hparent
      obtain ⟨rfl, earlier, ancestors, hearlier, hdescends⟩ := h.signed hparent hmem htoken
      rw [mints.ledger]
      refine h.concat hpayload ⟨ancestors ++ [parent], hdescends.child hearlier ?_ ?_ ?_ ?_⟩
      · have hwords : ∀ scope ∈ req.scopes, IsScopeWord scope := fun scope hmem =>
          isScopeWord_of_mem (hadmits.scopes scope hmem)
        have hscope : splitWhitespace minted.claims.scope = req.scopes := by
          rw [hclaims]
          exact (splitWhitespace_joinScopes_eq_iff _).mpr hwords
        exact {
          presented := ⟨presenter, by rw [horigin, htoken],
            TokenVerifier.verify_audience hadmits.verified⟩
          subject := by rw [hclaims]; rfl
          constraints := by rw [hclaims]; rfl
          scopes := by
            rw [hscope]
            exact hadmits.scopes }
      · rw [hclaims]
        rfl
      · exact hadmits.depth
      · rw [hclaims]
        rfl
  | grant event stored signed mints =>
      obtain ⟨horigin, hpayload, ⟨iat, exp, jti, hclaims⟩, -⟩ := sign_signed signed
      rw [mints.ledger]
      refine h.concat hpayload ⟨[], .of_root ?_ ?_ ?_⟩
      · rw [horigin]
        exact nofun
      · rw [hclaims]
        rfl
      · rw [hclaims]
        rfl

end

/-- In every run without forged signatures, every signed token has its lineage. -/
theorem ledger_traced {p : Platform} {inputs : List Input}
    (h : Along (World.step p) (World.PresentsUnforged p) initialWorld inputs) :
    Traced p (initialWorld.run p inputs).ledger := by
  have hstart : Traced p initialWorld.ledger := by
    intro before m hprefix
    have hnil := List.prefix_nil.mp hprefix
    simp at hnil
  exact Along.invariant (I := fun w => Traced p w.ledger)
    (fun _ _ htraced hunforged => traced_step htraced hunforged) hstart h

theorem ledger_traced_delegating : Traced delegationPlatform (initialWorld.run delegationPlatform
    (enrolment ++ [granting, .steady (.call delegating) opening 500])).ledger := by
  have quiet {w : World} {event : Event} {now : Instant} {firstId : Nat}
      (hquiet : ∀ call, event = .call call → call.presented = none) :
      w.PresentsUnforged delegationPlatform (.steady event now firstId) := by
    intro call token hevent hpresented
    rw [hquiet call hevent] at hpresented
    cases hpresented
  refine ledger_traced ⟨quiet nofun, quiet ?_, quiet ?_, quiet ?_, ?_, trivial⟩
  · rintro call ⟨⟩
    rfl
  · rintro call ⟨⟩
    rfl
  · rintro call ⟨⟩
    rfl
  · intro call token hevent hpresented
    cases hevent
    cases hpresented
    intro claims _
    decide

end Patroclus
