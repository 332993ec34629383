import Patroclus.Foundation.Run
import Patroclus.Session
import Mathlib.Algebra.Order.Field.Rat
import Mathlib.Data.List.Chain
import Mathlib.Tactic.Linarith

/-!
# Trust that decays

A decay that takes effect computes the trust of a session from its present idle time alone, as
one minus a rate for each full period of idleness beyond the threshold. The trust that was
there before is forgotten, so after an action, which ends the idle time, the next decay raises
the trust again unless it finds at least as many periods as the last one did.
-/

namespace Patroclus

open Foundation

/-- A call on a session, with its reading of the clock. -/
inductive TrustCall where
  | action (event : TrajectoryEvent) (now : Instant)
  | decay (now : Instant)

def TrustCall.now : TrustCall → Instant
  | .action _ now => now
  | .decay now => now

/-- The session after a call; one that panics leaves it as it was. -/
def SessionState.trustStep (threshold : Int) (rate : ℚ) (s : SessionState) :
    TrustCall → SessionState
  | .action event now => s.recordAction event now
  | .decay now => (s.applyTrustDecay threshold (.finite rate) now).getD s

/-- The call does not raise the trust if it is a decay. -/
def KeepsTrustDown (threshold : Int) (rate : ℚ) (s : SessionState) : TrustCall → Prop
  | .action _ _ => True
  | .decay now =>
      s.trustLevel.ge (s.trustStep threshold rate (.decay now)).trustLevel = true

instance (threshold : Int) (rate : ℚ) (s : SessionState) :
    ∀ call, Decidable (KeepsTrustDown threshold rate s call)
  | .action _ _ => inferInstanceAs (Decidable True)
  | .decay _ => inferInstanceAs (Decidable (_ = true))

/-- Along the calls the trust stays between 0 and 1. -/
def TrustWithin (threshold : Int) (rate : ℚ) (s : SessionState) (calls : List TrustCall) : Prop :=
  ∀ done, done <+: calls →
    (done.foldl (SessionState.trustStep threshold rate) s).trustLevel.ge 0 = true ∧
    F64.ge 1 (done.foldl (SessionState.trustStep threshold rate) s).trustLevel = true

/-- No decay among the calls raises the trust. -/
def NoDecayRaises (threshold : Int) (rate : ℚ) (s : SessionState) (calls : List TrustCall) :
    Prop :=
  Along (SessionState.trustStep threshold rate) (KeepsTrustDown threshold rate) s calls

instance (threshold : Int) (rate : ℚ) (s : SessionState) (calls : List TrustCall) :
    Decidable (NoDecayRaises threshold rate s calls) := Along.instDecidable _ _ s calls

structure TrustOnlyDecays (threshold : Int) (rate : ℚ) (s : SessionState)
    (calls : List TrustCall) : Prop where
  within : TrustWithin threshold rate s calls
  lowers : NoDecayRaises threshold rate s calls

/-- The idle minutes at a reading of the clock, if they are more than the threshold, in full
periods beyond it. -/
def idlePeriodsAt (threshold : Int) (lastActivity now : Instant) : Option Int :=
  let idleMinutes := (now.secondsSince lastActivity).tdiv 60
  if idleMinutes > threshold then some ((idleMinutes - threshold).tdiv threshold) else none

/-- The idle periods that the decays of some calls find, where they take effect. -/
def idlePeriods (threshold : Int) : Instant → List TrustCall → List Int
  | _, [] => []
  | _, .action _ now :: calls => idlePeriods threshold now calls
  | lastActivity, .decay now :: calls =>
      (idlePeriodsAt threshold lastActivity now).toList ++ idlePeriods threshold lastActivity calls

/-- The trust that is left after some idle periods. -/
def trustAfter (rate : ℚ) (periods : Int) : ℚ := max (1 - periods * rate) 0

/-- After one number of idle periods another costs at least as much trust: nothing is ever
lost, the periods are no fewer, or they use all trust up. -/
def CostsNoLess (rate : ℚ) (periods periods' : Int) : Prop :=
  rate = 0 ∨ periods ≤ periods' ∨ 1 ≤ periods' * rate

section

variable {threshold : Int} {rate : ℚ} {periods periods' : Int} {s : SessionState}
  {calls : List TrustCall} {now : Instant}

/-! ## One decay -/

theorem F64.ge_finite {a b : ℚ} : (F64.finite a).ge (.finite b) = true ↔ b ≤ a :=
  decide_eq_true_iff

theorem F64.max_finite {a b : ℚ} : (F64.finite a).max (.finite b) = .finite (Max.max a b) := by
  have hnumber : F64.finite a ≠ .nan := by
    intro h
    cases h
  rw [F64.max, if_neg hnumber]
  by_cases h : a ≤ b
  · rw [if_pos (F64.ge_finite.mpr h), max_eq_right h]
  · rw [if_neg fun hge => h (F64.ge_finite.mp hge), max_eq_left (le_of_not_ge h)]

theorem F64.max_zero {a : ℚ} : (F64.finite a).max 0 = .finite (Max.max a 0) :=
  F64.max_finite

theorem F64.one_sub_mul {n : Int} :
    F64.sub 1 ((F64.ofInt n).mul (.finite rate)) = .finite (1 - n * rate) :=
  congrArg F64.finite (sub_eq_add_neg 1 (n * rate)).symm

/-- A decay that takes effect leaves the trust for its idle periods. -/
theorem trustStep_decay (one_le : 1 ≤ threshold) : s.trustStep threshold rate (.decay now) =
    match idlePeriodsAt threshold s.lastActivity now with
    | some periods => { s with trustLevel := .finite (trustAfter rate periods) }
    | none => s := by
  rw [SessionState.trustStep, SessionState.applyTrustDecay, idlePeriodsAt,
    SessionState.minutesSinceLastActivity]
  by_cases hidle : (now.secondsSince s.lastActivity).tdiv 60 > threshold
  · have hzero : threshold ≠ 0 := by omega
    rw [if_pos hidle, if_pos hidle, if_neg hzero, Option.getD_some]
    dsimp only
    rw [F64.one_sub_mul, F64.max_zero, trustAfter]
  · rw [if_neg hidle, if_neg hidle, Option.getD_some]

theorem idlePeriodsAt_nonneg (one_le : 1 ≤ threshold) {lastActivity : Instant}
    (h : idlePeriodsAt threshold lastActivity now = some periods) : 0 ≤ periods := by
  rw [idlePeriodsAt] at h
  split at h
  · rename_i hidle
    cases h
    exact Int.tdiv_nonneg (by omega) (by omega)
  · cases h

theorem idlePeriodsAt_mono (one_le : 1 ≤ threshold) {lastActivity now' : Instant}
    (hle : now ≤ now') (h : idlePeriodsAt threshold lastActivity now = some periods)
    (h' : idlePeriodsAt threshold lastActivity now' = some periods') : periods ≤ periods' := by
  have hnanos : (now - lastActivity : Int) ≤ now' - lastActivity := Int.sub_le_sub_right hle _
  have hseconds : now.secondsSince lastActivity ≤ now'.secondsSince lastActivity :=
    Int.tdiv_le_tdiv (by omega) hnanos
  have hminutes : (now.secondsSince lastActivity).tdiv 60 ≤
      (now'.secondsSince lastActivity).tdiv 60 := Int.tdiv_le_tdiv (by omega) hseconds
  rw [idlePeriodsAt] at h h'
  split at h <;> cases h
  split at h' <;> cases h'
  exact Int.tdiv_le_tdiv (by omega) (by omega)

theorem trustAfter_within (rate_nonneg : 0 ≤ rate) (periods_nonneg : 0 ≤ periods) :
    0 ≤ trustAfter rate periods ∧ trustAfter rate periods ≤ 1 := by
  have hcost : 0 ≤ periods * rate := mul_nonneg (Int.cast_nonneg periods_nonneg) rate_nonneg
  rw [trustAfter]
  exact ⟨le_max_right _ _, max_le (by linarith) (by norm_num)⟩

theorem trustAfter_le_iff (rate_nonneg : 0 ≤ rate) :
    trustAfter rate periods' ≤ trustAfter rate periods ↔ CostsNoLess rate periods periods' := by
  rw [trustAfter, trustAfter, CostsNoLess, max_le_iff, le_max_iff, le_max_iff]
  constructor
  · rintro ⟨hcost | hspent, -⟩
    · obtain hzero | hpos := rate_nonneg.eq_or_lt
      · exact .inl hzero.symm
      · have hle : (periods : ℚ) * rate ≤ periods' * rate := by linarith
        exact .inr (.inl (Int.cast_le.mp (le_of_mul_le_mul_right hle hpos)))
    · exact .inr (.inr (by linarith))
  · rintro (hzero | hle | hspent)
    · rw [hzero]
      simp
    · have hcost : (periods : ℚ) * rate ≤ periods' * rate :=
        mul_le_mul_of_nonneg_right (Int.cast_le.mpr hle) rate_nonneg
      exact ⟨.inl (by linarith), .inr le_rfl⟩
    · exact ⟨.inr (by linarith), .inr le_rfl⟩

/-! ## A run of calls -/

/-- What is known between two calls: the trust is that of the last effective decay. -/
def TrustOf (rate : ℚ) (periods : Int) (s : SessionState) : Prop :=
  0 ≤ periods ∧ s.trustLevel = .finite (trustAfter rate periods)

theorem TrustOf.within (rate_nonneg : 0 ≤ rate) (h : TrustOf rate periods s) :
    s.trustLevel.ge 0 = true ∧ F64.ge 1 s.trustLevel = true := by
  obtain ⟨hlow, hhigh⟩ := trustAfter_within rate_nonneg h.1
  rw [h.2]
  exact ⟨F64.ge_finite.mpr hlow, F64.ge_finite.mpr hhigh⟩

theorem TrustOf.step (one_le : 1 ≤ threshold) (h : TrustOf rate periods s) (call : TrustCall) :
    ∃ periods', TrustOf rate periods' (s.trustStep threshold rate call) := by
  cases call with
  | action event now => exact ⟨periods, h⟩
  | decay now =>
      rw [trustStep_decay one_le]
      cases hperiods : idlePeriodsAt threshold s.lastActivity now with
      | none => exact ⟨periods, h⟩
      | some periods' => exact ⟨periods', idlePeriodsAt_nonneg one_le hperiods, rfl⟩

theorem TrustOf.run (one_le : 1 ≤ threshold) (h : TrustOf rate periods s)
    (calls : List TrustCall) :
    ∃ periods', TrustOf rate periods' (calls.foldl (SessionState.trustStep threshold rate) s) := by
  induction calls generalizing s periods with
  | nil => exact ⟨periods, h⟩
  | cons call calls ih =>
      obtain ⟨periods', hstep⟩ := h.step one_le call
      exact ih hstep

/-- No decay raises the trust exactly if each that takes effect costs no less than the last. -/
theorem TrustOf.along_iff (one_le : 1 ≤ threshold) (rate_nonneg : 0 ≤ rate)
    (h : TrustOf rate periods s) : NoDecayRaises threshold rate s calls ↔
      (periods :: idlePeriods threshold s.lastActivity calls).IsChain (CostsNoLess rate) := by
  induction calls generalizing s periods with
  | nil => exact iff_of_true trivial (.singleton periods)
  | cons call calls ih =>
      cases call with
      | action event now =>
          have hstep : TrustOf rate periods (s.recordAction event now) := h
          exact (and_iff_right trivial).trans (ih hstep)
      | decay now =>
          rw [NoDecayRaises, Along, KeepsTrustDown, trustStep_decay one_le, idlePeriods,
            ← NoDecayRaises]
          cases hperiods : idlePeriodsAt threshold s.lastActivity now with
          | none =>
              rw [ih h]
              refine and_iff_right ?_
              rw [h.2]
              exact F64.ge_finite.mpr le_rfl
          | some periods' =>
              have hstep : TrustOf rate periods'
                  { s with trustLevel := .finite (trustAfter rate periods') } :=
                ⟨idlePeriodsAt_nonneg one_le hperiods, rfl⟩
              rw [Option.toList_some, List.singleton_append, List.isChain_cons_cons, h.2]
              exact and_congr (F64.ge_finite.trans (trustAfter_le_iff rate_nonneg)) (ih hstep)

theorem idlePeriods_nonneg (one_le : 1 ≤ threshold) {lastActivity : Instant}
    (h : periods ∈ idlePeriods threshold lastActivity calls) : 0 ≤ periods := by
  induction calls generalizing lastActivity with
  | nil => cases h
  | cons call calls ih =>
      cases call with
      | action event now => exact ih h
      | decay now =>
          obtain hnow | hrest := List.mem_append.mp h
          · exact idlePeriodsAt_nonneg one_le (Option.mem_toList.mp hnow)
          · exact ih hrest

/-- While the session is idle and the clock does not run back, each decay finds as many periods
as the one before. -/
theorem idlePeriods_of_idle (one_le : 1 ≤ threshold) {lastActivity : Instant}
    {nows : List Instant} (advances : nows.Pairwise (· ≤ ·)) :
    (idlePeriods threshold lastActivity (nows.map .decay)).IsChain (CostsNoLess rate) := by
  have hperiods : idlePeriods threshold lastActivity (nows.map .decay) =
      nows.filterMap (idlePeriodsAt threshold lastActivity) := by
    induction nows with
    | nil => rfl
    | cons now nows ih =>
        rw [List.map_cons, idlePeriods, ih (List.pairwise_cons.mp advances).2]
        cases hnow : idlePeriodsAt threshold lastActivity now with
        | none => rw [List.filterMap_cons_none hnow]; rfl
        | some periods => rw [List.filterMap_cons_some hnow]; rfl
  rw [hperiods]
  apply List.Pairwise.isChain
  apply advances.filterMap
  intro now now' hle periods hnow periods' hnow'
  exact .inr (.inl (idlePeriodsAt_mono one_le hle hnow hnow'))

/-- A sweep over the store is one decay of each session. -/
theorem lookup_applyTrustDecayAll (store : SessionStore) (now : String → Instant)
    (sessionId : String) :
    (store.applyTrustDecayAll threshold (.finite rate) now).sessions.lookup sessionId =
      (store.sessions.lookup sessionId).map fun s =>
        s.trustStep threshold rate (.decay (now s.sessionId)) :=
  lookup_mapValues _ store.sessions sessionId

end

/-! ## From the start of a session -/

variable (sessionId : String) (agentId : Uuid) (principalId : Option Uuid) (start : Instant)
  (calls : List TrustCall)

/-- The trust of a session stays between 0 and 1, and no decay raises it exactly if each decay
that takes effect finds as many idle periods as the last one that did, or enough to use all
trust up. Without an action in between they do, if the clock does not run back
(`idlePeriods_of_idle`). The sweep over a store is such a decay of each session
(`lookup_applyTrustDecayAll`). -/
theorem trustWithin_and_noDecayRaises_iff {threshold : Int} {rate : ℚ} (one_le : 1 ≤ threshold)
    (rate_nonneg : 0 ≤ rate) :
    TrustWithin threshold rate (.new sessionId agentId principalId start) calls ∧
    (NoDecayRaises threshold rate (.new sessionId agentId principalId start) calls ↔
      (idlePeriods threshold start calls).IsChain (CostsNoLess rate)) := by
  have hstart : TrustOf rate 0 (.new sessionId agentId principalId start) := by
    refine ⟨le_rfl, ?_⟩
    rw [trustAfter, Int.cast_zero, zero_mul, sub_zero, max_eq_left zero_le_one]
    rfl
  have hfull : ∀ periods ∈ (idlePeriods threshold start calls).head?,
      CostsNoLess rate 0 periods := by
    intro periods hperiods
    exact .inr (.inl (idlePeriods_nonneg one_le (List.mem_of_mem_head? hperiods)))
  constructor
  · intro done _
    obtain ⟨periods, hrun⟩ := hstart.run one_le done
    exact hrun.within rate_nonneg
  · exact (hstart.along_iff one_le rate_nonneg).trans
      (List.isChain_cons.trans (and_iff_right hfull))

/-- Five idle minutes, then nine: the second decay finds more periods. -/
theorem trustWithin_and_noDecayRaises_iff_idle :
    TrustWithin 2 (1 / 4) (.new "s" ⟨1⟩ none 0)
      [.decay 300000000000, .decay 540000000000] ∧
    (NoDecayRaises 2 (1 / 4) (.new "s" ⟨1⟩ none 0)
      [.decay 300000000000, .decay 540000000000] ↔
      (idlePeriods 2 0 [.decay 300000000000, .decay 540000000000]).IsChain
        (CostsNoLess (1 / 4))) :=
  trustWithin_and_noDecayRaises_iff "s" ⟨1⟩ none 0 _ (by decide) (by norm_num)

/-- An action between two decays: three idle minutes use up all trust, and the two that follow
the action give half of it back. -/
theorem not_trustOnlyDecays : ¬ ∀ (threshold : Int) (rate : ℚ), 1 ≤ threshold → 0 ≤ rate →
    ∀ (sessionId : String) (agentId : Uuid) (principalId : Option Uuid) (start : Instant)
      (calls : List TrustCall), (start :: calls.map (·.now)).IsChain (· ≤ ·) →
      TrustOnlyDecays threshold rate (.new sessionId agentId principalId start) calls := by
  intro h
  have hlowers := (h 1 (1 / 2) (by decide) (by norm_num) "s" ⟨1⟩ none 0
    [.decay 180000000000, .action ⟨"read", "file", .allow, 180000000000⟩ 180000000000,
      .decay 300000000000] (by decide)).lowers
  revert hlowers
  decide +kernel

end Patroclus
