import Patroclus.Foundation.Unwinding
import Patroclus.Policy.Counting
import Patroclus.Platform

/-!
# The independence of the counters

Calls are counted by session, action and resource, under a key that joins the three with
colons. A colon inside one of them is not escaped, so two triples may share a key, and
then they share a counter. Triples with different keys do not influence each other.
-/

namespace Patroclus

open Foundation

/-- What a call is counted by. -/
structure RateTriple where
  sessionId : String
  action : String
  resource : String
deriving DecidableEq

def RateTriple.key (triple : RateTriple) : String :=
  Rule.rateLimitKey triple.sessionId triple.action triple.resource

/-- An evaluation, with the clock reading that it takes. -/
structure Evaluation where
  ctx : PolicyContext
  now : Instant

def Evaluation.isUnder (triple : RateTriple) (evaluation : Evaluation) : Bool :=
  evaluation.ctx.sessionId == some triple.sessionId && evaluation.ctx.action == triple.action &&
    evaluation.ctx.resource == triple.resource

namespace YamlEngine

variable (engine : YamlEngine)

def count (store : SessionStore) (evaluation : Evaluation) : SessionStore :=
  (engine.evaluate store evaluation.now evaluation.ctx).2

def outcome (store : SessionStore) (evaluation : Evaluation) : PolicyEvaluation :=
  (engine.evaluate store evaluation.now evaluation.ctx).1

/-- The evaluations of a run that are made under a triple, with their outcomes. -/
def outcomesUnder (triple : RateTriple) (store : SessionStore) (evaluations : List Evaluation) :
    List (Evaluation × PolicyEvaluation) :=
  (transcript engine.count engine.outcome store evaluations).filter fun answered =>
    answered.1.isUnder triple

end YamlEngine

/-- Deleting the evaluations under the first triple changes no outcome under the second. -/
def RateTriple.Spares (triple other : RateTriple) : Prop :=
  ∀ (engine : YamlEngine) (store : SessionStore) (evaluations : List Evaluation),
    engine.outcomesUnder other store evaluations =
      engine.outcomesUnder other store (evaluations.filter fun e => !e.isUnder triple)

section

variable {engine : YamlEngine} {store store' : SessionStore} {triple other : RateTriple}
  {evaluation : Evaluation} {evaluations : List Evaluation}

theorem Evaluation.isUnder_iff : evaluation.isUnder triple = true ↔
    evaluation.ctx.sessionId = some triple.sessionId ∧ evaluation.ctx.action = triple.action ∧
      evaluation.ctx.resource = triple.resource := by
  simp only [isUnder, Bool.and_eq_true, beq_iff_eq, and_assoc]

theorem Evaluation.rateKey_of_isUnder (h : evaluation.isUnder triple = true) :
    evaluation.ctx.rateKey = some triple.key := by
  obtain ⟨hsession, haction, hresource⟩ := Evaluation.isUnder_iff.mp h
  rw [PolicyContext.rateKey, hsession, haction, hresource]
  rfl

theorem Evaluation.triple_eq (h : evaluation.isUnder triple = true)
    (h' : evaluation.isUnder other = true) : triple = other := by
  obtain ⟨hsession, haction, hresource⟩ := Evaluation.isUnder_iff.mp h
  obtain ⟨hsession', haction', hresource'⟩ := Evaluation.isUnder_iff.mp h'
  cases triple
  cases other
  rw [hsession] at hsession'
  cases hsession'
  rw [RateTriple.mk.injEq]
  exact ⟨rfl, haction.symm.trans haction', hresource.symm.trans hresource'⟩

/-! ## Triples with different keys -/

/-- Two stores that an evaluation under a key cannot tell apart. -/
structure SessionStore.AlikeUnder (key : String) (store store' : SessionStore) : Prop where
  sessions : store.sessions = store'.sessions
  window : store.rateLimits.lookup key = store'.rateLimits.lookup key

/-- An evaluation that is counted elsewhere leaves the store as it looked. -/
theorem YamlEngine.alikeUnder_count (engine : YamlEngine) (store : SessionStore) {key : String}
    (h : evaluation.ctx.rateKey ≠ some key) :
    (engine.count store evaluation).AlikeUnder key store := by
  refine ⟨sessions_evaluate, evaluate_frame ?_⟩
  rintro ⟨rule, maxPerMinute, -, -, hlimit⟩
  exact h (Rule.rateKey_of_limitOf hlimit)

/-- An evaluation keeps stores alike, and one that is counted under the key has the same
outcome in both. -/
theorem SessionStore.AlikeUnder.count (engine : YamlEngine) (evaluation : Evaluation)
    {key : String} (h : store.AlikeUnder key store') :
    (engine.count store evaluation).AlikeUnder key (engine.count store' evaluation) ∧
      (evaluation.ctx.rateKey = some key →
        engine.outcome store evaluation = engine.outcome store' evaluation) := by
  by_cases hkey : evaluation.ctx.rateKey = some key
  · have hsees : evaluation.ctx.SeesAlike store store' := by
      refine ⟨?_, fun counted hcounted => ?_⟩
      · unfold SessionStore.getSession
        rw [h.sessions]
      · rw [hkey] at hcounted
        cases hcounted
        exact h.window
    obtain ⟨houtcome, hwindows⟩ := engine.evaluate_congr evaluation.now hsees
    refine ⟨⟨?_, hwindows key h.window⟩, fun _ => houtcome⟩
    exact (YamlEngine.sessions_evaluate.trans h.sessions).trans YamlEngine.sessions_evaluate.symm
  · have hleft := engine.alikeUnder_count store hkey
    have hright := engine.alikeUnder_count store' hkey
    exact ⟨⟨(hleft.sessions.trans h.sessions).trans hright.sessions.symm,
      (hleft.window.trans h.window).trans hright.window.symm⟩, fun heq => absurd heq hkey⟩

theorem outcomesUnder_of_alikeUnder (distinct : triple ≠ other) (keys : triple.key ≠ other.key)
    (h : store.AlikeUnder other.key store') :
    engine.outcomesUnder other store evaluations =
      engine.outcomesUnder other store' (evaluations.filter fun e => !e.isUnder triple) := by
  unfold YamlEngine.outcomesUnder
  induction evaluations generalizing store store' with
  | nil => rfl
  | cons evaluation evaluations ih =>
      cases hunder : evaluation.isUnder triple with
      | true =>
          have hother : evaluation.isUnder other = false := by
            by_contra hother
            exact distinct (Evaluation.triple_eq hunder (by simpa using hother))
          have hkey : evaluation.ctx.rateKey ≠ some other.key := by
            rw [Evaluation.rateKey_of_isUnder hunder]
            exact fun heq => keys (Option.some.inj heq)
          have hcount := engine.alikeUnder_count store hkey
          have hnext : (engine.count store evaluation).AlikeUnder other.key store' :=
            ⟨hcount.sessions.trans h.sessions, hcount.window.trans h.window⟩
          simp only [transcript, List.filter_cons, hother, hunder, Bool.false_eq_true,
            Bool.not_true, if_false]
          exact ih hnext
      | false =>
          obtain ⟨hnext, houtcome⟩ := h.count engine evaluation
          simp only [List.filter_cons, hunder, Bool.not_false, if_true, transcript]
          cases hother : evaluation.isUnder other with
          | true =>
              rw [if_pos rfl, if_pos rfl, houtcome (Evaluation.rateKey_of_isUnder hother), ih hnext]
          | false =>
              rw [if_neg Bool.false_ne_true, if_neg Bool.false_ne_true, ih hnext]

end

/-! ## Triples with one key -/

/-- A rule that allows everything, once a minute. -/
def onceAMinute : Rule := { Rule.plain "allow" "" with rateLimitPerMinute := some 1 }

/-- A call under a triple, at the epoch. -/
def RateTriple.call (triple : RateTriple) : Evaluation where
  ctx := {
    agent := ⟨⟨300⟩, "bot", .service, none, none, none, .active, none, 0, 0⟩
    principal := none
    action := triple.action
    resource := triple.resource
    requestedScopes := []
    sessionId := some triple.sessionId
    trajectory := [] }
  now := 0

section

variable {store : SessionStore} {triple other : RateTriple}

theorem RateTriple.isUnder_call : triple.call.isUnder other = true ↔ triple = other := by
  rw [Evaluation.isUnder_iff]
  constructor
  · rintro ⟨hsession, haction, hresource⟩
    cases triple
    cases other
    cases hsession
    rw [RateTriple.mk.injEq]
    exact ⟨rfl, haction, hresource⟩
  · rintro rfl
    exact ⟨rfl, rfl, rfl⟩

/-- Where no session exists, a call is decided by its window alone. -/
theorem evaluate_call (triple : RateTriple) (sessions : store.sessions = ∅) :
    let counted := SessionStore.tally triple.key 1 0 (store.rateLimits.lookup triple.key)
    ((⟨[onceAMinute]⟩ : YamlEngine).outcome store triple.call).decision =
        (if counted.1.isOk then .allow else .deny) ∧
      (⟨[onceAMinute]⟩ : YamlEngine).count store triple.call =
        { store with rateLimits := store.rateLimits.insert triple.key counted.2 } := by
  have hpassed : onceAMinute.checkTemporalConditions store triple.call.ctx = none := by
    rw [Rule.checkTemporalConditions_eq_none_iff]
    intro sessionId _ session hfound
    rw [sessions] at hfound
    cases hfound
  have hlimit : onceAMinute.limitOf triple.call.ctx = some (1, triple.key) := rfl
  have hevaluate (now : Instant) :
      (⟨[onceAMinute]⟩ : YamlEngine).evaluate store now triple.call.ctx =
        YamlEngine.evaluateRule onceAMinute store now triple.call.ctx := rfl
  dsimp only
  unfold YamlEngine.outcome YamlEngine.count
  rw [hevaluate, YamlEngine.evaluateRule_of_passed hpassed,
    Rule.checkRateLimit_of_limitOf_some hlimit]
  have hnow : triple.call.now = 0 := rfl
  rw [hnow]
  generalize SessionStore.tally triple.key 1 0 (store.rateLimits.lookup triple.key) = counted
  obtain ⟨verdict, state⟩ := counted
  cases verdict with
  | ok _ => exact ⟨rfl, rfl⟩
  | error e => exact ⟨rfl, rfl⟩

/-- A call uses up the minute of every triple with its key. -/
theorem not_spares_of_key_eq (distinct : triple ≠ other) (keys : triple.key = other.key) :
    ¬ triple.Spares other := by
  intro h
  have hanswers := h ⟨[onceAMinute]⟩ .new [triple.call, other.call]
  have hother : other.call.isUnder other = true := RateTriple.isUnder_call.mpr rfl
  have htriple : triple.call.isUnder triple = true := RateTriple.isUnder_call.mpr rfl
  have hleft : triple.call.isUnder other = false := by
    rw [Bool.eq_false_iff, ne_eq, RateTriple.isUnder_call]
    exact distinct
  have hright : other.call.isUnder triple = false := by
    rw [Bool.eq_false_iff, ne_eq, RateTriple.isUnder_call]
    exact distinct.symm
  simp only [YamlEngine.outcomesUnder, transcript, List.filter_cons, hother, htriple, hleft,
    hright, Bool.not_true, Bool.not_false, Bool.false_eq_true, if_true, if_false, List.filter_nil,
    List.cons.injEq, Prod.mk.injEq, true_and, and_true] at hanswers
  have hnew : SessionStore.new.sessions = ∅ := rfl
  obtain ⟨-, hcounted⟩ := evaluate_call triple hnew
  obtain ⟨hallowed, -⟩ := evaluate_call other hnew
  obtain ⟨hdenied, -⟩ := evaluate_call other (congrArg SessionStore.sessions hcounted)
  have hdecisions := congrArg PolicyEvaluation.decision hanswers
  rw [hallowed, hdenied, hcounted, keys, AList.lookup_insert] at hdecisions
  cases hdecisions

/-- The evaluations under one of two triples do not influence the other exactly if their
keys differ. -/
theorem spares_iff (distinct : triple ≠ other) :
    triple.Spares other ↔ triple.key ≠ other.key := by
  constructor
  · intro h keys
    exact not_spares_of_key_eq distinct keys h
  · intro keys engine store evaluations
    exact outcomesUnder_of_alikeUnder distinct keys ⟨rfl, rfl⟩

end

def databaseRead : RateTriple := ⟨"s", "db:read", "users"⟩

/-- Without colons, the key tells the triple. -/
theorem spares_writing : databaseRead.Spares ⟨"s", "db:write", "users"⟩ :=
  (spares_iff (by decide)).mpr (by decide)

/-- Independence as a promise about all distinct triples. -/
def CountersIndependent : Prop :=
  ∀ triple other : RateTriple, triple ≠ other → triple.Spares other

/-- The session `s` with the action `db:read`, and the session `s:db` with `read`. -/
theorem not_countersIndependent : ¬ CountersIndependent := by
  intro h
  have hspares := h databaseRead ⟨"s:db", "read", "users"⟩ (by decide)
  exact not_spares_of_key_eq (by decide) (by decide) hspares

end Patroclus
