import Patroclus.Foundation.FixedWindow
import Patroclus.Policy.YamlEngine

/-!
# What an evaluation reads and writes

Of the session store, an evaluation reads the session of its context and the
rate-limit window of one key, and it writes no more than this window. It counts a
call only when the rule that comes first has a rate limit and the session does
not refuse.
-/

namespace Patroclus

open Foundation

namespace SessionStore

/-- What the window of a key says to one more call, and the window afterwards. -/
def tally (key : String) (maxPerMinute : Nat) (now : Instant) :
    Option RateLimitState → Except PatroclusError Unit × RateLimitState
  | some state =>
      if now - state.windowStart > window then (.ok (), ⟨now, 1⟩)
      else if state.count + 1 > maxPerMinute then
        (.error (.policyDenied ("Rate limit exceeded for " ++ key ++ " (" ++
          toString (state.count + 1) ++ " calls/min, limit " ++ toString maxPerMinute ++ ")")),
          { state with count := state.count + 1 })
      else (.ok (), { state with count := state.count + 1 })
  | none => (.ok (), ⟨now, 1⟩)

theorem checkRateLimit_eq (key : String) (maxPerMinute : Nat) (now : Instant)
    (store : SessionStore) : store.checkRateLimit key maxPerMinute now =
      let counted := tally key maxPerMinute now (store.rateLimits.lookup key)
      (counted.1, { store with rateLimits := store.rateLimits.insert key counted.2 }) := by
  unfold checkRateLimit tally
  cases store.rateLimits.lookup key with
  | none => rfl
  | some state =>
      dsimp only
      split
      · rfl
      · split
        · rfl
        · rfl

end SessionStore

/-! ## Windows of a minute -/

/-- The end of the minute that begins at a time. -/
def minuteAfter (t : Instant) : Instant := t + SessionStore.window

theorem monotone_minuteAfter : Monotone minuteAfter := fun _ _ h =>
  Int.add_le_add_right h SessionStore.window

theorem le_minuteAfter (t : Instant) : t ≤ minuteAfter t :=
  Int.le_add_of_nonneg_right (by decide)

theorem minuteAfter_lt_iff {start now : Instant} :
    minuteAfter start < now ↔ now - start > SessionStore.window := by
  have h (a b c : Int) : a + c < b ↔ b - a > c := by omega
  exact h start now SessionStore.window

def RateLimitState.toWindow (state : RateLimitState) : Window Instant :=
  ⟨state.windowStart, state.count⟩

/-- The verdict on a call and the state it leaves are those of a window of a minute. -/
theorem tally_admit (key : String) (m : Nat) (now : Instant) (state : Option RateLimitState) :
    Window.answer minuteAfter m now (state.map RateLimitState.toWindow) =
      ((SessionStore.tally key m now state).1.isOk,
        (SessionStore.tally key m now state).2.toWindow) := by
  cases state with
  | none => rfl
  | some state =>
      simp only [Option.map_some, Window.answer, RateLimitState.toWindow, minuteAfter_lt_iff,
        SessionStore.tally]
      split
      · rfl
      · split
        · rename_i hfull
          rw [decide_eq_false (Nat.not_le.mpr hfull)]
          rfl
        · rename_i hroom
          rw [decide_eq_true (Nat.not_lt.mp hroom)]
          rfl

/-! ## Evaluations -/

/-- For one action and one resource, sessions do not share a key. -/
theorem Rule.rateLimitKey_inj {sessionId sessionId' action resource : String} :
    rateLimitKey sessionId action resource = rateLimitKey sessionId' action resource ↔
      sessionId = sessionId' := by
  rw [rateLimitKey, rateLimitKey, String.append_left_inj, String.append_left_inj,
    String.append_left_inj, String.append_left_inj]

/-- The key under which a context is counted, if it names a session. -/
def PolicyContext.rateKey (ctx : PolicyContext) : Option String :=
  ctx.sessionId.map fun sessionId => Rule.rateLimitKey sessionId ctx.action ctx.resource

section

variable {rule : Rule} {engine : YamlEngine} {store store' : SessionStore} {now : Instant}
  {ctx : PolicyContext} {key : String}

/-- Two stores between which a context cannot tell. -/
structure PolicyContext.SeesAlike (ctx : PolicyContext) (store store' : SessionStore) : Prop where
  session : ctx.sessionId.bind store.getSession = ctx.sessionId.bind store'.getSession
  rate : ∀ key, ctx.rateKey = some key →
    store.rateLimits.lookup key = store'.rateLimits.lookup key

namespace Rule

theorem checkTemporalConditions_congr (h : ctx.SeesAlike store store') :
    rule.checkTemporalConditions store ctx = rule.checkTemporalConditions store' ctx := by
  rw [checkTemporalConditions, checkTemporalConditions, h.session]

/-- The limit that a context is held to, with the key of its window. -/
def limitOf (rule : Rule) (ctx : PolicyContext) : Option (Nat × String) :=
  match rule.rateLimitPerMinute, ctx.rateKey with
  | some maxPerMinute, some key => some (maxPerMinute, key)
  | _, _ => none

theorem rateLimitPerMinute_of_limitOf {maxPerMinute : Nat}
    (h : rule.limitOf ctx = some (maxPerMinute, key)) : rule.rateLimitPerMinute ≠ none := by
  intro hnone
  rw [limitOf, hnone] at h
  cases h

theorem rateKey_of_limitOf {maxPerMinute : Nat} (h : rule.limitOf ctx = some (maxPerMinute, key)) :
    ctx.rateKey = some key := by
  rw [limitOf] at h
  split at h
  · rename_i hkey
    cases h
    exact hkey
  · cases h

theorem checkRateLimit_of_limitOf_none (h : rule.limitOf ctx = none) :
    rule.checkRateLimit store now ctx = (none, store) := by
  unfold limitOf PolicyContext.rateKey at h
  unfold checkRateLimit
  cases hlimit : rule.rateLimitPerMinute with
  | none => rfl
  | some maxPerMinute =>
      cases hsession : ctx.sessionId with
      | none => rfl
      | some sessionId =>
          rw [hlimit, hsession] at h
          cases h

theorem checkRateLimit_of_limitOf_some {maxPerMinute : Nat}
    (h : rule.limitOf ctx = some (maxPerMinute, key)) :
    rule.checkRateLimit store now ctx =
      let counted := SessionStore.tally key maxPerMinute now (store.rateLimits.lookup key)
      (match counted.1 with
        | .ok _ => none
        | .error e => some e.toString,
        { store with rateLimits := store.rateLimits.insert key counted.2 }) := by
  unfold limitOf PolicyContext.rateKey at h
  unfold checkRateLimit
  cases hlimit : rule.rateLimitPerMinute with
  | none =>
      rw [hlimit] at h
      cases h
  | some limit =>
      cases hsession : ctx.sessionId with
      | none =>
          rw [hlimit, hsession] at h
          cases h
      | some sessionId =>
          rw [hlimit, hsession] at h
          cases h
          simp only [SessionStore.checkRateLimit_eq]
          split
          · rename_i hcounted
            obtain ⟨hverdict, rfl⟩ := Prod.mk.inj hcounted
            rw [hverdict]
          · rename_i hcounted
            obtain ⟨hverdict, rfl⟩ := Prod.mk.inj hcounted
            rw [hverdict]

variable (now) in
/-- Stores that look alike give the same verdict, and what looked alike in them still does. -/
theorem checkRateLimit_congr (h : ctx.SeesAlike store store') :
    (rule.checkRateLimit store now ctx).1 = (rule.checkRateLimit store' now ctx).1 ∧
      ∀ key, store.rateLimits.lookup key = store'.rateLimits.lookup key →
        (rule.checkRateLimit store now ctx).2.rateLimits.lookup key =
          (rule.checkRateLimit store' now ctx).2.rateLimits.lookup key := by
  cases hlimit : rule.limitOf ctx with
  | none =>
      rw [checkRateLimit_of_limitOf_none hlimit, checkRateLimit_of_limitOf_none hlimit]
      exact ⟨rfl, fun _ hkey => hkey⟩
  | some limit =>
      obtain ⟨maxPerMinute, counted⟩ := limit
      have hwindow := h.rate counted (rateKey_of_limitOf hlimit)
      rw [checkRateLimit_of_limitOf_some hlimit, checkRateLimit_of_limitOf_some hlimit, hwindow]
      refine ⟨rfl, fun key hkey => ?_⟩
      dsimp only
      by_cases hsame : key = counted
      · rw [hsame, AList.lookup_insert, AList.lookup_insert]
      · rw [AList.lookup_insert_ne hsame, AList.lookup_insert_ne hsame, hkey]

/-- The windows of other keys stay as they are. -/
theorem checkRateLimit_frame (h : ∀ maxPerMinute, rule.limitOf ctx ≠ some (maxPerMinute, key)) :
    (rule.checkRateLimit store now ctx).2.rateLimits.lookup key = store.rateLimits.lookup key := by
  cases hlimit : rule.limitOf ctx with
  | none => rw [checkRateLimit_of_limitOf_none hlimit]
  | some limit =>
      obtain ⟨maxPerMinute, counted⟩ := limit
      have hother : key ≠ counted := fun hsame => h maxPerMinute (by rw [hlimit, hsame])
      rw [checkRateLimit_of_limitOf_some hlimit]
      exact AList.lookup_insert_ne hother

end Rule

namespace YamlEngine

/-- The evaluation counts the call in the window of this key. -/
def Counts (engine : YamlEngine) (store : SessionStore) (ctx : PolicyContext) (key : String) :
    Prop :=
  ∃ rule maxPerMinute, engine.firstMatch ctx = some rule ∧
    rule.checkTemporalConditions store ctx = none ∧ rule.limitOf ctx = some (maxPerMinute, key)

theorem evaluateRule_of_refused {reason : String}
    (h : rule.checkTemporalConditions store ctx = some reason) :
    evaluateRule rule store now ctx = (.deny reason, store) := by
  rw [evaluateRule, h]

theorem evaluateRule_of_passed (h : rule.checkTemporalConditions store ctx = none) :
    evaluateRule rule store now ctx =
      let counted := rule.checkRateLimit store now ctx
      (match counted.1 with
        | some reason => .deny reason
        | none => {
            decision := rule.decisionOf
            approvedScopes := rule.approvedScopes ctx.requestedScopes
            reason := rule.reason
            constraints := rule.constraints.map fun c => ⟨c.key, c.value⟩ },
        counted.2) := by
  rw [evaluateRule, h]
  rcases rule.checkRateLimit store now ctx with ⟨refused, counted⟩
  cases refused with
  | none => rfl
  | some reason => rfl

variable (engine now) in
theorem evaluate_congr (h : ctx.SeesAlike store store') :
    (engine.evaluate store now ctx).1 = (engine.evaluate store' now ctx).1 ∧
      ∀ key, store.rateLimits.lookup key = store'.rateLimits.lookup key →
        (engine.evaluate store now ctx).2.rateLimits.lookup key =
          (engine.evaluate store' now ctx).2.rateLimits.lookup key := by
  unfold evaluate
  cases engine.firstMatch ctx with
  | none => exact ⟨rfl, fun _ hkey => hkey⟩
  | some rule =>
      dsimp only
      have htemporal := rule.checkTemporalConditions_congr h
      cases hpassed : rule.checkTemporalConditions store' ctx with
      | some reason =>
          rw [evaluateRule_of_refused hpassed, evaluateRule_of_refused (htemporal.trans hpassed)]
          exact ⟨rfl, fun _ hkey => hkey⟩
      | none =>
          obtain ⟨hverdict, hwindows⟩ := rule.checkRateLimit_congr now h
          rw [evaluateRule_of_passed hpassed, evaluateRule_of_passed (htemporal.trans hpassed)]
          dsimp only
          rw [hverdict]
          exact ⟨rfl, hwindows⟩

@[simp] theorem sessions_evaluate :
    (engine.evaluate store now ctx).2.sessions = store.sessions := by
  rw [evaluate]
  cases engine.firstMatch ctx with
  | none => rfl
  | some rule =>
      dsimp only
      cases hpassed : rule.checkTemporalConditions store ctx with
      | some reason => rw [evaluateRule_of_refused hpassed]
      | none =>
          rw [evaluateRule_of_passed hpassed]
          exact Rule.sessions_checkRateLimit

/-- Only the window in which the call is counted changes. -/
theorem evaluate_frame (h : ¬ engine.Counts store ctx key) :
    (engine.evaluate store now ctx).2.rateLimits.lookup key = store.rateLimits.lookup key := by
  rw [evaluate]
  cases hmatch : engine.firstMatch ctx with
  | none => rfl
  | some rule =>
      dsimp only
      cases hpassed : rule.checkTemporalConditions store ctx with
      | some reason => rw [evaluateRule_of_refused hpassed]
      | none =>
          rw [evaluateRule_of_passed hpassed]
          exact rule.checkRateLimit_frame fun maxPerMinute hlimit =>
            h ⟨rule, maxPerMinute, hmatch, hpassed, hlimit⟩

/-- The window in which the call is counted takes it in. -/
theorem evaluate_counts {maxPerMinute : Nat} (first : engine.firstMatch ctx = some rule)
    (passed : rule.checkTemporalConditions store ctx = none)
    (limit : rule.limitOf ctx = some (maxPerMinute, key)) :
    (engine.evaluate store now ctx).2.rateLimits.lookup key =
      some (SessionStore.tally key maxPerMinute now (store.rateLimits.lookup key)).2 := by
  rw [evaluate, first]
  dsimp only
  rw [evaluateRule_of_passed passed, Rule.checkRateLimit_of_limitOf_some limit]
  exact AList.lookup_insert _

end YamlEngine

end

end Patroclus
