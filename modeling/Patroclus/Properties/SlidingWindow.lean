import Patroclus.Foundation.Unwinding
import Patroclus.Policy.Counting

/-!
# The rate limit and the sliding minute

`check_rate_limit` counts in fixed windows, where the documentation speaks of a sliding
one. A window begins with the first call after the last window was over, so a minute that
lies across two windows may hold the calls of both, and the first call of a window is
granted even if the limit is zero.
-/

namespace Patroclus

open Foundation

/-- A call of `check_rate_limit`, with the clock reading that it takes. -/
structure RateCall where
  key : String
  maxPerMinute : Nat
  now : Instant

namespace SessionStore

def countCall (store : SessionStore) (call : RateCall) : SessionStore :=
  (store.checkRateLimit call.key call.maxPerMinute call.now).2

def verdict (store : SessionStore) (call : RateCall) : Except PatroclusError Unit :=
  (store.checkRateLimit call.key call.maxPerMinute call.now).1

/-- The times of the calls on a key that return `Ok`, in a run of calls. -/
def granted (store : SessionStore) (key : String) (calls : List RateCall) : List Instant :=
  ((transcript countCall verdict store calls).filter fun answered =>
    answered.1.key == key && answered.2.isOk).map fun answered => answered.1.now

end SessionStore

/-- The times of all calls on a key. -/
def timesOn (key : String) (calls : List RateCall) : List Instant :=
  (calls.filter (·.key == key)).map (·.now)

/-! ## Counting in windows -/

section

variable {store : SessionStore} {key : String} {m : Nat} {calls : List RateCall}

/-- What is granted on a key is what its windows admit; calls on other keys do not matter. -/
theorem granted_eq_admitted (limit : ∀ call ∈ calls, call.key = key → call.maxPerMinute = m) :
    store.granted key calls = admitted minuteAfter m
      ((store.rateLimits.lookup key).map RateLimitState.toWindow) (timesOn key calls) := by
  induction calls generalizing store with
  | nil => rfl
  | cons call calls ih =>
      have hrest : (store.countCall call).granted key calls = _ := ih fun next hnext =>
        limit next (List.mem_cons_of_mem _ hnext)
      have hstep := store.checkRateLimit_eq call.key call.maxPerMinute call.now
      by_cases hkey : call.key = key
      · have hm := limit call List.mem_cons_self hkey
        rw [hkey, hm] at hstep
        have hadmit := tally_admit key m call.now (store.rateLimits.lookup key)
        have hlookup : (store.countCall call).rateLimits.lookup key =
            some (SessionStore.tally key m call.now (store.rateLimits.lookup key)).2 := by
          rw [SessionStore.countCall, hkey, hm, hstep]
          exact AList.lookup_insert _
        rw [hlookup] at hrest
        simp only [timesOn, List.filter_cons, hkey, beq_self_eq_true, if_true, List.map_cons,
          admitted, hadmit]
        simp only [SessionStore.granted, transcript, List.filter_cons, hkey, beq_self_eq_true,
          Bool.true_and, SessionStore.verdict, hm, hstep]
        split
        · exact congrArg (call.now :: ·) hrest
        · exact hrest
      · have hlookup : (store.countCall call).rateLimits.lookup key =
            store.rateLimits.lookup key := by
          rw [SessionStore.countCall, hstep]
          exact AList.lookup_insert_ne (Ne.symm hkey)
        have hother : (call.key == key) = false := beq_eq_false_iff_ne.mpr hkey
        rw [hlookup] at hrest
        simp only [timesOn, List.filter_cons, hother, Bool.false_eq_true, if_false]
        simp only [SessionStore.granted, transcript, List.filter_cons, hother, Bool.false_and,
          Bool.false_eq_true, if_false]
        exact hrest

/-- In a run of calls with a clock that does not go back, no minute holds more than `m`
granted calls on a key exactly if there is no call on it, or `m` is not zero and no minute
holds more than `m` of the first `m` calls of any two successive windows. -/
theorem slides_granted_iff (clock : calls.Pairwise fun call call' => call.now ≤ call'.now)
    (limit : ∀ call ∈ calls, call.key = key → call.maxPerMinute = m) :
    Slides minuteAfter m (SessionStore.new.granted key calls) ↔
      timesOn key calls = [] ∨ 0 < m ∧ (windows minuteAfter (timesOn key calls)).IsChain
        fun w w' => Slides minuteAfter m (w.take m ++ w'.take m) := by
  have hsorted : (timesOn key calls).Pairwise (· ≤ ·) :=
    List.pairwise_map.mpr (clock.sublist List.filter_sublist)
  rw [granted_eq_admitted limit]
  exact slides_admitted_iff monotone_minuteAfter le_minuteAfter hsorted

end

/-- Calls on a key at some seconds, and a call on another key in between. -/
def callsAt (maxPerMinute : Nat) (seconds : List Nat) : List RateCall :=
  seconds.flatMap fun (second : Nat) => [⟨"agent-1:read", maxPerMinute, second * 1000000000⟩,
    ⟨"agent-2:read", 5, second * 1000000000⟩]

theorem slides_granted_callsAt :
    Slides minuteAfter 1 (SessionStore.new.granted "agent-1:read" (callsAt 1 [0, 30, 61])) := by
  refine (slides_granted_iff (by decide) (by decide)).mpr (.inr ⟨by decide, ?_⟩)
  have htimes : timesOn "agent-1:read" (callsAt 1 [0, 30, 61]) =
      [0, 30 * 1000000000, 61 * 1000000000] := by decide
  have hwindows : windows minuteAfter [0, 30 * 1000000000, 61 * 1000000000] =
      [[0, 30 * 1000000000], [61 * 1000000000]] := by
    simp [windows, minuteAfter, SessionStore.window]
  rw [htimes, hwindows, List.isChain_pair]
  intro x
  simp only [List.take, List.cons_append, List.nil_append, List.countP_cons, List.countP_nil,
    minuteAfter, SessionStore.window]
  grind

/-- The sliding window as a promise about every run of calls. -/
def LimitSlides : Prop :=
  ∀ (key : String) (m : Nat) (calls : List RateCall),
    (calls.Pairwise fun call call' => call.now ≤ call'.now) →
    (∀ call ∈ calls, call.key = key → call.maxPerMinute = m) →
      Slides minuteAfter m (SessionStore.new.granted key calls)

/-- Two calls end one window and two begin the next: three of them lie in one minute. -/
theorem not_limitSlides : ¬ LimitSlides := by
  intro h
  have hcount := h "agent-1:read" 2 (callsAt 2 [0, 59, 61, 62]) (by decide) (by decide)
    (59 * 1000000000)
  revert hcount
  decide

end Patroclus
