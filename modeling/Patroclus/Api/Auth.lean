import Patroclus.Crate.Http
import Patroclus.Api.Access
import Patroclus.Api.Admin

/-!
# The authentication middleware

Requests to the paths of operators need the admin token as a bearer token, and requests
to the paths of agents need a client key, of which only the hash is stored. All other
paths are open. The domain of a request is told from the beginning of its path.
-/

namespace Patroclus

open Foundation

structure AuthConfig where
  adminToken : Option String

/-- `AuthConfig::from_env`, given the variable. -/
def AuthConfig.fromEnv (token : Option String) : AuthConfig where
  adminToken := token.filter fun t => !t.isEmpty

/-- A server that has an admin token has one that is not empty. -/
theorem AuthConfig.fromEnv_nonempty {value : Option String} {token : String}
    (h : (AuthConfig.fromEnv value).adminToken = some token) : token ≠ "" := by
  rintro rfl
  obtain ⟨-, hnonempty⟩ := Option.filter_eq_some_iff.mp h
  revert hnonempty
  decide

def agentKeyHeader : String := "x-client-key"

/-- Differences are collected from all bytes, wherever the first of them is. -/
def constantTimeEq (a b : List UInt8) : Bool :=
  if a.length ≠ b.length then false
  else (a.zip b).foldl (fun diff (x, y) => diff ||| (x ^^^ y)) 0 == 0

def pathsStartWith (path : String) (prefixes : List String) : Bool :=
  prefixes.any fun base => path == base || startsWith path (base ++ "/")

def adminPrefixes : List String := ["/v1/admin", "/v1/vault", "/v1/sessions", "/v1/principal"]

def isAdminPath (path : String) : Bool := pathsStartWith path adminPrefixes

def agentPrefixes : List String := ["/v1/agent"]

def isAgentPath (path : String) : Bool := pathsStartWith path agentPrefixes

/-- The response of a request that is turned away. -/
structure Unauthorized where
  message : String
deriving DecidableEq, Repr

/-- The bearer token of a request; without one, the empty text. -/
def presentedToken (req : Request) : String :=
  (((req.header "authorization").bind headerToStr).bind (stripPrefix · "Bearer ")).getD ""

/-- The client key of a request; without one, the empty text. -/
def presentedKey (req : Request) : String :=
  ((req.header agentKeyHeader).bind headerToStr).getD ""

/-- `next` is what runs behind the middleware, given the agent that was authenticated. -/
def authMiddleware {α : Type} (p : Platform) (auth : AuthConfig) (req : Request)
    (next : Option Uuid → Handler α) : Handler (Except Unauthorized α) := do
  if isAdminPath req.path then
    match auth.adminToken with
    | none => return .ok (← next none)
    | some expected =>
        if constantTimeEq (utf8 (presentedToken req)) (utf8 expected) then
          return .ok (← next none)
        else return .error ⟨"missing or invalid admin token"⟩
  else if isAgentPath req.path then
    if (presentedKey req).isEmpty then return .error ⟨"missing agent client key"⟩
    else
      match ← (Database.getAgentByClientKeyHash p (hashClientKey p (presentedKey req))).attempt with
      | .ok (some agent) => return .ok (← next (some agent.id))
      | _ => return .error ⟨"invalid agent client key"⟩
  else return .ok (← next none)

/-! ## The comparison of tokens -/

theorem foldl_diff_eq_zero (pairs : List (UInt8 × UInt8)) (diff : UInt8) :
    pairs.foldl (fun diff (x, y) => diff ||| (x ^^^ y)) diff = 0 ↔
      diff = 0 ∧ ∀ pair ∈ pairs, pair.1 = pair.2 := by
  induction pairs generalizing diff with
  | nil => simp
  | cons pair pairs ih =>
      rw [List.foldl_cons, ih, UInt8.or_eq_zero_iff, UInt8.xor_eq_zero_iff, List.forall_mem_cons,
        and_assoc]

/-- The loop tells whether two texts are equal, whatever their lengths. -/
theorem constantTimeEq_iff (a b : List UInt8) : constantTimeEq a b = true ↔ a = b := by
  rw [constantTimeEq]
  by_cases hlength : a.length = b.length
  · have hzip : (∀ pair ∈ a.zip b, pair.1 = pair.2) ↔ a = b := by
      rw [← List.forall₂_eq_eq_eq, List.forall₂_iff_zip]
      constructor
      · intro h
        exact ⟨hlength, fun hpair => h _ hpair⟩
      · rintro ⟨-, h⟩ pair hpair
        exact h hpair
    rw [if_neg (not_not.mpr hlength), beq_iff_eq, foldl_diff_eq_zero, hzip]
    exact and_iff_right rfl
  · rw [if_pos hlength]
    refine iff_of_false nofun ?_
    rintro rfl
    exact hlength rfl

/-! ## What the middleware lets through -/

theorem header_of_presentedToken {req : Request} {token : String} (nonempty : token ≠ "")
    (h : presentedToken req = token) :
    req.header "authorization" = some (utf8 ("Bearer " ++ token)) := by
  rw [presentedToken] at h
  cases hheader : req.header "authorization" with
  | none =>
      rw [hheader] at h
      exact absurd h.symm nonempty
  | some value =>
      cases htext : headerToStr value with
      | none =>
          rw [hheader, Option.bind_some, htext] at h
          exact absurd h.symm nonempty
      | some text =>
          cases htoken : stripPrefix text "Bearer " with
          | none =>
              rw [hheader, Option.bind_some, htext, Option.bind_some, htoken] at h
              exact absurd h.symm nonempty
          | some rest =>
              rw [hheader, Option.bind_some, htext, Option.bind_some, htoken] at h
              rw [← utf8_of_headerToStr htext, eq_append_of_stripPrefix htoken, ← h]
              rfl

theorem header_of_presentedKey {req : Request} (nonempty : presentedKey req ≠ "") :
    req.header agentKeyHeader = some (utf8 (presentedKey req)) := by
  unfold presentedKey at nonempty ⊢
  cases hheader : req.header agentKeyHeader with
  | none =>
      rw [hheader] at nonempty
      exact absurd rfl nonempty
  | some value =>
      cases htext : headerToStr value with
      | none =>
          rw [hheader, Option.bind_some, htext] at nonempty
          exact absurd rfl nonempty
      | some text =>
          rw [Option.bind_some, htext]
          exact congrArg some (utf8_of_headerToStr htext).symm

section

variable {α : Type} {p : Platform} {auth : AuthConfig} {req : Request}
  {next : Option Uuid → Handler α} {s finish : Serving} {a : α}

theorem getAgentByClientKeyHash_found {keyHash : String} {agent : Agent}
    (run : Database.getAgentByClientKeyHash p keyHash s = (.ok (some agent), finish)) :
    ∃ row ∈ s.app.db.agents, row.clientKeyHash = some keyHash ∧ row.status = .active ∧
      agent.id = row.id := by
  obtain ⟨found, s₁, hfound, run⟩ := Action.bind_ok_iff.mp run
  obtain ⟨-, hrow, rfl⟩ := query_eq_ok.mp hfound
  cases found with
  | none => cases run
  | some row =>
      obtain ⟨agent', s₂, hagent, run⟩ := Action.bind_ok_iff.mp run
      cases run
      have hmatch := List.find?_some hrow.symm
      simp only [Bool.and_eq_true, beq_iff_eq] at hmatch
      exact ⟨row, List.mem_of_find?_eq_some hrow.symm, hmatch.1, hmatch.2, getAgent_id hagent⟩

/-- The ways through the middleware, with the agent that each authenticates. -/
inductive LetThrough (p : Platform) (auth : AuthConfig) (req : Request) (db : Db) :
    Option Uuid → Prop where
  | admin (path : isAdminPath req.path = true)
      (token : ∀ expected, auth.adminToken = some expected → presentedToken req = expected) :
      LetThrough p auth req db none
  | agent {row : AgentRow} (path : isAdminPath req.path = false)
      (agentPath : isAgentPath req.path = true) (key : presentedKey req ≠ "")
      (mem : row ∈ db.agents)
      (hash : row.clientKeyHash = some (hashClientKey p (presentedKey req)))
      (active : row.status = .active) : LetThrough p auth req db (some row.id)
  | free (path : isAdminPath req.path = false) (agentPath : isAgentPath req.path = false) :
      LetThrough p auth req db none

theorem next_of_ok {agent : Option Uuid}
    (run : (do return Except.ok (ε := Unauthorized) (← next agent)) s = (.ok (.ok a), finish)) :
    next agent s = (.ok a, finish) := by
  obtain ⟨a', s', hnext, run⟩ := Action.bind_ok_iff.mp run
  cases run
  exact hnext

theorem authMiddleware_ok (run : authMiddleware p auth req next s = (.ok (.ok a), finish)) :
    ∃ agent middle, LetThrough p auth req s.app.db agent ∧
      next agent middle = (.ok a, finish) := by
  rw [authMiddleware] at run
  by_cases hadmin : isAdminPath req.path = true
  · rw [if_pos hadmin] at run
    cases htoken : auth.adminToken with
    | none =>
        rw [htoken] at run
        refine ⟨none, s, .admin hadmin fun expected h => ?_, next_of_ok run⟩
        rw [htoken] at h
        cases h
    | some expected =>
        rw [htoken] at run
        by_cases hsame : constantTimeEq (utf8 (presentedToken req)) (utf8 expected) = true
        · simp only [hsame, if_true] at run
          refine ⟨none, s, .admin hadmin fun expected' h => ?_, next_of_ok run⟩
          rw [htoken] at h
          cases h
          exact utf8_injective ((constantTimeEq_iff _ _).mp hsame)
        · simp only [hsame] at run
          cases run
  · have hpath : isAdminPath req.path = false := Bool.eq_false_iff.mpr hadmin
    rw [if_neg hadmin] at run
    by_cases hagent : isAgentPath req.path = true
    · rw [if_pos hagent] at run
      by_cases hkey : (presentedKey req).isEmpty = true
      · rw [if_pos hkey] at run
        cases run
      · rw [if_neg hkey] at run
        obtain ⟨found, s₁, hfound, run⟩ := Action.bind_ok_iff.mp run
        rw [Action.attempt_run, Prod.mk.injEq, Except.ok.injEq] at hfound
        cases found with
        | error e => cases run
        | ok found =>
            cases found with
            | none => cases run
            | some agent =>
                obtain ⟨row, hrow, hhash, hactive, hid⟩ :=
                  getAgentByClientKeyHash_found (Prod.ext hfound.1 rfl)
                have hnonempty : presentedKey req ≠ "" := by
                  intro hempty
                  rw [hempty] at hkey
                  exact hkey rfl
                have hnext : next (some agent.id) s₁ = (.ok a, finish) := next_of_ok run
                rw [hid] at hnext
                exact ⟨some row.id, s₁, .agent hpath hagent hnonempty hrow hhash hactive, hnext⟩
    · rw [if_neg hagent] at run
      exact ⟨none, s, .free hpath (Bool.eq_false_iff.mpr hagent), next_of_ok run⟩

end

end Patroclus
