import Patroclus.Sdk.Decorators

/-!
# Failing closed

The enforcement points of the SDK test an answer for the two refusals that they know. The
decision of an answer is any JSON value, so an answer with another one passes both tests and
the function is called, where `get_token` would have found no permission.
-/

namespace Patroclus

open Foundation

namespace Sdk

variable {α : Type}

/-- The server has answered 200, with an object whose decision is exactly `"allow"`. -/
def Permits (answer : Except PyException Response) : Prop :=
  ∃ fields, Answered answer fields ∧ fields.lookup "decision" = some (.string "allow")

/-- The function is called only with a permission, and without one there is an exception. -/
structure FailsClosed (answer : Except PyException Response)
    (outcome : Except PyException (Call α)) : Prop where
  called : ∀ call, outcome = .ok call → Permits answer
  raised : ¬ Permits answer → ∃ e, outcome = .error e

/-- A decision is given, and it is none of those that the SDK knows. -/
def UnknownDecision (fields : List (String × Json)) : Prop :=
  ∃ decision, fields.lookup "decision" = some decision ∧
    decision ∉ [.string "allow", .string "deny", .string "require_approval"]

/-- An answer that raises nothing on its way and decides what the SDK does not know, before a
function that can be asked for its variables. -/
def PassesUnnoticed (answer : Except PyException Response) (func : PyCallable) : Prop :=
  ∃ fields, Answered answer fields ∧ UnknownDecision fields ∧ ReadableParts fields ∧
    func.coVarnames.isSome = true

section

variable {client : PatroclusClient} {request : AccessRequest} {func : PyCallable}
  {fields : List (String × Json)}

theorem decisionOf_eq_allow : decisionOf fields = .string "allow" ↔
    fields.lookup "decision" = some (.string "allow") := by
  rw [decisionOf]
  cases fields.lookup "decision" with
  | none => simp
  | some decision => simp

/-- What an unknown decision is not, and what is left when it is none of these. -/
theorem unknownDecision_iff : UnknownDecision fields ↔
    decisionOf fields ≠ .string "allow" ∧ decisionOf fields ≠ .string "deny" ∧
      decisionOf fields ≠ .string "require_approval" := by
  rw [UnknownDecision, decisionOf]
  cases fields.lookup "decision" with
  | none => simp
  | some decision => simp

/-- The answers after which a function is called. -/
theorem passes_iff :
    (∃ result, client.requestAccess request = .ok result ∧ result.Passes func) ↔
      ∃ fields, Answered (client.answer request) fields ∧ ReadableParts fields ∧
        decisionOf fields ≠ .string "deny" ∧ decisionOf fields ≠ .string "require_approval" ∧
        func.coVarnames.isSome = true := by
  constructor
  · rintro ⟨result, hresult, hpasses⟩
    obtain hdenied | ⟨fields, hanswered, hparts, hdecision⟩ := requestAccess_eq_ok hresult
    · rw [hpasses.notDenied] at hdenied
      cases hdenied
    · refine ⟨fields, hanswered, hparts, ?_, ?_, hpasses.code⟩
      · rw [← hdecision]
        exact beq_eq_false_iff_ne.mp hpasses.notDenied
      · rw [← hdecision]
        exact beq_eq_false_iff_ne.mp hpasses.noApproval
  · rintro ⟨fields, hanswered, hparts, hdeny, happroval, hcode⟩
    obtain ⟨result, hresult, hdecision⟩ := requestAccess_of_answered hanswered hparts
    rw [← hdecision] at hdeny happroval
    exact ⟨result, hresult, beq_eq_false_iff_ne.mpr hdeny, beq_eq_false_iff_ne.mpr happroval,
      hcode⟩

/-- An enforcement point that calls its function after every result that passes. -/
theorem failsClosed_iff {outcome : Except PyException (Call α)}
    (calls : (∃ call, outcome = .ok call) ↔
      ∃ result, client.requestAccess request = .ok result ∧ result.Passes func) :
    FailsClosed (client.answer request) outcome ↔
      ¬ PassesUnnoticed (client.answer request) func := by
  constructor
  · rintro h ⟨fields, hanswered, hunknown, hparts, hcode⟩
    obtain ⟨hallow, hdeny, happroval⟩ := unknownDecision_iff.mp hunknown
    obtain ⟨call, hcall⟩ := calls.mpr (passes_iff.mpr
      ⟨fields, hanswered, hparts, hdeny, happroval, hcode⟩)
    obtain ⟨fields', hanswered', hlookup⟩ := h.called call hcall
    obtain rfl := hanswered.unique hanswered'
    exact hallow (decisionOf_eq_allow.mpr hlookup)
  · intro hnoticed
    have hcalled : ∀ call, outcome = .ok call → Permits (client.answer request) := by
      intro call hcall
      obtain ⟨fields, hanswered, hparts, hdeny, happroval, hcode⟩ :=
        passes_iff.mp (calls.mp ⟨call, hcall⟩)
      by_cases hallow : decisionOf fields = .string "allow"
      · exact ⟨fields, hanswered, decisionOf_eq_allow.mp hallow⟩
      · exact absurd ⟨fields, hanswered, unknownDecision_iff.mpr ⟨hallow, hdeny, happroval⟩,
          hparts, hcode⟩ hnoticed
    refine ⟨hcalled, fun hforbidden => ?_⟩
    cases outcome with
    | error e => exact ⟨e, rfl⟩
    | ok call => exact absurd (hcalled call rfl) hforbidden

/-- The sibling path asks for the permission itself. -/
theorem getToken_permits {mw mw' : PatroclusMiddleware} {action resource : String}
    {scopes : Option (List String)} {token : Json}
    (h : mw.getToken action resource scopes = .ok (token, mw')) (given : token ≠ .null) :
    Permits (mw.client.answer (mw.accessRequest action resource scopes)) := by
  obtain ⟨result, hresult, h⟩ := Outcome.bind_eq_ok.mp h
  split at h
  · rename_i hallowed
    have hallow : result.decision = .string "allow" := beq_iff_eq.mp hallowed
    obtain hdenied | ⟨fields, hanswered, -, hdecision⟩ := requestAccess_eq_ok hresult
    · rw [AccessResult.denied, hallow] at hdenied
      exact absurd hdenied (by decide)
    · rw [hdecision] at hallow
      exact ⟨fields, hanswered, decisionOf_eq_allow.mp hallow⟩
  · cases h
    exact absurd rfl given

end

/-- Both enforcement points fail closed on exactly the answers whose decision is one that the
SDK knows, and on those that raise an exception before it is looked at; their sibling fails
closed on all (`getToken_permits`). -/
theorem enforcementPoints_failClosed_iff (str : Argument α → String) (client : PatroclusClient)
    (mw : PatroclusMiddleware) (action resource : String) (scopes : Option (List String))
    (sessionId : Option String) (func : PyCallable) (args : List (Argument α))
    (agentId : Option String) (kwargs : List (String × Argument α)) :
    (FailsClosed
        (client.answer (wrappedRequest str action resource scopes sessionId args agentId))
        (authorizedAction str client action resource scopes sessionId func args agentId kwargs) ↔
      ¬ PassesUnnoticed
        (client.answer (wrappedRequest str action resource scopes sessionId args agentId))
        func) ∧
    (FailsClosed (mw.client.answer (mw.accessRequest action resource scopes))
        (mw.execute str action resource scopes func args kwargs) ↔
      ¬ PassesUnnoticed (mw.client.answer (mw.accessRequest action resource scopes)) func) :=
  ⟨failsClosed_iff authorizedAction_isOk, failsClosed_iff execute_isOk⟩

/-- A server that answers 200 with one object to every request. -/
def answering (fields : List (String × Json)) : PatroclusClient where
  post _ _ := .ok ⟨200, "", .ok (.object fields)⟩

/-- A decision in capitals is no refusal to the decorator. -/
theorem not_enforcementPoints_failClosed : ¬ ∀ (α : Type) (str : Argument α → String)
    (client : PatroclusClient) (mw : PatroclusMiddleware) (action resource : String)
    (scopes : Option (List String)) (sessionId : Option String) (func : PyCallable)
    (args : List (Argument α)) (agentId : Option String) (kwargs : List (String × Argument α)),
    FailsClosed
      (client.answer (wrappedRequest str action resource scopes sessionId args agentId))
      (authorizedAction str client action resource scopes sessionId func args agentId kwargs) ∧
    FailsClosed (mw.client.answer (mw.accessRequest action resource scopes))
      (mw.execute str action resource scopes func args kwargs) := by
  intro h
  let client := answering [("decision", .string "DENY")]
  have hclosed := (h Unit (fun _ => "") client ⟨client, "agent", none, none, []⟩ "delete"
    "prod-db" none none ⟨"function", some ["agent_id"]⟩ [] (some "agent") []).1
  obtain ⟨fields, hanswered, hlookup⟩ := hclosed.called
    ⟨[], [("agent_id", .json (.string "agent"))]⟩ rfl
  obtain rfl := hanswered.unique ⟨_, rfl, rfl, rfl⟩
  exact absurd hlookup (by decide)

end Sdk

end Patroclus
