import Patroclus.Sdk.Client

/-!
# The enforcement points of the Python SDK

A decorator and a middleware put an access request before a function of the agent. Each ends
in an exception, or in the call that it makes of the function.
-/

namespace Patroclus

open Foundation

namespace Sdk

/-- What a Python call passes: the caller's own objects, and what the SDK adds to them. -/
inductive Argument (α : Type) where
  | object (x : α)
  | json (value : Json)

structure Call (α : Type) where
  args : List (Argument α)
  kwargs : List (String × Argument α)

/-- A callable, with the names of its code object's variables if it has one. -/
structure PyCallable where
  typeName : String
  coVarnames : Option (List String)

/-- `name in func.__code__.co_varnames` -/
def PyCallable.declares (func : PyCallable) (name : String) : Except PyException Bool :=
  match func.coVarnames with
  | some names => .ok (names.contains name)
  | none => .error (.attributeError func.typeName "__code__")

section

variable {α : Type} (str : Argument α → String)

/-- `kwargs[key] = value` -/
def setItem (key : String) (value : Argument α) :
    List (String × Argument α) → List (String × Argument α)
  | [] => [(key, value)]
  | (k, v) :: rest => if k = key then (k, value) :: rest else (k, v) :: setItem key value rest

/-- The refusals that both enforcement points test for; `approvalWords` begin the message of
the second. -/
def AccessResult.enforce (approvalWords action resource : String) (result : AccessResult) :
    Except PyException Unit :=
  if result.denied then
    .error (.permissionError ("Patroclus denied " ++ action ++ " on " ++ resource ++ ": " ++
      str (.json result.reason)))
  else if result.requiresApproval then
    .error (.permissionError (approvalWords ++ " for " ++ action ++ " on " ++ resource ++
      ": request_id=" ++ str (.json result.approvalRequestId)))
  else .ok ()

/-- The token is passed to a function that has a variable for it. -/
def passToken (func : PyCallable) (result : AccessResult) (kwargs : List (String × Argument α)) :
    Except PyException (List (String × Argument α)) := do
  if ← func.declares "patroclus_token" then
    return setItem "patroclus_token" (.json result.token) kwargs
  else return kwargs

/-- The agent of a decorated call: the keyword, or else the first argument. -/
def wrappedAgent (args : List (Argument α)) (agentId : Option String) : Option String :=
  if agentId = none then args.head?.map str else agentId

/-- The request of a decorated call. -/
def wrappedRequest (action resource : String) (scopes : Option (List String))
    (sessionId : Option String) (args : List (Argument α)) (agentId : Option String) :
    AccessRequest where
  agentId := (given (wrappedAgent str args agentId)).getD "unknown"
  action := action
  resource := resource
  scopes := some (scopes.getD [])
  sessionId := sessionId
  delegationToken := none

/-- A call of a function that `authorized_action` has wrapped. -/
def authorizedAction (client : PatroclusClient) (action resource : String)
    (scopes : Option (List String)) (sessionId : Option String) (func : PyCallable)
    (args : List (Argument α)) (agentId : Option String) (kwargs : List (String × Argument α)) :
    Except PyException (Call α) := do
  let result ← client.requestAccess
    (wrappedRequest str action resource scopes sessionId args agentId)
  result.enforce str "Patroclus requires approval" action resource
  let kwargs ← passToken func result kwargs
  if (← func.declares "agent_id") && (kwargs.lookup "agent_id").isNone && args.isEmpty then
    let agent := (given (wrappedAgent str args agentId)).getD "unknown"
    return ⟨args, setItem "agent_id" (.json (.string agent)) kwargs⟩
  else return ⟨args, kwargs⟩

structure PatroclusMiddleware where
  client : PatroclusClient
  agentId : String
  sessionId : Option String
  delegationToken : Option String
  tokens : List AccessResult

namespace PatroclusMiddleware

def accessRequest (mw : PatroclusMiddleware) (action resource : String)
    (scopes : Option (List String)) : AccessRequest where
  agentId := mw.agentId
  action := action
  resource := resource
  scopes := scopes
  sessionId := mw.sessionId
  delegationToken := mw.delegationToken

/-- The token, and the middleware with the result that it came from. -/
def getToken (mw : PatroclusMiddleware) (action resource : String)
    (scopes : Option (List String)) : Except PyException (Json × PatroclusMiddleware) := do
  let result ← mw.client.requestAccess (mw.accessRequest action resource scopes)
  if result.allowed then return (result.token, { mw with tokens := mw.tokens ++ [result] })
  else return (.null, mw)

def execute (mw : PatroclusMiddleware) (action resource : String)
    (scopes : Option (List String)) (func : PyCallable) (args : List (Argument α))
    (kwargs : List (String × Argument α)) : Except PyException (Call α) := do
  let result ← mw.client.requestAccess (mw.accessRequest action resource scopes)
  result.enforce str "Approval required" action resource
  let kwargs ← passToken func result kwargs
  return ⟨args, kwargs⟩

end PatroclusMiddleware

/-! ## When the function is called -/

variable {str} {approvalWords action resource : String} {scopes : Option (List String)}
  {result : AccessResult} {func : PyCallable} {args : List (Argument α)}
  {kwargs kwargs' : List (String × Argument α)}

theorem enforce_eq_ok : result.enforce str approvalWords action resource = .ok () ↔
    result.denied = false ∧ result.requiresApproval = false := by
  rw [AccessResult.enforce]
  cases result.denied with
  | true => simp
  | false => cases result.requiresApproval <;> simp

theorem declares_isOk {name : String} : (∃ found, func.declares name = .ok found) ↔
    func.coVarnames.isSome = true := by
  rw [PyCallable.declares]
  cases func.coVarnames with
  | none => simp
  | some names => simp

theorem passToken_isOk : (∃ passed, passToken func result kwargs = .ok passed) ↔
    func.coVarnames.isSome = true := by
  have hdeclares : (∃ found, func.declares "patroclus_token" = .ok found) ↔
      func.coVarnames.isSome = true := declares_isOk
  rw [← hdeclares]
  constructor
  · rintro ⟨passed, h⟩
    obtain ⟨found, hfound, -⟩ := Outcome.bind_eq_ok.mp h
    exact ⟨found, hfound⟩
  · rintro ⟨found, hfound⟩
    cases found with
    | true => exact ⟨_, Outcome.bind_eq_ok.mpr ⟨true, hfound, rfl⟩⟩
    | false => exact ⟨kwargs, Outcome.bind_eq_ok.mpr ⟨false, hfound, rfl⟩⟩

/-- A result that neither enforcement point takes for a refusal. -/
structure AccessResult.Passes (result : AccessResult) (func : PyCallable) : Prop where
  notDenied : result.denied = false
  noApproval : result.requiresApproval = false
  code : func.coVarnames.isSome = true

/-- Between its request and its call an enforcement point stops only what does not pass. -/
theorem guarded_isOk {request : Except PyException AccessResult}
    {next : List (String × Argument α) → Except PyException (Call α)}
    (returns : func.coVarnames.isSome = true → ∀ passed, ∃ call, next passed = .ok call) :
    (∃ call, (do
        let result ← request
        result.enforce str approvalWords action resource
        let passed ← passToken func result kwargs
        next passed) = .ok call) ↔
      ∃ result, request = .ok result ∧ result.Passes func := by
  constructor
  · rintro ⟨call, h⟩
    obtain ⟨result, hresult, h⟩ := Outcome.bind_eq_ok.mp h
    obtain ⟨_, henforce, h⟩ := Outcome.bind_eq_ok.mp h
    obtain ⟨passed, hpassed, -⟩ := Outcome.bind_eq_ok.mp h
    obtain ⟨hdenied, happroval⟩ := enforce_eq_ok.mp henforce
    exact ⟨result, hresult, hdenied, happroval, passToken_isOk.mp ⟨passed, hpassed⟩⟩
  · rintro ⟨result, hresult, hpasses⟩
    have henforce : result.enforce str approvalWords action resource = .ok () :=
      enforce_eq_ok.mpr ⟨hpasses.notDenied, hpasses.noApproval⟩
    have hpass : ∃ passed, passToken func result kwargs = .ok passed :=
      passToken_isOk.mpr hpasses.code
    obtain ⟨passed, hpassed⟩ := hpass
    obtain ⟨call, hcall⟩ := returns hpasses.code passed
    refine ⟨call, Outcome.bind_eq_ok.mpr ⟨result, hresult, ?_⟩⟩
    refine Outcome.bind_eq_ok.mpr ⟨(), henforce, ?_⟩
    exact Outcome.bind_eq_ok.mpr ⟨passed, hpassed, hcall⟩

theorem authorizedAction_isOk {client : PatroclusClient} {sessionId agentId : Option String} :
    (∃ call, authorizedAction str client action resource scopes sessionId func args agentId
        kwargs = .ok call) ↔
      ∃ result, client.requestAccess
          (wrappedRequest str action resource scopes sessionId args agentId) = .ok result ∧
        result.Passes func := by
  apply guarded_isOk
  intro hcode passed
  have hdeclares : ∃ found, func.declares "agent_id" = .ok found := declares_isOk.mpr hcode
  obtain ⟨found, hfound⟩ := hdeclares
  rw [hfound]
  dsimp only [bind, Except.bind]
  split
  · exact ⟨_, rfl⟩
  · exact ⟨_, rfl⟩

theorem execute_isOk {mw : PatroclusMiddleware} :
    (∃ call, mw.execute str action resource scopes func args kwargs = .ok call) ↔
      ∃ result, mw.client.requestAccess (mw.accessRequest action resource scopes) = .ok result ∧
        result.Passes func := by
  apply guarded_isOk
  intro _ passed
  exact ⟨⟨args, passed⟩, rfl⟩

end

end Sdk

end Patroclus
