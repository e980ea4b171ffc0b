import Bblib.Beast
import Bblib.WsSession
import Mathlib.Tactic

/-!
# Calls into a `BinanceBeast`

The member functions that talk to the user through a `WebSocketResponseHandler`
run in `Api`: they change the object, create sessions, invoke handlers and may
throw, and what they did before they threw stays done.
-/

namespace Bblib

structure WsToken where
  id : TokenId

def WsToken.isValidId (token : WsToken) : Bool := token.id != 0

/-- A session, the context it was made for and what its `run` did. -/
structure StartedWsSession where
  ioContext : ℕ
  session : WsSession
  effects : List WsEffect

structure ApiState where
  beast : BinanceBeast
  sessions : List StartedWsSession
  calls : List (ℕ × WsResponse)

abbrev Api := ExceptT Exn (StateM ApiState)

namespace Api

/-- What a call ends with, and the state it leaves. -/
def outcome {α : Type} (call : Api α) (s : ApiState) :
    Except Exn α × ApiState :=
  (ExceptT.run call).run s

variable {α β : Type}

@[simp] theorem outcome_pure (a : α) (s : ApiState) :
    (pure a : Api α).outcome s = (.ok a, s) := rfl

@[simp] theorem outcome_throw (e : Exn) (s : ApiState) :
    (throw e : Api α).outcome s = (.error e, s) := rfl

@[simp] theorem outcome_get (s : ApiState) :
    (get : Api ApiState).outcome s = (.ok s, s) := rfl

@[simp] theorem outcome_set (next s : ApiState) :
    (set next : Api PUnit).outcome s = (.ok ⟨⟩, next) := rfl

@[simp] theorem outcome_modify (f : ApiState → ApiState) (s : ApiState) :
    (modify f : Api PUnit).outcome s = (.ok ⟨⟩, f s) := rfl

theorem outcome_bind (call : Api α) (next : α → Api β) (s : ApiState) :
    (call >>= next).outcome s =
      match call.outcome s with
      | (.ok a, t) => (next a).outcome t
      | (.error e, t) => (.error e, t) := by
  unfold outcome
  simp only [ExceptT.run_bind, StateT.run_bind]
  generalize (ExceptT.run call).run s = ended
  obtain ⟨result, t⟩ := ended
  cases result with
  | ok a => rfl
  | error e => rfl

theorem outcome_get_bind (next : ApiState → Api α) (s : ApiState) :
    (get >>= next).outcome s = (next s).outcome s := by
  rw [outcome_bind, outcome_get]

theorem outcome_bind_ite (call : Api Bool) (yes no : Api α) (s : ApiState) :
    (do if ← call then yes else no : Api α).outcome s =
      match call.outcome s with
      | (.ok true, t) => yes.outcome t
      | (.ok false, t) => no.outcome t
      | (.error e, t) => (.error e, t) := by
  rw [outcome_bind]
  generalize call.outcome s = ended
  obtain ⟨result, t⟩ := ended
  cases result with
  | error e => rfl
  | ok decided =>
      cases decided with
      | true => rfl
      | false => rfl

/-- What holds after a call holds after both calls it decides between, if they
keep it. -/
theorem outcome_bind_ite_keeps {P : ApiState → Prop} {call : Api Bool}
    {yes no : Api α} {s : ApiState} (hcall : P (call.outcome s).2)
    (hyes : ∀ t, P t → P (yes.outcome t).2)
    (hno : ∀ t, P t → P (no.outcome t).2) :
    P ((do if ← call then yes else no : Api α).outcome s).2 := by
  rw [outcome_bind_ite]
  generalize call.outcome s = ended at hcall
  obtain ⟨result, t⟩ := ended
  cases result with
  | error e => exact hcall
  | ok decided =>
      cases decided with
      | true => exact hyes t hcall
      | false => exact hno t hcall

end Api

/-! ## Translated states -/

/-- The call does the same in a translated state. -/
def Api.Commutes {α : Type} (g : ApiState → ApiState) (call : Api α) : Prop :=
  ∀ s, call.outcome (g s) = ((call.outcome s).1, g (call.outcome s).2)

section Commutes

variable {α β : Type} {g : ApiState → ApiState}

theorem Api.Commutes.bind {call : Api α} {next : α → Api β}
    (hcall : Api.Commutes g call) (hnext : ∀ a, Api.Commutes g (next a)) :
    Api.Commutes g (call >>= next) := by
  intro s
  rw [Api.outcome_bind, Api.outcome_bind, hcall s]
  generalize call.outcome s = ended
  obtain ⟨result, t⟩ := ended
  cases result with
  | ok a => exact hnext a t
  | error e => rfl

theorem Api.Commutes.get_bind {next : ApiState → Api α}
    (hnext : ∀ s, (next (g s)).outcome (g s) =
      (((next s).outcome s).1, g ((next s).outcome s).2)) :
    Api.Commutes g (get >>= next) := by
  intro s
  rw [Api.outcome_get_bind, Api.outcome_get_bind]
  exact hnext s

theorem Api.Commutes.pure (a : α) : Api.Commutes g (Pure.pure a : Api α) :=
  fun _ => rfl

end Commutes

/-- Calling a `std::function`; a null one throws. -/
def invoke (callback : Callback) (response : WsResponse) : Api Unit :=
  match callback with
  | none => throw .badFunctionCall
  | some f => modify fun s => { s with calls := s.calls ++ [(f, response)] }

/-- The direct calls of a `fail` overload that has no pool. -/
def invokeAll (effects : List (Effect WsResponse Empty)) : Api Unit :=
  effects.forM fun
    | .call callback response => invoke callback response
    | _ => pure ()

def createWsSession (host path : Str) (handler : Callback) : Api WsToken := do
  if handler.isNone then
    throw (.runtimeError (ascii "callback is null"))
  let s ← get
  let (ioContext, beast) := s.beast.getWsIoContext
  let session : WsSession :=
    { host := [], path := [], callback := handler, buffer := [] }
  let pointer := s.sessions.length
  let wsid := beast.nextWsId
  let (session, effects) := session.run host beast.config.wsPort path
  set ({ s with
    beast := { beast with
      nextWsId := wsid + 1
      wsSessions := beast.wsSessions.assign wsid pointer }
    sessions := s.sessions ++ [⟨ioContext, session, effects⟩] } : ApiState)
  return ⟨wsid⟩

/-! ## The overloads of `startWebSocket` -/

/-- A `std::set<string>`, in the order its iteration meets the elements. -/
structure StringSet where
  elements : List Str
  sorted : elements.Pairwise (· < ·)

/-- The loop over the streams of a combined stream. -/
def writeStreams (streams : List Str) : Str :=
  streams.foldl (fun target stream => target ++ (stream ++ ascii "/")) []

def startWebSocket (handler : Callback) (streamName : Str) : Api WsToken := do
  let s ← get
  createWsSession s.beast.config.wsApiUri (ascii "/ws/" ++ streamName) handler

def startWebSocketVector (handler : Callback) (streams : List Str) :
    Api WsToken := do
  let s ← get
  createWsSession s.beast.config.wsApiUri
    (ascii "/stream?streams=" ++ writeStreams streams) handler

def startWebSocketSet (handler : Callback) (streams : StringSet) :
    Api WsToken := do
  let s ← get
  createWsSession s.beast.config.wsApiUri
    (ascii "/stream?streams=" ++ writeStreams streams.elements) handler

@[simp] theorem outcome_invoke_some (f : ℕ) (response : WsResponse)
    (s : ApiState) :
    (invoke (some f) response).outcome s =
      (.ok (), { s with calls := s.calls ++ [(f, response)] }) := rfl

@[simp] theorem outcome_invoke_none (response : WsResponse) (s : ApiState) :
    (invoke none response).outcome s = (.error .badFunctionCall, s) := rfl

theorem invoke_beast (callback : Callback) (response : WsResponse)
    (s : ApiState) :
    ((invoke callback response).outcome s).2.beast = s.beast := by
  cases callback with
  | none => rfl
  | some f => rfl

theorem outcome_invokeAll_fail (callback : Callback) (reason : Str)
    (s : ApiState) :
    (invokeAll (failWhat reason callback)).outcome s =
      (.ok (), { s with
        calls := s.calls ++
          (callback.map fun f => (f, WsResponse.ofReason reason)).toList }) := by
  cases callback with
  | none => simp [failWhat, invokeAll]
  | some f => rfl

theorem createWsSession_calls (host path : Str) (handler : Callback)
    (s : ApiState) :
    ((createWsSession host path handler).outcome s).2.calls = s.calls := by
  cases handler with
  | none => rfl
  | some f => rfl

theorem createWsSession_listenKey (host path : Str) (handler : Callback)
    (s : ApiState) :
    ((createWsSession host path handler).outcome s).2.beast.listenKey =
      s.beast.listenKey := by
  cases handler with
  | none => rfl
  | some f => rfl

end Bblib
