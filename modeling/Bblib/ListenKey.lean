import Bblib.WsSessions
import Mathlib.Tactic

/-!
# The listen key of the user data stream

`startUserData`, `renewListenKey` and `closeUserData` make a synchronous
exchange each, and `amendUserDataListenKey` reads the response for all three.
Its return value says whether a key is stored, not whether the request was
accepted.
-/

namespace Bblib

open LabelledRuns

inductive UserDataStreamMode where
  | create
  | extend
  | close
  deriving DecidableEq

def UserDataStreamMode.requestVerb : UserDataStreamMode → Verb
  | .create => .post
  | .extend => .put
  | .close => .delete

/-- The synchronous exchange with a host and port: the response, or the error
code of the operation that threw. -/
abbrev Exchange := Str → Str → HttpRequest → Except ErrorCode HttpResponse

def BinanceBeast.listenKeyRequest (beast : BinanceBeast)
    (mode : UserDataStreamMode) (streamName : Str) : HttpRequest where
  version := 11
  method := mode.requestVerb
  target := streamName
  host := beast.config.restApiUri
  userAgent := userAgent
  apiKey := beast.config.keys.api

def setListenKey (key : Str) : Api Unit :=
  modify fun s => { s with beast := { s.beast with listenKey := key } }

def orThrow {α : Type} (accessed : Option α) : Api α :=
  match accessed with
  | some a => pure a
  | none => throw .jsonAccess

/-- The end of `amendUserDataListenKey`, which looks at the response. -/
def readListenKeyResponse (boost : Boost) (handler : Callback)
    (mode : UserDataStreamMode) (res : HttpResponse) : Api Unit := do
  if res.isJson then
    match boost.parse res.body with
    | .error ec =>
        invokeAll
          (failOnThread boost ec "amendUserDataListenKey(): json read" handler)
    | .ok value =>
        let object ← orThrow value.asObject
        if (object.ifContains (ascii "code")).isSome then
          let msg ← orThrow (object.index (ascii "msg")).1.valueToString
          invokeAll (failWhat
            (ascii "amendUserDataListenKey(): json contains error code from Binance: "
              ++ msg) handler)
        else if mode = .create then
          let key ← orThrow (object.index (ascii "listenKey")).1.valueToString
          setListenKey key
  else
    invokeAll
      (failWhat (ascii "amendUserDataListenKey(): content not json") handler)

def amendUserDataListenKey (boost : Boost) (exchange : Exchange)
    (handler : Callback) (mode : UserDataStreamMode) (streamName : Str) :
    Api Bool := do
  let s ← get
  match exchange s.beast.config.restApiUri (ascii "443")
      (s.beast.listenKeyRequest mode streamName) with
  | .error ec => throw (.systemError ec)
  | .ok res =>
      if mode = .create then
        setListenKey []
      readListenKeyResponse boost handler mode res
      let s ← get
      return !s.beast.listenKey.isEmpty

def startUserData (boost : Boost) (exchange : Exchange) (handler : Callback)
    (stream : Str) : Api WsToken := do
  if ← amendUserDataListenKey boost exchange handler .create stream then
    let s ← get
    createWsSession s.beast.config.wsApiUri
      (ascii "/ws/" ++ s.beast.listenKey) handler
  else
    return ⟨0⟩

def renewListenKey (boost : Boost) (exchange : Exchange) (handler : Callback)
    (stream : Str) : Api Unit := do
  if ← amendUserDataListenKey boost exchange handler .extend stream then
    invoke handler (.ofState .success)
  else
    invoke handler (.ofReason (ascii "Failed to renew listen key"))

def closeUserData (boost : Boost) (exchange : Exchange) (handler : Callback)
    (stream : Str) : Api Unit := do
  if ← amendUserDataListenKey boost exchange handler .close stream then
    setListenKey []
    invoke handler (.ofState .success)
  else
    invoke handler (.ofReason (ascii "Failed to close listen key"))

/-! ## What a response means -/

/-- A response is accepted, is rejected for a reason, or makes an accessor of
the JSON value throw. -/
inductive ListenKeyReply where
  | accepted (object : JsonObject)
  | rejected (reason : Str)
  | malformed

def HttpResponse.listenKeyReply (boost : Boost) (res : HttpResponse) :
    ListenKeyReply :=
  if res.isJson then
    match boost.parse res.body with
    | .error ec =>
        .rejected (ascii "amendUserDataListenKey(): json read" ++ ascii " " ++
          boost.message ec)
    | .ok value =>
        match value.asObject with
        | none => .malformed
        | some object =>
            if (object.ifContains (ascii "code")).isSome then
              match (object.index (ascii "msg")).1.valueToString with
              | none => .malformed
              | some msg => .rejected
                  (ascii "amendUserDataListenKey(): json contains error code from Binance: "
                    ++ msg)
            else .accepted object
  else .rejected (ascii "amendUserDataListenKey(): content not json")

def ApiState.withKey (s : ApiState) (key : Str) : ApiState :=
  { s with beast := { s.beast with listenKey := key } }

def ApiState.reported (s : ApiState) (handler : Callback) (reason : Str) :
    ApiState :=
  { s with calls := s.calls ++
      (handler.map fun f => (f, WsResponse.ofReason reason)).toList }

@[simp] theorem ApiState.withKey_listenKey (s : ApiState) (key : Str) :
    (s.withKey key).beast.listenKey = key := rfl

@[simp] theorem ApiState.withKey_calls (s : ApiState) (key : Str) :
    (s.withKey key).calls = s.calls := rfl

@[simp] theorem ApiState.reported_listenKey (s : ApiState)
    (handler : Callback) (reason : Str) :
    (s.reported handler reason).beast.listenKey = s.beast.listenKey := rfl

@[simp] theorem ApiState.reported_calls (s : ApiState) (f : ℕ) (reason : Str) :
    (s.reported (some f) reason).calls =
      s.calls ++ [(f, WsResponse.ofReason reason)] := rfl

@[simp] theorem outcome_setListenKey (key : Str) (s : ApiState) :
    (setListenKey key).outcome s = (.ok (), s.withKey key) := rfl

@[simp] theorem outcome_failWhat (handler : Callback) (reason : Str)
    (s : ApiState) :
    (invokeAll (failWhat reason handler)).outcome s =
      (.ok (), s.reported handler reason) :=
  outcome_invokeAll_fail handler reason s

@[simp] theorem outcome_failOnThread (boost : Boost) (ec : ErrorCode)
    (what : String) (handler : Callback) (s : ApiState) :
    (invokeAll (failOnThread boost ec what handler)).outcome s =
      (.ok (), s.reported handler
        (ascii what ++ ascii " " ++ boost.message ec)) :=
  outcome_invokeAll_fail handler _ s

@[simp] theorem outcome_orThrow_none {α : Type} (s : ApiState) :
    (orThrow (none : Option α)).outcome s = (.error .jsonAccess, s) := rfl

@[simp] theorem outcome_orThrow_some {α : Type} (a : α) (s : ApiState) :
    (orThrow (some a)).outcome s = (.ok a, s) := rfl

/-- The stored key after an accepted reply, or the exception that ends a
Create reply without one. -/
def acceptReply (mode : UserDataStreamMode) (object : JsonObject)
    (s : ApiState) : Except Exn Unit × ApiState :=
  if mode = .create then
    match (object.index (ascii "listenKey")).1.valueToString with
    | none => (.error .jsonAccess, s)
    | some key => (.ok (), s.withKey key)
  else (.ok (), s)

theorem readListenKeyResponse_outcome (boost : Boost) (handler : Callback)
    (mode : UserDataStreamMode) (res : HttpResponse) (s : ApiState) :
    (readListenKeyResponse boost handler mode res).outcome s =
      match res.listenKeyReply boost with
      | .accepted object => acceptReply mode object s
      | .rejected reason => (.ok (), s.reported handler reason)
      | .malformed => (.error .jsonAccess, s) := by
  unfold readListenKeyResponse HttpResponse.listenKeyReply acceptReply
  split
  · cases boost.parse res.body with
    | error ec => simp
    | ok value =>
        cases hobject : value.asObject with
        | none => simp [Api.outcome_bind, hobject]
        | some object =>
            simp only [hobject, Api.outcome_bind, outcome_orThrow_some]
            by_cases hcode : (object.ifContains (ascii "code")).isSome = true
            · simp only [hcode, if_true, Api.outcome_bind]
              cases (object.index (ascii "msg")).1.valueToString with
              | none => simp
              | some msg => simp
            · rw [Bool.not_eq_true] at hcode
              simp only [hcode, Bool.false_eq_true, if_false]
              by_cases hmode : mode = .create
              · simp only [hmode, if_true, Api.outcome_bind]
                cases (object.index (ascii "listenKey")).1.valueToString with
                | none => rfl
                | some key => rfl
              · simp [hmode]
  · simp

/-- The state in which the response of a mode is read. -/
def ApiState.beforeReply (s : ApiState) (mode : UserDataStreamMode) :
    ApiState :=
  if mode = .create then s.withKey [] else s

theorem amendUserDataListenKey_error {boost : Boost} {exchange : Exchange}
    {handler : Callback} {mode : UserDataStreamMode} {streamName : Str}
    {s : ApiState} {ec : ErrorCode}
    (hexchange : exchange s.beast.config.restApiUri (ascii "443")
      (s.beast.listenKeyRequest mode streamName) = .error ec) :
    (amendUserDataListenKey boost exchange handler mode streamName).outcome s =
      (.error (.systemError ec), s) := by
  simp [amendUserDataListenKey, Api.outcome_bind, hexchange]

theorem amendUserDataListenKey_ok {boost : Boost} {exchange : Exchange}
    {handler : Callback} {mode : UserDataStreamMode} {streamName : Str}
    {s : ApiState} {res : HttpResponse}
    (hexchange : exchange s.beast.config.restApiUri (ascii "443")
      (s.beast.listenKeyRequest mode streamName) = .ok res) :
    (amendUserDataListenKey boost exchange handler mode streamName).outcome s =
      match (readListenKeyResponse boost handler mode res).outcome
        (s.beforeReply mode) with
      | (.ok (), t) => (.ok (!t.beast.listenKey.isEmpty), t)
      | (.error e, t) => (.error e, t) := by
  have hread : ∀ t : ApiState,
      (readListenKeyResponse boost handler mode res >>= fun _ => do
        let s ← get
        return !s.beast.listenKey.isEmpty : Api Bool).outcome t =
      match (readListenKeyResponse boost handler mode res).outcome t with
      | (.ok (), t) => (.ok (!t.beast.listenKey.isEmpty), t)
      | (.error e, t) => (.error e, t) := by
    intro t
    rw [Api.outcome_bind]
    generalize (readListenKeyResponse boost handler mode res).outcome t = read
    obtain ⟨result, t⟩ := read
    cases result with
    | ok a => rfl
    | error e => rfl
  unfold amendUserDataListenKey ApiState.beforeReply
  rw [Api.outcome_bind, Api.outcome_get]
  simp only [hexchange]
  by_cases hmode : mode = .create
  · rw [if_pos hmode, if_pos hmode, Api.outcome_bind, outcome_setListenKey]
    exact hread (s.withKey [])
  · rw [if_neg hmode, if_neg hmode]
    exact hread s

theorem amendUserDataListenKey_state {boost : Boost} {exchange : Exchange}
    {handler : Callback} {mode : UserDataStreamMode} {streamName : Str}
    {s : ApiState} {res : HttpResponse}
    (hexchange : exchange s.beast.config.restApiUri (ascii "443")
      (s.beast.listenKeyRequest mode streamName) = .ok res) :
    ((amendUserDataListenKey boost exchange handler mode
      streamName).outcome s).2 =
      ((readListenKeyResponse boost handler mode res).outcome
        (s.beforeReply mode)).2 := by
  rw [amendUserDataListenKey_ok hexchange]
  generalize (readListenKeyResponse boost handler mode res).outcome
    (s.beforeReply mode) = read
  obtain ⟨result, t⟩ := read
  cases result with
  | error e => rfl
  | ok a => rfl

theorem amendUserDataListenKey_stored {boost : Boost} {exchange : Exchange}
    {handler : Callback} {mode : UserDataStreamMode} {streamName : Str}
    {s t : ApiState} {stored : Bool}
    (hreturns : (amendUserDataListenKey boost exchange handler mode
      streamName).outcome s = (.ok stored, t)) :
    stored = !t.beast.listenKey.isEmpty := by
  cases hexchange : exchange s.beast.config.restApiUri (ascii "443")
      (s.beast.listenKeyRequest mode streamName) with
  | error ec =>
      rw [amendUserDataListenKey_error hexchange] at hreturns
      simp at hreturns
  | ok res =>
      rw [amendUserDataListenKey_ok hexchange] at hreturns
      generalize (readListenKeyResponse boost handler mode res).outcome
        (s.beforeReply mode) = read at hreturns
      obtain ⟨result, u⟩ := read
      cases result with
      | error e => simp at hreturns
      | ok a =>
          simp only [Prod.mk.injEq, Except.ok.injEq] at hreturns
          obtain ⟨hstored, rfl⟩ := hreturns
          exact hstored.symm

/-! ## The calls after their exchange -/

theorem startUserData_outcome (boost : Boost) (exchange : Exchange)
    (handler : Callback) (stream : Str) (s : ApiState) :
    (startUserData boost exchange handler stream).outcome s =
      match (amendUserDataListenKey boost exchange handler .create
        stream).outcome s with
      | (.ok true, t) =>
          (createWsSession t.beast.config.wsApiUri
            (ascii "/ws/" ++ t.beast.listenKey) handler).outcome t
      | (.ok false, t) => (.ok ⟨0⟩, t)
      | (.error e, t) => (.error e, t) :=
  Api.outcome_bind_ite _ _ _ s

theorem renewListenKey_outcome (boost : Boost) (exchange : Exchange)
    (handler : Callback) (stream : Str) (s : ApiState) :
    (renewListenKey boost exchange handler stream).outcome s =
      match (amendUserDataListenKey boost exchange handler .extend
        stream).outcome s with
      | (.ok true, t) => (invoke handler (.ofState .success)).outcome t
      | (.ok false, t) =>
          (invoke handler
            (.ofReason (ascii "Failed to renew listen key"))).outcome t
      | (.error e, t) => (.error e, t) :=
  Api.outcome_bind_ite _ _ _ s

theorem closeUserData_outcome (boost : Boost) (exchange : Exchange)
    (handler : Callback) (stream : Str) (s : ApiState) :
    (closeUserData boost exchange handler stream).outcome s =
      match (amendUserDataListenKey boost exchange handler .close
        stream).outcome s with
      | (.ok true, t) =>
          (invoke handler (.ofState .success)).outcome (t.withKey [])
      | (.ok false, t) =>
          (invoke handler
            (.ofReason (ascii "Failed to close listen key"))).outcome t
      | (.error e, t) => (.error e, t) :=
  Api.outcome_bind_ite _ _ _ s

/-! ## The three calls -/

inductive UserDataCall where
  | startUserData (handler : Callback) (stream : Str)
  | renewListenKey (handler : Callback) (stream : Str)
  | closeUserData (handler : Callback) (stream : Str)

namespace UserDataCall

def mode : UserDataCall → UserDataStreamMode
  | .startUserData _ _ => .create
  | .renewListenKey _ _ => .extend
  | .closeUserData _ _ => .close

def handler : UserDataCall → Callback
  | .startUserData handler _ => handler
  | .renewListenKey handler _ => handler
  | .closeUserData handler _ => handler

def stream : UserDataCall → Str
  | .startUserData _ stream => stream
  | .renewListenKey _ stream => stream
  | .closeUserData _ stream => stream

/-- The call, without the token `startUserData` returns. -/
def run (boost : Boost) (exchange : Exchange) : UserDataCall → Api Unit
  | .startUserData handler stream => do
      let _ ← Bblib.startUserData boost exchange handler stream
  | .renewListenKey handler stream =>
      Bblib.renewListenKey boost exchange handler stream
  | .closeUserData handler stream =>
      Bblib.closeUserData boost exchange handler stream

/-- The exchange and the reading of its response, which every call begins
with. -/
def amend (boost : Boost) (exchange : Exchange) (call : UserDataCall) :
    Api Bool :=
  amendUserDataListenKey boost exchange call.handler call.mode call.stream

end UserDataCall

end Bblib
