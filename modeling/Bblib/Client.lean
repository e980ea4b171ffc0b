import Bblib.HostedRuns
import Bblib.RestRequests
import Bblib.UserDataSessions
import Bblib.WsLifecycle
import Mathlib.Tactic

/-!
# One object with everything it has started

The calls of a user, the REST sessions and the websocket sessions of one
`BinanceBeast`, in any order: a call is one step, and so is each completion,
each effect of a completion handler and each move of a pool thread.  So calls
and the completions of closes, which share `m_wsSessions`, come one at a time;
what the class does when they overlap is in `WsRegistryIds` and
`WsRegistryStops`.

A REST session lives among its threads as a `RestRun`, a websocket session as
a `WsRun`.  The host keeps what the lambda of each `stopWebSocket` captured,
and erases that token from the registry when the close completes.  What the
environment decides is part of the event: how the stages of a request end, the
clock it reads, and the exchange of a listen key call.
-/

namespace Bblib

open LabelledRuns HostedRuns

/-! ## Calls of the user -/

/-- A call of one of the two `sendRestRequest` overloads, with what the
platform and the network make of it. -/
structure RestCall where
  moved : Bool
  handler : Callback
  path : Str
  sign : RestSign
  params : RestParams
  type : RequestType
  now : ℤ
  plus : RvaluePlus
  firstOperand : Operand
  outcomes : StageOutcomes

def RestCall.env (hmac : Hmac) (call : RestCall) : RestEnv :=
  ⟨hmac, call.now, call.plus, call.firstOperand⟩

def RestCall.send (boost : Boost) (hmac : Hmac) (beast : BinanceBeast)
    (call : RestCall) : Except Exn (BinanceBeast × RestRun) :=
  if call.moved then
    beast.sendRestRequestMoved boost (call.env hmac) call.outcomes.sni
      call.handler call.path call.sign call.params call.type
  else
    beast.sendRestRequest boost (call.env hmac) call.outcomes.sni
      call.handler call.path call.sign call.params call.type

/-- A call about websockets or the listen key. -/
inductive ClientCall where
  | startWebSocket (handler : Callback) (call : StartCall)
  | userData (call : UserDataCall) (exchange : Exchange)

/-- The token is that of the calls that return one. -/
def ClientCall.run (boost : Boost) : ClientCall → Api (Option WsToken)
  | .startWebSocket handler call => do
      let token ← call.run handler
      return some token
  | .userData (.startUserData handler stream) exchange => do
      let token ← startUserData boost exchange handler stream
      return some token
  | .userData (.renewListenKey handler stream) exchange => do
      renewListenKey boost exchange handler stream
      return none
  | .userData (.closeUserData handler stream) exchange => do
      closeUserData boost exchange handler stream
      return none

/-- The request of a listen key call under a configuration. -/
def UserDataCall.request (config : ConnectionConfig) (call : UserDataCall) :
    HttpRequest where
  version := 11
  method := call.mode.requestVerb
  target := call.stream
  host := config.restApiUri
  userAgent := userAgent
  apiKey := config.keys.api

/-- The target and the handler of the session a call opens, from the call and
the answer to its own request. -/
def ClientCall.opens (boost : Boost) (config : ConnectionConfig) :
    ClientCall → Option (Str × ℕ)
  | .startWebSocket (some f) call => some (call.target, f)
  | .userData (.startUserData (some f) stream) exchange =>
      (ownKey boost (exchange config.restApiUri (ascii "443")
        ((UserDataCall.startUserData (some f) stream).request config))).map
          fun k => (ascii "/ws/" ++ k, f)
  | _ => none

/-! ## The client -/

/-- The new session among its threads: the caller of `run` has executed its
effects. -/
def StartedWsSession.launched (started : StartedWsSession) : WsRun :=
  started.effects.foldl (fun s effect => s.perform [] effect) {
    session := started.session
    pending := none
    script := []
    ioCall := none
    queue := []
    worker := none
    closing := []
    completions := 0
    log := [] }

abbrev ClientRequest := Member RestCall RestRun

abbrev ClientSession := Member StartedWsSession WsRun

/-- `captured` has the tokens of the closes under way, session by session. -/
structure Client where
  api : ApiState
  requests : List ClientRequest
  sessions : List ClientSession
  captured : ℕ → List WsToken
  returned : List WsToken

inductive ClientEvent where
  | send (call : RestCall)
  | request (index : ℕ) (event : RestEvent)
  | call (call : ClientCall)
  | stopWebSocket (token : WsToken) (handler : Callback)
  | session (index : ℕ) (event : WsEvent)
  | closeCompletes (index close : ℕ)

/-- A step of a session that is not a stop or the completion of a close. -/
def WsEvent.own : WsEvent → Bool
  | .stopWebSocket _ => false
  | .closeCompletes _ => false
  | _ => true

def RestCall.step (boost : Boost) (call : RestCall) (s : RestRun)
    (event : RestEvent) : Option RestRun :=
  s.step boost call.outcomes event

def StartedWsSession.step (boost : Boost) (_ : StartedWsSession) (s : WsRun)
    (event : WsEvent) : Option WsRun :=
  s.step boost event

namespace Client

def start (config : ConnectionConfig)
    (nRestIoContexts nWebsockIoContexts : ℕ) : Client where
  api := ⟨.start config nRestIoContexts nWebsockIoContexts, [], []⟩
  requests := []
  sessions := []
  captured := fun _ => []
  returned := []

def wsSessions (c : Client) : SessionMap ℕ := c.api.beast.wsSessions

def withSessions (c : Client) (sessions : SessionMap ℕ) : ApiState :=
  { c.api with beast := { c.api.beast with wsSessions := sessions } }

/-- What a call leaves: the sessions it made are launched, and the token it
returned is the user's. -/
def afterCall (c : Client)
    (ended : Except Exn (Option WsToken) × ApiState) : Client where
  api := ended.2
  requests := c.requests
  sessions := c.sessions ++ (ended.2.sessions.drop c.sessions.length).map
    fun started => ⟨started, started.launched⟩
  captured := c.captured
  returned := c.returned ++
    match ended.1 with
    | .ok token => token.toList
    | .error _ => []

/-- One step of a websocket session. -/
def stepSession (boost : Boost) (c : Client) (index : ℕ) (event : WsEvent) :
    Option Client :=
  match c.sessions[index]? with
  | none => none
  | some session =>
      (session.birth.step boost session.state event).map fun next =>
        { c with sessions := c.sessions.set index ⟨session.birth, next⟩ }

/-- `none` when the pointer `close` is called on is null. -/
def stopWebSocket (boost : Boost) (c : Client) (token : WsToken)
    (handler : Callback) : Option Client :=
  match c.wsSessions.find token.id with
  | none => some c
  | some _ =>
      let (closed, sessions) := c.wsSessions.index token.id
      let (_, sessions) := sessions.index token.id
      match closed with
      | none => none
      | some pointer =>
          stepSession boost { c with
            api := c.withSessions sessions
            captured := Function.update c.captured pointer
              (c.captured pointer ++ [token]) }
            pointer (.stopWebSocket handler)

/-- The lambda of `stopWebSocket` erases its token before it calls back. -/
def closeCompletes (boost : Boost) (c : Client) (index close : ℕ) :
    Option Client :=
  match (c.captured index)[close]? with
  | none => none
  | some token =>
      stepSession boost { c with
        api := c.withSessions (c.wsSessions.erase token.id)
        captured := Function.update c.captured index
          ((c.captured index).eraseIdx close) }
        index (.closeCompletes close)

def step (boost : Boost) (hmac : Hmac) (c : Client) :
    ClientEvent → Option Client
  | .send call =>
      match call.send boost hmac c.api.beast with
      | .error _ => some c
      | .ok (beast, run) =>
          some { c with
            api := { c.api with beast := beast }
            requests := c.requests ++ [⟨call, run⟩] }
  | .request index event =>
      match c.requests[index]? with
      | none => none
      | some request =>
          (request.birth.step boost request.state event).map fun next =>
            { c with requests := c.requests.set index ⟨request.birth, next⟩ }
  | .call call => some (c.afterCall ((call.run boost).outcome c.api))
  | .stopWebSocket token handler => c.stopWebSocket boost token handler
  | .session index event =>
      if event.own then c.stepSession boost index event else none
  | .closeCompletes index close => c.closeCompletes boost index close

end Client

/-! ## What a call can do -/

/-- The state after `createWsSession` with a handler. -/
def ApiState.opened (s : ApiState) (f : ℕ) (host target : Str) : ApiState where
  beast := { s.beast with
    nextWsIoContext := nextIoContext s.beast.nextWsIoContext
      s.beast.wsIocThreads
    nextWsId := s.beast.nextWsId + 1
    wsSessions := s.beast.wsSessions.assign s.beast.nextWsId
      s.sessions.length }
  sessions := s.sessions ++ [{
    ioContext := s.beast.nextWsIoContext
    session := ⟨host, target, some f, []⟩
    effects := [.start (.resolve host s.beast.config.wsPort)] }]
  calls := s.calls

theorem createWsSession_some (host target : Str) (f : ℕ) (s : ApiState) :
    (createWsSession host target (some f)).outcome s =
      (.ok ⟨s.beast.nextWsId⟩, s.opened f host target) := rfl

/-- A call opens the session it says to the configured host, or changes the
listen key at most and returns no valid token. -/
inductive ClientCall.Ends (s : ApiState) (opened : Option (Str × ℕ)) :
    Except Exn (Option WsToken) × ApiState → Prop where
  | opens (f : ℕ) (target key : Str) (opening : opened = some (target, f)) :
      Ends s opened (.ok (some ⟨s.beast.nextWsId⟩),
        (s.withKey key).opened f s.beast.config.wsApiUri target)
  | keeps {result : Except Exn (Option WsToken)} {t : ApiState}
      (nothing : opened = none) (onlyKey : s.OnlyKey t)
      (invalid : ∀ token, result = .ok (some token) → token = ⟨0⟩) :
      Ends s opened (result, t)

/-- A call whose result is passed on unchanged or wrapped. -/
theorem outcome_bind_pure {α β : Type} (call : Api α) (wrap : α → β)
    (s : ApiState) :
    (call >>= fun a => pure (wrap a)).outcome s =
      match call.outcome s with
      | (.ok a, t) => (.ok (wrap a), t)
      | (.error e, t) => (.error e, t) := by
  rw [Api.outcome_bind]
  generalize call.outcome s = ended
  obtain ⟨result, t⟩ := ended
  cases result with
  | ok a => rfl
  | error e => rfl

theorem outcome_bind_pure_state {α β : Type} (call : Api α) (wrap : α → β)
    (s : ApiState) :
    ((call >>= fun a => pure (wrap a)).outcome s).2 = (call.outcome s).2 := by
  rw [outcome_bind_pure]
  generalize call.outcome s = ended
  obtain ⟨result, t⟩ := ended
  cases result with
  | ok a => rfl
  | error e => rfl

theorem ClientCall.Ends.of_token {call : Api WsToken} {s : ApiState}
    {opened : Option (Str × ℕ)} (hnothing : opened = none)
    (honly : s.OnlyKey (call.outcome s).2)
    (hzero : ∀ token, (call.outcome s).1 = .ok token → token = ⟨0⟩) :
    ClientCall.Ends s opened
      ((call >>= fun token => pure (some token)).outcome s) := by
  rw [outcome_bind_pure]
  generalize call.outcome s = ended at honly hzero
  obtain ⟨result, t⟩ := ended
  cases result with
  | ok token =>
      refine .keeps hnothing honly ?_
      intro other hother
      obtain rfl : token = other := by simpa using hother
      exact hzero token rfl
  | error e => exact .keeps hnothing honly (by simp)

theorem ClientCall.Ends.of_unit {call : Api Unit} {s : ApiState}
    {opened : Option (Str × ℕ)} (hnothing : opened = none)
    (honly : s.OnlyKey (call.outcome s).2) :
    ClientCall.Ends s opened
      ((call >>= fun _ => pure none).outcome s) := by
  rw [outcome_bind_pure]
  generalize call.outcome s = ended at honly
  obtain ⟨result, t⟩ := ended
  cases result with
  | ok _ => exact .keeps hnothing honly (by simp)
  | error e => exact .keeps hnothing honly (by simp)

/-- What `startUserData` returns without a key of its own or without a
handler. -/
theorem startUserData_token {boost : Boost} {exchange : Exchange}
    {handler : Callback} {stream : Str} {s : ApiState} {token : WsToken}
    (hnot : handler = none ∨
      ownKey boost (exchange s.beast.config.restApiUri (ascii "443")
        (s.beast.listenKeyRequest .create stream)) = none)
    (hreturns : ((startUserData boost exchange handler stream).outcome s).1 =
      .ok token) : token = ⟨0⟩ := by
  rw [startUserData_outcome] at hreturns
  have hresult : handler = none ∨ ((amendUserDataListenKey boost exchange
      handler .create stream).outcome s).1 ≠ .ok true :=
    hnot.imp_right (amend_create_of_none handler)
  generalize (amendUserDataListenKey boost exchange handler .create
    stream).outcome s = amended at hreturns hresult
  obtain ⟨result, t⟩ := amended
  cases result with
  | error e => simp at hreturns
  | ok stored =>
      cases stored with
      | false => simpa [eq_comm] using hreturns
      | true =>
          rcases hresult with rfl | hother
          · have hthrows : ((createWsSession t.beast.config.wsApiUri
                (ascii "/ws/" ++ t.beast.listenKey) none).outcome t).1 =
                  .error (.runtimeError (ascii "callback is null")) := rfl
            simp only [hthrows, reduceCtorEq] at hreturns
          · exact absurd rfl hother

theorem startUserData_opened {boost : Boost} {exchange : Exchange} {f : ℕ}
    {stream k : Str} {s : ApiState}
    (hkey : ownKey boost (exchange s.beast.config.restApiUri (ascii "443")
      (s.beast.listenKeyRequest .create stream)) = some k) :
    (startUserData boost exchange (some f) stream).outcome s =
      (.ok ⟨s.beast.nextWsId⟩, (s.withKey k).opened f
        s.beast.config.wsApiUri (ascii "/ws/" ++ k)) := by
  obtain ⟨res, object, hexchange, haccepted, hstring, hne⟩ :=
    ownKey_eq_some.mp hkey
  have hcreated : res.createdKey boost = some k := by
    rw [HttpResponse.createdKey, haccepted]
    exact hstring
  have hstored : (!k.isEmpty) = true := by simpa using hne
  rw [startUserData_outcome, amend_create_of_key hexchange hcreated, hstored]
  rfl

theorem ClientCall.ends (boost : Boost) (call : ClientCall) (s : ApiState) :
    ClientCall.Ends s (call.opens boost s.beast.config)
      ((call.run boost).outcome s) := by
  cases call with
  | startWebSocket handler call =>
      have hrun := call.run_eq handler s
      cases handler with
      | none =>
          have hthrows : (call.run none).outcome s =
              (.error (.runtimeError (ascii "callback is null")), s) := hrun
          apply Ends.of_token rfl
          · rw [hthrows]
            exact .refl s
          · simp [hthrows]
      | some f =>
          rw [createWsSession_some] at hrun
          rw [run, outcome_bind_pure, hrun]
          exact .opens f call.target s.beast.listenKey rfl
  | userData call exchange =>
      cases call with
      | renewListenKey handler stream =>
          exact .of_unit rfl (.renewListenKey boost exchange handler stream s)
      | closeUserData handler stream =>
          exact .of_unit rfl (.closeUserData boost exchange handler stream s)
      | startUserData handler stream =>
          cases handler with
          | none =>
              apply Ends.of_token rfl
              · exact startUserData_null boost exchange stream s
              · intro token hreturns
                exact startUserData_token (.inl rfl) hreturns
          | some f =>
              have hopens : (ClientCall.userData
                  (.startUserData (some f) stream) exchange).opens boost
                    s.beast.config =
                  (ownKey boost (exchange s.beast.config.restApiUri
                    (ascii "443") (s.beast.listenKeyRequest .create
                      stream))).map fun k => (ascii "/ws/" ++ k, f) := rfl
              cases hkey : ownKey boost
                  (exchange s.beast.config.restApiUri (ascii "443")
                    (s.beast.listenKeyRequest .create stream)) with
              | none =>
                  apply Ends.of_token (by rw [hopens, hkey]; rfl)
                  · exact startUserData_of_none (some f) hkey
                  · intro token hreturns
                    exact startUserData_token (.inr hkey) hreturns
              | some k =>
                  rw [run, outcome_bind_pure, startUserData_opened hkey]
                  exact .opens f _ k (by rw [hopens, hkey]; rfl)

/-! ## What a step can do -/

/-- The session `createRestSession` makes for a call. -/
def RestCall.session (beast : BinanceBeast) (call : RestCall) :
    RestSession where
  executor := .strand beast.nextRestIoContext
  apiKeys := beast.config.keys
  callback := call.handler
  req := none
  res := ⟨200, [], []⟩

def RestCall.target (hmac : Hmac) (beast : BinanceBeast)
    (call : RestCall) : Str :=
  pathToSend (call.env hmac) beast.config.keys.secret call.path
    (call.sign == .hmacSha256) call.params

def RestCall.launched (boost : Boost) (hmac : Hmac) (beast : BinanceBeast)
    (call : RestCall) : RestRun :=
  RestRun.launch boost (call.session beast) call.outcomes.sni
    beast.config.restApiUri beast.config.restPort (call.target hmac beast) 11
    call.type

theorem RestCall.send_some (boost : Boost) (hmac : Hmac)
    (beast : BinanceBeast) {call : RestCall} {f : ℕ}
    (hhandler : call.handler = some f) :
    call.send boost hmac beast =
      .ok (beast.getRestIoContext.2, call.launched boost hmac beast) := by
  unfold RestCall.send BinanceBeast.sendRestRequest
    BinanceBeast.sendRestRequestMoved BinanceBeast.createRestSession
  rw [ite_self, hhandler]
  unfold RestCall.launched RestCall.session
  rw [hhandler]
  rfl

theorem RestCall.send_none (boost : Boost) (hmac : Hmac)
    (beast : BinanceBeast) {call : RestCall} (hhandler : call.handler = none) :
    call.send boost hmac beast =
      .error (.runtimeError (ascii "callback is null")) := by
  unfold RestCall.send BinanceBeast.sendRestRequest
    BinanceBeast.sendRestRequestMoved BinanceBeast.createRestSession
  rw [ite_self, hhandler]
  rfl

namespace Client

def sent (boost : Boost) (hmac : Hmac) (c : Client) (call : RestCall) :
    Client :=
  { c with
    api := { c.api with beast := c.api.beast.getRestIoContext.2 }
    requests := c.requests ++ [⟨call, call.launched boost hmac c.api.beast⟩] }

/-- The close of a session is under way, with the token it was stopped by. -/
def stopping (c : Client) (pointer : ℕ) (token : WsToken)
    (session : ClientSession) : Client :=
  { c with
    sessions := c.sessions.set pointer session
    captured := Function.update c.captured pointer
      (c.captured pointer ++ [token]) }

/-- A close of a session has completed, whose lambda captured the token. -/
def closed (c : Client) (index close : ℕ) (token : WsToken)
    (session : ClientSession) : Client :=
  { c with
    api := c.withSessions (c.wsSessions.erase token.id)
    sessions := c.sessions.set index session
    captured := Function.update c.captured index
      ((c.captured index).eraseIdx close) }

/-- Everything one step can do. -/
inductive Moves (boost : Boost) (hmac : Hmac) (c : Client) :
    ClientEvent → Client → Prop where
  | sends {call : RestCall} {f : ℕ} (handler : call.handler = some f) :
      Moves boost hmac c (.send call) (c.sent boost hmac call)
  | throws {call : RestCall} (handler : call.handler = none) :
      Moves boost hmac c (.send call) c
  | requests {index : ℕ} {event : RestEvent} {request : ClientRequest}
      {next : RestRun} (found : c.requests[index]? = some request)
      (stepped : request.birth.step boost request.state event = some next) :
      Moves boost hmac c (.request index event)
        { c with requests := c.requests.set index ⟨request.birth, next⟩ }
  | calls {call : ClientCall} {ended : Except Exn (Option WsToken) × ApiState}
      (outcome : (call.run boost).outcome c.api = ended)
      (ends : ClientCall.Ends c.api
        (call.opens boost c.api.beast.config) ended) :
      Moves boost hmac c (.call call) (c.afterCall ended)
  | misses {token : WsToken} {handler : Callback}
      (missing : c.wsSessions token.id = none) :
      Moves boost hmac c (.stopWebSocket token handler) c
  | stops {token : WsToken} {handler : Callback} {pointer : ℕ}
      {session : ClientSession} {next : WsRun}
      (entry : c.wsSessions token.id = some (some pointer))
      (found : c.sessions[pointer]? = some session)
      (stepped : session.birth.step boost session.state
        (.stopWebSocket handler) = some next) :
      Moves boost hmac c (.stopWebSocket token handler)
        (c.stopping pointer token ⟨session.birth, next⟩)
  | sessions {index : ℕ} {event : WsEvent} {session : ClientSession}
      {next : WsRun} (own : event.own = true)
      (found : c.sessions[index]? = some session)
      (stepped : session.birth.step boost session.state event = some next) :
      Moves boost hmac c (.session index event)
        { c with sessions := c.sessions.set index ⟨session.birth, next⟩ }
  | closes {index close : ℕ} {token : WsToken} {session : ClientSession}
      {next : WsRun} (captured : (c.captured index)[close]? = some token)
      (found : c.sessions[index]? = some session)
      (stepped : session.birth.step boost session.state
        (.closeCompletes close) = some next) :
      Moves boost hmac c (.closeCompletes index close)
        (c.closed index close token ⟨session.birth, next⟩)

theorem stepSession_eq_some {boost : Boost} {c next : Client} {index : ℕ}
    {event : WsEvent} (hstep : c.stepSession boost index event = some next) :
    ∃ session run, c.sessions[index]? = some session ∧
      session.birth.step boost session.state event = some run ∧
      next = { c with
        sessions := c.sessions.set index ⟨session.birth, run⟩ } := by
  unfold stepSession at hstep
  split at hstep
  · contradiction
  · rename_i session hfound
    obtain ⟨run, hrun, rfl⟩ := Option.map_eq_some_iff.mp hstep
    exact ⟨session, run, hfound, hrun, rfl⟩

theorem moves {boost : Boost} {hmac : Hmac} {c next : Client}
    {event : ClientEvent} (hstep : c.step boost hmac event = some next) :
    Moves boost hmac c event next := by
  cases event with
  | send call =>
      cases hhandler : call.handler with
      | none =>
          rw [step, RestCall.send_none boost hmac _ hhandler] at hstep
          obtain rfl := Option.some.inj hstep
          exact .throws hhandler
      | some f =>
          rw [step, RestCall.send_some boost hmac _ hhandler] at hstep
          obtain rfl := Option.some.inj hstep
          exact .sends hhandler
  | request index event =>
      simp only [step] at hstep
      split at hstep
      · contradiction
      · rename_i request hfound
        obtain ⟨run, hrun, rfl⟩ := Option.map_eq_some_iff.mp hstep
        exact .requests hfound hrun
  | call call =>
      obtain rfl := Option.some.inj hstep
      exact .calls rfl (call.ends boost c.api)
  | stopWebSocket token handler =>
      simp only [step, stopWebSocket, SessionMap.find] at hstep
      cases hentry : c.wsSessions token.id with
      | none =>
          rw [hentry] at hstep
          obtain rfl := Option.some.inj hstep
          exact .misses hentry
      | some pointer =>
          simp only [hentry, SessionMap.index_of_some hentry] at hstep
          cases pointer with
          | none => contradiction
          | some pointer =>
              obtain ⟨session, run, hfound, hrun, rfl⟩ :=
                stepSession_eq_some hstep
              exact .stops hentry hfound hrun
  | session index event =>
      simp only [step] at hstep
      split at hstep
      · rename_i hown
        obtain ⟨session, run, hfound, hrun, rfl⟩ := stepSession_eq_some hstep
        exact .sessions hown hfound hrun
      · contradiction
  | closeCompletes index close =>
      simp only [step, closeCompletes] at hstep
      split at hstep
      · contradiction
      · rename_i token hcaptured
        obtain ⟨session, run, hfound, hrun, rfl⟩ := stepSession_eq_some hstep
        exact .closes hcaptured hfound hrun

end Client

end Bblib
