import Bblib.ClientRequests
import Mathlib.Tactic

/-!
# What the secret key is used for

The secret key is copied into the configuration and into every REST session,
and is read in one place: `createSignature` hands it to `HMAC`.  So a client
with any other text in its place, and an oracle that signs what the client has
signed, makes the same runs; the two differ in the stored secret alone.
-/

namespace Bblib

open LabelledRuns HostedRuns

/-! ## A client with another secret -/

def ConnectionKeys.withSecret (keys : ConnectionKeys) (secret : Str) :
    ConnectionKeys :=
  { keys with secret := secret }

def ConnectionConfig.withSecret (config : ConnectionConfig) (secret : Str) :
    ConnectionConfig :=
  { config with keys := config.keys.withSecret secret }

def BinanceBeast.withSecret (beast : BinanceBeast) (secret : Str) :
    BinanceBeast :=
  { beast with config := beast.config.withSecret secret }

def ApiState.withSecret (secret : Str) (s : ApiState) : ApiState :=
  { s with beast := s.beast.withSecret secret }

def RestSession.withSecret (session : RestSession) (secret : Str) :
    RestSession :=
  { session with apiKeys := session.apiKeys.withSecret secret }

def RestRun.withSecret (secret : Str) (s : RestRun) : RestRun :=
  { s with session := s.session.withSecret secret }

def Client.withSecret (secret : Str) (c : Client) : Client :=
  { c with
    api := c.api.withSecret secret
    requests := c.requests.map fun request =>
      ⟨request.birth, request.state.withSecret secret⟩ }

/-! ## What a call has signed -/

/-- The text `createSignature` gets for a call: the query, or what is left of
it when it was moved from first. -/
def RestCall.signedText (call : RestCall) : Option Str :=
  let entries := call.params.queryParams.entries
  if call.sign == .hmacSha256 && !entries.isEmpty then
    match call.firstOperand, call.plus with
    | .left, .insertLeft => some []
    | _, _ => some (pathWithoutSig call.now entries)
  else none

/-- The oracle signs, under the other secret, what the calls have signed. -/
def SignsAlike (hmac other : Hmac) (secret blank : Str)
    (events : List ClientEvent) : Prop :=
  ∀ call, .send call ∈ events → ∀ text ∈ call.signedText,
    other blank (staticCastInt blank.length) text =
      hmac secret (staticCastInt secret.length) text

theorem RestCall.target_withSecret {hmac other : Hmac} {beast : BinanceBeast}
    {call : RestCall} {blank : Str}
    (halike : ∀ text ∈ call.signedText,
      other blank (staticCastInt blank.length) text =
        hmac beast.config.keys.secret
          (staticCastInt beast.config.keys.secret.length) text) :
    call.target other (beast.withSecret blank) = call.target hmac beast := by
  have hsignature : ∀ text ∈ call.signedText,
      createSignature other blank text =
        createSignature hmac beast.config.keys.secret text := by
    intro text htext
    unfold createSignature
    rw [halike text htext]
  unfold RestCall.target pathToSend
  cases hentries : call.params.queryParams.entries.isEmpty with
  | true =>
      simp only [hentries, Bool.not_true, Bool.false_eq_true, if_false]
  | false =>
      cases hsign : call.sign == .hmacSha256 with
      | false =>
          simp only [hentries, Bool.not_false, if_true, Bool.false_eq_true,
            if_false]
      | true =>
          unfold RestCall.signedText at hsignature
          simp only [hentries, hsign, Bool.not_false, Bool.and_true,
            if_true] at hsignature
          simp only [hentries, Bool.not_false, if_true]
          unfold joinSigned RestCall.env
          cases hfirst : call.firstOperand <;> cases hplus : call.plus <;>
            simp only [hfirst, hplus, Option.mem_def, Option.some.injEq,
              forall_eq'] at hsignature
          all_goals
            simp only [RvaluePlus.add]
            exact congrArg _ hsignature

/-! ## The requests -/

theorem RestRun.performAll_withSecret (secret : Str) (thread : CallerThread)
    (s : RestRun) (effects : List RestEffect) :
    RestRun.performAll thread (s.withSecret secret) effects =
      (RestRun.performAll thread s effects).withSecret secret := by
  unfold RestRun.performAll
  induction effects generalizing s with
  | nil => rfl
  | cons effect effects ih =>
      rw [List.foldl_cons, List.foldl_cons, ← ih]
      cases effect <;> rfl

theorem RestCall.launched_withSecret {hmac other : Hmac}
    {beast : BinanceBeast} {call : RestCall} {blank : Str}
    (halike : ∀ text ∈ call.signedText,
      other blank (staticCastInt blank.length) text =
        hmac beast.config.keys.secret
          (staticCastInt beast.config.keys.secret.length) text)
    (boost : Boost) :
    call.launched boost other (beast.withSecret blank) =
      (call.launched boost hmac beast).withSecret blank := by
  unfold RestCall.launched RestRun.launch
  rw [RestCall.target_withSecret halike, ← RestRun.performAll_withSecret]
  unfold RestSession.run
  cases call.outcomes.sni with
  | some ec => rfl
  | none => rfl

theorem RestSession.receive_withSecret (session : RestSession) (secret : Str)
    (op : RestOp) (res : HttpResponse) :
    (session.withSecret secret).receive op res =
      (session.receive op res).withSecret secret := by
  unfold RestSession.receive
  split
  · rfl
  · rfl

theorem RestSession.onComplete_withSecret (boost : Boost)
    (session : RestSession) (secret : Str) (op : RestOp) (ec : ErrorCode) :
    (session.withSecret secret).onComplete boost op ec =
      session.onComplete boost op ec := by
  cases op <;> rfl

theorem RestRun.step_withSecret (boost : Boost) (o : StageOutcomes)
    (secret : Str) (s : RestRun) (event : RestEvent) :
    (s.withSecret secret).step boost o event =
      (s.step boost o event).map (RestRun.withSecret secret) := by
  cases event with
  | complete =>
      unfold RestRun.step
      cases hpending : s.pending with
      | none =>
          have hnone : (s.withSecret secret).pending = none := hpending
          simp only [hnone, Option.map_none]
      | some op =>
          have hsome : (s.withSecret secret).pending = some op := hpending
          have hreceive : (s.withSecret secret).session.receive op o.response =
              (s.session.receive op o.response).withSecret secret :=
            s.session.receive_withSecret secret op o.response
          simp only [hsome, Option.map_some]
          rw [hreceive, RestSession.onComplete_withSecret,
            ← RestRun.performAll_withSecret]
          rfl
  | runJob index =>
      unfold RestRun.step
      cases hjob : s.jobs[index]? with
      | none =>
          have hnone : (s.withSecret secret).jobs[index]? = none := hjob
          simp only [hnone, hjob, Option.map_none]
      | some job =>
          have hsome : (s.withSecret secret).jobs[index]? = some job := hjob
          simp only [hsome, hjob, Option.map_some]
          rfl

/-! ## The calls -/

section Calls

variable (secret : Str)

theorem invoke_withSecret (handler : Callback) (response : WsResponse) :
    Api.Commutes (ApiState.withSecret secret) (invoke handler response) := by
  intro s
  cases handler with
  | none => rfl
  | some f => rfl

theorem createWsSession_withSecret (host path : Str) (handler : Callback) :
    Api.Commutes (ApiState.withSecret secret)
      (createWsSession host path handler) := by
  intro s
  cases handler with
  | none => rfl
  | some f => rfl

theorem acceptReply_withSecret (mode : UserDataStreamMode)
    (object : JsonObject) (s : ApiState) :
    acceptReply mode object (s.withSecret secret) =
      ((acceptReply mode object s).1,
        (acceptReply mode object s).2.withSecret secret) := by
  unfold acceptReply
  split
  · cases (object.index (ascii "listenKey")).1.valueToString with
    | none => rfl
    | some key => rfl
  · rfl

theorem readListenKeyResponse_withSecret (boost : Boost) (handler : Callback)
    (mode : UserDataStreamMode) (res : HttpResponse) :
    Api.Commutes (ApiState.withSecret secret)
      (readListenKeyResponse boost handler mode res) := by
  intro s
  rw [readListenKeyResponse_outcome, readListenKeyResponse_outcome]
  cases res.listenKeyReply boost with
  | accepted object => exact acceptReply_withSecret secret mode object s
  | rejected reason => rfl
  | malformed => rfl

theorem amendUserDataListenKey_withSecret (boost : Boost)
    (exchange : Exchange) (handler : Callback) (mode : UserDataStreamMode)
    (streamName : Str) :
    Api.Commutes (ApiState.withSecret secret)
      (amendUserDataListenKey boost exchange handler mode streamName) := by
  intro s
  have hrequest : (s.withSecret secret).beast.listenKeyRequest mode
      streamName = s.beast.listenKeyRequest mode streamName := rfl
  have hhost : (s.withSecret secret).beast.config.restApiUri =
      s.beast.config.restApiUri := rfl
  cases hexchange : exchange s.beast.config.restApiUri (ascii "443")
      (s.beast.listenKeyRequest mode streamName) with
  | error ec =>
      have hother := hexchange
      rw [← hrequest, ← hhost] at hother
      rw [amendUserDataListenKey_error hexchange,
        amendUserDataListenKey_error hother]
  | ok res =>
      have hother := hexchange
      rw [← hrequest, ← hhost] at hother
      have hbefore : (s.withSecret secret).beforeReply mode =
          (s.beforeReply mode).withSecret secret := by
        cases mode <;> rfl
      rw [amendUserDataListenKey_ok hexchange, amendUserDataListenKey_ok hother,
        hbefore, readListenKeyResponse_withSecret]
      generalize (readListenKeyResponse boost handler mode res).outcome
        (s.beforeReply mode) = read
      obtain ⟨result, t⟩ := read
      cases result with
      | ok a => rfl
      | error e => rfl

theorem StartCall.run_withSecret (handler : Callback) (call : StartCall) :
    Api.Commutes (ApiState.withSecret secret) (call.run handler) := by
  cases call with
  | name streamName =>
      exact .get_bind fun s => createWsSession_withSecret secret
        s.beast.config.wsApiUri (ascii "/ws/" ++ streamName) handler s
  | vector streams =>
      exact .get_bind fun s => createWsSession_withSecret secret
        s.beast.config.wsApiUri
        (ascii "/stream?streams=" ++ writeStreams streams) handler s
  | set streams =>
      exact .get_bind fun s => createWsSession_withSecret secret
        s.beast.config.wsApiUri
        (ascii "/stream?streams=" ++ writeStreams streams.elements) handler s

theorem ClientCall.run_withSecret (boost : Boost) (call : ClientCall) :
    Api.Commutes (ApiState.withSecret secret) (call.run boost) := by
  cases call with
  | startWebSocket handler call =>
      exact (StartCall.run_withSecret secret handler call).bind
        fun token => .pure (some token)
  | userData call exchange =>
      cases call with
      | startUserData handler stream =>
          have hamend := amendUserDataListenKey_withSecret secret boost
            exchange handler .create stream
          refine .bind (.bind hamend ?_) fun token => .pure (some token)
          intro stored
          cases stored with
          | true =>
              exact .get_bind fun s => createWsSession_withSecret secret
                s.beast.config.wsApiUri (ascii "/ws/" ++ s.beast.listenKey)
                handler s
          | false => exact .pure _
      | renewListenKey handler stream =>
          have hamend := amendUserDataListenKey_withSecret secret boost
            exchange handler .extend stream
          refine .bind (.bind hamend ?_) fun _ => .pure none
          intro stored
          cases stored with
          | true => exact invoke_withSecret secret handler _
          | false => exact invoke_withSecret secret handler _
      | closeUserData handler stream =>
          have hamend := amendUserDataListenKey_withSecret secret boost
            exchange handler .close stream
          refine .bind (.bind hamend ?_) fun _ => .pure none
          intro stored
          cases stored with
          | true =>
              exact .bind (fun _ => rfl) fun _ =>
                invoke_withSecret secret handler _
          | false => exact invoke_withSecret secret handler _

end Calls

/-! ## The runs -/

namespace Client

section Steps

variable (boost : Boost) (secret : Str) (c : Client)

theorem stepSession_withSecret (index : ℕ) (event : WsEvent) :
    (c.withSecret secret).stepSession boost index event =
      (c.stepSession boost index event).map (withSecret secret) := by
  have hsessions : (c.withSecret secret).sessions = c.sessions := rfl
  unfold stepSession
  rw [hsessions]
  cases c.sessions[index]? with
  | none => rfl
  | some session =>
      simp only [Option.map_map]
      rfl

theorem stopWebSocket_withSecret (token : WsToken) (handler : Callback) :
    (c.withSecret secret).stopWebSocket boost token handler =
      (c.stopWebSocket boost token handler).map (withSecret secret) := by
  have hsessions : (c.withSecret secret).wsSessions = c.wsSessions := rfl
  unfold stopWebSocket
  rw [hsessions]
  cases c.wsSessions.find token.id with
  | none => rfl
  | some entry =>
      generalize c.wsSessions.index token.id = accessed
      obtain ⟨closed, sessions⟩ := accessed
      cases closed with
      | none => rfl
      | some pointer =>
          exact stepSession_withSecret boost secret { c with
            api := c.withSessions (sessions.index token.id).2
            captured := Function.update c.captured pointer
              (c.captured pointer ++ [token]) } pointer (.stopWebSocket handler)

theorem closeCompletes_withSecret (index close : ℕ) :
    (c.withSecret secret).closeCompletes boost index close =
      (c.closeCompletes boost index close).map (withSecret secret) := by
  have hcaptured : (c.withSecret secret).captured = c.captured := rfl
  unfold closeCompletes
  rw [hcaptured]
  cases (c.captured index)[close]? with
  | none => rfl
  | some token =>
      exact stepSession_withSecret boost secret { c with
        api := c.withSessions (c.wsSessions.erase token.id)
        captured := Function.update c.captured index
          ((c.captured index).eraseIdx close) } index (.closeCompletes close)

theorem request_withSecret {hmac other : Hmac} (index : ℕ)
    (event : RestEvent) :
    (c.withSecret secret).step boost other (.request index event) =
      (c.step boost hmac (.request index event)).map (withSecret secret) := by
  have hfound : (c.withSecret secret).requests[index]? =
      c.requests[index]?.map fun request =>
        ⟨request.birth, request.state.withSecret secret⟩ :=
    List.getElem?_map
  simp only [step, hfound]
  cases c.requests[index]? with
  | none => rfl
  | some request =>
      have hstep : request.birth.step boost
          (request.state.withSecret secret) event =
            (request.birth.step boost request.state event).map
              (RestRun.withSecret secret) :=
        RestRun.step_withSecret boost _ secret _ event
      simp only [Option.map_some, hstep]
      cases request.birth.step boost request.state event with
      | none => rfl
      | some next =>
          simp only [Option.map_some, withSecret, List.map_set]

theorem send_withSecret {hmac other : Hmac} {call : RestCall}
    (halike : ∀ text ∈ call.signedText,
      other secret (staticCastInt secret.length) text =
        hmac c.api.beast.config.keys.secret
          (staticCastInt c.api.beast.config.keys.secret.length) text) :
    (c.withSecret secret).step boost other (.send call) =
      (c.step boost hmac (.send call)).map (withSecret secret) := by
  cases hhandler : call.handler with
  | none =>
      rw [step, RestCall.send_none boost other _ hhandler, step,
        RestCall.send_none boost hmac _ hhandler]
      rfl
  | some f =>
      have hlaunched : call.launched boost other
          (c.withSecret secret).api.beast =
            (call.launched boost hmac c.api.beast).withSecret secret :=
        RestCall.launched_withSecret halike boost
      have hsent : (c.withSecret secret).sent boost other call =
          (c.sent boost hmac call).withSecret secret := by
        unfold sent
        rw [hlaunched]
        simp only [withSecret, List.map_append, List.map_cons, List.map_nil]
        rfl
      rw [step, RestCall.send_some boost other _ hhandler, step,
        RestCall.send_some boost hmac _ hhandler]
      exact congrArg some hsent

theorem call_withSecret {hmac other : Hmac} (call : ClientCall) :
    (c.withSecret secret).step boost other (.call call) =
      (c.step boost hmac (.call call)).map (withSecret secret) := by
  have hcall : (call.run boost).outcome (c.withSecret secret).api =
      (((call.run boost).outcome c.api).1,
        ((call.run boost).outcome c.api).2.withSecret secret) :=
    ClientCall.run_withSecret secret boost call c.api
  rw [step, step, hcall]
  rfl

end Steps

/-- The secret key is used to sign the queries of signed calls, and for
nothing else.  With another text in its place, and an oracle that signs those
queries as `HMAC` does under the secret, the same events make the same run,
step for step, up to the stored secret. -/
theorem secret_is_only_used_to_sign {boost : Boost} {hmac other : Hmac}
    {config : ConnectionConfig} {blank : Str} {events : List ClientEvent}
    (halike : SignsAlike hmac other config.keys.secret blank events)
    (nRestIoContexts nWebsockIoContexts : ℕ) :
    run (step boost other)
        (start (config.withSecret blank) nRestIoContexts nWebsockIoContexts)
        events =
      (run (step boost hmac)
        (start config nRestIoContexts nWebsockIoContexts) events).map
          (withSecret blank) := by
  have hstep : ∀ (c : Client) (event : ClientEvent),
      c.api.beast.config = config → event ∈ events →
      (c.withSecret blank).step boost other event =
        (c.step boost hmac event).map (withSecret blank) := by
    intro c event hconfig hevent
    cases event with
    | send call =>
        apply send_withSecret
        intro text htext
        rw [hconfig]
        exact halike call hevent text htext
    | request index event => exact request_withSecret boost blank c index event
    | call call => exact call_withSecret boost blank c call
    | stopWebSocket token handler =>
        exact stopWebSocket_withSecret boost blank c token handler
    | session index event =>
        simp only [step]
        split
        · exact stepSession_withSecret boost blank c index event
        · rfl
    | closeCompletes index close =>
        exact closeCompletes_withSecret boost blank c index close
  have hstart : (start config nRestIoContexts
      nWebsockIoContexts).api.beast.config = config := rfl
  exact run_translated (P := fun event => event ∈ events) (withSecret blank)
    (fun _ _ _ hc hnext => (moves hnext).config.trans hc)
    hstep hstart fun _ hevent => hevent

/-- Signs under one key, whatever key it is given. -/
def signingOracle (hmac : Hmac) (secret : Str) : Hmac := fun _ _ data =>
  hmac secret (staticCastInt secret.length) data

theorem oracle_replaces_the_secret :
    run (step sampleBoost
          (signingOracle sampleEnvironment.hmac (ascii "secret")))
        (start (sampleBeast.config.withSecret []) 4 6) twoRequests =
      (run (step sampleBoost sampleEnvironment.hmac)
        (start sampleBeast.config 4 6) twoRequests).map (withSecret []) := by
  have halike : SignsAlike sampleEnvironment.hmac
      (signingOracle sampleEnvironment.hmac (ascii "secret"))
      sampleBeast.config.keys.secret [] twoRequests :=
    fun _ _ _ _ => rfl
  exact secret_is_only_used_to_sign halike 4 6

end Client

end Bblib
