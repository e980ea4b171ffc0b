import Bblib.Client
import Mathlib.Tactic

/-!
# The REST requests of a client

Every request of a client is a session of its own, launched by one call and
moved only by its own completions and jobs.  What holds of one session then
holds of all of them in every run: each is called back at most once, with the
result of its own exchange, and the exchange is that of its call.
-/

namespace Bblib

open LabelledRuns HostedRuns

/-! ## The configuration never changes -/

theorem ClientCall.Ends.config {s : ApiState} {opened : Option (Str × ℕ)}
    {ended : Except Exn (Option WsToken) × ApiState}
    (hends : ClientCall.Ends s opened ended) :
    ended.2.beast.config = s.beast.config := by
  cases hends with
  | opens f target key opening => rfl
  | keeps nothing onlyKey invalid => rw [onlyKey.beast]

theorem Client.Moves.config {boost : Boost} {hmac : Hmac} {c next : Client}
    {event : ClientEvent} (hmoves : Client.Moves boost hmac c event next) :
    next.api.beast.config = c.api.beast.config := by
  cases hmoves with
  | sends handler => rfl
  | throws handler => rfl
  | requests found stepped => rfl
  | calls outcome ends => exact ends.config
  | misses missing => rfl
  | stops entry found stepped => rfl
  | sessions own found stepped => rfl
  | closes captured found stepped => rfl

/-! ## A request among the others -/

/-- A request is launched by a call with a callback, under the
configuration. -/
def RestCall.Starts (boost : Boost) (hmac : Hmac) (config : ConnectionConfig)
    (call : RestCall) (run : RestRun) : Prop :=
  ∃ beast : BinanceBeast, beast.config = config ∧ call.handler.isSome = true ∧
    run = call.launched boost hmac beast

/-- The call of a `send` that does not throw. -/
def ClientEvent.sentCall : ClientEvent → Option RestCall
  | .send sent => if sent.handler.isSome then some sent else none
  | _ => none

/-- The step of the request at an index. -/
def ClientEvent.ofRequest : ClientEvent → ℕ → Option RestEvent
  | .request moved event, index => if moved = index then some event else none
  | _, _ => none

section Requests

variable {boost : Boost} {hmac : Hmac} {config : ConnectionConfig}
  {c next : Client} {event : ClientEvent}

theorem Client.Moves.requests_move
    (hmoves : Client.Moves boost hmac c event next)
    (hconfig : c.api.beast.config = config) :
    HostedRuns.Moves (RestCall.step boost) (RestCall.Starts boost hmac config)
      some event.ofRequest c.requests next.requests := by
  cases hmoves with
  | @sends call f handler =>
      have hstarts : call.Starts boost hmac config
          (call.launched boost hmac c.api.beast) :=
        ⟨c.api.beast, hconfig, by simp [handler], rfl⟩
      exact .opens _ hstarts rfl fun _ => rfl
  | throws handler => exact .keeps rfl fun _ => rfl
  | requests found stepped =>
      exact .moves _ _ _ _ found stepped rfl (if_pos rfl)
        fun other hother => if_neg (Ne.symm hother)
  | calls outcome ends => exact .keeps rfl fun _ => rfl
  | misses missing => exact .keeps rfl fun _ => rfl
  | stops entry found stepped => exact .keeps rfl fun _ => rfl
  | sessions own found stepped => exact .keeps rfl fun _ => rfl
  | closes captured found stepped => exact .keeps rfl fun _ => rfl

theorem Client.Moves.requests_births
    (hmoves : Client.Moves boost hmac c event next) :
    next.requests.map Member.birth =
      c.requests.map Member.birth ++ event.sentCall.toList := by
  cases hmoves with
  | sends handler => simp [Client.sent, ClientEvent.sentCall, handler]
  | throws handler => simp [ClientEvent.sentCall, handler]
  | @requests index _ request _ found stepped =>
      have hbirth : (c.requests.map Member.birth)[index]? =
          some request.birth := by
        rw [List.getElem?_map, found]
        rfl
      simp only [ClientEvent.sentCall, Option.toList_none, List.append_nil]
      rw [List.map_set, set_self_of_getElem? hbirth]
  | calls outcome ends => simp [Client.afterCall, ClientEvent.sentCall]
  | misses missing => simp [ClientEvent.sentCall]
  | stops entry found stepped => simp [Client.stopping, ClientEvent.sentCall]
  | sessions own found stepped => simp [ClientEvent.sentCall]
  | closes captured found stepped => simp [Client.closed, ClientEvent.sentCall]

/-- The client can make every step a request can make, and changes nothing
else by it. -/
theorem Client.drives_requests (boost : Boost) (hmac : Hmac) (c : Client) :
    Drives (Client.step boost hmac)
      (fun event => ∃ index own, event = .request index own)
      (fun d => d.api = c.api ∧ d.sessions = c.sessions)
      (RestCall.step boost) Client.requests := by
  rintro d index request event next ⟨hapi, hsessions⟩ hfound hstep
  let after : Client :=
    { d with requests := d.requests.set index ⟨request.birth, next⟩ }
  refine ⟨.request index event, after, ⟨index, event, rfl⟩, ?_,
    ⟨hapi, hsessions⟩, rfl⟩
  simp only [Client.step, hfound, hstep, Option.map_some]
  rfl

end Requests

/-! ## Called back once, with its own result -/

theorem RestCall.Starts.invariant {boost : Boost} {hmac : Hmac}
    {config : ConnectionConfig} {call : RestCall} {start : RestRun} {f : ℕ}
    (hstarts : call.Starts boost hmac config start)
    (hhandler : call.handler = some f) :
    start.Invariant boost call.outcomes f config.restApiUri
      config.restPort := by
  obtain ⟨beast, rfl, _, rfl⟩ := hstarts
  exact RestRun.launch_invariant boost call.outcomes hhandler _ _ _ _ _

theorem RestRun.Invariant.mem_calls {boost : Boost} {o : StageOutcomes}
    {f : ℕ} {host port : Str} {s : RestRun}
    (hinv : s.Invariant boost o f host port)
    {call : CallerThread × Callback × RestResponse} (hcall : call ∈ s.calls) :
    call.2.1 = some f ∧ o.Reports boost call.2.2 := by
  cases hpending : s.pending with
  | some op =>
      rw [(hinv.waiting op hpending).2.1] at hcall
      contradiction
  | none =>
      obtain ⟨r, hreport, ⟨_, hcalls⟩ | ⟨thread, _, hcalls⟩⟩ :=
        hinv.reported hpending
      · rw [hcalls] at hcall
        contradiction
      · rw [hcalls] at hcall
        rw [List.mem_singleton.mp hcall]
        exact ⟨rfl, hreport⟩

/-- A request that is called back with the result of its own exchange. -/
structure ClientRequest.Sound (boost : Boost) (config : ConnectionConfig)
    (request : ClientRequest) (f : ℕ) : Prop where
  handler : request.birth.handler = some f
  invariant : request.state.Invariant boost request.birth.outcomes f
    config.restApiUri config.restPort

theorem ClientRequest.sound_of_reached {boost : Boost} {hmac : Hmac}
    {config : ConnectionConfig} {request : ClientRequest}
    {seen : List RestEvent}
    (hreached : request.Reached (RestCall.step boost)
      (RestCall.Starts boost hmac config) some seen) :
    ∃ f, ClientRequest.Sound boost config request f := by
  obtain ⟨start, labels, hstarts, hrun, _⟩ := hreached
  obtain ⟨beast, _, hsome, _⟩ := id hstarts
  obtain ⟨f, hhandler⟩ := Option.isSome_iff_exists.mp hsome
  refine ⟨f, hhandler, ?_⟩
  exact invariant_of_run
    (fun _ _ _ hinv _ hstep => RestRun.Invariant.step hinv hstep)
    (hstarts.invariant hhandler) (meets_true _ _ _) hrun

/-- The request has come to its end and its callback was called once, with
what became of its exchange. -/
structure RestCall.Answered (boost : Boost) (call : RestCall)
    (s : RestRun) : Prop where
  quiet : s.Quiet
  calls : ∃ thread response, s.calls = [(thread, call.handler, response)] ∧
    call.outcomes.Reports boost response

theorem ClientRequest.Sound.exists_answered {boost : Boost}
    {config : ConnectionConfig} {request : ClientRequest} {f : ℕ}
    (hsound : ClientRequest.Sound boost config request f) :
    ∃ labels state, run (RestCall.step boost request.birth) request.state
        labels = some state ∧
      request.birth.Answered boost state := by
  obtain ⟨labels, state, hmore, hquiet⟩ :=
    hsound.invariant.exists_run_to_quiet
  have hstate := invariant_of_run
    (fun _ _ _ hinv _ hstep => RestRun.Invariant.step hinv hstep)
    hsound.invariant (meets_true _ _ _) hmore
  obtain ⟨thread, response, hcalls, hreport⟩ := hstate.calls_of_quiet hquiet
  refine ⟨labels, state, hmore, hquiet, thread, response, ?_, hreport⟩
  rw [hsound.handler]
  exact hcalls

/-- The requests of every run of a client. -/
theorem Client.run_requests {boost : Boost} {hmac : Hmac}
    {config : ConnectionConfig} {nRestIoContexts nWebsockIoContexts : ℕ}
    {events : List ClientEvent} {t : Client}
    (hrun : run (Client.step boost hmac)
      (.start config nRestIoContexts nWebsockIoContexts) events = some t) :
    t.api.beast.config = config ∧
      ∀ index (request : ClientRequest), t.requests[index]? = some request →
        request.Reached (RestCall.step boost)
          (RestCall.Starts boost hmac config) some
          (events.filterMap fun event => event.ofRequest index) := by
  refine reached_of_run (I := fun c => c.api.beast.config = config)
    Client.requests ?_ ?_ rfl rfl hrun
  · intro c event next hconfig hstep
    exact (Client.moves hstep).config.trans hconfig
  · intro c event next hconfig hstep
    exact (Client.moves hstep).requests_move hconfig

/-- In every run of a client the requests are those of the calls that did not
throw, one for each and in their order.  Each has been called back at most
once, on its own callback and with what became of its own exchange.  From
there the client can bring every request to its end without any other step,
and then each has been called back exactly once.

Each started operation completes once and each posted job runs once, and the
object has a REST context for every session to run on (`usesInBounds_iff`). -/
theorem Client.requests_are_answered {boost : Boost} {hmac : Hmac}
    {config : ConnectionConfig} {nRestIoContexts nWebsockIoContexts : ℕ}
    {events : List ClientEvent} {t : Client}
    (hrun : run (Client.step boost hmac)
      (.start config nRestIoContexts nWebsockIoContexts) events = some t) :
    t.requests.map Member.birth =
        events.filterMap ClientEvent.sentCall ∧
      (∀ request ∈ t.requests, request.state.calls.length ≤ 1 ∧
        ∀ call ∈ request.state.calls,
          call.2.1 = request.birth.handler ∧
            request.birth.outcomes.Reports boost call.2.2) ∧
      ∃ more done, run (Client.step boost hmac) t more = some done ∧
        done.api = t.api ∧ done.sessions = t.sessions ∧
        List.Forall₂ (fun old new => new.birth = old.birth ∧
          old.birth.Answered boost new.state) t.requests done.requests := by
  have hreached := (Client.run_requests hrun).2
  refine ⟨?_, ?_, ?_⟩
  · have hbirths := history_invariant_of_run
      (I := fun history c => c.requests.map Member.birth =
        history.filterMap ClientEvent.sentCall)
      (fun history c event next hc _ hstep => by
        rw [(Client.moves hstep).requests_births, hc, List.filterMap_append]
        cases hsent : event.sentCall <;> simp [hsent])
      (h := []) rfl (meets_true _ _ _) hrun
    simpa using hbirths
  · intro request hrequest
    obtain ⟨index, hindex⟩ := List.mem_iff_getElem?.mp hrequest
    obtain ⟨f, hsound⟩ :=
      ClientRequest.sound_of_reached (hreached index request hindex)
    refine ⟨hsound.invariant.calls_length_le_one, ?_⟩
    intro call hcall
    rw [hsound.handler]
    exact hsound.invariant.mem_calls hcall
  · have hgoal : ∀ request ∈ t.requests, ∃ labels state,
        run (RestCall.step boost request.birth) request.state labels =
            some state ∧
          request.birth.Answered boost state := by
      intro request hrequest
      obtain ⟨index, hindex⟩ := List.mem_iff_getElem?.mp hrequest
      obtain ⟨f, hsound⟩ :=
        ClientRequest.sound_of_reached (hreached index request hindex)
      exact hsound.exists_answered
    obtain ⟨more, done, _, hmore, ⟨hapi, hsessions⟩, hall⟩ :=
      (Client.drives_requests boost hmac t).exists_run_all
        ⟨rfl, rfl⟩ hgoal
    exact ⟨more, done, hmore, hapi, hsessions, hall⟩

def sampleEnvironment : RestEnv := sampleEnv .appendRight .right

def sampleCall (handler : ℕ) (outcomes : StageOutcomes) : RestCall where
  moved := false
  handler := some handler
  path := ascii "/fapi/v1/allOrders"
  sign := .hmacSha256
  params := sampleParams
  type := .get
  now := 1
  plus := .appendRight
  firstOperand := .right
  outcomes := outcomes

/-- Two signed requests, the second of which finds no path and is answered
before the first. -/
def twoRequests : List ClientEvent :=
  [.send (sampleCall 0 sampleOutcomes),
    .send (sampleCall 1 { sampleOutcomes with response := ⟨404, [], []⟩ }),
    .request 1 .complete, .request 0 .complete, .request 1 .complete,
    .request 1 .complete, .request 1 .complete, .request 1 .complete,
    .request 0 .complete]

theorem two_requests_are_answered :
    ∃ t more done, run (Client.step sampleBoost sampleEnvironment.hmac)
        (.start sampleBeast.config 4 6) twoRequests = some t ∧
      run (Client.step sampleBoost sampleEnvironment.hmac) t more =
        some done ∧
      List.Forall₂ (fun old new => new.birth = old.birth ∧
          old.birth.Answered sampleBoost new.state)
        t.requests done.requests := by
  have hrun : ∃ t, run (Client.step sampleBoost sampleEnvironment.hmac)
      (.start sampleBeast.config 4 6) twoRequests = some t := ⟨_, rfl⟩
  obtain ⟨t, hrun⟩ := hrun
  obtain ⟨_, _, more, done, hmore, _, _, hanswered⟩ :=
    Client.requests_are_answered hrun
  exact ⟨t, more, done, hrun, hmore, hanswered⟩

/-! ## What goes to the network -/

/-- The request of a call under a configuration. -/
def RestCall.request (hmac : Hmac) (config : ConnectionConfig)
    (call : RestCall) : HttpRequest where
  version := 11
  method := call.type.toVerb
  target := pathToSend (call.env hmac) config.keys.secret call.path
    (call.sign == .hmacSha256) call.params
  host := config.restApiUri
  userAgent := userAgent
  apiKey := config.keys.api

/-- No step of a session touches its request. -/
theorem RestRun.performAll_session (thread : CallerThread) (s : RestRun)
    (effects : List RestEffect) :
    (RestRun.performAll thread s effects).session = s.session := by
  unfold RestRun.performAll
  induction effects generalizing s with
  | nil => rfl
  | cons effect effects ih =>
      rw [List.foldl_cons, ih]
      cases effect <;> rfl

theorem RestSession.receive_eq (session : RestSession) (op : RestOp)
    (res : HttpResponse) :
    session.receive op res =
      { session with res := (session.receive op res).res } := by
  unfold RestSession.receive
  split <;> rfl

theorem RestRun.step_session {boost : Boost} {o : StageOutcomes}
    {s next : RestRun} {event : RestEvent}
    (hstep : s.step boost o event = some next) :
    next.session = { s.session with res := next.session.res } := by
  cases event with
  | complete =>
      obtain ⟨op, _, rfl⟩ := RestRun.exists_of_step_complete hstep
      rw [RestRun.performAll_session]
      exact RestSession.receive_eq s.session op o.response
  | runJob index =>
      obtain ⟨callback, result, _, rfl⟩ := RestRun.exists_of_step_runJob hstep
      rfl

theorem RestCall.Starts.req {boost : Boost} {hmac : Hmac}
    {config : ConnectionConfig} {call : RestCall} {start : RestRun}
    (hstarts : call.Starts boost hmac config start) :
    start.session.req =
      if call.outcomes.sni.isSome then none
      else some (call.request hmac config) := by
  obtain ⟨beast, rfl, _, rfl⟩ := hstarts
  unfold RestCall.launched RestRun.launch RestSession.run
  cases call.outcomes.sni with
  | some ec => rw [RestRun.performAll_session]; rfl
  | none => rw [RestRun.performAll_session]; rfl

/-- In every run of a client, what a request sends is what its call asked for
under the configuration of the client, and it connects to no other host: its
operations are an initial part of the chain to the configured host, and no
request is built when the SNI name cannot be set. -/
theorem Client.requests_carry_their_call {boost : Boost} {hmac : Hmac}
    {config : ConnectionConfig} {nRestIoContexts nWebsockIoContexts : ℕ}
    {events : List ClientEvent} {t : Client}
    (hrun : run (Client.step boost hmac)
      (.start config nRestIoContexts nWebsockIoContexts) events = some t) :
    ∀ request ∈ t.requests,
      request.state.session.req =
        (if request.birth.outcomes.sni.isSome then none
          else some (request.birth.request hmac config)) ∧
      request.state.started <+:
        RestOp.read.chainTo config.restApiUri config.restPort := by
  intro request hrequest
  obtain ⟨index, hindex⟩ := List.mem_iff_getElem?.mp hrequest
  have hreached := (Client.run_requests hrun).2 index request hindex
  obtain ⟨f, hsound⟩ := ClientRequest.sound_of_reached hreached
  constructor
  · obtain ⟨start, labels, hstarts, hlabels, _⟩ := hreached
    have hreq := invariant_of_run
      (I := fun s : RestRun => s.session.req = start.session.req)
      (fun s _ next hs _ hstep => by
        rw [RestRun.step_session hstep]
        exact hs) rfl (meets_true _ _ _) hlabels
    rw [hreq, hstarts.req]
  · rcases hsound.invariant.chain with ⟨_, hstarted⟩ | ⟨op, _, hstarted⟩
    · rw [hstarted]
      exact List.nil_prefix
    · rw [hstarted]
      cases op with
      | resolve host port => exact ⟨_, rfl⟩
      | connect => exact ⟨_, rfl⟩
      | handshake => exact ⟨_, rfl⟩
      | write => exact ⟨_, rfl⟩
      | read => exact ⟨_, rfl⟩

end Bblib
