import Bblib.ClientSessions
import Bblib.KeyFile
import Mathlib.Tactic

/-!
# Which hosts a client reaches

A configuration is made for the test network or for the live one, with keys or
with a key file, and from then on decides every host the client turns to.  No
host belongs to both environments.  So whatever is called and however the
network behaves, a client of one environment looks up no host of the other,
and what a host of the other would answer makes no difference to its run.
-/

namespace Bblib

open LabelledRuns HostedRuns

/-! ## The endpoints of an environment -/

/-- A configuration made for an environment, from keys or from a key file. -/
inductive ConnectionConfig.Made (files : FileSystem) (isLive : Bool)
    (config : ConnectionConfig) : Prop where
  | keys {market : Market} {apiKey secretKey : Str}
      (made : ConnectionConfig.makeConfig apiKey secretKey isLive market =
        .ok config)
  | file {market : Market} {keyFile : Str}
      (made : ConnectionConfig.makeFileConfig files isLive market keyFile =
        .ok config)

/-- A host and a port some configuration of the environment names. -/
def Endpoint (isLive : Bool) (host port : Str) : Prop :=
  ∃ market apiKey secretKey config,
    ConnectionConfig.makeConfig apiKey secretKey isLive market = .ok config ∧
      ((host = config.restApiUri ∧ port = config.restPort) ∨
        (host = config.wsApiUri ∧ port = config.wsPort))

def environmentHosts : Bool → List Str
  | true => [ascii "fapi.binance.com", ascii "fstream.binance.com",
      ascii "dapi.binance.com", ascii "dstream.binance.com",
      ascii "api.binance.com", ascii "stream.binance.com"]
  | false => [ascii "testnet.binancefuture.com",
      ascii "stream.binancefuture.com", ascii "dstream.binancefuture.com",
      ascii "testnet.binance.vision"]

theorem environmentHosts_disjoint (isLive : Bool) :
    ∀ host ∈ environmentHosts isLive, host ∉ environmentHosts (!isLive) := by
  cases isLive <;> decide

section Endpoint

variable {files : FileSystem} {isLive : Bool} {config : ConnectionConfig}
  {host port : Str}

theorem ConnectionConfig.Made.exists_keys (hmade : config.Made files isLive) :
    ∃ market apiKey secretKey,
      ConnectionConfig.makeConfig apiKey secretKey isLive market =
        .ok config := by
  cases hmade with
  | keys made => exact ⟨_, _, _, made⟩
  | file made =>
      unfold ConnectionConfig.makeFileConfig at made
      split at made
      · split at made
        · contradiction
        · exact ⟨_, _, _, made⟩
      · exact ⟨_, _, _, made⟩

theorem ConnectionConfig.Made.rest (hmade : config.Made files isLive) :
    Endpoint isLive config.restApiUri config.restPort := by
  obtain ⟨market, apiKey, secretKey, hkeys⟩ := hmade.exists_keys
  exact ⟨market, apiKey, secretKey, config, hkeys, .inl ⟨rfl, rfl⟩⟩

theorem ConnectionConfig.Made.websocket (hmade : config.Made files isLive) :
    Endpoint isLive config.wsApiUri config.wsPort := by
  obtain ⟨market, apiKey, secretKey, hkeys⟩ := hmade.exists_keys
  exact ⟨market, apiKey, secretKey, config, hkeys, .inr ⟨rfl, rfl⟩⟩

theorem ConnectionConfig.Made.restPort (hmade : config.Made files isLive) :
    config.restPort = ascii "443" := by
  obtain ⟨market, apiKey, secretKey, hkeys⟩ := hmade.exists_keys
  cases market <;> cases isLive <;>
    simp only [ConnectionConfig.makeConfig, Except.ok.injEq,
      reduceCtorEq] at hkeys
  all_goals
    subst hkeys
    rfl

theorem Endpoint.mem_hosts (hendpoint : Endpoint isLive host port) :
    host ∈ environmentHosts isLive := by
  obtain ⟨market, apiKey, secretKey, config, hkeys, hhost⟩ := hendpoint
  have hnames : config.restApiUri ∈ environmentHosts isLive ∧
      config.wsApiUri ∈ environmentHosts isLive := by
    cases market <;> cases isLive <;>
      simp only [ConnectionConfig.makeConfig, Except.ok.injEq,
        reduceCtorEq] at hkeys
    all_goals
      subst hkeys
      simp [ConnectionConfig.make, environmentHosts]
  rcases hhost with ⟨rfl, _⟩ | ⟨rfl, _⟩
  · exact hnames.1
  · exact hnames.2

theorem Endpoint.not_other (hendpoint : Endpoint isLive host port)
    (other : Str) : ¬ Endpoint (!isLive) host other := by
  intro hother
  exact environmentHosts_disjoint isLive host hendpoint.mem_hosts
    hother.mem_hosts

end Endpoint

/-! ## What the network is asked, and what else it answers -/

/-- What an exchange is made for. -/
structure Asked where
  host : Str
  port : Str
  request : HttpRequest

def Exchange.answer (exchange : Exchange) (asked : Asked) :
    Except ErrorCode HttpResponse :=
  exchange asked.host asked.port asked.request

def UserDataCall.asks (config : ConnectionConfig) (call : UserDataCall) :
    Asked where
  host := config.restApiUri
  port := ascii "443"
  request := call.request config

/-- The exchange an event makes. -/
def ClientEvent.asks (config : ConnectionConfig) : ClientEvent → Option Asked
  | .call (.userData called _) => some (called.asks config)
  | _ => none

/-- The same event, up to what the network answers to anything but what the
event asks. -/
inductive ClientEvent.AnsweredAlike (config : ConnectionConfig) :
    ClientEvent → ClientEvent → Prop where
  | refl (event : ClientEvent) : AnsweredAlike config event event
  | userData {call : UserDataCall} {left right : Exchange}
      (agree : left.answer (call.asks config) =
        right.answer (call.asks config)) :
      AnsweredAlike config (.call (.userData call left))
        (.call (.userData call right))

/-- The exchanges answer alike at the endpoints of an environment. -/
def Exchange.Agree (isLive : Bool) (left right : Exchange) : Prop :=
  ∀ host port request, Endpoint isLive host port →
    left host port request = right host port request

/-- The same event, up to what the network answers anywhere else. -/
inductive ClientEvent.Alike (isLive : Bool) :
    ClientEvent → ClientEvent → Prop where
  | refl (event : ClientEvent) : Alike isLive event event
  | userData {call : UserDataCall} {left right : Exchange}
      (agree : Exchange.Agree isLive left right) :
      Alike isLive (.call (.userData call left)) (.call (.userData call right))

theorem ClientEvent.Alike.answered {files : FileSystem} {isLive : Bool}
    {config : ConnectionConfig} {event other : ClientEvent}
    (hmade : config.Made files isLive) (halike : event.Alike isLive other) :
    event.AnsweredAlike config other := by
  cases halike with
  | refl event => exact .refl event
  | @userData call left right agree =>
      have hrest := hmade.rest
      rw [hmade.restPort] at hrest
      exact .userData (agree _ _ _ hrest)

section Alike

variable (boost : Boost) {left right : Exchange} {s : ApiState}

theorem amendUserDataListenKey_congr {mode : UserDataStreamMode}
    {streamName : Str}
    (hagree : left s.beast.config.restApiUri (ascii "443")
        (s.beast.listenKeyRequest mode streamName) =
      right s.beast.config.restApiUri (ascii "443")
        (s.beast.listenKeyRequest mode streamName)) (handler : Callback) :
    (amendUserDataListenKey boost left handler mode streamName).outcome s =
      (amendUserDataListenKey boost right handler mode
        streamName).outcome s := by
  cases hleft : left s.beast.config.restApiUri (ascii "443")
      (s.beast.listenKeyRequest mode streamName) with
  | error ec =>
      rw [hleft] at hagree
      rw [amendUserDataListenKey_error hleft,
        amendUserDataListenKey_error hagree.symm]
  | ok res =>
      rw [hleft] at hagree
      rw [amendUserDataListenKey_ok hleft,
        amendUserDataListenKey_ok hagree.symm]

theorem ClientCall.run_congr {call : UserDataCall}
    (hagree : left.answer (call.asks s.beast.config) =
      right.answer (call.asks s.beast.config)) :
    ((ClientCall.userData call left).run boost).outcome s =
      ((ClientCall.userData call right).run boost).outcome s := by
  cases call with
  | startUserData handler stream =>
      have hamend := @amendUserDataListenKey_congr boost left right s
        .create stream hagree handler
      rw [run, run, outcome_bind_pure, outcome_bind_pure,
        startUserData_outcome, startUserData_outcome, hamend]
  | renewListenKey handler stream =>
      have hamend := @amendUserDataListenKey_congr boost left right s
        .extend stream hagree handler
      rw [run, run, outcome_bind_pure, outcome_bind_pure,
        renewListenKey_outcome, renewListenKey_outcome, hamend]
  | closeUserData handler stream =>
      have hamend := @amendUserDataListenKey_congr boost left right s
        .close stream hagree handler
      rw [run, run, outcome_bind_pure, outcome_bind_pure,
        closeUserData_outcome, closeUserData_outcome, hamend]

theorem Client.step_alike (hmac : Hmac) {config : ConnectionConfig}
    {c : Client} {event other : ClientEvent}
    (hconfig : c.api.beast.config = config)
    (halike : event.AnsweredAlike config other) :
    c.step boost hmac other = c.step boost hmac event := by
  cases halike with
  | refl event => rfl
  | @userData call left right agree =>
      rw [← hconfig] at agree
      have hsame := ClientCall.run_congr boost agree
      exact congrArg (fun ended => some (c.afterCall ended)) hsame.symm

end Alike

/-- A run depends on the exchanges of its events only by their answers to what
the events ask. -/
theorem Client.run_alike {boost : Boost} {hmac : Hmac}
    {config : ConnectionConfig} {nRestIoContexts nWebsockIoContexts : ℕ}
    {events others : List ClientEvent} {t : Client}
    (halike : List.Forall₂ (ClientEvent.AnsweredAlike config) events others)
    (hrun : run (Client.step boost hmac)
      (.start config nRestIoContexts nWebsockIoContexts) events = some t) :
    run (Client.step boost hmac)
      (.start config nRestIoContexts nWebsockIoContexts) others = some t := by
  obtain ⟨t', hrun', _, rfl⟩ := run_simulated
    (S := fun c d : Client => c.api.beast.config = config ∧ c = d)
    (fun c _ event other next hc hevent hstep => by
      obtain ⟨hconfig, rfl⟩ := hc
      have hsame := Client.step_alike boost hmac hconfig hevent
      exact ⟨next, hsame.trans hstep,
        (Client.moves hstep).config.trans hconfig, rfl⟩)
    ⟨rfl, rfl⟩ halike hrun
  exact hrun'

/-! ## The operation a session waits for -/

/-- The operation under way has been started. -/
def SessionTrace.Started (t : SessionTrace) : Prop :=
  ∀ op, t.run.pending = some op → op ∈ operations t.performed

theorem SessionTrace.Started.step {boost : Boost} {t next : SessionTrace}
    {event : WsEvent} (hstarted : t.Started)
    (hstep : t.step boost event = some next) : next.Started := by
  obtain ⟨after, hmoves, rfl⟩ := step_eq_some hstep
  intro op hop
  have hearlier : t.run.pending = some op →
      op ∈ operations (t.performed ++ (t.run.executed event).toList) := by
    intro hpending
    rw [operations_append]
    exact List.mem_append_left _ (hstarted op hpending)
  cases hmoves with
  | completes _ _ _ _ => contradiction
  | @performs effect rest hscript _ =>
      cases effect with
      | start started =>
          obtain rfl : started = op := Option.some.inj hop
          simp [WsRun.executed, hscript, operations, WsEffect.operation]
      | call handler response => exact hearlier hop
      | post handler response => exact hearlier hop
      | clearBuffer => exact hearlier hop
  | ioReturns _ => exact hearlier hop
  | workerStarts _ _ => exact hearlier hop
  | workerReturns _ => exact hearlier hop
  | stops => exact hearlier hop
  | closes _ _ _ => exact hearlier hop

/-- A session of a client waits for no operation but those of its own life. -/
theorem ClientSession.pending_eq_nth {boost : Boost}
    {config : ConnectionConfig} {session : ClientSession} {op : WsOp}
    {seen : List WsEvent}
    (hreached : session.Reached (StartedWsSession.step boost)
      (StartedWsSession.Starts config) WsEvent.unstopped seen)
    (hop : session.state.pending = some op) :
    ∃ endpoint index, op = WsOp.nth config.wsApiUri config.wsPort
      session.birth.session.path endpoint index := by
  obtain ⟨f, ioContext, target, labels, t, hbirth, ht, hsame, _⟩ :=
    ClientSession.exists_trace hreached
  have hfollows := SessionTrace.launch_follows
    (show (⟨[], [], some f, []⟩ : WsSession).callback = some f from rfl) rfl
    config.wsApiUri config.wsPort target
  obtain ⟨p, hp, htfollows⟩ := hfollows.run rfl ht
  have hlaunch : (SessionTrace.launch ⟨[], [], some f, []⟩ config.wsApiUri
      config.wsPort target).Started := by
    intro first hfirst
    obtain rfl := Option.some.inj hfirst
    exact List.mem_singleton.mpr rfl
  have hstarted := invariant_of_run
    (fun _ _ _ hs _ hstep => SessionTrace.Started.step hs hstep)
    hlaunch (meets_true _ _ _) ht
  rw [← hsame] at hop
  have hmem : op ∈ operations t.effects := by
    unfold SessionTrace.effects
    rw [operations_append]
    exact List.mem_append_left _ (hstarted op hop)
  rw [htfollows.started, (WsProtocol.follows_of_run hp).started] at hmem
  obtain ⟨index, _, rfl⟩ := List.mem_map.mp hmem
  rw [hbirth]
  exact ⟨_, index, rfl⟩

theorem WsOp.resolve_eq_nth {host port path name service : Str}
    {endpoint index : ℕ}
    (heq : WsOp.resolve name service =
      WsOp.nth host port path endpoint index) :
    name = host ∧ service = port := by
  match index, heq with
  | 0, heq => simpa [WsOp.nth] using heq
  | 1, heq => simp [WsOp.nth] at heq
  | 2, heq => simp [WsOp.nth] at heq
  | 3, heq => simp [WsOp.nth] at heq
  | _ + 4, heq => simp [WsOp.nth] at heq

/-! ## No host of the other environment -/

/-- An endpoint of the environment, whose host has no port in the other. -/
def OwnEndpoint (isLive : Bool) (host port : Str) : Prop :=
  Endpoint isLive host port ∧ ∀ other, ¬ Endpoint (!isLive) host other

theorem Endpoint.own {isLive : Bool} {host port : Str}
    (hendpoint : Endpoint isLive host port) : OwnEndpoint isLive host port :=
  ⟨hendpoint, hendpoint.not_other⟩

theorem RestOp.resolve_mem_chain {host port name service : Str}
    (hmem : RestOp.resolve name service ∈ RestOp.read.chainTo host port) :
    name = host ∧ service = port := by
  simpa [RestOp.chainTo] using hmem

/-- A client configured for an environment looks up no host of the other one,
for a request or for a websocket session, in any run.  Every run is also one
of a network that answers listen key calls otherwise anywhere else. -/
theorem Client.environments_are_separate {boost : Boost} {hmac : Hmac}
    {files : FileSystem} {isLive : Bool} {config : ConnectionConfig}
    {nRestIoContexts nWebsockIoContexts : ℕ} {events : List ClientEvent}
    {t : Client} (hmade : config.Made files isLive)
    (hrun : run (Client.step boost hmac)
      (.start config nRestIoContexts nWebsockIoContexts) events = some t) :
    (∀ request ∈ t.requests, ∀ host port,
      .resolve host port ∈ request.state.started →
        OwnEndpoint isLive host port) ∧
      (∀ session ∈ t.sessions, ∀ host port,
        session.state.pending = some (.resolve host port) →
          OwnEndpoint isLive host port) ∧
      ∀ others, List.Forall₂ (ClientEvent.Alike isLive) events others →
        run (Client.step boost hmac)
          (.start config nRestIoContexts nWebsockIoContexts) others =
            some t := by
  refine ⟨?_, ?_, ?_⟩
  · intro request hrequest host port hresolve
    have hstarted :=
      (Client.requests_carry_their_call hrun request hrequest).2
    obtain ⟨rfl, rfl⟩ :=
      RestOp.resolve_mem_chain (hstarted.subset hresolve)
    exact hmade.rest.own
  · intro session hsession host port hpending
    obtain ⟨position, hfound⟩ := List.mem_iff_getElem?.mp hsession
    obtain ⟨endpoint, index, hop⟩ := ClientSession.pending_eq_nth
      ((Client.run_sessions hrun).2 position session hfound) hpending
    obtain ⟨rfl, rfl⟩ := WsOp.resolve_eq_nth hop
    exact hmade.websocket.own
  · intro others halike
    exact Client.run_alike (halike.imp fun _ _ h => h.answered hmade) hrun

/-- A listen key from every host but a live one, which refuses. -/
def testNetExchange (refusal : ErrorCode) : Exchange := fun host _ _ =>
  if host = ascii "fapi.binance.com" then .error refusal
  else .ok ⟨200, ascii "application/json",
    ascii "\x7b\"listenKey\":\"k1\"\x7d"⟩

/-- A signed request and a user data stream, both on their way. -/
def testNetEvents (refusal : ErrorCode) : List ClientEvent :=
  [.send (sampleCall 0 sampleOutcomes),
    .call (.userData (.startUserData (some 1) (ascii "/fapi/v1/listenKey"))
      (testNetExchange refusal)),
    .request 0 .complete, .session 0 (.complete (.resolve .success))]

theorem test_network_client_stays_there :
    ∃ t, run (Client.step sampleBoost sampleEnvironment.hmac)
        (.start sampleBeast.config 4 6) (testNetEvents .shutDown) = some t ∧
      run (Client.step sampleBoost sampleEnvironment.hmac)
        (.start sampleBeast.config 4 6) (testNetEvents .operationAborted) =
          some t ∧
      ∀ request ∈ t.requests, ∀ host port,
        .resolve host port ∈ request.state.started →
          OwnEndpoint false host port := by
  have hmade : sampleBeast.config.Made (fun _ => none) false := by
    apply ConnectionConfig.Made.keys
    show ConnectionConfig.makeConfig (ascii "key") (ascii "secret") false
      .usdm = _
    rfl
  have hrun : ∃ t, run (Client.step sampleBoost sampleEnvironment.hmac)
      (.start sampleBeast.config 4 6) (testNetEvents .shutDown) = some t :=
    ⟨_, rfl⟩
  obtain ⟨t, hrun⟩ := hrun
  have hagree : Exchange.Agree false (testNetExchange .shutDown)
      (testNetExchange .operationAborted) := by
    intro host port request hendpoint
    have hother : host ≠ ascii "fapi.binance.com" := by
      intro heq
      have hmem := hendpoint.mem_hosts
      rw [heq] at hmem
      exact environmentHosts_disjoint true _ (by simp [environmentHosts]) hmem
    unfold testNetExchange
    rw [if_neg hother, if_neg hother]
  obtain ⟨hrequests, _, hothers⟩ :=
    Client.environments_are_separate hmade hrun
  refine ⟨t, hrun, hothers _ ?_, hrequests⟩
  exact .cons (.refl _) (.cons (.userData hagree)
    (.cons (.refl _) (.cons (.refl _) .nil)))

/-! ## From the key file to the network -/

theorem makeConfig_keys {apiKey secretKey : Str} {isLive : Bool}
    {market : Market} {config : ConnectionConfig}
    (hmade : ConnectionConfig.makeConfig apiKey secretKey isLive market =
      .ok config) :
    config.keys = ⟨apiKey, secretKey⟩ ∧ config.verifyPeer = isLive := by
  cases market <;> cases isLive <;>
    simp only [ConnectionConfig.makeConfig, Except.ok.injEq,
      reduceCtorEq] at hmade
  all_goals
    subst hmade
    exact ⟨rfl, rfl⟩

/-- A configuration made from a file of keys is for the environment the file
is marked with, and has its keys. -/
theorem makeFileConfig_keyFileText {files : FileSystem}
    {keyFile api secret : Str} {fileLive finalNewline isLive : Bool}
    {market : Market} {config : ConnectionConfig} (hname : keyFile ≠ [])
    (hapi : LineInput.newline ∉ api) (hsecret : LineInput.newline ∉ secret)
    (hfile : files keyFile =
      some (keyFileText fileLive api secret finalNewline))
    (hmade : ConnectionConfig.makeFileConfig files isLive market keyFile =
      .ok config) :
    isLive = fileLive ∧
      ConnectionConfig.makeConfig api secret fileLive market = .ok config := by
  have hnonempty : (!keyFile.isEmpty) = true := by simpa using hname
  obtain ⟨hsmall, hlarge⟩ := readKeyFile_keyFileText hapi hsecret hfile
  unfold ConnectionConfig.makeFileConfig at hmade
  rw [if_pos hnonempty] at hmade
  by_cases hsize :
      (keyFileText fileLive api secret finalNewline).length ≤ 140
  · obtain ⟨hown, hother⟩ := hsmall hsize
    by_cases hsame : isLive = fileLive
    · subst hsame
      rw [hown] at hmade
      exact ⟨rfl, hmade⟩
    · obtain rfl : isLive = !fileLive := Bool.eq_not.mpr hsame
      rw [hother] at hmade
      contradiction
  · rw [hlarge (by omega)] at hmade
    contradiction

/-- The keys of a file that is marked for an environment go to no host of the
other.  A client configured with the file is one of that environment, and its
configuration asks for verified peers exactly for the live one.  In every run
each listen key call asks the host of the configuration, with the API key of
the file, and the run depends on nothing else an exchange would answer.  The
requests that are built carry the API key and the signature under the secret of
the file, to that host alone. -/
theorem Client.keys_stay_in_their_environment {boost : Boost} {hmac : Hmac}
    {files : FileSystem} {keyFile api secret : Str}
    {fileLive finalNewline isLive : Bool} {market : Market}
    {config : ConnectionConfig} {nRestIoContexts nWebsockIoContexts : ℕ}
    {events : List ClientEvent} {t : Client} (hname : keyFile ≠ [])
    (hapi : LineInput.newline ∉ api) (hsecret : LineInput.newline ∉ secret)
    (hfile : files keyFile =
      some (keyFileText fileLive api secret finalNewline))
    (hmade : ConnectionConfig.makeFileConfig files isLive market keyFile =
      .ok config)
    (hrun : run (Client.step boost hmac)
      (.start config nRestIoContexts nWebsockIoContexts) events = some t) :
    isLive = fileLive ∧ config.verifyPeer = fileLive ∧
      OwnEndpoint fileLive config.restApiUri config.restPort ∧
      (∀ asked ∈ events.filterMap (ClientEvent.asks config),
        asked.host = config.restApiUri ∧ asked.port = config.restPort ∧
          asked.request.host = config.restApiUri ∧
          asked.request.apiKey = api) ∧
      (∀ others,
        List.Forall₂ (ClientEvent.AnsweredAlike config) events others →
          run (Client.step boost hmac)
            (.start config nRestIoContexts nWebsockIoContexts) others =
              some t) ∧
      ∀ request ∈ t.requests,
        request.state.started <+:
            RestOp.read.chainTo config.restApiUri config.restPort ∧
          ∀ req, request.state.session.req = some req →
            req.host = config.restApiUri ∧ req.apiKey = api ∧
              req.target = pathToSend (request.birth.env hmac) secret
                request.birth.path (request.birth.sign == .hmacSha256)
                request.birth.params := by
  obtain ⟨rfl, hkeys⟩ :=
    makeFileConfig_keyFileText hname hapi hsecret hfile hmade
  obtain ⟨hpair, hpeer⟩ := makeConfig_keys hkeys
  have hown : config.Made files isLive := .keys hkeys
  refine ⟨rfl, hpeer, hown.rest.own, ?_, ?_, ?_⟩
  · intro asked hasked
    obtain ⟨event, _, hevent⟩ := List.mem_filterMap.mp hasked
    unfold ClientEvent.asks at hevent
    split at hevent
    · obtain rfl := Option.some.inj hevent
      refine ⟨rfl, hown.restPort.symm, rfl, ?_⟩
      rw [UserDataCall.asks, UserDataCall.request, hpair]
    · contradiction
  · intro others halike
    exact Client.run_alike halike hrun
  · intro request hrequest
    obtain ⟨hbuilt, hstarted⟩ :=
      Client.requests_carry_their_call hrun request hrequest
    refine ⟨hstarted, ?_⟩
    intro req hreq
    rw [hbuilt] at hreq
    split at hreq
    · contradiction
    · obtain rfl := Option.some.inj hreq
      unfold RestCall.request
      rw [hpair]
      exact ⟨rfl, rfl, rfl⟩

/-- Every path names a file of keys for the test network. -/
def testKeyFiles : FileSystem := fun _ =>
  some (keyFileText false (ascii "key") (ascii "secret") true)

theorem test_keys_reach_the_test_network :
    ∃ config t, ConnectionConfig.makeFileConfig testKeyFiles false .usdm
        (ascii "keys.txt") = .ok config ∧
      run (Client.step sampleBoost sampleEnvironment.hmac)
        (.start config 4 6) (testNetEvents .shutDown) = some t ∧
      run (Client.step sampleBoost sampleEnvironment.hmac)
        (.start config 4 6) (testNetEvents .operationAborted) = some t ∧
      ∀ request ∈ t.requests, ∀ req,
        request.state.session.req = some req →
          req.host = config.restApiUri ∧ req.apiKey = ascii "key" := by
  have hrun : ∃ config t, ConnectionConfig.makeFileConfig testKeyFiles false
        .usdm (ascii "keys.txt") = .ok config ∧
      config.restApiUri = ascii "testnet.binancefuture.com" ∧
      run (Client.step sampleBoost sampleEnvironment.hmac)
        (.start config 4 6) (testNetEvents .shutDown) = some t :=
    ⟨_, _, rfl, rfl, rfl⟩
  obtain ⟨config, t, hmade, hhost, hrun⟩ := hrun
  have hfile : testKeyFiles (ascii "keys.txt") =
      some (keyFileText false (ascii "key") (ascii "secret") true) := rfl
  obtain ⟨_, _, _, _, hothers, hrequests⟩ :=
    Client.keys_stay_in_their_environment (by decide) (by decide) (by decide)
      hfile hmade hrun
  have hasked : (testNetExchange .shutDown).answer
      ((UserDataCall.startUserData (some 1)
        (ascii "/fapi/v1/listenKey")).asks config) =
      (testNetExchange .operationAborted).answer
        ((UserDataCall.startUserData (some 1)
          (ascii "/fapi/v1/listenKey")).asks config) := by
    unfold Exchange.answer testNetExchange UserDataCall.asks
    rw [hhost]
    rfl
  refine ⟨config, t, hmade, hrun, hothers _ ?_, ?_⟩
  · exact .cons (.refl _) (.cons (.userData hasked)
      (.cons (.refl _) (.cons (.refl _) .nil)))
  · intro request hrequest req hreq
    obtain ⟨hreqHost, hkey, _⟩ := (hrequests request hrequest).2 req hreq
    exact ⟨hreqHost, hkey⟩

end Bblib
