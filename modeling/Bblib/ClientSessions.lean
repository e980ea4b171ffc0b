import Bblib.ClientRequests
import Bblib.WsDelivery
import Mathlib.Tactic

/-!
# The websocket sessions of a client

A session of a client is launched by one call, to the configured host, and
moved only by its own threads, its own completions and the stops of its token.
Every session of every run therefore follows the protocol and answers each of
its completions once, whatever the other sessions, the requests and the calls
of the user do in between.
-/

namespace Bblib

open LabelledRuns HostedRuns

/-- A session launched under the configuration. -/
def StartedWsSession.Starts (config : ConnectionConfig)
    (started : StartedWsSession) (run : WsRun) : Prop :=
  ∃ (f ioContext : ℕ) (target : Str),
    started = {
      ioContext := ioContext
      session := ⟨config.wsApiUri, target, some f, []⟩
      effects := [.start (.resolve config.wsApiUri config.wsPort)] } ∧
    run = started.launched

/-- The object knows the sessions that were started, and no others. -/
structure Client.Consistent (config : ConnectionConfig) (c : Client) :
    Prop where
  config : c.api.beast.config = config
  sessions : c.api.sessions = c.sessions.map Member.birth

/-! ## What the events of a run say of its sessions -/

/-- The target and the handler of the session an event opens. -/
def ClientEvent.opens (boost : Boost) (config : ConnectionConfig) :
    ClientEvent → Option (Str × ℕ)
  | .call called => called.opens boost config
  | _ => none

/-- The step of the session at an index, when the event says which it is: a
stop reaches the session its token is registered for. -/
def ClientEvent.ofSession : ClientEvent → ℕ → Option WsEvent
  | .session moved event, index => if moved = index then some event else none
  | .closeCompletes moved close, index =>
      if moved = index then some (.closeCompletes close) else none
  | _, _ => none

def WsEvent.unstopped : WsEvent → Option WsEvent
  | .stopWebSocket _ => none
  | event => some event

/-- The steps of the session at an index, without the stops. -/
def eventsOf (events : List ClientEvent) (index : ℕ) : List WsEvent :=
  events.filterMap fun event => event.ofSession index

theorem map_birth_set {ι κ : Type*} {members : List (Member ι κ)}
    {index : ℕ} {member : Member ι κ} (hfound : members[index]? = some member)
    (next : κ) :
    (members.set index ⟨member.birth, next⟩).map Member.birth =
      members.map Member.birth := by
  have hbirth : (members.map Member.birth)[index]? = some member.birth := by
    rw [List.getElem?_map, hfound]
    rfl
  rw [List.map_set, set_self_of_getElem? hbirth]

section Sessions

variable {boost : Boost} {hmac : Hmac} {config : ConnectionConfig}
  {c next : Client} {event : ClientEvent}

theorem Client.Consistent.opened_sessions (hconsistent : c.Consistent config)
    (opened : List StartedWsSession) :
    (c.api.sessions ++ opened).drop c.sessions.length = opened := by
  have hlength : c.sessions.length = c.api.sessions.length := by
    rw [hconsistent.sessions, List.length_map]
  rw [hlength, List.drop_left]

theorem ClientCall.Ends.sessions
    {ended : Except Exn (Option WsToken) × ApiState} {s : ApiState}
    {opening : Option (Str × ℕ)} (hends : ClientCall.Ends s opening ended)
    (hconfig : s.beast.config = config) :
    ∃ opened : List StartedWsSession,
      ended.2.sessions = s.sessions ++ opened ∧
      opened.map (fun new => (new.session.path, new.session.callback)) =
        (opening.map fun o => (o.1, some o.2)).toList ∧
      (opened = [] ∨ ∃ started, opened = [started] ∧
        started.Starts config started.launched) := by
  cases hends with
  | keeps nothing onlyKey invalid =>
      exact ⟨[], by simp [onlyKey.sessions], by simp [nothing], .inl rfl⟩
  | opens f target key opening =>
      subst hconfig
      exact ⟨_, rfl, by simp [opening],
        .inr ⟨_, rfl, f, _, target, rfl, rfl⟩⟩

theorem Client.Moves.consistent
    (hmoves : Client.Moves boost hmac c event next)
    (hconsistent : c.Consistent config) : next.Consistent config where
  config := hmoves.config.trans hconsistent.config
  sessions := by
    have hsessions := hconsistent.sessions
    cases hmoves with
    | sends handler => exact hsessions
    | throws handler => exact hsessions
    | requests found stepped => exact hsessions
    | calls outcome ends =>
        obtain ⟨opened, hopened, _, _⟩ := ends.sessions hconsistent.config
        simp only [Client.afterCall, hopened, List.map_append,
          hconsistent.opened_sessions, List.map_map, Function.comp_def]
        rw [hsessions, List.map_id']
    | misses missing => exact hsessions
    | stops entry found stepped =>
        exact hsessions.trans (map_birth_set found _).symm
    | sessions own found stepped =>
        exact hsessions.trans (map_birth_set found _).symm
    | closes captured found stepped =>
        exact hsessions.trans (map_birth_set found _).symm

theorem Client.Moves.sessions_move
    (hmoves : Client.Moves boost hmac c event next)
    (hconsistent : c.Consistent config) :
    HostedRuns.Moves (StartedWsSession.step boost)
      (StartedWsSession.Starts config) WsEvent.unstopped event.ofSession
      c.sessions next.sessions := by
  cases hmoves with
  | sends handler => exact .keeps rfl fun _ => rfl
  | throws handler => exact .keeps rfl fun _ => rfl
  | requests found stepped => exact .keeps rfl fun _ => rfl
  | calls outcome ends =>
      obtain ⟨opened, hopened, _, hone⟩ := ends.sessions hconsistent.config
      have hdrop := hconsistent.opened_sessions opened
      rcases hone with rfl | ⟨started, rfl, hstarts⟩
      · refine .keeps ?_ fun _ => rfl
        unfold Client.afterCall
        rw [hopened, hdrop]
        exact List.append_nil _
      · refine .opens ⟨started, started.launched⟩ hstarts ?_ fun _ => rfl
        simp only [Client.afterCall, hopened, hdrop]
        rfl
  | misses missing => exact .keeps rfl fun _ => rfl
  | stops entry found stepped =>
      exact .moves _ _ _ _ found stepped rfl rfl fun _ _ => rfl
  | @sessions index event session run own found stepped =>
      have hown : event.unstopped = some event := by
        cases event <;> first | rfl | contradiction
      exact .moves _ _ _ _ found stepped rfl
        ((if_pos rfl).trans hown.symm) fun _ hother => if_neg (Ne.symm hother)
  | closes captured found stepped =>
      exact .moves _ _ _ _ found stepped rfl (if_pos rfl)
        fun _ hother => if_neg (Ne.symm hother)

/-- The target and the handler of each session a client has started. -/
def Client.started (c : Client) : List (Str × Callback) :=
  c.sessions.map fun session =>
    (session.birth.session.path, session.birth.session.callback)

theorem Client.Moves.started
    (hmoves : Client.Moves boost hmac c event next)
    (hconsistent : c.Consistent config) :
    next.started = c.started ++
      ((event.opens boost config).map fun o => (o.1, some o.2)).toList := by
  have hset : ∀ {index : ℕ} {session : ClientSession} (run : WsRun),
      c.sessions[index]? = some session →
        (c.sessions.set index ⟨session.birth, run⟩).map (fun session =>
          (session.birth.session.path, session.birth.session.callback)) =
            c.started := by
    intro index session run hfound
    have hbirths := congrArg (List.map fun birth : StartedWsSession =>
      (birth.session.path, birth.session.callback)) (map_birth_set hfound run)
    simpa [Client.started, Function.comp_def] using hbirths
  cases hmoves with
  | sends handler => exact (List.append_nil _).symm
  | throws handler => exact (List.append_nil _).symm
  | requests found stepped => exact (List.append_nil _).symm
  | calls outcome ends =>
      obtain ⟨opened, hopened, hstarts, _⟩ := ends.sessions hconsistent.config
      simp only [Client.started, Client.afterCall, hopened, List.map_append,
        hconsistent.opened_sessions, List.map_map, Function.comp_def]
      rw [hstarts, hconsistent.config]
      rfl
  | misses missing => exact (List.append_nil _).symm
  | stops entry found stepped =>
      exact (hset _ found).trans (List.append_nil _).symm
  | sessions own found stepped =>
      exact (hset _ found).trans (List.append_nil _).symm
  | closes captured found stepped =>
      exact (hset _ found).trans (List.append_nil _).symm

end Sessions

theorem Client.run_sessions {boost : Boost} {hmac : Hmac}
    {config : ConnectionConfig} {nRestIoContexts nWebsockIoContexts : ℕ}
    {events : List ClientEvent} {t : Client}
    (hrun : run (Client.step boost hmac)
      (.start config nRestIoContexts nWebsockIoContexts) events = some t) :
    t.Consistent config ∧
      ∀ index (session : ClientSession), t.sessions[index]? = some session →
        session.Reached (StartedWsSession.step boost)
          (StartedWsSession.Starts config) WsEvent.unstopped
          (eventsOf events index) := by
  refine reached_of_run (I := Client.Consistent config)
    Client.sessions ?_ ?_ ⟨rfl, rfl⟩ rfl hrun
  · intro c event next hconsistent hstep
    exact (Client.moves hstep).consistent hconsistent
  · intro c event next hconsistent hstep
    exact (Client.moves hstep).sessions_move hconsistent

/-- A trace of the session over the steps that were seen, with the protocol at
the same point. -/
structure ClientSession.Traced (boost : Boost) (config : ConnectionConfig)
    (session : ClientSession) (seen : List WsEvent) (p : WsProtocol)
    (t : SessionTrace) : Prop where
  same : t.run = session.state
  isSome : session.birth.session.callback.isSome = true
  completions : t.completions = seen.filterMap WsEvent.completion?
  closed : closes t.run.log = (seen.map WsEvent.isClose).sum
  reached : run (WsProtocol.step boost config.wsApiUri config.wsPort
      session.birth.session.path)
    (.start config.wsApiUri config.wsPort session.birth.session.path)
      t.completions = some p
  follows : ∀ f, session.birth.session.callback = some f →
    t.Follows f config.wsApiUri config.wsPort session.birth.session.path p
  accounts : t.Accounts

/-- Every session of a client has a trace, from the call that launched it. -/
theorem ClientSession.exists_trace {boost : Boost}
    {config : ConnectionConfig} {session : ClientSession}
    {seen : List WsEvent}
    (hreached : session.Reached (StartedWsSession.step boost)
      (StartedWsSession.Starts config) WsEvent.unstopped seen) :
    ∃ (f ioContext : ℕ) (target : Str) (labels : List WsEvent)
        (t : SessionTrace),
      session.birth = {
        ioContext := ioContext
        session := ⟨config.wsApiUri, target, some f, []⟩
        effects := [.start (.resolve config.wsApiUri config.wsPort)] } ∧
      run (SessionTrace.step boost) (.launch ⟨[], [], some f, []⟩
        config.wsApiUri config.wsPort target) labels = some t ∧
      t.run = session.state ∧ labels.filterMap WsEvent.unstopped = seen := by
  obtain ⟨start, labels, ⟨f, ioContext, target, hbirth, hstart⟩, hlabels,
    hseen⟩ := hreached
  let launch := SessionTrace.launch ⟨[], [], some f, []⟩ config.wsApiUri
    config.wsPort target
  have hlaunch : launch.run = start := by
    rw [hstart, hbirth]
    rfl
  have hrun : run (WsRun.step boost) launch.run labels =
      some session.state := by
    rw [hlaunch]
    exact hlabels
  obtain ⟨t, ht, hsame⟩ := SessionTrace.exists_run hrun
  exact ⟨f, ioContext, target, labels, t, hbirth, ht, hsame, hseen⟩

/-- The session has come to rest without another completion: every answer was
given, and every completed close was told. -/
structure ClientSession.Finishes (boost : Boost)
    (completions : List WsCompletion) (closed : ℕ) (old : ClientSession)
    (state : WsRun) : Prop where
  drained : state.Drained
  answered : ∀ kind ≠ .disconnect, ofState kind (calledWith state.log) =
    ofState kind (answers boost old.birth.session.callback completions)
  disconnects : (ofState .disconnect (calledWith state.log)).length = closed

section Answering

variable {boost : Boost} {config : ConnectionConfig}
  {session : ClientSession} {seen : List WsEvent} {p : WsProtocol}
  {t : SessionTrace}

theorem ClientSession.Traced.exists_handler
    (htraced : session.Traced boost config seen p t) :
    ∃ f, session.birth.session.callback = some f ∧
      t.Follows f config.wsApiUri config.wsPort session.birth.session.path p ∧
      answers boost session.birth.session.callback
          (seen.filterMap WsEvent.completion?) =
        p.responses.map fun r => (some f, r) := by
  obtain ⟨f, hf⟩ := Option.isSome_iff_exists.mp htraced.isSome
  refine ⟨f, hf, htraced.follows f hf, ?_⟩
  rw [hf, answers, (WsProtocol.follows_of_run htraced.reached).responses,
    htraced.completions]

/-- The threads of a session can finish it alone. -/
theorem ClientSession.Traced.exists_finish
    (htraced : session.Traced boost config seen p t) :
    ∃ labels state, run (WsRun.step boost) session.state labels = some state ∧
      (∀ label ∈ labels, label.internal = true) ∧
      session.Finishes boost (seen.filterMap WsEvent.completion?)
        (seen.map WsEvent.isClose).sum state := by
  obtain ⟨f, _, hfollows, hanswers⟩ := htraced.exists_handler
  obtain ⟨labels, done, hmore, hinternal, hdrained, hanswered,
    hdisconnects⟩ := htraced.accounts.exists_finish htraced.reached hfollows
  have hrun := SessionTrace.run_of_run hmore
  rw [htraced.same] at hrun
  refine ⟨labels, done.run, hrun, hinternal, hdrained, ?_, ?_⟩
  · intro kind hkind
    rw [hanswers]
    exact hanswered kind hkind
  · rw [hdisconnects, htraced.closed]

end Answering

/-- The steps a client can make for the threads of its sessions. -/
def StartedWsSession.internalStep (boost : Boost) (_ : StartedWsSession)
    (s : WsRun) (event : WsEvent) : Option WsRun :=
  if event.internal then s.step boost event else none

/-- A book ticker whose first message waits in the pool, and a second session
that is stopped before it has connected. -/
def twoSessions : List ClientEvent :=
  [.call (.startWebSocket (some 0) (.name (ascii "btcusdt@bookTicker"))),
    .call (.startWebSocket (some 1) (.vector [ascii "a", ascii "b"])),
    .session 0 (.complete (.resolve .success)), .session 0 .io,
    .session 0 (.complete (.connect .success 443 none)), .session 0 .io,
    .stopWebSocket ⟨2⟩ none,
    .session 0 (.complete (.sslHandshake .success)), .session 0 .io,
    .session 0 (.complete (.handshake .success)), .session 0 .io,
    .session 0 (.arrives "[]"), .session 0 .io,
    .session 1 (.complete (.resolve .operationAborted)), .session 1 .io]

end Bblib
