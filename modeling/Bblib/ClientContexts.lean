import Bblib.ClientSessions
import Bblib.RoundRobin
import Mathlib.Tactic

/-!
# The contexts of the sessions

`getRestIoContext` and `getWsIoContext` hand out the contexts in turn, each
from a position of its own.  A request moves the one position, a websocket
session the other, and nothing else moves either, so both kinds of sessions are
spread evenly over their contexts in every run.
-/

namespace Bblib

open LabelledRuns HostedRuns RoundRobin

/-- The positions have served the sessions there are, and every session runs on
the context it was given. -/
structure Client.Balanced (n m : ℕ) (c : Client) : Prop where
  restThreads : c.api.beast.restIocThreads = n
  wsThreads : c.api.beast.wsIocThreads = m
  nextRest : c.api.beast.nextRestIoContext = c.requests.length % n
  nextWs : c.api.beast.nextWsIoContext = c.sessions.length % m
  requests : c.requests.map (fun request => request.state.session.executor) =
    (turns n c.requests.length).map .strand
  sessions : c.sessions.map (fun session => session.birth.ioContext) =
    turns m c.sessions.length

theorem nextIoContext_turn {size : ℕ} (hsize : 0 < size) (visitor : ℕ) :
    nextIoContext (visitor % size) size = (visitor + 1) % size :=
  next_turn hsize visitor

/-- The session a call opens. -/
def launchedSession (s : ApiState) (f : ℕ) (target : Str) : ClientSession :=
  let started : StartedWsSession := {
    ioContext := s.beast.nextWsIoContext
    session := ⟨s.beast.config.wsApiUri, target, some f, []⟩
    effects := [.start (.resolve s.beast.config.wsApiUri
      s.beast.config.wsPort)] }
  ⟨started, started.launched⟩

section Balanced

variable {boost : Boost} {hmac : Hmac} {config : ConnectionConfig}
  {n m : ℕ} {c next : Client} {event : ClientEvent}

theorem RestRun.step_executor {o : StageOutcomes} {s after : RestRun}
    {event : RestEvent} (hstep : s.step boost o event = some after) :
    after.session.executor = s.session.executor := by
  rw [RestRun.step_session hstep]

theorem RestCall.launched_executor (boost : Boost) (hmac : Hmac)
    (beast : BinanceBeast) (call : RestCall) :
    (call.launched boost hmac beast).session.executor =
      .strand beast.nextRestIoContext := by
  unfold RestCall.launched RestRun.launch RestSession.run
  cases call.outcomes.sni with
  | some ec => rw [RestRun.performAll_session]; rfl
  | none => rw [RestRun.performAll_session]; rfl

theorem map_ioContext_set {sessions : List ClientSession} {index : ℕ}
    {session : ClientSession} (hfound : sessions[index]? = some session)
    (after : WsRun) :
    (sessions.set index ⟨session.birth, after⟩).map
        (fun session => session.birth.ioContext) =
      sessions.map fun session => session.birth.ioContext := by
  have hbirths := congrArg (List.map StartedWsSession.ioContext)
    (map_birth_set hfound after)
  rw [List.map_map, List.map_map] at hbirths
  exact hbirths

/-- A call that opens a session adds it to the ones there are. -/
theorem Client.afterCall_opened (hconsistent : c.Consistent config) (f : ℕ)
    (target key : Str) :
    (c.afterCall (.ok (some ⟨c.api.beast.nextWsId⟩),
      (c.api.withKey key).opened f c.api.beast.config.wsApiUri
        target)).sessions =
      c.sessions ++ [launchedSession c.api f target] := by
  have hstate : ((c.api.withKey key).opened f c.api.beast.config.wsApiUri
      target).sessions =
        c.api.sessions ++ [(launchedSession c.api f target).birth] := rfl
  unfold Client.afterCall
  rw [hstate, hconsistent.opened_sessions]
  rfl

theorem Client.Balanced.moveSession (hbalanced : c.Balanced n m)
    {api : ApiState} {index : ℕ} {session : ClientSession} {after : WsRun}
    {captured : ℕ → List WsToken}
    (hfound : c.sessions[index]? = some session)
    (hsessions : api = c.api ∨ ∃ sessions, api = c.withSessions sessions) :
    Client.Balanced n m { c with
      api := api
      sessions := c.sessions.set index ⟨session.birth, after⟩
      captured := captured } := by
  have hbeast : api.beast.restIocThreads = c.api.beast.restIocThreads ∧
      api.beast.wsIocThreads = c.api.beast.wsIocThreads ∧
      api.beast.nextRestIoContext = c.api.beast.nextRestIoContext ∧
      api.beast.nextWsIoContext = c.api.beast.nextWsIoContext := by
    rcases hsessions with rfl | ⟨sessions, rfl⟩
    · exact ⟨rfl, rfl, rfl, rfl⟩
    · exact ⟨rfl, rfl, rfl, rfl⟩
  obtain ⟨hrest, hws, hnextRest, hnextWs⟩ := hbeast
  exact {
    restThreads := hrest.trans hbalanced.restThreads
    wsThreads := hws.trans hbalanced.wsThreads
    nextRest := hnextRest.trans hbalanced.nextRest
    nextWs := by
      rw [List.length_set]
      exact hnextWs.trans hbalanced.nextWs
    requests := hbalanced.requests
    sessions := by
      rw [List.length_set, map_ioContext_set hfound]
      exact hbalanced.sessions }

theorem Client.Balanced.step (hbalanced : c.Balanced n m) (hn : 0 < n)
    (hm : 0 < m) (hconsistent : c.Consistent config)
    (hmoves : Client.Moves boost hmac c event next) : next.Balanced n m := by
  cases hmoves with
  | @sends call f handler =>
      have hexecutor := call.launched_executor boost hmac c.api.beast
      exact {
        restThreads := hbalanced.restThreads
        wsThreads := hbalanced.wsThreads
        nextRest := by
          have hturn := nextIoContext_turn hn c.requests.length
          rw [← hbalanced.nextRest] at hturn
          simpa [Client.sent, BinanceBeast.getRestIoContext,
            hbalanced.restThreads] using hturn
        nextWs := hbalanced.nextWs
        requests := by
          simp only [Client.sent, List.map_append, List.map_cons,
            List.map_nil, List.length_append, List.length_singleton,
            turns_succ, hbalanced.requests, hexecutor, hbalanced.nextRest]
        sessions := hbalanced.sessions }
  | throws handler => exact hbalanced
  | @requests index event request after found stepped =>
      have hexecutor := RestRun.step_executor stepped
      exact {
        restThreads := hbalanced.restThreads
        wsThreads := hbalanced.wsThreads
        nextRest := by
          rw [List.length_set]
          exact hbalanced.nextRest
        nextWs := hbalanced.nextWs
        requests := by
          have hsame : (c.requests.map fun request =>
              request.state.session.executor)[index]? =
                some after.session.executor := by
            rw [List.getElem?_map, found, hexecutor]
            rfl
          rw [List.map_set, set_self_of_getElem? hsame, List.length_set]
          exact hbalanced.requests
        sessions := hbalanced.sessions }
  | calls outcome ends =>
      cases ends with
      | @keeps result t nothing onlyKey invalid =>
          have hsame : (c.afterCall (result, t)).sessions = c.sessions := by
            have hopened := hconsistent.opened_sessions []
            rw [List.append_nil] at hopened
            unfold Client.afterCall
            rw [onlyKey.sessions, hopened]
            exact List.append_nil _
          have hbeast : (c.afterCall (result, t)).api.beast =
              { c.api.beast with listenKey := t.beast.listenKey } :=
            onlyKey.beast
          exact {
            restThreads := by
              rw [hbeast]
              exact hbalanced.restThreads
            wsThreads := by
              rw [hbeast]
              exact hbalanced.wsThreads
            nextRest := by
              rw [hbeast]
              exact hbalanced.nextRest
            nextWs := by
              rw [hbeast, hsame]
              exact hbalanced.nextWs
            requests := hbalanced.requests
            sessions := by
              rw [hsame]
              exact hbalanced.sessions }
      | opens f target key opening =>
          have hsessions := Client.afterCall_opened hconsistent f target key
          exact {
            restThreads := hbalanced.restThreads
            wsThreads := hbalanced.wsThreads
            nextRest := hbalanced.nextRest
            nextWs := by
              have hturn := nextIoContext_turn hm c.sessions.length
              rw [← hbalanced.nextWs, ← hbalanced.wsThreads] at hturn
              rw [hsessions, List.length_append, List.length_singleton,
                ← hbalanced.wsThreads]
              exact hturn
            requests := hbalanced.requests
            sessions := by
              rw [hsessions, List.map_append, List.length_append,
                List.length_singleton, turns_succ, hbalanced.sessions,
                ← hbalanced.nextWs]
              rfl }
  | misses missing => exact hbalanced
  | stops entry found stepped => exact hbalanced.moveSession found (.inl rfl)
  | sessions own found stepped => exact hbalanced.moveSession found (.inl rfl)
  | closes captured found stepped =>
      exact hbalanced.moveSession found (.inr ⟨_, rfl⟩)

end Balanced

/-- In every run of a client with contexts of both kinds the `k`-th request
runs on a strand of REST context `k % n` and the `k`-th websocket session on
websocket context `k % m`, and no context has two sessions more than another
of its kind. -/
theorem Client.contexts_are_balanced {boost : Boost} {hmac : Hmac}
    {config : ConnectionConfig} {nRestIoContexts nWebsockIoContexts : ℕ}
    {events : List ClientEvent} {t : Client} (hrest : 0 < nRestIoContexts)
    (hws : 0 < nWebsockIoContexts)
    (hrun : run (Client.step boost hmac)
      (.start config nRestIoContexts nWebsockIoContexts) events = some t) :
    t.requests.map (fun request => request.state.session.executor) =
        (List.range t.requests.length).map
          (fun k => .strand (k % min nRestIoContexts 24)) ∧
      t.sessions.map (fun session => session.birth.ioContext) =
        (List.range t.sessions.length).map
          (fun k => k % min nWebsockIoContexts 24) ∧
      (∀ first < min nRestIoContexts 24, ∀ second < min nRestIoContexts 24,
        t.requests.countP (fun request =>
            request.state.session.executor = .strand first) ≤
          t.requests.countP (fun request =>
            request.state.session.executor = .strand second) + 1) ∧
      ∀ first < min nWebsockIoContexts 24, ∀ second < min nWebsockIoContexts 24,
        t.sessions.countP (fun session => session.birth.ioContext = first) ≤
          t.sessions.countP (fun session =>
            session.birth.ioContext = second) + 1 := by
  let n := min nRestIoContexts 24
  let m := min nWebsockIoContexts 24
  have hn : 0 < n := by omega
  have hm : 0 < m := by omega
  have hstart : (Client.start config nRestIoContexts
      nWebsockIoContexts).Balanced n m := by
    constructor <;> simp [Client.start, BinanceBeast.start, turns, n, m]
  have hbalanced : t.Consistent config ∧ t.Balanced n m := by
    refine invariant_of_run
      (I := fun c : Client => c.Consistent config ∧ c.Balanced n m)
      ?_ ⟨⟨rfl, rfl⟩, hstart⟩ (meets_true _ _ _) hrun
    intro c event next hc _ hstep
    have hmoves := Client.moves hstep
    exact ⟨hmoves.consistent hc.1, hc.2.step hn hm hc.1 hmoves⟩
  obtain ⟨_, _, _, _, _, hrequests, hsessions⟩ := hbalanced
  have hrequestCount : ∀ context, t.requests.countP (fun request =>
      request.state.session.executor = .strand context) =
        (turns n t.requests.length).count context := by
    intro context
    have hinjective : Function.Injective Executor.strand :=
      fun _ _ heq => Executor.strand.inj heq
    rw [← List.count_map_of_injective _ _ hinjective, ← hrequests,
      List.count, List.countP_map]
    rfl
  have hsessionCount : ∀ context, t.sessions.countP (fun session =>
      session.birth.ioContext = context) =
        (turns m t.sessions.length).count context := by
    intro context
    rw [← hsessions, List.count, List.countP_map]
    rfl
  refine ⟨?_, hsessions, ?_, ?_⟩
  · rw [hrequests, turns, List.map_map]
    rfl
  · intro first hfirst second hsecond
    rw [hrequestCount, hrequestCount]
    exact count_turns_le_succ hfirst hsecond _
  · intro first hfirst second hsecond
    rw [hsessionCount, hsessionCount]
    exact count_turns_le_succ hfirst hsecond _

/-- Three requests and two sessions on two contexts each. -/
def fiveSessions : List ClientEvent :=
  [.send (sampleCall 0 sampleOutcomes), .send (sampleCall 1 sampleOutcomes),
    .send (sampleCall 2 sampleOutcomes)] ++ twoSessions

theorem five_sessions_are_balanced :
    ∃ t, run (Client.step sampleBoost sampleEnvironment.hmac)
        (.start sampleBeast.config 2 2) fiveSessions = some t ∧
      t.requests.map (fun request => request.state.session.executor) =
        [.strand 0, .strand 1, .strand 0] ∧
      t.sessions.map (fun session => session.birth.ioContext) = [0, 1] := by
  have hrun : ∃ t, run (Client.step sampleBoost sampleEnvironment.hmac)
      (.start sampleBeast.config 2 2) fiveSessions = some t ∧
        t.requests.length = 3 ∧ t.sessions.length = 2 := ⟨_, rfl, rfl, rfl⟩
  obtain ⟨t, hrun, hrequests, hsessions⟩ := hrun
  obtain ⟨hexecutors, hcontexts, _⟩ :=
    Client.contexts_are_balanced (by norm_num) (by norm_num) hrun
  rw [hrequests] at hexecutors
  rw [hsessions] at hcontexts
  exact ⟨t, hrun, hexecutors, hcontexts⟩

end Bblib
