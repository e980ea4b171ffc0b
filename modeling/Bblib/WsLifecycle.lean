import Bblib.WsSessions
import Bblib.LabelledRuns
import Mathlib.Tactic

/-!
# Starting, stopping and closing websocket sessions

`startWebSocket`, `stopWebSocket` and the completions of the closes it starts,
each as one atomic step, in any order.  An entry of `m_wsSessions` lives until
the first close of its session completes, not until one is requested, so
several closes of one session can be under way.

`LifeTrace` keeps beside the object what the calls amount to: which ids were
issued, which of them were closed, whom each successful stop has to tell, and
which of the stops have been told.
-/

namespace Bblib

open LabelledRuns

/-! ## The machine -/

/-- What the lambda of `stopWebSocket` captured, and the number of the stop. -/
structure PendingClose where
  token : WsToken
  handler : Callback
  session : SharedPtr ℕ
  stop : ℕ

/-- The object, the closes under way and the number of closes so far. -/
structure WsLife where
  api : ApiState
  closing : List PendingClose
  stops : ℕ

/-- A call of one of the three overloads. -/
inductive StartCall where
  | name (streamName : Str)
  | vector (streams : List Str)
  | set (streams : StringSet)

def StartCall.run (handler : Callback) : StartCall → Api WsToken
  | .name streamName => startWebSocket handler streamName
  | .vector streams => startWebSocketVector handler streams
  | .set streams => startWebSocketSet handler streams

/-- What an overload passes to `createWsSession` as its path. -/
def StartCall.target : StartCall → Str
  | .name streamName => ascii "/ws/" ++ streamName
  | .vector streams => ascii "/stream?streams=" ++ writeStreams streams
  | .set streams => ascii "/stream?streams=" ++ writeStreams streams.elements

inductive LifeEvent where
  | start (handler : Callback) (call : StartCall)
  | stop (token : WsToken) (handler : Callback)
  | closeCompletes (index : ℕ)

/-- The event is a start that returns a token. -/
def LifeEvent.starts : LifeEvent → Bool
  | .start handler _ => handler.isSome
  | _ => false

namespace WsLife

def wsSessions (life : WsLife) : SessionMap ℕ := life.api.beast.wsSessions

def withSessions (life : WsLife) (sessions : SessionMap ℕ) : ApiState :=
  { life.api with beast := { life.api.beast with wsSessions := sessions } }

/-- `none` when the pointer `close` is called on is null. -/
def stopWebSocket (life : WsLife) (token : WsToken) (handler : Callback) :
    Option WsLife :=
  match life.wsSessions.find token.id with
  | none => some life
  | some _ =>
      let (closed, sessions) := life.wsSessions.index token.id
      let (captured, sessions) := sessions.index token.id
      match closed with
      | none => none
      | some _ =>
          some {
            api := life.withSessions sessions
            closing := life.closing ++ [⟨token, handler, captured, life.stops⟩]
            stops := life.stops + 1 }

/-- `session->handler()`, which is `none` through a null pointer. -/
def sessionHandler (life : WsLife) (session : SharedPtr ℕ) : Option Callback :=
  (session.bind fun pointer => life.api.sessions[pointer]?).map
    fun started => started.session.callback

/-- The lambda of `stopWebSocket`, called when the close has completed. -/
def onClosed (life : WsLife) (close : PendingClose) : Option ApiState :=
  let cb :=
    if close.handler.isSome then some close.handler
    else life.sessionHandler close.session
  match cb with
  | none => none
  | some cb =>
      some ((invoke cb (.ofState .disconnect)).outcome
        (life.withSessions (life.wsSessions.erase close.token.id))).2

def step (life : WsLife) : LifeEvent → Option WsLife
  | .start handler call =>
      some { life with api := ((call.run handler).outcome life.api).2 }
  | .stop token handler => life.stopWebSocket token handler
  | .closeCompletes index =>
      match life.closing[index]? with
      | none => none
      | some close =>
          (life.onClosed close).map fun api => { life with
            api := api
            closing := life.closing.eraseIdx index }

def fresh (config : ConnectionConfig) (nRestIoContexts nWebsockIoContexts : ℕ) :
    WsLife where
  api := ⟨.start config nRestIoContexts nWebsockIoContexts, [], []⟩
  closing := []
  stops := 0

end WsLife

/-! ## What one step does -/

theorem StartCall.run_eq (handler : Callback) (call : StartCall)
    (s : ApiState) :
    (call.run handler).outcome s =
      (createWsSession s.beast.config.wsApiUri call.target handler).outcome
        s := by
  cases call with
  | name streamName => exact Api.outcome_get_bind _ s
  | vector streams => exact Api.outcome_get_bind _ s
  | set streams => exact Api.outcome_get_bind _ s

theorem WsLife.step_stop_of_none {life : WsLife} {token : WsToken}
    (hmissing : life.wsSessions token.id = none) (handler : Callback) :
    life.step (.stop token handler) = some life := by
  simp [step, stopWebSocket, SessionMap.find, hmissing]

theorem WsLife.step_stop_of_some {life : WsLife} {token : WsToken}
    {pointer : ℕ} (hentry : life.wsSessions token.id = some (some pointer))
    (handler : Callback) :
    life.step (.stop token handler) = some { life with
      closing := life.closing ++ [⟨token, handler, some pointer, life.stops⟩]
      stops := life.stops + 1 } := by
  simp only [step, stopWebSocket, SessionMap.find, hentry,
    SessionMap.index_of_some hentry]
  rfl

theorem WsLife.step_closeCompletes {life : WsLife} {index : ℕ}
    {close : PendingClose} {cb : Callback}
    (hpending : life.closing[index]? = some close)
    (hcallback : (if close.handler.isSome then some close.handler
      else life.sessionHandler close.session) = some cb) :
    life.step (.closeCompletes index) = some { life with
      api := ((invoke cb (.ofState .disconnect)).outcome
        (life.withSessions (life.wsSessions.erase close.token.id))).2
      closing := life.closing.eraseIdx index } := by
  simp only [step, hpending, onClosed, hcallback, Option.map_some]

/-- Everything a start, a stop or a completion can do. -/
inductive WsLife.Moves (life : WsLife) : LifeEvent → WsLife → Prop where
  | starts {f : ℕ} {call : StartCall} {started : StartedWsSession}
      {ioContext : ℕ}
      (callback : started.session.callback = some f)
      (returns : ((call.run (some f)).outcome life.api).1 =
        .ok ⟨life.api.beast.nextWsId⟩) :
      Moves life (.start (some f) call) { life with
        api := { life.api with
          beast := { life.api.beast with
            nextWsIoContext := ioContext
            nextWsId := life.api.beast.nextWsId + 1
            wsSessions := life.wsSessions.assign life.api.beast.nextWsId
              life.api.sessions.length }
          sessions := life.api.sessions ++ [started] } }
  | throws {call : StartCall}
      (throws : ∃ e, ((call.run none).outcome life.api).1 = .error e) :
      Moves life (.start none call) life
  | misses {token : WsToken} {handler : Callback}
      (missing : life.wsSessions token.id = none) :
      Moves life (.stop token handler) life
  | stops {token : WsToken} {handler : Callback} {pointer : ℕ}
      (entry : life.wsSessions token.id = some (some pointer)) :
      Moves life (.stop token handler) { life with
        closing := life.closing ++
          [⟨token, handler, some pointer, life.stops⟩]
        stops := life.stops + 1 }
  | closes {index : ℕ} {close : PendingClose} {cb : Callback}
      (pending : life.closing[index]? = some close)
      (callback : (if close.handler.isSome then some close.handler
        else life.sessionHandler close.session) = some cb) :
      Moves life (.closeCompletes index) { life with
        api := ((invoke cb (.ofState .disconnect)).outcome
          (life.withSessions (life.wsSessions.erase close.token.id))).2
        closing := life.closing.eraseIdx index }

theorem WsLife.moves {life next : WsLife} {event : LifeEvent}
    (hstep : life.step event = some next) : life.Moves event next := by
  cases event with
  | start handler call =>
      obtain rfl := Option.some.inj hstep
      have hrun := call.run_eq handler life.api
      cases handler with
      | none =>
          have hthrows : (call.run none).outcome life.api =
              (.error (.runtimeError (ascii "callback is null")), life.api) :=
            hrun
          rw [hthrows]
          exact .throws ⟨_, congrArg Prod.fst hthrows⟩
      | some f =>
          rw [hrun]
          exact .starts rfl (congrArg Prod.fst hrun)
  | stop token handler =>
      cases hentry : life.wsSessions token.id with
      | none =>
          rw [step_stop_of_none hentry] at hstep
          obtain rfl := Option.some.inj hstep
          exact .misses hentry
      | some pointer =>
          cases pointer with
          | none =>
              simp [step, stopWebSocket, SessionMap.find, hentry,
                SessionMap.index_of_some hentry] at hstep
          | some pointer =>
              rw [step_stop_of_some hentry] at hstep
              obtain rfl := Option.some.inj hstep
              exact .stops hentry
  | closeCompletes index =>
      cases hpending : life.closing[index]? with
      | none => simp [step, hpending] at hstep
      | some close =>
          cases hcallback : (if close.handler.isSome then some close.handler
              else life.sessionHandler close.session) with
          | none => simp [step, hpending, onClosed, hcallback] at hstep
          | some cb =>
              rw [step_closeCompletes hpending hcallback] at hstep
              obtain rfl := Option.some.inj hstep
              exact .closes hpending hcallback

end Bblib
