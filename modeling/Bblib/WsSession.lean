import Bblib.Common
import Bblib.LabelledRuns
import Mathlib.Tactic

/-!
# The websocket session

`WsSession` of `BinanceWebsockets.h`.  As for the REST session every
completion handler is translated to the list of effects it has.  `WsRun` puts
the session between the two threads that can be inside the user's handler: the
thread of its io context, which executes the effects of one completion handler
after the other, and the single worker of `m_handlersPool`, which takes queued
calls in first-in first-out order.

The pool is not part of the repository, and what the machine says of it is an
assumption: it has one worker, which runs the queued calls one at a time and
first in first out, and it loses none of them.  Its queue has no bound here: a
full pool makes the io thread wait, which is one of the orders in which the two
can move.  Of the network it is assumed that an operation that is started, and
a close, completes at most once.

A call of the user's handler has a beginning and an end, and the other thread
may move in between.  Every call is marked with the number of the completion
that caused it, and the log keeps beginnings and ends in the order in which
they happen.
-/

namespace Bblib

open LabelledRuns

structure WsSession where
  host : Str
  path : Str
  callback : Callback
  buffer : Str

inductive WsOp where
  | resolve (host port : Str)
  | connect
  | sslHandshake
  | handshake (host path : Str)
  | read

abbrev WsEffect := Effect WsResponse WsOp

/-- What an operation reports when it completes.  The completion of a connect
carries the port of the endpoint and the error of a failed
`SSL_set_tlsext_host_name`, that of a read the bytes added to the buffer. -/
inductive WsCompletion where
  | resolve (ec : ErrorCode)
  | connect (ec : ErrorCode) (port : ℕ) (sni : Option ErrorCode)
  | sslHandshake (ec : ErrorCode)
  | handshake (ec : ErrorCode)
  | read (ec : ErrorCode) (data : Str)

namespace WsSession

def run (session : WsSession) (host port path : Str) :
    WsSession × List WsEffect :=
  ({ session with host := host, path := path }, [.start (.resolve host port)])

def onResolve (boost : Boost) (session : WsSession) (ec : ErrorCode) :
    List WsEffect :=
  if ec.failed then failOnThread boost ec "resolve" session.callback
  else [.start .connect]

def onConnect (boost : Boost) (session : WsSession) (ec : ErrorCode)
    (port : ℕ) (sni : Option ErrorCode) : WsSession × List WsEffect :=
  if ec.failed then
    (session, failOnThread boost ec "connect" session.callback)
  else
    let session := { session with
      host := session.host ++ ascii ":" ++ decimal port }
    match sni with
    | some ec => (session, failOnThread boost ec "connect" session.callback)
    | none => (session, [.start .sslHandshake])

def onSslHandshake (boost : Boost) (session : WsSession) (ec : ErrorCode) :
    List WsEffect :=
  if ec.failed then failOnThread boost ec "ssl handshake" session.callback
  else [.start (.handshake session.host session.path)]

def onHandshake (boost : Boost) (session : WsSession) (ec : ErrorCode) :
    List WsEffect :=
  if ec.failed then failOnThread boost ec "handshake" session.callback
  else [.start .read]

/-- The error codes `on_read` returns on without a report. -/
def silent (ec : ErrorCode) : Bool :=
  ec == .shutDown || ec == .operationAborted

def onRead (boost : Boost) (session : WsSession) (ec : ErrorCode) :
    List WsEffect :=
  if silent ec then []
  else if ec.failed then failOnThread boost ec "read" session.callback
  else
    let report : List WsEffect :=
      match boost.parse session.buffer with
      | .error jsonEc => failOnThread boost jsonEc "json read" session.callback
      | .ok jsonValue =>
          [.post session.callback (WsResponse.ofJson jsonValue)]
    report ++ [.clearBuffer, .start .read]

/-- The completion handler bound to an operation, with the bytes a read left
in the buffer. -/
def onCompletion (boost : Boost) (session : WsSession) :
    WsOp → WsCompletion → Option (WsSession × List WsEffect)
  | .resolve _ _, .resolve ec => some (session, session.onResolve boost ec)
  | .connect, .connect ec port sni =>
      some (session.onConnect boost ec port sni)
  | .sslHandshake, .sslHandshake ec =>
      some (session, session.onSslHandshake boost ec)
  | .handshake _ _, .handshake ec =>
      some (session, session.onHandshake boost ec)
  | .read, .read ec data =>
      let session := { session with buffer := session.buffer ++ data }
      some (session, session.onRead boost ec)
  | _, _ => none

/-- The completion of `async_close`, as `stopWebSocket` binds it: the handler
of the call, or the one of the session when that is null. -/
def onClose (session : WsSession) (handler : Callback) : List WsEffect :=
  [.call (if handler.isSome then handler else session.callback)
    (WsResponse.ofState .disconnect)]

end WsSession

/-! ## The session between its threads -/

structure Invocation where
  cause : ℕ
  handler : Callback
  response : WsResponse

inductive WsLog where
  | begins (invocation : Invocation)
  | ends (invocation : Invocation)
  | stopped
  | closed

/-- `script` is what the running completion handler has still to do, `ioCall`
the call it is inside of, `closing` the handlers of the closes under way, any
of which can complete next. -/
structure WsRun where
  session : WsSession
  pending : Option WsOp
  script : List WsEffect
  ioCall : Option Invocation
  queue : List Invocation
  worker : Option Invocation
  closing : List Callback
  completions : ℕ
  log : List WsLog

inductive WsEvent where
  | complete (completion : WsCompletion)
  | io
  | ioReturns
  | workerStarts
  | workerReturns
  | stopWebSocket (handler : Callback)
  | closeCompletes (index : ℕ)

namespace WsRun

/-- The io thread executes one effect of its completion handler. -/
def perform (s : WsRun) (rest : List WsEffect) : WsEffect → WsRun
  | .call handler response =>
      let invocation := ⟨s.completions, handler, response⟩
      { s with
        script := rest
        ioCall := some invocation
        log := s.log ++ [.begins invocation] }
  | .post handler response =>
      { s with
        script := rest
        queue := s.queue ++ [⟨s.completions, handler, response⟩] }
  | .start op => { s with script := rest, pending := some op }
  | .clearBuffer =>
      { s with script := rest, session := { s.session with buffer := [] } }

def step (boost : Boost) (s : WsRun) : WsEvent → Option WsRun
  | .complete completion =>
      match s.script, s.ioCall, s.pending with
      | [], none, some op =>
          match s.session.onCompletion boost op completion with
          | none => none
          | some (session, effects) =>
              some { s with
                session := session
                pending := none
                script := effects
                completions := s.completions + 1 }
      | _, _, _ => none
  | .io =>
      match s.script, s.ioCall with
      | effect :: rest, none => some (s.perform rest effect)
      | _, _ => none
  | .ioReturns =>
      match s.ioCall with
      | none => none
      | some invocation =>
          some { s with ioCall := none, log := s.log ++ [.ends invocation] }
  | .workerStarts =>
      match s.worker, s.queue with
      | none, invocation :: rest =>
          some { s with
            worker := some invocation
            queue := rest
            log := s.log ++ [.begins invocation] }
      | _, _ => none
  | .workerReturns =>
      match s.worker with
      | none => none
      | some invocation =>
          some { s with worker := none, log := s.log ++ [.ends invocation] }
  | .stopWebSocket handler =>
      some { s with
        closing := s.closing ++ [handler]
        log := s.log ++ [.stopped] }
  | .closeCompletes index =>
      match s.script, s.ioCall, s.closing[index]? with
      | [], none, some handler =>
          some { s with
            script := s.session.onClose handler
            closing := s.closing.eraseIdx index
            completions := s.completions + 1
            log := s.log ++ [.closed] }
      | _, _, _ => none

/-- Everything one step can do, with the state it is enabled in. -/
inductive Moves (boost : Boost) (s : WsRun) : WsEvent → WsRun → Prop where
  | completes {op : WsOp} {completion : WsCompletion} {session : WsSession}
      {effects : List WsEffect}
      (script : s.script = []) (ioCall : s.ioCall = none)
      (pending : s.pending = some op)
      (handled : s.session.onCompletion boost op completion =
        some (session, effects)) :
      Moves boost s (.complete completion)
        { s with
          session := session
          pending := none
          script := effects
          completions := s.completions + 1 }
  | performs {effect : WsEffect} {rest : List WsEffect}
      (script : s.script = effect :: rest) (ioCall : s.ioCall = none) :
      Moves boost s .io (s.perform rest effect)
  | ioReturns {invocation : Invocation}
      (ioCall : s.ioCall = some invocation) :
      Moves boost s .ioReturns
        { s with ioCall := none, log := s.log ++ [.ends invocation] }
  | workerStarts {invocation : Invocation} {rest : List Invocation}
      (worker : s.worker = none) (queue : s.queue = invocation :: rest) :
      Moves boost s .workerStarts
        { s with
          worker := some invocation
          queue := rest
          log := s.log ++ [.begins invocation] }
  | workerReturns {invocation : Invocation}
      (worker : s.worker = some invocation) :
      Moves boost s .workerReturns
        { s with worker := none, log := s.log ++ [.ends invocation] }
  | stops {handler : Callback} :
      Moves boost s (.stopWebSocket handler)
        { s with
          closing := s.closing ++ [handler]
          log := s.log ++ [.stopped] }
  | closes {index : ℕ} {handler : Callback}
      (script : s.script = []) (ioCall : s.ioCall = none)
      (closing : s.closing[index]? = some handler) :
      Moves boost s (.closeCompletes index)
        { s with
          script := s.session.onClose handler
          closing := s.closing.eraseIdx index
          completions := s.completions + 1
          log := s.log ++ [.closed] }

theorem moves {boost : Boost} {s next : WsRun} {event : WsEvent}
    (hstep : s.step boost event = some next) : Moves boost s event next := by
  cases event with
  | complete completion =>
      simp only [step] at hstep
      split at hstep
      · rename_i op hscript hioCall hpending
        split at hstep
        · contradiction
        · rename_i session effects hhandled
          obtain rfl := Option.some.inj hstep
          exact .completes hscript hioCall hpending hhandled
      · contradiction
  | io =>
      simp only [step] at hstep
      split at hstep
      · rename_i effect rest hscript hioCall
        obtain rfl := Option.some.inj hstep
        exact .performs hscript hioCall
      · contradiction
  | ioReturns =>
      simp only [step] at hstep
      split at hstep
      · contradiction
      · rename_i invocation hioCall
        obtain rfl := Option.some.inj hstep
        exact .ioReturns hioCall
  | workerStarts =>
      simp only [step] at hstep
      split at hstep
      · rename_i invocation rest hworker hqueue
        obtain rfl := Option.some.inj hstep
        exact .workerStarts hworker hqueue
      · contradiction
  | workerReturns =>
      simp only [step] at hstep
      split at hstep
      · contradiction
      · rename_i invocation hworker
        obtain rfl := Option.some.inj hstep
        exact .workerReturns hworker
  | stopWebSocket handler =>
      obtain rfl := Option.some.inj hstep
      exact .stops
  | closeCompletes index =>
      simp only [step] at hstep
      split at hstep
      · rename_i handler hscript hioCall hclosing
        obtain rfl := Option.some.inj hstep
        exact .closes hscript hioCall hclosing
      · contradiction

/-- What a caller leaves behind when `WsSession::run` returns. -/
def launch (session : WsSession) (host port path : Str) : WsRun where
  session := (session.run host port path).1
  pending := some (.resolve host port)
  script := []
  ioCall := none
  queue := []
  worker := none
  closing := []
  completions := 0
  log := []

/-- The handshake has succeeded and the first read is under way. -/
def established (session : WsSession) (completions : ℕ) : WsRun where
  session := { session with buffer := [] }
  pending := some .read
  script := []
  ioCall := none
  queue := []
  worker := none
  closing := []
  completions := completions
  log := []

end WsRun

def bookTickerSession : WsSession where
  host := ascii "stream.binancefuture.com:443"
  path := ascii "/ws/btcusdt@bookTicker"
  callback := some 0
  buffer := []

/-- The arrival of one message, whether or not it is JSON. -/
def WsEvent.arrives (data : String) : WsEvent :=
  .complete (.read .success (ascii data))

end Bblib
