import Bblib.Common
import Bblib.LabelledRuns
import Mathlib.Tactic

/-!
# The REST session

`RestSession` of `BinanceRest.h` is a chain of completion handlers.  Each
handler is translated to the list of effects it has; `RestRun` puts a session
among the operation it waits for, the jobs of `m_restCallersThreadPool` and
the invocations of the user's callback made so far.

The machine has two kinds of steps: the pending operation completes, or a
thread of the pool runs one of the posted jobs.  How every stage ends is given
by `StageOutcomes`, so a theorem about all runs and all outcomes covers every
sequence of completions the network can produce.

Two things are assumed of the libraries: an operation that is started
completes once, and a job that is posted to the pool is run once, by any of
its threads and in any order.
-/

namespace Bblib

open LabelledRuns

inductive RequestType where
  | get
  | post
  | delete
  | put
  deriving DecidableEq

inductive Verb where
  | get
  | post
  | put
  | delete
  deriving DecidableEq

/-- The map `RequestToVerb`. -/
def RequestType.toVerb : RequestType → Verb
  | .get => .get
  | .post => .post
  | .put => .put
  | .delete => .delete

structure HttpRequest where
  version : ℕ
  method : Verb
  target : Str
  host : Str
  userAgent : Str
  apiKey : Str

def userAgent : Str := ascii "binancebeast"

structure ConnectionKeys where
  api : Str
  secret : Str

/-- The executor a session runs its completion handlers on. -/
inductive Executor where
  | strand (ioContext : ℕ)
  | context (ioContext : ℕ)
  deriving DecidableEq

structure RestSession where
  executor : Executor
  apiKeys : ConnectionKeys
  callback : Callback
  req : Option HttpRequest
  res : HttpResponse

inductive RestOp where
  | resolve (host port : Str)
  | connect
  | handshake
  | write
  | read
  deriving DecidableEq

abbrev RestEffect := Effect RestResponse RestOp

namespace RestSession

def run (boost : Boost) (session : RestSession) (sni : Option ErrorCode)
    (host port target : Str) (version : ℕ) (type : RequestType) :
    RestSession × List RestEffect :=
  match sni with
  | some ec => (session, failOnPool boost ec "SNI hostname" session.callback)
  | none =>
      ({ session with
          req := some {
            version := version
            method := type.toVerb
            target := target
            host := host
            userAgent := userAgent
            apiKey := session.apiKeys.api } },
        [.start (.resolve host port)])

def onResolve (boost : Boost) (session : RestSession) (ec : ErrorCode) :
    List RestEffect :=
  if ec.failed then failOnPool boost ec "resolve" session.callback
  else [.start .connect]

def onConnect (boost : Boost) (session : RestSession) (ec : ErrorCode) :
    List RestEffect :=
  if ec.failed then failOnPool boost ec "connect" session.callback
  else [.start .handshake]

def onHandshake (boost : Boost) (session : RestSession) (ec : ErrorCode) :
    List RestEffect :=
  if ec.failed then failOnPool boost ec "handshake" session.callback
  else [.start .write]

def onWrite (boost : Boost) (session : RestSession) (ec : ErrorCode) :
    List RestEffect :=
  if ec.failed then failOnPool boost ec "write" session.callback
  else [.start .read]

def onRead (boost : Boost) (session : RestSession) (ec : ErrorCode) :
    List RestEffect :=
  if ec.failed then failOnPool boost ec "read" session.callback
  else if session.res.result = HttpResponse.notFound then
    failWhat (ascii "path not found") session.callback
  else if session.res.isJson then
    match boost.parse session.res.body with
    | .error ec => failOnPool boost ec "json read" session.callback
    | .ok value => [.post session.callback (RestResponse.ofJson value)]
  else
    [.post session.callback
      (RestResponse.ofReason
        (ascii "Content type invalid: " ++ session.res.contentType))]

/-- The completion handler bound to an operation. -/
def onComplete (boost : Boost) (session : RestSession) (op : RestOp)
    (ec : ErrorCode) : List RestEffect :=
  match op with
  | .resolve _ _ => session.onResolve boost ec
  | .connect => session.onConnect boost ec
  | .handshake => session.onHandshake boost ec
  | .write => session.onWrite boost ec
  | .read => session.onRead boost ec

/-- `async_read` leaves the response in `m_res`. -/
def receive (session : RestSession) (op : RestOp) (res : HttpResponse) :
    RestSession :=
  if op = .read then { session with res := res } else session

end RestSession

/-! ## The session among its threads -/

/-- How each stage of one session ends.  `sni` is the error of a failed
`SSL_set_tlsext_host_name`; a session starts no operation twice, so one code
for each operation describes every sequence of completions. -/
structure StageOutcomes where
  sni : Option ErrorCode
  resolve : ErrorCode
  connect : ErrorCode
  handshake : ErrorCode
  write : ErrorCode
  read : ErrorCode
  response : HttpResponse

def StageOutcomes.completion (o : StageOutcomes) : RestOp → ErrorCode
  | .resolve _ _ => o.resolve
  | .connect => o.connect
  | .handshake => o.handshake
  | .write => o.write
  | .read => o.read

inductive CallerThread where
  | ioContext
  | restCallersThreadPool
  | user
  deriving DecidableEq

structure RestRun where
  session : RestSession
  pending : Option RestOp
  jobs : List (Callback × RestResponse)
  started : List RestOp
  calls : List (CallerThread × Callback × RestResponse)

def RestRun.perform (thread : CallerThread) (s : RestRun) : RestEffect → RestRun
  | .call callback result =>
      { s with calls := s.calls ++ [(thread, callback, result)] }
  | .post callback result => { s with jobs := s.jobs ++ [(callback, result)] }
  | .start op => { s with pending := some op, started := s.started ++ [op] }
  | .clearBuffer => s

def RestRun.performAll (thread : CallerThread) (s : RestRun)
    (effects : List RestEffect) : RestRun :=
  effects.foldl (RestRun.perform thread) s

/-- The state a caller leaves behind when `RestSession::run` returns. -/
def RestRun.launch (boost : Boost) (session : RestSession)
    (sni : Option ErrorCode) (host port target : Str) (version : ℕ)
    (type : RequestType) : RestRun :=
  let (session, effects) :=
    session.run boost sni host port target version type
  RestRun.performAll .user
    { session := session, pending := none, jobs := [], started := [],
      calls := [] } effects

inductive RestEvent where
  | complete
  | runJob (index : ℕ)
  deriving DecidableEq

def RestRun.step (boost : Boost) (o : StageOutcomes) (s : RestRun) :
    RestEvent → Option RestRun
  | .complete =>
      match s.pending with
      | none => none
      | some op =>
          let session := s.session.receive op o.response
          some (RestRun.performAll .ioContext
            { s with session := session, pending := none }
            (session.onComplete boost op (o.completion op)))
  | .runJob index =>
      match s.jobs[index]? with
      | none => none
      | some (callback, result) =>
          some { s with
            jobs := s.jobs.eraseIdx index
            calls := s.calls ++ [(.restCallersThreadPool, callback, result)] }

def RestRun.Quiet (s : RestRun) : Prop := s.pending = none ∧ s.jobs = []

/-! ## What the session reports -/

def StageOutcomes.AllSucceed (o : StageOutcomes) : Prop :=
  o.sni = none ∧ o.resolve.failed = false ∧ o.connect.failed = false ∧
    o.handshake.failed = false ∧ o.write.failed = false ∧
    o.read.failed = false

/-- The exchange hands the parsed body `value` to the user. -/
def StageOutcomes.Delivers (boost : Boost) (o : StageOutcomes)
    (value : Json) : Prop :=
  o.AllSucceed ∧ o.response.result ≠ HttpResponse.notFound ∧
    (o.response.contentType = ascii "application/json" ∨
      o.response.contentType = ascii "application/json;charset=UTF-8") ∧
    boost.parse o.response.body = .ok value

/-- A response says what became of the exchange. -/
structure StageOutcomes.Reports (boost : Boost) (o : StageOutcomes)
    (r : RestResponse) : Prop where
  success_iff : ∀ value,
    (r.state = .success ∧ r.json = value) ↔ o.Delivers boost value
  fail_of_not : (¬ ∃ value, o.Delivers boost value) →
    r.state = .fail ∧ r.failMessage ≠ []

theorem HttpResponse.isJson_iff (res : HttpResponse) :
    res.isJson = true ↔
      res.contentType = ascii "application/json" ∨
        res.contentType = ascii "application/json;charset=UTF-8" := by
  simp [HttpResponse.isJson]

theorem StageOutcomes.reports_failure {boost : Boost} {o : StageOutcomes}
    (hnot : ∀ value, ¬ o.Delivers boost value) {reason : Str}
    (hreason : reason ≠ []) :
    o.Reports boost (RestResponse.ofReason reason) := by
  constructor
  · intro value
    constructor
    · rintro ⟨hstate, _⟩
      simp at hstate
    · intro hdelivers
      exact absurd hdelivers (hnot value)
  · intro _
    exact ⟨rfl, hreason⟩

theorem StageOutcomes.reports_value {boost : Boost} {o : StageOutcomes}
    {value : Json} (hdelivers : o.Delivers boost value) :
    o.Reports boost (RestResponse.ofJson value) := by
  constructor
  · intro other
    constructor
    · rintro ⟨_, hjson⟩
      simp only [RestResponse.ofJson_json] at hjson
      exact hjson ▸ hdelivers
    · intro hother
      have hparse := hdelivers.2.2.2.symm.trans hother.2.2.2
      simp only [Except.ok.injEq] at hparse
      exact ⟨rfl, hparse⟩
  · intro hnone
    exact absurd ⟨value, hdelivers⟩ hnone

/-! ## The chain of operations -/

def RestOp.next : RestOp → Option RestOp
  | .resolve _ _ => some .connect
  | .connect => some .handshake
  | .handshake => some .write
  | .write => some .read
  | .read => none

/-- The operations a session has started when it waits for the given one. -/
def RestOp.chainTo (host port : Str) : RestOp → List RestOp
  | .resolve _ _ => [.resolve host port]
  | .connect => [.resolve host port, .connect]
  | .handshake => [.resolve host port, .connect, .handshake]
  | .write => [.resolve host port, .connect, .handshake, .write]
  | .read => [.resolve host port, .connect, .handshake, .write, .read]

/-- Every stage before the operation succeeded. -/
def StageOutcomes.Reached (o : StageOutcomes) : RestOp → Prop
  | .resolve _ _ => o.sni = none
  | .connect => o.sni = none ∧ o.resolve.failed = false
  | .handshake =>
      o.sni = none ∧ o.resolve.failed = false ∧ o.connect.failed = false
  | .write =>
      o.sni = none ∧ o.resolve.failed = false ∧ o.connect.failed = false ∧
        o.handshake.failed = false
  | .read =>
      o.sni = none ∧ o.resolve.failed = false ∧ o.connect.failed = false ∧
        o.handshake.failed = false ∧ o.write.failed = false

theorem StageOutcomes.Reached.next {o : StageOutcomes} {op following : RestOp}
    (hreached : o.Reached op) (hok : (o.completion op).failed = false)
    (hnext : op.next = some following) : o.Reached following := by
  cases op <;> simp only [RestOp.next, Option.some.injEq, reduceCtorEq] at hnext
  all_goals
    subst hnext
    simp only [StageOutcomes.Reached, StageOutcomes.completion] at hreached hok ⊢
    simp [hreached, hok]

theorem StageOutcomes.Reached.allSucceed {o : StageOutcomes}
    (hreached : o.Reached .read) (hok : o.read.failed = false) :
    o.AllSucceed := by
  obtain ⟨hsni, hresolve, hconnect, hhandshake, hwrite⟩ := hreached
  exact ⟨hsni, hresolve, hconnect, hhandshake, hwrite, hok⟩

theorem StageOutcomes.not_allSucceed_of_failed {o : StageOutcomes} {op : RestOp}
    (hfailed : (o.completion op).failed = true) : ¬ o.AllSucceed := by
  rintro ⟨-, hresolve, hconnect, hhandshake, hwrite, hread⟩
  cases op <;> simp_all [StageOutcomes.completion]

theorem StageOutcomes.chainTo_pairwise {o : StageOutcomes} {op : RestOp}
    (hreached : o.Reached op) (host port : Str) :
    (op.chainTo host port).Pairwise
      fun earlier _ => (o.completion earlier).failed = false := by
  cases op <;> simp only [StageOutcomes.Reached] at hreached
  all_goals simp [RestOp.chainTo, StageOutcomes.completion, hreached]

theorem RestOp.chainTo_next {op following : RestOp}
    (hnext : op.next = some following) (host port : Str) :
    following.chainTo host port = op.chainTo host port ++ [following] := by
  cases op <;> simp only [RestOp.next, Option.some.injEq, reduceCtorEq] at hnext
  all_goals
    subst hnext
    rfl

theorem reason_ne_nil (what : String) (hwhat : what ≠ "") (rest : Str) :
    ascii what ++ ascii " " ++ rest ≠ [] := by
  have hascii : ascii what ≠ [] := by simpa using hwhat
  simp [hascii]

/-! ## One completion -/

section Completion

variable (boost : Boost) {o : StageOutcomes} {session : RestSession}
  {op : RestOp} {f : ℕ}

theorem RestSession.receive_callback (session : RestSession) (op : RestOp)
    (res : HttpResponse) :
    (session.receive op res).callback = session.callback := by
  unfold RestSession.receive
  split <;> rfl

theorem StageOutcomes.not_delivers_of_failed
    (hfailed : (o.completion op).failed = true) (value : Json) :
    ¬ o.Delivers boost value := by
  intro hdelivers
  exact StageOutcomes.not_allSucceed_of_failed hfailed hdelivers.1

theorem RestSession.onComplete_failed
    (hcallback : session.callback = some f)
    (hfailed : (o.completion op).failed = true) :
    ∃ r, session.onComplete boost op (o.completion op) =
        [.post (some f) r] ∧ o.Reports boost r := by
  have hreport : ∀ what : String, what ≠ "" → o.Reports boost
      (RestResponse.ofReason
        (ascii what ++ ascii " " ++ boost.message (o.completion op))) := by
    intro what hwhat
    apply StageOutcomes.reports_failure
    · exact StageOutcomes.not_delivers_of_failed boost hfailed
    · exact reason_ne_nil what hwhat _
  cases op with
  | resolve host port =>
      refine ⟨_, ?_, hreport "resolve" (by decide)⟩
      simp [RestSession.onComplete, RestSession.onResolve, hfailed, hcallback,
        FailResult.ofReason]
  | connect =>
      refine ⟨_, ?_, hreport "connect" (by decide)⟩
      simp [RestSession.onComplete, RestSession.onConnect, hfailed, hcallback,
        FailResult.ofReason]
  | handshake =>
      refine ⟨_, ?_, hreport "handshake" (by decide)⟩
      simp [RestSession.onComplete, RestSession.onHandshake, hfailed,
        hcallback, FailResult.ofReason]
  | write =>
      refine ⟨_, ?_, hreport "write" (by decide)⟩
      simp [RestSession.onComplete, RestSession.onWrite, hfailed, hcallback,
        FailResult.ofReason]
  | read =>
      refine ⟨_, ?_, hreport "read" (by decide)⟩
      simp [RestSession.onComplete, RestSession.onRead, hfailed, hcallback,
        FailResult.ofReason]

theorem RestSession.onComplete_next {following : RestOp}
    (hnext : op.next = some following)
    (hok : (o.completion op).failed = false) :
    session.onComplete boost op (o.completion op) = [.start following] := by
  cases op <;> simp only [RestOp.next, Option.some.injEq, reduceCtorEq] at hnext
  all_goals subst hnext
  · simp [RestSession.onComplete, RestSession.onResolve, hok]
  · simp [RestSession.onComplete, RestSession.onConnect, hok]
  · simp [RestSession.onComplete, RestSession.onHandshake, hok]
  · simp [RestSession.onComplete, RestSession.onWrite, hok]

/-- A received response is reported once, on the pool or, for a path that is
not found, on the thread of the handler. -/
theorem RestSession.onComplete_read
    (hcallback : session.callback = some f)
    (hres : session.res = o.response)
    (hreached : o.Reached .read) (hok : o.read.failed = false) :
    ∃ r, (session.onComplete boost .read o.read = [.post (some f) r] ∨
        session.onComplete boost .read o.read = [.call (some f) r]) ∧
      o.Reports boost r := by
  simp only [RestSession.onComplete, RestSession.onRead, hok, hres, hcallback,
    Bool.false_eq_true, if_false]
  by_cases hfound : o.response.result = HttpResponse.notFound
  · refine ⟨RestResponse.ofReason (ascii "path not found"), .inr ?_, ?_⟩
    · simp [hfound, FailResult.ofReason]
    · apply StageOutcomes.reports_failure
      · intro value hdelivers
        exact hdelivers.2.1 hfound
      · simp
  · rw [if_neg hfound]
    by_cases hjson : o.response.isJson = true
    · rw [if_pos hjson]
      cases hparse : boost.parse o.response.body with
      | error ec =>
          refine ⟨RestResponse.ofReason
            (ascii "json read" ++ ascii " " ++ boost.message ec), .inl ?_, ?_⟩
          · simp [FailResult.ofReason]
          · apply StageOutcomes.reports_failure
            · intro value hdelivers
              have hvalue := hdelivers.2.2.2
              rw [hparse] at hvalue
              contradiction
            · exact reason_ne_nil "json read" (by decide) _
      | ok value =>
          refine ⟨RestResponse.ofJson value, .inl rfl, ?_⟩
          apply StageOutcomes.reports_value
          exact ⟨hreached.allSucceed hok, hfound,
            (HttpResponse.isJson_iff _).mp hjson, hparse⟩
    · rw [if_neg hjson]
      refine ⟨RestResponse.ofReason
        (ascii "Content type invalid: " ++ o.response.contentType),
        .inl rfl, ?_⟩
      apply StageOutcomes.reports_failure
      · intro value hdelivers
        exact hjson ((HttpResponse.isJson_iff _).mpr hdelivers.2.2.1)
      · simp

end Completion

/-! ## Every run of a session -/

/-- A session either waits for one operation and has reported nothing, or it
has reported once and starts nothing any more. -/
structure RestRun.Invariant (boost : Boost) (o : StageOutcomes) (f : ℕ)
    (host port : Str) (s : RestRun) : Prop where
  callback : s.session.callback = some f
  waiting : ∀ op, s.pending = some op →
    s.jobs = [] ∧ s.calls = [] ∧ o.Reached op ∧
      s.started = op.chainTo host port
  reported : s.pending = none → ∃ r, o.Reports boost r ∧
    ((s.jobs = [(some f, r)] ∧ s.calls = []) ∨
      ∃ thread, s.jobs = [] ∧ s.calls = [(thread, some f, r)])
  chain : (o.sni.isSome ∧ s.started = []) ∨
    ∃ op, o.Reached op ∧ s.started = op.chainTo host port

theorem RestRun.launch_invariant
    (boost : Boost) (o : StageOutcomes) {session : RestSession} {f : ℕ}
    (hcallback : session.callback = some f) (host port target : Str)
    (version : ℕ) (type : RequestType) :
    RestRun.Invariant boost o f host port
      (RestRun.launch boost session o.sni host port target version type) := by
  unfold RestRun.launch RestSession.run
  cases hsni : o.sni with
  | some ec =>
      simp only [hcallback, failOnPool_some, RestRun.performAll,
        List.foldl_cons, List.foldl_nil, RestRun.perform, List.nil_append]
      have hreport : o.Reports boost (RestResponse.ofReason
          (ascii "SNI hostname" ++ ascii " " ++ boost.message ec)) := by
        apply StageOutcomes.reports_failure
        · intro value hdelivers
          have hnone := hdelivers.1.1
          rw [hsni] at hnone
          contradiction
        · exact reason_ne_nil "SNI hostname" (by decide) _
      constructor
      · exact hcallback
      · intro op hpending
        simp at hpending
      · intro _
        exact ⟨_, hreport, .inl ⟨rfl, rfl⟩⟩
      · exact .inl ⟨by simp [hsni], rfl⟩
  | none =>
      simp only [RestRun.performAll, List.foldl_cons, List.foldl_nil,
        RestRun.perform, List.nil_append]
      constructor
      · exact hcallback
      · intro op hpending
        simp only [Option.some.injEq] at hpending
        subst hpending
        exact ⟨rfl, rfl, hsni, rfl⟩
      · intro hpending
        simp at hpending
      · exact .inr ⟨.resolve host port, hsni, rfl⟩

/-- The only moves of a session from a state of the invariant. -/
inductive RestRun.Moves (boost : Boost) (o : StageOutcomes) (f : ℕ)
    (s next : RestRun) : Prop where
  | starts (op following : RestOp)
      (pending : s.pending = some op)
      (ok : (o.completion op).failed = false)
      (chained : op.next = some following)
      (next_eq : next = { s with
        session := s.session.receive op o.response
        pending := some following
        started := s.started ++ [following] })
  | posts (op : RestOp) (r : RestResponse)
      (pending : s.pending = some op)
      (reports : o.Reports boost r)
      (next_eq : next = { s with
        session := s.session.receive op o.response
        pending := none
        jobs := [(some f, r)] })
  | calls (op : RestOp) (r : RestResponse)
      (pending : s.pending = some op)
      (reports : o.Reports boost r)
      (next_eq : next = { s with
        session := s.session.receive op o.response
        pending := none
        calls := [(.ioContext, some f, r)] })
  | runs (r : RestResponse)
      (pending : s.pending = none)
      (reports : o.Reports boost r)
      (jobs : s.jobs = [(some f, r)])
      (next_eq : next = { s with
        jobs := []
        calls := [(.restCallersThreadPool, some f, r)] })

theorem RestRun.exists_of_step_complete {boost : Boost} {o : StageOutcomes}
    {s next : RestRun} (hstep : s.step boost o .complete = some next) :
    ∃ op, s.pending = some op ∧
      RestRun.performAll .ioContext
        { s with
          session := s.session.receive op o.response
          pending := none }
        ((s.session.receive op o.response).onComplete boost op
          (o.completion op)) = next := by
  simp only [RestRun.step] at hstep
  split at hstep
  · contradiction
  · rename_i op hpending
    exact ⟨op, hpending, Option.some.inj hstep⟩

theorem RestRun.exists_of_step_runJob {boost : Boost} {o : StageOutcomes}
    {s next : RestRun} {index : ℕ}
    (hstep : s.step boost o (.runJob index) = some next) :
    ∃ callback result, s.jobs[index]? = some (callback, result) ∧
      { s with
        jobs := s.jobs.eraseIdx index
        calls := s.calls ++ [(.restCallersThreadPool, callback, result)] } =
          next := by
  simp only [RestRun.step] at hstep
  split at hstep
  · contradiction
  · rename_i callback result hjob
    exact ⟨callback, result, hjob, Option.some.inj hstep⟩

theorem RestRun.Invariant.complete_moves
    {boost : Boost} {o : StageOutcomes} {f : ℕ} {host port : Str}
    {s next : RestRun} (hinv : s.Invariant boost o f host port)
    (hstep : s.step boost o .complete = some next) :
    RestRun.Moves boost o f s next := by
  obtain ⟨op, hpending, hnext⟩ := RestRun.exists_of_step_complete hstep
  obtain ⟨hjobs, hcalls, hreached, _⟩ := hinv.waiting op hpending
  have hcallback : (s.session.receive op o.response).callback = some f := by
    rw [RestSession.receive_callback]
    exact hinv.callback
  cases hfailed : (o.completion op).failed with
  | true =>
      obtain ⟨r, heffect, hreport⟩ :=
        RestSession.onComplete_failed boost hcallback hfailed
      apply RestRun.Moves.posts op r hpending hreport
      rw [← hnext, heffect]
      simp [RestRun.performAll, RestRun.perform, hjobs]
  | false =>
      cases hchained : op.next with
      | some following =>
          apply RestRun.Moves.starts op following hpending hfailed hchained
          rw [← hnext, RestSession.onComplete_next boost hchained hfailed]
          rfl
      | none =>
          have hread : op = .read := by
            cases op <;> simp [RestOp.next] at hchained ⊢
          subst hread
          obtain ⟨r, heffect | heffect, hreport⟩ :=
            RestSession.onComplete_read boost hcallback
              (by simp [RestSession.receive]) hreached hfailed
          · apply RestRun.Moves.posts .read r hpending hreport
            rw [← hnext, StageOutcomes.completion, heffect]
            simp [RestRun.performAll, RestRun.perform, hjobs]
          · apply RestRun.Moves.calls .read r hpending hreport
            rw [← hnext, StageOutcomes.completion, heffect]
            simp [RestRun.performAll, RestRun.perform, hcalls]

theorem RestRun.Invariant.runJob_moves
    {boost : Boost} {o : StageOutcomes} {f : ℕ} {host port : Str}
    {s next : RestRun} {index : ℕ} (hinv : s.Invariant boost o f host port)
    (hstep : s.step boost o (.runJob index) = some next) :
    RestRun.Moves boost o f s next := by
  obtain ⟨callback, result, hjob, hnext⟩ := RestRun.exists_of_step_runJob hstep
  have hpending : s.pending = none := by
    cases hpending : s.pending with
    | none => rfl
    | some op =>
        rw [(hinv.waiting op hpending).1] at hjob
        simp at hjob
  obtain ⟨r, hreport, ⟨hjobs, hcalls⟩ | ⟨thread, hjobs, _⟩⟩ :=
    hinv.reported hpending
  · rw [hjobs] at hjob
    cases index with
    | succ index => simp at hjob
    | zero =>
        obtain ⟨rfl, rfl⟩ : some f = callback ∧ r = result := by
          simpa using hjob
        apply RestRun.Moves.runs r hpending hreport hjobs
        rw [← hnext]
        simp [hjobs, hcalls]
  · rw [hjobs] at hjob
    simp at hjob

theorem RestRun.Invariant.moves
    {boost : Boost} {o : StageOutcomes} {f : ℕ} {host port : Str}
    {s next : RestRun} {event : RestEvent}
    (hinv : s.Invariant boost o f host port)
    (hstep : s.step boost o event = some next) :
    RestRun.Moves boost o f s next := by
  cases event with
  | complete => exact hinv.complete_moves hstep
  | runJob index => exact hinv.runJob_moves hstep

theorem RestRun.Invariant.step
    {boost : Boost} {o : StageOutcomes} {f : ℕ} {host port : Str}
    {s next : RestRun} {event : RestEvent}
    (hinv : s.Invariant boost o f host port)
    (hstep : s.step boost o event = some next) :
    next.Invariant boost o f host port := by
  cases hinv.moves hstep with
  | starts op following pending ok chained next_eq =>
      obtain ⟨hjobs, hcalls, hreached, hstarted⟩ := hinv.waiting op pending
      have hreached' := hreached.next ok chained
      have hstarted' : s.started ++ [following] =
          following.chainTo host port := by
        rw [hstarted, RestOp.chainTo_next chained]
      subst next_eq
      constructor
      · simpa [RestSession.receive_callback] using hinv.callback
      · intro other hother
        obtain rfl : following = other := by simpa using hother
        exact ⟨hjobs, hcalls, hreached', hstarted'⟩
      · intro hnone
        simp at hnone
      · exact .inr ⟨following, hreached', hstarted'⟩
  | posts op r pending reports next_eq =>
      obtain ⟨_, hcalls, hreached, hstarted⟩ := hinv.waiting op pending
      subst next_eq
      constructor
      · simpa [RestSession.receive_callback] using hinv.callback
      · intro other hother
        simp at hother
      · intro _
        exact ⟨r, reports, .inl ⟨rfl, hcalls⟩⟩
      · exact .inr ⟨op, hreached, hstarted⟩
  | calls op r pending reports next_eq =>
      obtain ⟨hjobs, _, hreached, hstarted⟩ := hinv.waiting op pending
      subst next_eq
      constructor
      · simpa [RestSession.receive_callback] using hinv.callback
      · intro other hother
        simp at hother
      · intro _
        exact ⟨r, reports, .inr ⟨.ioContext, hjobs, rfl⟩⟩
      · exact .inr ⟨op, hreached, hstarted⟩
  | runs r pending reports jobs next_eq =>
      subst next_eq
      constructor
      · exact hinv.callback
      · intro op hop
        simp [pending] at hop
      · intro _
        exact ⟨r, reports, .inr ⟨.restCallersThreadPool, rfl, rfl⟩⟩
      · exact hinv.chain

theorem RestRun.launch_run_invariant
    {boost : Boost} {o : StageOutcomes} {session : RestSession} {f : ℕ}
    (hcallback : session.callback = some f) {host port target : Str}
    {version : ℕ} {type : RequestType} {events : List RestEvent} {s : RestRun}
    (hrun : LabelledRuns.run (RestRun.step boost o)
      (RestRun.launch boost session o.sni host port target version type)
      events = some s) :
    s.Invariant boost o f host port :=
  invariant_of_run (fun _ _ _ hinv _ hstep => hinv.step hstep)
    (RestRun.launch_invariant boost o hcallback host port target version type)
    (meets_true _ _ _) hrun

theorem RestRun.Invariant.started_pairwise
    {boost : Boost} {o : StageOutcomes} {f : ℕ} {host port : Str}
    {s : RestRun} (hinv : s.Invariant boost o f host port) :
    s.started.Pairwise
      fun earlier _ => (o.completion earlier).failed = false := by
  rcases hinv.chain with ⟨_, hstarted⟩ | ⟨op, hreached, hstarted⟩
  · simp [hstarted]
  · rw [hstarted]
    exact StageOutcomes.chainTo_pairwise hreached host port

theorem RestRun.Invariant.started_nil
    {boost : Boost} {o : StageOutcomes} {f : ℕ} {host port : Str}
    {s : RestRun} (hinv : s.Invariant boost o f host port)
    (hsni : o.sni.isSome) : s.started = [] := by
  rcases hinv.chain with ⟨_, hstarted⟩ | ⟨op, hreached, _⟩
  · exact hstarted
  · have hnone : o.sni = none := by
      cases op <;> simp only [StageOutcomes.Reached] at hreached
      all_goals simp [hreached]
    simp [hnone] at hsni

theorem RestRun.Invariant.calls_of_quiet
    {boost : Boost} {o : StageOutcomes} {f : ℕ} {host port : Str}
    {s : RestRun} (hinv : s.Invariant boost o f host port) (hquiet : s.Quiet) :
    ∃ thread r, s.calls = [(thread, some f, r)] ∧ o.Reports boost r := by
  obtain ⟨r, hreport, ⟨hjobs, _⟩ | ⟨thread, _, hcalls⟩⟩ :=
    hinv.reported hquiet.1
  · rw [hquiet.2] at hjobs
    contradiction
  · exact ⟨thread, r, hcalls, hreport⟩

theorem RestRun.Invariant.calls_length_le_one
    {boost : Boost} {o : StageOutcomes} {f : ℕ} {host port : Str}
    {s : RestRun} (hinv : s.Invariant boost o f host port) :
    s.calls.length ≤ 1 := by
  cases hpending : s.pending with
  | some op => simp [(hinv.waiting op hpending).2.1]
  | none =>
      obtain ⟨r, _, ⟨_, hcalls⟩ | ⟨thread, _, hcalls⟩⟩ :=
        hinv.reported hpending
      · simp [hcalls]
      · simp [hcalls]

/-! ## Every run can be completed -/

def RestOp.remaining : RestOp → ℕ
  | .resolve _ _ => 5
  | .connect => 4
  | .handshake => 3
  | .write => 2
  | .read => 1

/-- Completions that can still come, counted double, and posted jobs. -/
def RestRun.work (s : RestRun) : ℕ :=
  2 * (match s.pending with
    | some op => op.remaining
    | none => 0) + s.jobs.length

theorem RestOp.remaining_pos (op : RestOp) : 0 < op.remaining := by
  cases op <;> simp [RestOp.remaining]

theorem RestOp.remaining_next {op following : RestOp}
    (hnext : op.next = some following) :
    following.remaining < op.remaining := by
  cases op <;> simp only [RestOp.next, Option.some.injEq, reduceCtorEq] at hnext
  all_goals
    subst hnext
    simp [RestOp.remaining]

theorem RestRun.Invariant.work_lt
    {boost : Boost} {o : StageOutcomes} {f : ℕ} {host port : Str}
    {s next : RestRun} {event : RestEvent}
    (hinv : s.Invariant boost o f host port)
    (hstep : s.step boost o event = some next) : next.work < s.work := by
  cases hinv.moves hstep with
  | starts op following pending ok chained next_eq =>
      have hless := RestOp.remaining_next chained
      subst next_eq
      simp only [RestRun.work, pending]
      omega
  | posts op r pending reports next_eq =>
      have hpos := op.remaining_pos
      subst next_eq
      simp only [RestRun.work, pending, List.length_singleton]
      omega
  | calls op r pending reports next_eq =>
      have hpos := op.remaining_pos
      subst next_eq
      simp only [RestRun.work, pending]
      omega
  | runs r pending reports jobs next_eq =>
      subst next_eq
      simp [RestRun.work, pending, jobs]

theorem RestRun.exists_step_of_not_quiet
    (boost : Boost) (o : StageOutcomes) {s : RestRun} (hbusy : ¬ s.Quiet) :
    ∃ event next, s.step boost o event = some next := by
  cases hpending : s.pending with
  | some op =>
      refine ⟨.complete, ?_⟩
      simp only [RestRun.step, hpending]
      exact ⟨_, rfl⟩
  | none =>
      cases hjobs : s.jobs with
      | nil => exact absurd ⟨hpending, hjobs⟩ hbusy
      | cons job jobs =>
          refine ⟨.runJob 0, ?_⟩
          simp only [RestRun.step, hjobs, List.getElem?_cons_zero]
          exact ⟨_, rfl⟩

theorem RestRun.Invariant.exists_run_to_quiet
    {boost : Boost} {o : StageOutcomes} {f : ℕ} {host port : Str}
    {s : RestRun} (hinv : s.Invariant boost o f host port) :
    ∃ events t, LabelledRuns.run (RestRun.step boost o) s events = some t ∧
      t.Quiet :=
  LabelledRuns.exists_run_to_quiet RestRun.work
    (fun _ _ _ hs hstep => RestRun.Invariant.step hs hstep)
    (fun _ _ _ hs hstep => RestRun.Invariant.work_lt hs hstep)
    (fun _ _ hbusy => RestRun.exists_step_of_not_quiet boost o hbusy) hinv

end Bblib
