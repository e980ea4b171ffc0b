import Bblib.RestRequests
import Mathlib.Tactic

/-!
# The thread that calls back

All exits of the completion handlers but one hand the user's callback to
`m_restCallersThreadPool`.  The exit of a response whose path was not found
calls it on the thread of the io context.
-/

namespace Bblib

open LabelledRuns

/-- The calls that the effects of a handler make on its own thread. -/
def RestEffect.directCall (thread : CallerThread) :
    RestEffect → Option (CallerThread × Callback × RestResponse)
  | .call callback result => some (thread, callback, result)
  | _ => none

theorem RestRun.performAll_calls (thread : CallerThread) (s : RestRun)
    (effects : List RestEffect) :
    (RestRun.performAll thread s effects).calls =
      s.calls ++ effects.filterMap (RestEffect.directCall thread) := by
  induction effects generalizing s with
  | nil => simp [RestRun.performAll]
  | cons effect effects ih =>
      have hstep : RestRun.performAll thread s (effect :: effects) =
          RestRun.performAll thread (RestRun.perform thread s effect) effects :=
        rfl
      rw [hstep, ih]
      cases effect with
      | call callback result =>
          simp [RestRun.perform, RestEffect.directCall]
      | post callback result => rfl
      | start op => rfl
      | clearBuffer => rfl

/-! ## Which exits call directly -/

theorem call_not_mem_failOnPool (boost : Boost) (ec : ErrorCode)
    (what : String) (handler callback : Callback) (r : RestResponse) :
    (.call callback r : RestEffect) ∉ failOnPool boost ec what handler := by
  cases handler with
  | none => simp [failOnPool]
  | some f => simp

/-- A handler calls directly only for a read that succeeds with a response
whose path was not found. -/
theorem RestSession.onComplete_call {boost : Boost} {session : RestSession}
    {op : RestOp} {ec : ErrorCode} {callback : Callback} {r : RestResponse}
    (hcall : .call callback r ∈ session.onComplete boost op ec) :
    op = .read ∧ ec.failed = false ∧
      session.res.result = HttpResponse.notFound := by
  have hpool : ∀ (code : ErrorCode) (what : String),
      (.call callback r : RestEffect) ∉
        failOnPool boost code what session.callback :=
    fun code what => call_not_mem_failOnPool boost code what _ callback r
  cases hfailed : ec.failed with
  | true =>
      cases op <;>
        simp [RestSession.onComplete, RestSession.onResolve,
          RestSession.onConnect, RestSession.onHandshake, RestSession.onWrite,
          RestSession.onRead, hfailed, hpool] at hcall
  | false =>
      cases op with
      | read =>
          refine ⟨rfl, rfl, ?_⟩
          by_contra hfound
          simp only [RestSession.onComplete, RestSession.onRead, hfailed,
            Bool.false_eq_true, if_false, if_neg hfound] at hcall
          split at hcall
          · split at hcall
            · exact hpool _ _ hcall
            · simp at hcall
          · simp at hcall
      | resolve host port =>
          simp [RestSession.onComplete, RestSession.onResolve, hfailed] at hcall
      | connect =>
          simp [RestSession.onComplete, RestSession.onConnect, hfailed] at hcall
      | handshake =>
          simp [RestSession.onComplete, RestSession.onHandshake, hfailed]
            at hcall
      | write =>
          simp [RestSession.onComplete, RestSession.onWrite, hfailed] at hcall

/-- `net::error::eof` -/
def ErrorCode.eof : ErrorCode := ⟨ascii "asio.misc", 2⟩

/-- The handler of a shutdown, which no operation of the session starts. -/
def RestSession.onShutdown (boost : Boost) (session : RestSession)
    (ec : ErrorCode) : List RestEffect :=
  let ec := if ec = .eof then .success else ec
  if ec.failed then failOnPool boost ec "shutdown" session.callback else []

theorem RestSession.call_not_mem_onShutdown (boost : Boost)
    (session : RestSession) (ec : ErrorCode) (callback : Callback)
    (r : RestResponse) : .call callback r ∉ session.onShutdown boost ec := by
  unfold RestSession.onShutdown
  generalize (if ec = .eof then ErrorCode.success else ec) = code
  cases hfailed : code.failed with
  | true =>
      simpa [hfailed] using
        call_not_mem_failOnPool boost code "shutdown" session.callback callback r
  | false => simp [hfailed]

/-! ## Every run -/

def RestRun.PoolOnly (s : RestRun) : Prop :=
  ∀ call ∈ s.calls, call.1 = .restCallersThreadPool

/-- All operations succeed and the response is a 404. -/
def StageOutcomes.NotFound (o : StageOutcomes) : Prop :=
  o.AllSucceed ∧ o.response.result = HttpResponse.notFound

theorem RestRun.Invariant.poolOnly_step {boost : Boost} {o : StageOutcomes}
    {f : ℕ} {host port : Str} {s next : RestRun} {event : RestEvent}
    (hinv : s.Invariant boost o f host port) (hpool : s.PoolOnly)
    (hfound : ¬ o.NotFound) (hstep : s.step boost o event = some next) :
    next.PoolOnly := by
  cases event with
  | runJob index =>
      obtain ⟨callback, result, _, rfl⟩ := RestRun.exists_of_step_runJob hstep
      intro call hcall
      rcases List.mem_append.mp hcall with hold | hnew
      · exact hpool call hold
      · rw [List.mem_singleton.mp hnew]
  | complete =>
      obtain ⟨op, hpending, rfl⟩ := RestRun.exists_of_step_complete hstep
      intro call hcall
      rw [RestRun.performAll_calls] at hcall
      rcases List.mem_append.mp hcall with hold | hnew
      · exact hpool call hold
      · obtain ⟨effect, heffect, hdirect⟩ := List.mem_filterMap.mp hnew
        cases effect with
        | call callback r =>
            obtain ⟨rfl, hok, hresult⟩ := RestSession.onComplete_call heffect
            obtain ⟨_, _, hreached, _⟩ := hinv.waiting .read hpending
            have hreceived : o.response.result = HttpResponse.notFound := by
              simpa [RestSession.receive] using hresult
            exact absurd ⟨hreached.allSucceed hok, hreceived⟩ hfound
        | post callback r => simp [RestEffect.directCall] at hdirect
        | start op => simp [RestEffect.directCall] at hdirect
        | clearBuffer => simp [RestEffect.directCall] at hdirect

theorem RestRun.launch_calls (boost : Boost) (session : RestSession)
    (sni : Option ErrorCode) (host port target : Str) (version : ℕ)
    (type : RequestType) :
    (RestRun.launch boost session sni host port target version type).calls =
      [] := by
  unfold RestRun.launch RestSession.run
  cases sni with
  | none => rfl
  | some ec =>
      cases hcallback : session.callback <;>
        simp [RestRun.performAll, RestRun.perform, failOnPool]

theorem RestRun.launch_notFound (boost : Boost) {o : StageOutcomes}
    {session : RestSession} {f : ℕ} (hcallback : session.callback = some f)
    (hfound : o.NotFound) (host port target : Str) (version : ℕ)
    (type : RequestType) :
    ∃ s, run (RestRun.step boost o)
        (RestRun.launch boost session o.sni host port target version type)
        [.complete, .complete, .complete, .complete, .complete] = some s ∧
      s.calls = [(.ioContext, some f,
        RestResponse.ofReason (ascii "path not found"))] := by
  obtain ⟨⟨hsni, hresolve, hconnect, hhandshake, hwrite, hread⟩, h404⟩ := hfound
  simp [RestRun.launch, RestSession.run, hsni, RestRun.performAll,
    RestRun.perform, RestRun.step, RestSession.receive, RestSession.onComplete,
    StageOutcomes.completion, RestSession.onResolve, hresolve,
    RestSession.onConnect, hconnect, RestSession.onHandshake, hhandshake,
    RestSession.onWrite, hwrite, RestSession.onRead, hread, h404, hcallback,
    FailResult.ofReason]

/-- Over every run of a session with a callback: it is called from the pool
alone, unless the whole exchange succeeds with a 404. -/
theorem createRestSession_calls_from_pool_iff
    {boost : Boost} {env : RestEnv} {o : StageOutcomes}
    {beast after : BinanceBeast} {host path : Str} {createStrand sign : Bool}
    {f : ℕ} {params : RestParams} {type : RequestType} {start : RestRun}
    (hcreate : beast.createRestSession boost env o.sni host path createStrand
      (some f) sign params type = .ok (after, start)) :
    (∀ events s, run (RestRun.step boost o) start events = some s →
        s.PoolOnly) ↔ ¬ o.NotFound := by
  obtain ⟨session, target, hcallback, rfl⟩ :=
    BinanceBeast.createRestSession_launch hcreate
  constructor
  · intro hall hfound
    obtain ⟨s, hrun, hcalls⟩ := RestRun.launch_notFound boost hcallback hfound
      host beast.config.restPort target 11 type
    have hthread := hall _ s hrun _ (by rw [hcalls]; exact List.mem_singleton_self _)
    contradiction
  · intro hfound events s hrun
    have hstart := RestRun.launch_invariant boost o hcallback host
      beast.config.restPort target 11 type
    have hpool : (RestRun.launch boost session o.sni host beast.config.restPort
        target 11 type).PoolOnly := by
      intro call hcall
      rw [RestRun.launch_calls] at hcall
      contradiction
    have hboth := invariant_of_run
      (I := fun s => s.Invariant boost o f host beast.config.restPort ∧
        s.PoolOnly)
      (fun _ _ _ hinv _ hstep =>
        ⟨hinv.1.step hstep, hinv.1.poolOnly_step hinv.2 hfound hstep⟩)
      ⟨hstart, hpool⟩ (meets_true _ _ _) hrun
    exact hboth.2

def notFoundOutcomes : StageOutcomes :=
  { sampleOutcomes with response := ⟨HttpResponse.notFound, [], []⟩ }

theorem openOrders_calls_from_pool :
    ∃ after start,
      sampleBeast.createRestSession sampleBoost (sampleEnv .appendRight .right)
        sampleOutcomes.sni (ascii "testnet.binancefuture.com")
        (ascii "/fapi/v1/openOrders") true (some 0) false ⟨.empty⟩ .get =
          .ok (after, start) ∧
      ∀ events s, run (RestRun.step sampleBoost sampleOutcomes) start events =
        some s → s.PoolOnly := by
  have hcreate : ∃ after start,
      sampleBeast.createRestSession sampleBoost (sampleEnv .appendRight .right)
        sampleOutcomes.sni (ascii "testnet.binancefuture.com")
        (ascii "/fapi/v1/openOrders") true (some 0) false ⟨.empty⟩ .get =
          .ok (after, start) := ⟨_, _, rfl⟩
  obtain ⟨after, start, hcreate⟩ := hcreate
  have hfound : ¬ sampleOutcomes.NotFound := by
    intro hnotFound
    exact absurd hnotFound.2 (by decide)
  exact ⟨after, start, hcreate,
    (createRestSession_calls_from_pool_iff hcreate).mpr hfound⟩

/-- A path that does not exist is reported on the thread of the io context. -/
theorem missing_path_calls_directly :
    ¬ ∀ (boost : Boost) (env : RestEnv) (o : StageOutcomes)
      (beast after : BinanceBeast) (host path : Str)
      (createStrand sign : Bool) (f : ℕ) (params : RestParams)
      (type : RequestType) (start : RestRun) (events : List RestEvent)
      (s : RestRun),
      beast.createRestSession boost env o.sni host path createStrand (some f)
        sign params type = .ok (after, start) →
      run (RestRun.step boost o) start events = some s → s.PoolOnly := by
  intro hall
  have hpool := hall sampleBoost (sampleEnv .appendRight .right)
    notFoundOutcomes sampleBeast _ (ascii "testnet.binancefuture.com")
    (ascii "/fapi/v1/openOrder") true false 0 ⟨.empty⟩ .get _
    [.complete, .complete, .complete, .complete, .complete] _ rfl rfl
  have hthread := hpool (.ioContext, some 0,
    RestResponse.ofReason (ascii "path not found")) (List.mem_singleton.mpr rfl)
  contradiction

end Bblib
