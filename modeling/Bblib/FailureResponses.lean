import Bblib.ErrorClassifiers
import Bblib.ListenKeyRuns
import Bblib.RestRequests
import Mathlib.Tactic

/-!
# Failures under `hasErrorCode`

A failed response carries its state and a reason but no JSON, and
`hasErrorCode` computes the state anew from the JSON.  Called with
`isNullAllowed` false it keeps every response a failing path produces; called
with true it turns every one of them into a success.
-/

namespace Bblib

open LabelledRuns

/-! ## Sequences of checks -/

section Checks

variable {R : Type} {check : R → Bool → Bool × R} {failed P : R → Prop}

/-- Every check of the sequence returns true and leaves a failed response. -/
def StaysFailed (check : R → Bool → Bool × R) (failed : R → Prop) :
    R → List Bool → Prop
  | _, [] => True
  | r, flag :: flags =>
      (check r flag).1 = true ∧ failed (check r flag).2 ∧
        StaysFailed check failed (check r flag).2 flags

theorem staysFailed_iff
    (hkept : ∀ r, P r → (check r false).1 = true ∧
      failed (check r false).2 ∧ P (check r false).2)
    (hlost : ∀ r, P r → (check r true).1 = false)
    {r : R} (hr : P r) (flags : List Bool) :
    StaysFailed check failed r flags ↔ ∀ flag ∈ flags, flag = false := by
  induction flags generalizing r with
  | nil => simp [StaysFailed]
  | cons flag flags ih =>
      cases flag with
      | true => simp [StaysFailed, hlost r hr]
      | false =>
          obtain ⟨hreturned, hfailed, hnext⟩ := hkept r hr
          simp [StaysFailed, hreturned, hfailed, ih hnext]

end Checks

/-! ## Responses without JSON -/

def RestResponse.WithoutJson (r : RestResponse) : Prop :=
  r.json = .null ∧ r.state = .fail

def WsResponse.WithoutJson (r : WsResponse) : Prop :=
  r.json = .null ∧ r.state = .fail

theorem RestResponse.staysFailed_withoutJson {boost : Boost}
    {r : RestResponse} (hr : r.WithoutJson) (flags : List Bool) :
    StaysFailed (RestResponse.hasErrorCode boost) (fun r => r.state = .fail) r
      flags ↔ ∀ flag ∈ flags, flag = false := by
  apply staysFailed_iff (P := RestResponse.WithoutJson) _ _ hr
  · rintro r ⟨hjson, _⟩
    rw [hasErrorCode_eq, hjson]
    simp [Json.hasError, WithoutJson]
  · rintro r ⟨hjson, _⟩
    rw [hasErrorCode_eq, hjson]
    rfl

theorem WsResponse.staysFailed_withoutJson {r : WsResponse}
    (hr : r.WithoutJson) (flags : List Bool) :
    StaysFailed WsResponse.hasErrorCode (fun r => r.state = .fail) r flags ↔
      ∀ flag ∈ flags, flag = false := by
  apply staysFailed_iff (P := WsResponse.WithoutJson) _ _ hr
  · rintro r ⟨hjson, hstate⟩
    rw [hasErrorCode_eq (by simp [hstate]), hjson]
    simp [Json.hasError, WithoutJson]
  · rintro r ⟨hjson, hstate⟩
    rw [hasErrorCode_eq (by simp [hstate]), hjson]
    rfl

/-! ## The producers of responses -/

def Effect.Passes {R Op : Type} (P : R → Prop) : Effect R Op → Prop
  | .call _ r => P r
  | .post _ r => P r
  | .start _ => True
  | .clearBuffer => True

section Fail

variable {R Op : Type} [FailResult R] {P : R → Prop}

theorem failWhat_passes (hreason : ∀ reason, P (FailResult.ofReason reason))
    (what : Str) (callback : Callback) :
    ∀ effect ∈ (failWhat what callback : List (Effect R Op)),
      effect.Passes P := by
  intro effect hmem
  cases callback with
  | none => simp [failWhat] at hmem
  | some f =>
      obtain rfl := List.mem_singleton.mp hmem
      exact hreason what

theorem failOnThread_passes
    (hreason : ∀ reason, P (FailResult.ofReason reason)) (boost : Boost)
    (ec : ErrorCode) (what : String) (callback : Callback) :
    ∀ effect ∈ (failOnThread boost ec what callback : List (Effect R Op)),
      effect.Passes P :=
  failWhat_passes hreason (ascii what ++ ascii " " ++ boost.message ec) callback

theorem failOnPool_passes
    (hreason : ∀ reason, P (FailResult.ofReason reason)) (boost : Boost)
    (ec : ErrorCode) (what : String) (callback : Callback) :
    ∀ effect ∈ (failOnPool boost ec what callback : List (Effect R Op)),
      effect.Passes P := by
  intro effect hmem
  cases callback with
  | none => simp [failOnPool] at hmem
  | some f =>
      obtain rfl := List.mem_singleton.mp hmem
      exact hreason _

end Fail

theorem start_passes {R Op : Type} {P : R → Prop} (op : Op) :
    ∀ effect ∈ ([.start op] : List (Effect R Op)), effect.Passes P := by
  intro effect hmem
  obtain rfl := List.mem_singleton.mp hmem
  trivial

def RestResponse.FailsWithoutJson (r : RestResponse) : Prop :=
  r.state = .fail → r.json = .null

def WsResponse.FailsWithoutJson (r : WsResponse) : Prop :=
  r.state = .fail → r.json = .null

theorem RestResponse.ofReason_failsWithoutJson (reason : Str) :
    (FailResult.ofReason reason : RestResponse).FailsWithoutJson := by
  intro _
  rfl

theorem WsResponse.ofReason_failsWithoutJson (reason : Str) :
    (FailResult.ofReason reason : WsResponse).FailsWithoutJson := by
  intro _
  rfl

theorem RestSession.onComplete_passes (boost : Boost) (session : RestSession)
    (op : RestOp) (ec : ErrorCode) :
    ∀ effect ∈ session.onComplete boost op ec,
      effect.Passes RestResponse.FailsWithoutJson := by
  have hfail : ∀ what, ∀ effect ∈
      (failOnPool boost ec what session.callback : List RestEffect),
      effect.Passes RestResponse.FailsWithoutJson :=
    fun what => failOnPool_passes RestResponse.ofReason_failsWithoutJson boost
      ec what session.callback
  cases op with
  | resolve host port =>
      simp only [onComplete, onResolve]
      split
      · exact hfail "resolve"
      · exact start_passes _
  | connect =>
      simp only [onComplete, onConnect]
      split
      · exact hfail "connect"
      · exact start_passes _
  | handshake =>
      simp only [onComplete, onHandshake]
      split
      · exact hfail "handshake"
      · exact start_passes _
  | write =>
      simp only [onComplete, onWrite]
      split
      · exact hfail "write"
      · exact start_passes _
  | read =>
      simp only [onComplete, onRead]
      split
      · exact hfail "read"
      · split
        · exact failWhat_passes RestResponse.ofReason_failsWithoutJson _ _
        · split
          · cases boost.parse session.res.body with
            | error ec =>
                exact failOnPool_passes RestResponse.ofReason_failsWithoutJson
                  boost ec "json read" session.callback
            | ok value =>
                intro effect hmem
                obtain rfl := List.mem_singleton.mp hmem
                intro hstate
                simp at hstate
          · intro effect hmem
            obtain rfl := List.mem_singleton.mp hmem
            exact RestResponse.ofReason_failsWithoutJson _

theorem WsSession.onRead_passes (boost : Boost) (session : WsSession)
    (ec : ErrorCode) :
    ∀ effect ∈ session.onRead boost ec,
      effect.Passes WsResponse.FailsWithoutJson := by
  unfold onRead
  split
  · simp
  · split
    · exact failOnThread_passes WsResponse.ofReason_failsWithoutJson boost ec
        "read" session.callback
    · intro effect hmem
      rcases List.mem_append.mp hmem with hreport | hrest
      · cases hparse : boost.parse session.buffer with
        | error jsonEc =>
            rw [hparse] at hreport
            exact failOnThread_passes WsResponse.ofReason_failsWithoutJson boost
              jsonEc "json read" session.callback effect hreport
        | ok jsonValue =>
            rw [hparse] at hreport
            obtain rfl := List.mem_singleton.mp hreport
            intro hstate
            simp at hstate
      · have hlater : effect = .clearBuffer ∨ effect = .start .read := by
          simpa using hrest
        rcases hlater with rfl | rfl
        · trivial
        · trivial

theorem WsSession.onCompletion_passes {boost : Boost} {session after : WsSession}
    {op : WsOp} {completion : WsCompletion} {effects : List WsEffect}
    (hhandled : session.onCompletion boost op completion =
      some (after, effects)) :
    ∀ effect ∈ effects, effect.Passes WsResponse.FailsWithoutJson := by
  have hfail : ∀ ec what, ∀ effect ∈
      (failOnThread boost ec what session.callback : List WsEffect),
      effect.Passes WsResponse.FailsWithoutJson :=
    fun ec what => failOnThread_passes WsResponse.ofReason_failsWithoutJson
      boost ec what session.callback
  cases op <;> cases completion <;>
    simp only [onCompletion, Option.some.injEq, Prod.mk.injEq,
      reduceCtorEq] at hhandled
  · obtain ⟨_, rfl⟩ := hhandled
    unfold onResolve
    split
    · exact hfail _ "resolve"
    · exact start_passes _
  · rename_i ec port sni
    have heffects : effects = (session.onConnect boost ec port sni).2 := by
      rw [hhandled]
    rw [heffects]
    unfold onConnect
    split
    · exact hfail _ "connect"
    · cases sni with
      | some ec => exact hfail _ "connect"
      | none => exact start_passes _
  · obtain ⟨_, rfl⟩ := hhandled
    unfold onSslHandshake
    split
    · exact hfail _ "ssl handshake"
    · exact start_passes _
  · obtain ⟨_, rfl⟩ := hhandled
    unfold onHandshake
    split
    · exact hfail _ "handshake"
    · exact start_passes _
  · obtain ⟨_, rfl⟩ := hhandled
    exact onRead_passes boost _ _

/-! ## REST sessions -/

structure RestRun.Reasoned (s : RestRun) : Prop where
  jobs : ∀ job ∈ s.jobs, job.2.FailsWithoutJson
  calls : ∀ call ∈ s.calls, call.2.2.FailsWithoutJson

theorem RestRun.Reasoned.perform {s : RestRun} {effect : RestEffect}
    (hinv : s.Reasoned) (thread : CallerThread)
    (heffect : effect.Passes RestResponse.FailsWithoutJson) :
    (RestRun.perform thread s effect).Reasoned := by
  cases effect with
  | call callback result =>
      constructor
      · exact hinv.jobs
      · intro call hmem
        rcases List.mem_append.mp hmem with hold | hnew
        · exact hinv.calls call hold
        · obtain rfl := List.mem_singleton.mp hnew
          exact heffect
  | post callback result =>
      constructor
      · intro job hmem
        rcases List.mem_append.mp hmem with hold | hnew
        · exact hinv.jobs job hold
        · obtain rfl := List.mem_singleton.mp hnew
          exact heffect
      · exact hinv.calls
  | start op => exact ⟨hinv.jobs, hinv.calls⟩
  | clearBuffer => exact hinv

theorem RestRun.Reasoned.performAll {s : RestRun} {effects : List RestEffect}
    (hinv : s.Reasoned) (thread : CallerThread)
    (heffects : ∀ effect ∈ effects,
      effect.Passes RestResponse.FailsWithoutJson) :
    (RestRun.performAll thread s effects).Reasoned := by
  unfold RestRun.performAll
  induction effects generalizing s with
  | nil => exact hinv
  | cons effect effects ih =>
      have hfirst := hinv.perform thread (heffects effect List.mem_cons_self)
      apply ih hfirst
      intro other hmem
      exact heffects other (List.mem_cons_of_mem effect hmem)

theorem RestRun.launch_reasoned (boost : Boost) (session : RestSession)
    (sni : Option ErrorCode) (host port target : Str) (version : ℕ)
    (type : RequestType) :
    (RestRun.launch boost session sni host port target version type).Reasoned := by
  apply RestRun.Reasoned.performAll
  · constructor
    · simp
    · simp
  · cases sni with
    | some ec =>
        exact failOnPool_passes RestResponse.ofReason_failsWithoutJson boost ec
          "SNI hostname" session.callback
    | none => exact start_passes _

theorem RestRun.Reasoned.step {boost : Boost} {o : StageOutcomes}
    {s next : RestRun} {event : RestEvent} (hinv : s.Reasoned)
    (hstep : s.step boost o event = some next) : next.Reasoned := by
  cases event with
  | complete =>
      obtain ⟨op, hpending, rfl⟩ := RestRun.exists_of_step_complete hstep
      have hsame : { s with
          session := s.session.receive op o.response
          pending := none : RestRun }.Reasoned := ⟨hinv.jobs, hinv.calls⟩
      exact hsame.performAll .ioContext
        (RestSession.onComplete_passes boost _ op _)
  | runJob index =>
      obtain ⟨callback, result, hjob, rfl⟩ :=
        RestRun.exists_of_step_runJob hstep
      constructor
      · intro job hmem
        exact hinv.jobs job (List.mem_of_mem_eraseIdx hmem)
      · intro call hmem
        rcases List.mem_append.mp hmem with hold | hnew
        · exact hinv.calls call hold
        · obtain rfl := List.mem_singleton.mp hnew
          exact hinv.jobs _ (List.mem_of_getElem? hjob)

/-! ## Websocket sessions -/

structure WsRun.Reasoned (s : WsRun) : Prop where
  script : ∀ effect ∈ s.script, effect.Passes WsResponse.FailsWithoutJson
  queue : ∀ invocation ∈ s.queue, invocation.response.FailsWithoutJson
  log : ∀ invocation, .begins invocation ∈ s.log →
    invocation.response.FailsWithoutJson

theorem WsRun.launch_reasoned (session : WsSession) (host port path : Str) :
    (WsRun.launch session host port path).Reasoned := by
  constructor <;> simp [WsRun.launch]

theorem WsRun.Reasoned.perform {s : WsRun} {effect : WsEffect}
    {rest : List WsEffect} (hinv : s.Reasoned)
    (hscript : s.script = effect :: rest) :
    (s.perform rest effect).Reasoned := by
  have heffect := hinv.script effect (by simp [hscript])
  have hrest : ∀ other ∈ rest, other.Passes WsResponse.FailsWithoutJson := by
    intro other hmem
    exact hinv.script other (by simp [hscript, hmem])
  cases effect with
  | call handler response =>
      refine ⟨hrest, hinv.queue, ?_⟩
      intro invocation hbegins
      rcases List.mem_append.mp hbegins with hold | hnew
      · exact hinv.log invocation hold
      · obtain rfl : invocation = ⟨s.completions, handler, response⟩ := by
          simpa using hnew
        exact heffect
  | post handler response =>
      refine ⟨hrest, ?_, hinv.log⟩
      intro invocation hmem
      rcases List.mem_append.mp hmem with hold | hnew
      · exact hinv.queue invocation hold
      · obtain rfl := List.mem_singleton.mp hnew
        exact heffect
  | start op => exact ⟨hrest, hinv.queue, hinv.log⟩
  | clearBuffer => exact ⟨hrest, hinv.queue, hinv.log⟩

theorem WsRun.Reasoned.step {boost : Boost} {s next : WsRun}
    {event : WsEvent} (hinv : s.Reasoned)
    (hstep : s.step boost event = some next) : next.Reasoned := by
  cases WsRun.moves hstep with
  | completes script ioCall pending handled =>
      exact ⟨WsSession.onCompletion_passes handled, hinv.queue, hinv.log⟩
  | performs script ioCall => exact hinv.perform script
  | ioReturns ioCall =>
      refine ⟨hinv.script, hinv.queue, ?_⟩
      intro invocation hbegins
      exact hinv.log invocation (by simpa using hbegins)
  | @workerStarts started rest worker queue =>
      refine ⟨hinv.script, ?_, ?_⟩
      · intro invocation hmem
        exact hinv.queue invocation (by simp [queue, hmem])
      · intro invocation hbegins
        rcases List.mem_append.mp hbegins with hold | hnew
        · exact hinv.log invocation hold
        · obtain rfl : invocation = started := by simpa using hnew
          exact hinv.queue invocation (by simp [queue])
  | workerReturns worker =>
      refine ⟨hinv.script, hinv.queue, ?_⟩
      intro invocation hbegins
      exact hinv.log invocation (by simpa using hbegins)
  | stops =>
      refine ⟨hinv.script, hinv.queue, ?_⟩
      intro invocation hbegins
      exact hinv.log invocation (by simpa using hbegins)
  | closes script ioCall closing =>
      refine ⟨?_, hinv.queue, ?_⟩
      · intro effect hmem
        obtain rfl := List.mem_singleton.mp hmem
        intro hstate
        simp at hstate
      · intro invocation hbegins
        exact hinv.log invocation (by simpa using hbegins)

/-! ## Listen-key calls -/

def ApiState.Reasoned (s : ApiState) : Prop :=
  ∀ call ∈ s.calls, call.2.FailsWithoutJson

theorem ApiState.Reasoned.invoke {s : ApiState} (hinv : s.Reasoned)
    (handler : Callback) {response : WsResponse}
    (hresponse : response.FailsWithoutJson) :
    ((Bblib.invoke handler response).outcome s).2.Reasoned := by
  cases handler with
  | none => exact hinv
  | some f =>
      intro call hmem
      rcases List.mem_append.mp hmem with hold | hnew
      · exact hinv call hold
      · obtain rfl := List.mem_singleton.mp hnew
        exact hresponse

theorem ApiState.Reasoned.reported {s : ApiState} (hinv : s.Reasoned)
    (handler : Callback) (reason : Str) : (s.reported handler reason).Reasoned := by
  cases handler with
  | none => simpa [ApiState.Reasoned, ApiState.reported] using hinv
  | some f =>
      exact hinv.invoke (some f) (WsResponse.ofReason_failsWithoutJson reason)

theorem ApiState.Reasoned.amend {s : ApiState} (hinv : s.Reasoned)
    (boost : Boost) (exchange : Exchange) (handler : Callback)
    (mode : UserDataStreamMode) (streamName : Str) :
    ((amendUserDataListenKey boost exchange handler mode
      streamName).outcome s).2.Reasoned := by
  cases hexchange : exchange s.beast.config.restApiUri (ascii "443")
      (s.beast.listenKeyRequest mode streamName) with
  | error ec =>
      rw [amendUserDataListenKey_error hexchange]
      exact hinv
  | ok res =>
      have hbefore : (s.beforeReply mode).Reasoned := by
        cases mode <;> exact hinv
      rw [amendUserDataListenKey_ok hexchange, readListenKeyResponse_outcome]
      cases res.listenKeyReply boost with
      | accepted object =>
          unfold acceptReply
          cases mode with
          | create =>
              simp only [if_true]
              cases (object.index (ascii "listenKey")).1.valueToString with
              | none => exact hbefore
              | some key => exact hbefore
          | extend => exact hbefore
          | close => exact hbefore
      | rejected reason => exact hbefore.reported handler reason
      | malformed => exact hbefore

theorem ApiState.Reasoned.run {s : ApiState} (hinv : s.Reasoned)
    (boost : Boost) (exchange : Exchange) (call : UserDataCall) :
    ((call.run boost exchange).outcome s).2.Reasoned := by
  have hsuccess : (WsResponse.ofState .success).FailsWithoutJson := by
    simp [WsResponse.FailsWithoutJson]
  cases call with
  | startUserData handler stream =>
      have hamend := hinv.amend boost exchange handler .create stream
      rw [UserDataCall.run_startUserData]
      apply Api.outcome_bind_ite_keeps hamend
      · intro t ht
        rw [Api.outcome_get_bind, ApiState.Reasoned, createWsSession_calls]
        exact ht
      · exact fun t ht => ht
  | renewListenKey handler stream =>
      have hamend := hinv.amend boost exchange handler .extend stream
      apply Api.outcome_bind_ite_keeps hamend
      · exact fun t ht => ht.invoke handler hsuccess
      · exact fun t ht =>
          ht.invoke handler (WsResponse.ofReason_failsWithoutJson _)
  | closeUserData handler stream =>
      have hamend := hinv.amend boost exchange handler .close stream
      apply Api.outcome_bind_ite_keeps hamend
      · intro t ht
        have hcleared : (t.withKey []).Reasoned := ht
        exact hcleared.invoke handler hsuccess
      · exact fun t ht =>
          ht.invoke handler (WsResponse.ofReason_failsWithoutJson _)

/-! ## Every failed response -/

/-- What a REST exchange that fails passes to the callback. -/
inductive RestFailure (boost : Boost) : RestResponse → Prop where
  | session {env : RestEnv} {o : StageOutcomes} {beast after : BinanceBeast}
      {host path : Str} {createStrand sign : Bool} {f : ℕ}
      {params : RestParams} {type : RequestType} {start s : RestRun}
      {events : List RestEvent} {thread : CallerThread} {callback : Callback}
      {r : RestResponse}
      (created : beast.createRestSession boost env o.sni host path
        createStrand (some f) sign params type = .ok (after, start))
      (ran : run (RestRun.step boost o) start events = some s)
      (called : (thread, callback, r) ∈ s.calls)
      (failed : r.state = .fail) : RestFailure boost r

/-- What a websocket session or a listen-key call passes to the handler when
it fails. -/
inductive WsFailure (boost : Boost) : WsResponse → Prop where
  | session {session : WsSession} {host port path : Str}
      {events : List WsEvent} {s : WsRun} {invocation : Invocation}
      (ran : run (WsRun.step boost) (WsRun.launch session host port path)
        events = some s)
      (begun : .begins invocation ∈ s.log)
      (failed : invocation.response.state = .fail) :
      WsFailure boost invocation.response
  | listenKey {s : ApiState} {events : List KeyEvent} {m : KeyRun} {f : ℕ}
      {r : WsResponse} (fresh : s.calls = [])
      (ran : run (KeyRun.step boost) (KeyRun.start s) events = some m)
      (called : (f, r) ∈ m.api.calls)
      (failed : r.state = .fail) : WsFailure boost r

theorem RestFailure.withoutJson {boost : Boost} {r : RestResponse}
    (hfailure : RestFailure boost r) : r.WithoutJson := by
  cases hfailure with
  | session created ran called failed =>
      obtain ⟨session, target, _, rfl⟩ :=
        BinanceBeast.createRestSession_launch created
      have hinv := invariant_of_run
        (fun _ _ _ (hinv : RestRun.Reasoned _) _ hstep => hinv.step hstep)
        (RestRun.launch_reasoned boost session _ _ _ target 11 _)
        (meets_true _ _ _) ran
      exact ⟨hinv.calls _ called failed, failed⟩

theorem WsFailure.withoutJson {boost : Boost} {r : WsResponse}
    (hfailure : WsFailure boost r) : r.WithoutJson := by
  cases hfailure with
  | session ran begun failed =>
      have hinv := invariant_of_run
        (fun _ _ _ (hinv : WsRun.Reasoned _) _ hstep => hinv.step hstep)
        (WsRun.launch_reasoned _ _ _ _) (meets_true _ _ _) ran
      exact ⟨hinv.log _ begun failed, failed⟩
  | listenKey fresh ran called failed =>
      have hinv := invariant_of_run (I := fun m => m.api.Reasoned)
        (fun m event next hinv _ hstep => by
          obtain rfl := Option.some.inj hstep
          exact ApiState.Reasoned.run hinv boost _ event.call)
        (by simp [KeyRun.start, ApiState.Reasoned, fresh])
        (meets_true _ _ _) ran
      exact ⟨hinv _ called failed, failed⟩

/-- For every producer of a failed response and every sequence of flags. -/
theorem failures_stay_failed_iff (boost : Boost) :
    (∀ r, RestFailure boost r → ∀ flags,
      (StaysFailed (RestResponse.hasErrorCode boost)
        (fun r => r.state = .fail) r flags ↔
        ∀ isNullAllowed ∈ flags, isNullAllowed = false)) ∧
    ∀ r, WsFailure boost r → ∀ flags,
      (StaysFailed WsResponse.hasErrorCode (fun r => r.state = .fail) r flags ↔
        ∀ isNullAllowed ∈ flags, isNullAllowed = false) := by
  constructor
  · intro r hfailure flags
    exact RestResponse.staysFailed_withoutJson hfailure.withoutJson flags
  · intro r hfailure flags
    exact WsResponse.staysFailed_withoutJson hfailure.withoutJson flags

/-- A request whose SNI host name is refused. -/
theorem sniHostname_failure :
    RestFailure sampleBoost (.ofReason (ascii "SNI hostname failed")) := by
  let o : StageOutcomes := { sampleOutcomes with sni := some .shutDown }
  let r := RestResponse.ofReason (ascii "SNI hostname failed")
  let start : RestRun := {
    session := { openOrdersSession ⟨200, [], []⟩ with req := none }
    pending := none
    jobs := [(some 0, r)]
    started := []
    calls := [] }
  let done : RestRun := { start with
    jobs := []
    calls := [(.restCallersThreadPool, some 0, r)] }
  have hcreate : sampleBeast.createRestSession sampleBoost
      (sampleEnv .appendRight .right) o.sni (ascii "testnet.binancefuture.com")
      (ascii "/fapi/v1/time") true (some 0) false ⟨.empty⟩ .get =
        .ok (sampleBeast.getRestIoContext.2, start) := rfl
  have hrun : run (RestRun.step sampleBoost o) start [.runJob 0] =
      some done := rfl
  exact .session hcreate hrun (List.mem_singleton_self _) rfl

theorem missing_key_failure :
    WsFailure sampleBoost (.ofReason (ascii "Failed to renew listen key")) := by
  have hrun : run (KeyRun.step sampleBoost) (KeyRun.start (sampleApi []))
      [⟨.renewListenKey (some 0) (ascii "/fapi/v1/listenKey"),
        .ok (jsonResponse "\x7b\x7d")⟩] = some _ := rfl
  exact .listenKey rfl hrun (List.mem_singleton_self _) rfl

theorem checks_without_null_stay_failed :
    StaysFailed (RestResponse.hasErrorCode sampleBoost)
        (fun r => r.state = .fail) (.ofReason (ascii "SNI hostname failed"))
        [false, false] ∧
      StaysFailed WsResponse.hasErrorCode (fun r => r.state = .fail)
        (.ofReason (ascii "Failed to renew listen key")) [false, false] := by
  obtain ⟨hrest, hws⟩ := failures_stay_failed_iff sampleBoost
  constructor
  · exact (hrest _ sniHostname_failure _).mpr (by decide)
  · exact (hws _ missing_key_failure _).mpr (by decide)

/-- Both failures pass a check that allows null. -/
theorem null_allowing_check_loses_failure :
    (∃ r, RestFailure sampleBoost r ∧
      ¬ StaysFailed (RestResponse.hasErrorCode sampleBoost)
        (fun r => r.state = .fail) r [true]) ∧
    ∃ r, WsFailure sampleBoost r ∧
      ¬ StaysFailed WsResponse.hasErrorCode (fun r => r.state = .fail) r
        [true] := by
  constructor
  · refine ⟨_, sniHostname_failure, ?_⟩
    rintro ⟨hreturned, _⟩
    contradiction
  · refine ⟨_, missing_key_failure, ?_⟩
    rintro ⟨hreturned, _⟩
    contradiction

end Bblib
