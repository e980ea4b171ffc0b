import Bblib.WsConnection
import Mathlib.Tactic

/-!
# What the user's handler is called with

Messages reach the user's handler through the queue of the pool, failures and
the Disconnect of a close directly.  The calls that have begun are read off
the log: those with a message are the first of the posted ones and the queue
holds the rest, the others are those the io thread has made.

From any state the threads can finish what is left to do without another
completion, and then every completion has been answered exactly once.
-/

namespace Bblib

open LabelledRuns

/-! ## Calls asked for and calls begun -/

/-- A call of the user's handler. -/
abbrev HandlerCall := Callback × WsResponse

/-- The call an effect asks for, a Disconnect included. -/
def WsEffect.asks : WsEffect → Option HandlerCall
  | .call handler response => some (handler, response)
  | .post handler response => some (handler, response)
  | .start _ => none
  | .clearBuffer => none

def asked (effects : List WsEffect) : List HandlerCall :=
  effects.filterMap WsEffect.asks

def Invocation.call (invocation : Invocation) : HandlerCall :=
  (invocation.handler, invocation.response)

/-- The calls of the user's handler that have begun, in the order they began. -/
def calledWith (log : List WsLog) : List HandlerCall :=
  log.filterMap fun
    | .begins invocation => some invocation.call
    | _ => none

def ofState (state : WsResponse.State) (calls : List HandlerCall) :
    List HandlerCall :=
  calls.filter fun call => call.2.state == state

/-- What a completion handler may do: report a failure directly and hand a
message to the pool. -/
def WsEffect.Answers : WsEffect → Prop
  | .call _ response => response.state = .fail
  | .post _ response => response.state = .success
  | .start _ => True
  | .clearBuffer => True

/-- Messages go through the pool and everything else does not. -/
def WsEffect.Routed : WsEffect → Prop
  | .call _ response => response.state ≠ .success
  | .post _ response => response.state = .success
  | .start _ => True
  | .clearBuffer => True

def WsLog.isClosed : WsLog → Bool
  | .closed => true
  | _ => false

/-- How many closes have completed. -/
def closes (log : List WsLog) : ℕ := log.countP WsLog.isClosed

@[simp] theorem asked_append (left right : List WsEffect) :
    asked (left ++ right) = asked left ++ asked right :=
  List.filterMap_append

@[simp] theorem calledWith_append (left right : List WsLog) :
    calledWith (left ++ right) = calledWith left ++ calledWith right :=
  List.filterMap_append

@[simp] theorem ofState_append (state : WsResponse.State)
    (left right : List HandlerCall) :
    ofState state (left ++ right) = ofState state left ++ ofState state right :=
  List.filter_append ..

@[simp] theorem closes_append (left right : List WsLog) :
    closes (left ++ right) = closes left + closes right :=
  List.countP_append

theorem ofState_singleton (state : WsResponse.State) (call : HandlerCall) :
    ofState state [call] = if call.2.state = state then [call] else [] := by
  simp [ofState, List.filter_cons]

/-- The requests are the calls asked for without the Disconnects. -/
theorem ofState_requested {state : WsResponse.State}
    (hstate : state ≠ .disconnect) (effects : List WsEffect) :
    ofState state (requested effects) = ofState state (asked effects) := by
  induction effects with
  | nil => rfl
  | cons effect effects ih =>
      have hsplit : effect :: effects = [effect] ++ effects := rfl
      rw [hsplit, requested_append, asked_append, ofState_append,
        ofState_append, ih]
      congr 1
      have hcall : ∀ (handler : Callback) (response : WsResponse),
          ofState state (if response.state = .disconnect then []
            else [(handler, response)]) =
          ofState state [(handler, response)] := by
        intro handler response
        by_cases hdisconnect : response.state = .disconnect
        · have hne : response.state ≠ state := by
            rw [hdisconnect]
            exact hstate.symm
          rw [if_pos hdisconnect, ofState_singleton, if_neg hne]
          rfl
        · rw [if_neg hdisconnect]
      cases effect with
      | call handler response =>
          rw [show asked [.call handler response] = [(handler, response)]
            from rfl, ← hcall]
          congr 1
          by_cases hdisconnect : response.state = .disconnect
          · simp [requested, WsEffect.request, hdisconnect]
          · simp [requested, WsEffect.request, hdisconnect]
      | post handler response =>
          rw [show asked [.post handler response] = [(handler, response)]
            from rfl, ← hcall]
          congr 1
          by_cases hdisconnect : response.state = .disconnect
          · simp [requested, WsEffect.request, hdisconnect]
          · simp [requested, WsEffect.request, hdisconnect]
      | start op => rfl
      | clearBuffer => rfl

/-! ## Stops and closes of a session -/

def WsLog.isStopped : WsLog → Bool
  | .stopped => true
  | _ => false

/-- How many stops have reached a session. -/
def stops (log : List WsLog) : ℕ := log.countP WsLog.isStopped

@[simp] theorem stops_append (left right : List WsLog) :
    stops (left ++ right) = stops left + stops right :=
  List.countP_append

def WsEvent.isStop : WsEvent → ℕ
  | .stopWebSocket _ => 1
  | _ => 0

def WsEvent.isClose : WsEvent → ℕ
  | .closeCompletes _ => 1
  | _ => 0

/-- What a step does to the closes of a session. -/
structure WsRun.Closings (s : WsRun) (event : WsEvent) (next : WsRun) :
    Prop where
  closes : closes next.log = closes s.log + event.isClose
  stops : stops next.log = stops s.log + event.isStop
  closing : next.closing.length + event.isClose =
    s.closing.length + event.isStop

theorem WsRun.closings {boost : Boost} {s next : WsRun} {event : WsEvent}
    (hstep : s.step boost event = some next) : s.Closings event next := by
  cases WsRun.moves hstep with
  | completes script ioCall pending handled => exact ⟨rfl, rfl, rfl⟩
  | @performs effect rest script ioCall =>
      cases effect with
      | call handler response =>
          exact ⟨closes_append _ _, stops_append _ _, rfl⟩
      | post handler response => exact ⟨rfl, rfl, rfl⟩
      | start op => exact ⟨rfl, rfl, rfl⟩
      | clearBuffer => exact ⟨rfl, rfl, rfl⟩
  | ioReturns ioCall => exact ⟨closes_append _ _, stops_append _ _, rfl⟩
  | workerStarts worker queue =>
      exact ⟨closes_append _ _, stops_append _ _, rfl⟩
  | workerReturns worker => exact ⟨closes_append _ _, stops_append _ _, rfl⟩
  | stops =>
      refine ⟨closes_append _ _, stops_append _ _, ?_⟩
      simp [WsEvent.isClose, WsEvent.isStop]
  | closes script ioCall closing =>
      refine ⟨closes_append _ _, stops_append _ _, ?_⟩
      exact List.length_eraseIdx_add_one (List.getElem?_eq_some_iff.mp closing).1

theorem WsRun.run_closes {boost : Boost} {s t : WsRun} {events : List WsEvent}
    (hrun : run (WsRun.step boost) s events = some t) :
    closes t.log = closes s.log + (events.map WsEvent.isClose).sum := by
  induction events generalizing s with
  | nil =>
      obtain rfl : s = t := by simpa using hrun
      rfl
  | cons event events ih =>
      obtain ⟨next, hstep, hrest⟩ := run_cons_eq_some.mp hrun
      rw [ih hrest, (WsRun.closings hstep).closes, List.map_cons,
        List.sum_cons, Nat.add_assoc]

/-! ## Which way an effect goes -/

theorem answers_failOnThread (boost : Boost) (ec : ErrorCode) (what : String)
    (callback : Callback) :
    ∀ effect : WsEffect, effect ∈ failOnThread boost ec what callback →
      effect.Answers := by
  intro effect hmem
  cases callback with
  | none => simp [failOnThread] at hmem
  | some f =>
      obtain rfl := List.mem_singleton.mp hmem
      simp [WsEffect.Answers, FailResult.ofReason]

theorem answers_onRead (boost : Boost) (session : WsSession) (ec : ErrorCode) :
    ∀ effect : WsEffect, effect ∈ session.onRead boost ec →
      effect.Answers := by
  intro effect hmem
  unfold WsSession.onRead at hmem
  split at hmem
  · simp at hmem
  · split at hmem
    · exact answers_failOnThread boost ec "read" _ effect hmem
    · simp only [List.mem_append, List.mem_cons, List.not_mem_nil,
        or_false] at hmem
      rcases hmem with hreport | rfl | rfl
      · cases hparse : boost.parse session.buffer with
        | error jsonEc =>
            rw [hparse] at hreport
            exact answers_failOnThread boost jsonEc "json read" _ effect hreport
        | ok jsonValue =>
            rw [hparse] at hreport
            obtain rfl := List.mem_singleton.mp hreport
            exact WsResponse.ofJson_state jsonValue
      · trivial
      · trivial

theorem answers_onCompletion {boost : Boost} {session after : WsSession}
    {op : WsOp} {c : WsCompletion} {effects : List WsEffect}
    (hhandled : session.onCompletion boost op c = some (after, effects)) :
    ∀ effect : WsEffect, effect ∈ effects → effect.Answers := by
  have hstart : ∀ (op : WsOp) (effect : WsEffect), effect ∈ [.start op] →
      effect.Answers := by
    intro op effect hmem
    rw [List.mem_singleton.mp hmem]
    trivial
  cases op <;> cases c <;>
    simp only [WsSession.onCompletion, Option.some.injEq, Prod.mk.injEq,
      reduceCtorEq] at hhandled
  · obtain ⟨_, rfl⟩ := hhandled
    unfold WsSession.onResolve
    split
    · exact answers_failOnThread boost _ _ _
    · exact hstart _
  · rename_i ec port sni
    have heffects : effects = (session.onConnect boost ec port sni).2 := by
      rw [hhandled]
    rw [heffects]
    unfold WsSession.onConnect
    split
    · exact answers_failOnThread boost _ _ _
    · cases sni with
      | some sniEc => exact answers_failOnThread boost _ _ _
      | none => exact hstart _
  · obtain ⟨_, rfl⟩ := hhandled
    unfold WsSession.onSslHandshake
    split
    · exact answers_failOnThread boost _ _ _
    · exact hstart _
  · obtain ⟨_, rfl⟩ := hhandled
    unfold WsSession.onHandshake
    split
    · exact answers_failOnThread boost _ _ _
    · exact hstart _
  · obtain ⟨_, rfl⟩ := hhandled
    exact answers_onRead boost _ _

theorem WsEffect.Answers.routed {effect : WsEffect} (hanswers : effect.Answers) :
    effect.Routed := by
  cases effect with
  | call handler response =>
      have hfail : response.state = .fail := hanswers
      simp [WsEffect.Routed, hfail]
  | post handler response => exact hanswers
  | start op => trivial
  | clearBuffer => trivial

/-- A completion handler asks for no Disconnect. -/
theorem disconnects_of_answers {effects : List WsEffect}
    (hanswers : ∀ effect : WsEffect, effect ∈ effects → effect.Answers) :
    ofState .disconnect (asked effects) = [] := by
  apply List.filter_eq_nil_iff.mpr
  intro call hcall
  obtain ⟨effect, hmem, hasks⟩ := List.mem_filterMap.mp hcall
  have heffect := hanswers effect hmem
  cases effect with
  | call handler response =>
      obtain rfl := Option.some.inj hasks
      have hfail : response.state = .fail := heffect
      simp [hfail]
  | post handler response =>
      obtain rfl := Option.some.inj hasks
      have hsuccess : response.state = .success := heffect
      simp [hsuccess]
  | start op => contradiction
  | clearBuffer => contradiction

/-! ## The invariant -/

/-- The calls that have begun and those that wait in the queue are, for each
way to the handler, the calls the io thread has asked for. -/
structure SessionTrace.Accounts (t : SessionTrace) : Prop where
  script : ∀ effect : WsEffect, effect ∈ t.run.script → effect.Routed
  queue : ∀ invocation ∈ t.run.queue, invocation.response.state = .success
  messages : ofState .success (calledWith t.run.log) ++
    t.run.queue.map Invocation.call = ofState .success (asked t.performed)
  notices : ∀ state ≠ .success, ofState state (calledWith t.run.log) =
    ofState state (asked t.performed)
  disconnects : (ofState .disconnect (asked t.effects)).length =
    closes t.run.log

namespace SessionTrace

theorem launch_accounts (session : WsSession) (host port path : Str) :
    (launch session host port path).Accounts where
  script := by simp [launch, WsRun.launch]
  queue := by simp [launch, WsRun.launch]
  messages := rfl
  notices := fun _ _ => rfl
  disconnects := rfl

/-- A step that begins no call, queues none and closes nothing. -/
theorem Accounts.keep {t : SessionTrace} {run : WsRun} {entry : List WsLog}
    (haccounts : t.Accounts) (hscript : run.script = t.run.script)
    (hqueue : run.queue = t.run.queue) (hlog : run.log = t.run.log ++ entry)
    (hcalls : calledWith entry = []) (hcloses : closes entry = 0) :
    Accounts { t with run := run } where
  script := by
    rw [hscript]
    exact haccounts.script
  queue := by
    rw [hqueue]
    exact haccounts.queue
  messages := by
    rw [hlog, hqueue, calledWith_append, hcalls, List.append_nil]
    exact haccounts.messages
  notices := by
    intro state hstate
    rw [hlog, calledWith_append, hcalls, List.append_nil]
    exact haccounts.notices state hstate
  disconnects := by
    have heffects : effects { t with run := run } = t.effects := by
      unfold effects
      rw [hscript]
    rw [heffects, hlog, closes_append, hcloses, Nat.add_zero]
    exact haccounts.disconnects

theorem Accounts.perform {t : SessionTrace} {effect : WsEffect}
    {rest : List WsEffect} (haccounts : t.Accounts)
    (hscript : t.run.script = effect :: rest) :
    Accounts {
      run := t.run.perform rest effect
      completions := t.completions
      performed := t.performed ++ [effect] } := by
  have hrest : (t.run.perform rest effect).script = rest := by
    cases effect <;> rfl
  have hrouted : effect.Routed :=
    haccounts.script effect (by simp [hscript])
  have hlater : ∀ other : WsEffect,
      other ∈ (t.run.perform rest effect).script → other.Routed := by
    intro other hother
    rw [hrest] at hother
    exact haccounts.script other (by simp [hscript, hother])
  have hcloses : closes (t.run.perform rest effect).log =
      closes t.run.log := by
    cases effect with
    | call handler response => exact closes_append _ _
    | post handler response => rfl
    | start op => rfl
    | clearBuffer => rfl
  have hdisconnects : (ofState .disconnect
      (asked (t.performed ++ [effect] ++
        (t.run.perform rest effect).script))).length =
      closes (t.run.perform rest effect).log := by
    rw [hcloses, hrest, List.append_assoc, List.singleton_append, ← hscript]
    exact haccounts.disconnects
  have hmessages := haccounts.messages
  have hnotices := haccounts.notices
  cases effect with
  | call handler response =>
      have hstate : response.state ≠ .success := hrouted
      refine ⟨hlater, haccounts.queue, ?_, ?_, hdisconnects⟩
      · show ofState .success (calledWith (t.run.log ++ _)) ++ _ = _
        rw [calledWith_append, asked_append, ofState_append, ofState_append,
          ← hmessages]
        simp [calledWith, asked, WsEffect.asks, Invocation.call, ofState,
          hstate, WsRun.perform]
      · intro state hne
        show ofState state (calledWith (t.run.log ++ _)) = _
        rw [calledWith_append, asked_append, ofState_append, ofState_append,
          hnotices state hne]
        rfl
  | post handler response =>
      have hstate : response.state = .success := hrouted
      refine ⟨hlater, ?_, ?_, ?_, hdisconnects⟩
      · intro invocation hmem
        rcases List.mem_append.mp hmem with hold | hnew
        · exact haccounts.queue invocation hold
        · rw [List.mem_singleton.mp hnew]
          exact hstate
      · rw [asked_append, ofState_append, ← hmessages]
        simp [asked, WsEffect.asks, Invocation.call, ofState, hstate,
          WsRun.perform]
      · intro state hne
        rw [asked_append, ofState_append]
        have hnone : ofState state (asked [.post handler response]) = [] := by
          simp [asked, WsEffect.asks, ofState, hstate, hne.symm]
        rw [hnone, List.append_nil]
        exact hnotices state hne
  | start op =>
      have hnone : asked (t.performed ++ [(.start op : WsEffect)]) =
          asked t.performed := by simp [asked, WsEffect.asks]
      rw [← hnone] at hmessages hnotices
      exact ⟨hlater, haccounts.queue, hmessages, hnotices, hdisconnects⟩
  | clearBuffer =>
      have hnone : asked (t.performed ++ [(.clearBuffer : WsEffect)]) =
          asked t.performed := by simp [asked, WsEffect.asks]
      rw [← hnone] at hmessages hnotices
      exact ⟨hlater, haccounts.queue, hmessages, hnotices, hdisconnects⟩

theorem Accounts.complete {boost : Boost} {t : SessionTrace} {op : WsOp}
    {c : WsCompletion} {session : WsSession} {effects : List WsEffect}
    (haccounts : t.Accounts) (hscript : t.run.script = [])
    (hhandled : t.run.session.onCompletion boost op c =
      some (session, effects)) :
    Accounts {
      run := { t.run with
        session := session
        pending := none
        script := effects
        completions := t.run.completions + 1 }
      completions := t.completions ++ [c]
      performed := t.performed } where
  script := fun effect hmem =>
    (answers_onCompletion hhandled effect hmem).routed
  queue := haccounts.queue
  messages := haccounts.messages
  notices := haccounts.notices
  disconnects := by
    have hdisconnects := haccounts.disconnects
    unfold SessionTrace.effects at hdisconnects ⊢
    rw [hscript, List.append_nil] at hdisconnects
    rw [asked_append, ofState_append,
      disconnects_of_answers (answers_onCompletion hhandled),
      List.append_nil]
    exact hdisconnects

theorem Accounts.close {t : SessionTrace} {handler : Callback}
    {closing : List Callback} (haccounts : t.Accounts)
    (hscript : t.run.script = []) :
    Accounts { t with
      run := { t.run with
        script := t.run.session.onClose handler
        closing := closing
        completions := t.run.completions + 1
        log := t.run.log ++ [.closed] } } where
  script := by
    intro effect hmem
    rw [List.mem_singleton.mp hmem]
    simp [WsEffect.Routed]
  queue := haccounts.queue
  messages := by
    rw [calledWith_append, show calledWith [.closed] = [] from rfl,
      List.append_nil]
    exact haccounts.messages
  notices := by
    intro state hstate
    rw [calledWith_append, show calledWith [.closed] = [] from rfl,
      List.append_nil]
    exact haccounts.notices state hstate
  disconnects := by
    have hdisconnects := haccounts.disconnects
    unfold SessionTrace.effects at hdisconnects ⊢
    rw [hscript, List.append_nil] at hdisconnects
    rw [asked_append, ofState_append, closes_append, List.length_append,
      hdisconnects]
    rfl

theorem Accounts.worker {t : SessionTrace} {invocation : Invocation}
    {rest : List Invocation} (haccounts : t.Accounts)
    (hqueue : t.run.queue = invocation :: rest) :
    Accounts { t with
      run := { t.run with
        worker := some invocation
        queue := rest
        log := t.run.log ++ [.begins invocation] } } := by
  have hstate : invocation.response.state = .success :=
    haccounts.queue invocation (by simp [hqueue])
  have hmessages := haccounts.messages
  rw [hqueue] at hmessages
  have hcall : calledWith [.begins invocation] = [invocation.call] := rfl
  exact {
    script := haccounts.script
    queue := by
      intro other hother
      exact haccounts.queue other (by simp [hqueue, hother])
    messages := by
      have hmessage : ofState .success [invocation.call] =
          [invocation.call] := by
        rw [ofState_singleton]
        exact if_pos hstate
      rw [calledWith_append, ofState_append, hcall, hmessage,
        List.append_assoc]
      exact hmessages
    notices := by
      intro state hne
      have hother : invocation.call.2.state ≠ state := by
        rw [show invocation.call.2.state = .success from hstate]
        exact hne.symm
      rw [calledWith_append, ofState_append, hcall, ofState_singleton,
        if_neg hother, List.append_nil]
      exact haccounts.notices state hne
    disconnects := by
      have hdisconnects := haccounts.disconnects
      rw [closes_append]
      exact hdisconnects }

theorem Accounts.step {boost : Boost} {t next : SessionTrace}
    {event : WsEvent} (haccounts : t.Accounts)
    (hstep : t.step boost event = some next) : next.Accounts := by
  obtain ⟨after, hmoves, rfl⟩ := step_eq_some hstep
  have hnone : t.completions ++ (none : Option WsCompletion).toList =
      t.completions := by simp
  have hquiet : t.performed ++ (none : Option WsEffect).toList =
      t.performed := by simp
  cases hmoves with
  | completes hscript _ _ hhandled =>
      have hnext := haccounts.complete hscript hhandled
      simpa [WsEvent.completion?, WsRun.executed] using hnext
  | performs hscript _ =>
      have hnext := haccounts.perform hscript
      simpa [WsEvent.completion?, WsRun.executed, hscript] using hnext
  | ioReturns _ =>
      simp only [WsEvent.completion?, WsRun.executed, hnone, hquiet]
      exact haccounts.keep rfl rfl rfl rfl rfl
  | workerStarts _ hqueue =>
      simp only [WsEvent.completion?, WsRun.executed, hnone, hquiet]
      exact haccounts.worker hqueue
  | workerReturns _ =>
      simp only [WsEvent.completion?, WsRun.executed, hnone, hquiet]
      exact haccounts.keep rfl rfl rfl rfl rfl
  | stops =>
      simp only [WsEvent.completion?, WsRun.executed, hnone, hquiet]
      exact haccounts.keep rfl rfl rfl rfl rfl
  | closes hscript _ _ =>
      simp only [WsEvent.completion?, WsRun.executed, hnone, hquiet]
      exact haccounts.close hscript

end SessionTrace

/-! ## Finishing what is left to do -/

/-- The steps the two threads take without the network or the user. -/
def WsEvent.internal : WsEvent → Bool
  | .io => true
  | .ioReturns => true
  | .workerStarts => true
  | .workerReturns => true
  | _ => false

/-- Both threads are out of the handler and nothing waits for them. -/
structure WsRun.Drained (s : WsRun) : Prop where
  script : s.script = []
  ioCall : s.ioCall = none
  queue : s.queue = []
  worker : s.worker = none

/-- What the two threads have still to do: an effect may queue a call, and a
call that waits has still to begin and to return. -/
def WsRun.toDo (s : WsRun) : ℕ :=
  3 * s.script.length + s.ioCall.toList.length + 2 * s.queue.length +
    s.worker.toList.length

namespace SessionTrace

def internalStep (boost : Boost) (t : SessionTrace) (event : WsEvent) :
    Option SessionTrace :=
  if event.internal then t.step boost event else none

theorem internalStep_eq_some {boost : Boost} {t next : SessionTrace}
    {event : WsEvent} :
    t.internalStep boost event = some next ↔
      event.internal = true ∧ t.step boost event = some next := by
  unfold internalStep
  cases event.internal with
  | true => simp
  | false => simp

theorem toDo_lt {boost : Boost} {t next : SessionTrace} {event : WsEvent}
    (hstep : t.internalStep boost event = some next) :
    next.run.toDo < t.run.toDo := by
  obtain ⟨hinternal, hstep⟩ := internalStep_eq_some.mp hstep
  obtain ⟨after, hmoves, rfl⟩ := step_eq_some hstep
  cases hmoves with
  | completes _ _ _ _ => contradiction
  | @performs effect rest hscript hioCall =>
      have hperform : (t.run.perform rest effect).toDo ≤
          3 * rest.length + 2 + 2 * t.run.queue.length +
            t.run.worker.toList.length := by
        cases effect with
        | call handler response => simp [WsRun.perform, WsRun.toDo]
        | post handler response =>
            simp [WsRun.perform, WsRun.toDo, hioCall]
            omega
        | start op => simp [WsRun.perform, WsRun.toDo, hioCall]
        | clearBuffer => simp [WsRun.perform, WsRun.toDo, hioCall]
      show (t.run.perform rest effect).toDo < _
      simp only [WsRun.toDo, hscript, List.length_cons] at hperform ⊢
      omega
  | ioReturns hioCall => simp [WsRun.toDo, hioCall]
  | workerStarts hworker hqueue =>
      simp [WsRun.toDo, hworker, hqueue]
      omega
  | workerReturns hworker => simp [WsRun.toDo, hworker]
  | stops => contradiction
  | closes _ _ _ => contradiction

theorem exists_internalStep (boost : Boost) {t : SessionTrace}
    (hbusy : ¬ t.run.Drained) :
    ∃ event next, t.internalStep boost event = some next := by
  have hinternal : ∀ event : WsEvent, event.internal = true →
      (∃ run, t.run.step boost event = some run) →
      ∃ event next, t.internalStep boost event = some next := by
    rintro event hevent ⟨run, hrun⟩
    refine ⟨event, ?_⟩
    simp only [internalStep, hevent, if_true, step, hrun, Option.map_some]
    exact ⟨_, rfl⟩
  cases hioCall : t.run.ioCall with
  | some invocation =>
      apply hinternal .ioReturns rfl
      simp only [WsRun.step, hioCall]
      exact ⟨_, rfl⟩
  | none =>
      cases hscript : t.run.script with
      | cons effect rest =>
          apply hinternal .io rfl
          simp only [WsRun.step, hscript, hioCall]
          exact ⟨_, rfl⟩
      | nil =>
          cases hworker : t.run.worker with
          | some invocation =>
              apply hinternal .workerReturns rfl
              simp only [WsRun.step, hworker]
              exact ⟨_, rfl⟩
          | none =>
              cases hqueue : t.run.queue with
              | cons invocation rest =>
                  apply hinternal .workerStarts rfl
                  simp only [WsRun.step, hworker, hqueue]
                  exact ⟨_, rfl⟩
              | nil =>
                  exact absurd ⟨hscript, hioCall, hqueue, hworker⟩ hbusy

/-- Internal steps complete nothing and close nothing. -/
theorem internalStep_keeps {boost : Boost} {t next : SessionTrace}
    {event : WsEvent} (hstep : t.internalStep boost event = some next) :
    next.completions = t.completions ∧
      closes next.run.log = closes t.run.log := by
  obtain ⟨hinternal, hstep⟩ := internalStep_eq_some.mp hstep
  obtain ⟨after, hmoves, rfl⟩ := step_eq_some hstep
  cases hmoves with
  | completes _ _ _ _ => contradiction
  | @performs effect rest _ _ =>
      refine ⟨List.append_nil _, ?_⟩
      cases effect with
      | call handler response => exact closes_append _ _
      | post handler response => rfl
      | start op => rfl
      | clearBuffer => rfl
  | ioReturns _ => exact ⟨List.append_nil _, closes_append _ _⟩
  | workerStarts _ _ => exact ⟨List.append_nil _, closes_append _ _⟩
  | workerReturns _ => exact ⟨List.append_nil _, closes_append _ _⟩
  | stops => contradiction
  | closes _ _ _ => contradiction

theorem run_of_internal {boost : Boost} {t done : SessionTrace}
    {more : List WsEvent}
    (hrun : LabelledRuns.run (internalStep boost) t more = some done) :
    LabelledRuns.run (step boost) t more = some done ∧
      (∀ event ∈ more, event.internal = true) ∧
      done.completions = t.completions ∧
      closes done.run.log = closes t.run.log := by
  induction more generalizing t with
  | nil =>
      obtain rfl : t = done := by simpa using hrun
      exact ⟨rfl, by simp, rfl, rfl⟩
  | cons event more ih =>
      obtain ⟨next, hnext, hrest⟩ := run_cons_eq_some.mp hrun
      obtain ⟨hevent, hstep⟩ := internalStep_eq_some.mp hnext
      obtain ⟨hcompletions, hcloses⟩ := internalStep_keeps hnext
      obtain ⟨hmore, hinternal, hsame, hlog⟩ := ih hrest
      refine ⟨run_cons_eq_some.mpr ⟨next, hstep, hmore⟩, ?_,
        hsame.trans hcompletions, hlog.trans hcloses⟩
      simpa [hevent] using hinternal

theorem exists_drain (boost : Boost) (t : SessionTrace) :
    ∃ more done, LabelledRuns.run (step boost) t more = some done ∧
      (∀ event ∈ more, event.internal = true) ∧ done.run.Drained ∧
      done.completions = t.completions ∧
      closes done.run.log = closes t.run.log := by
  have hstart : (fun _ : SessionTrace => True) t := trivial
  obtain ⟨more, done, hrun, hdrained⟩ :=
    LabelledRuns.exists_run_to_quiet (fun t : SessionTrace => t.run.toDo)
      (fun _ _ _ _ _ => trivial)
      (fun _ _ _ _ hstep => toDo_lt hstep)
      (fun _ _ hbusy => exists_internalStep boost hbusy) hstart
  obtain ⟨hmore, hinternal, hcompletions, hcloses⟩ := run_of_internal hrun
  exact ⟨more, done, hmore, hinternal, hdrained, hcompletions, hcloses⟩

theorem run_accounts {boost : Boost} {t done : SessionTrace}
    {events : List WsEvent} (haccounts : t.Accounts)
    (hrun : LabelledRuns.run (step boost) t events = some done) :
    done.Accounts :=
  invariant_of_run (fun _ _ _ ht _ hstep => ht.step hstep) haccounts
    (meets_true _ _ _) hrun

/-- The calls that have begun, beside what the protocol has to say. -/
theorem Accounts.begun_prefix {f : ℕ} {host port path : Str}
    {p : WsProtocol} {t : SessionTrace} (haccounts : t.Accounts)
    (hfollows : t.Follows f host port path p) {state : WsResponse.State}
    (hstate : state ≠ .disconnect) :
    ofState state (calledWith t.run.log) <+:
      ofState state (p.responses.map fun r => (some f, r)) := by
  have hasked : ofState state (asked t.performed) <+:
      ofState state (p.responses.map fun r => (some f, r)) := by
    rw [← hfollows.requests, ofState_requested hstate, effects, asked_append,
      ofState_append]
    exact List.prefix_append _ _
  by_cases hsuccess : state = .success
  · subst hsuccess
    rw [← haccounts.messages] at hasked
    exact (List.prefix_append _ _).trans hasked
  · rw [haccounts.notices state hsuccess]
    exact hasked

theorem Accounts.begun_eq {f : ℕ} {host port path : Str}
    {p : WsProtocol} {t : SessionTrace} (haccounts : t.Accounts)
    (hfollows : t.Follows f host port path p) (hdrained : t.run.Drained)
    {state : WsResponse.State} (hstate : state ≠ .disconnect) :
    ofState state (calledWith t.run.log) =
      ofState state (p.responses.map fun r => (some f, r)) := by
  have hdone : t.effects = t.performed := by
    unfold effects
    rw [hdrained.script, List.append_nil]
  have hasked : ofState state (asked t.performed) =
      ofState state (p.responses.map fun r => (some f, r)) := by
    rw [← hfollows.requests, ofState_requested hstate, hdone]
  by_cases hsuccess : state = .success
  · subst hsuccess
    have hmessages := haccounts.messages
    rw [hdrained.queue, List.map_nil, List.append_nil] at hmessages
    rw [hmessages, hasked]
  · rw [haccounts.notices state hsuccess, hasked]

/-- The two threads can finish without another completion; then all the
protocol has to say was said, and every completed close was told. -/
theorem Accounts.exists_finish {boost : Boost} {f : ℕ}
    {host port path : Str} {start p : WsProtocol} {t : SessionTrace}
    (haccounts : t.Accounts)
    (hreached : LabelledRuns.run (WsProtocol.step boost host port path) start
      t.completions = some p)
    (hfollows : t.Follows f host port path p) :
    ∃ more done,
      LabelledRuns.run (SessionTrace.step boost) t more = some done ∧
      (∀ event ∈ more, event.internal = true) ∧ done.run.Drained ∧
      (∀ state ≠ .disconnect, ofState state (calledWith done.run.log) =
        ofState state (p.responses.map fun r => (some f, r))) ∧
      (ofState .disconnect (calledWith done.run.log)).length =
        closes t.run.log := by
  obtain ⟨more, done, hmore, hinternal, hdrained, hcompletions, hcloses⟩ :=
    exists_drain boost t
  obtain ⟨q, hq, hfinished⟩ := hfollows.run hreached hmore
  obtain rfl : q = p := by
    rw [hcompletions, hreached] at hq
    exact (Option.some.inj hq).symm
  have hdone := run_accounts haccounts hmore
  refine ⟨more, done, hmore, hinternal, hdrained,
    fun state hstate => hdone.begun_eq hfinished hdrained hstate, ?_⟩
  have hdisconnects := hdone.disconnects
  rw [effects, hdrained.script, List.append_nil] at hdisconnects
  rw [hdone.notices .disconnect (by simp), hdisconnects, hcloses]

end SessionTrace

/-- What the handler of a session is to be called with for its completions. -/
def answers (boost : Boost) (handler : Callback)
    (completions : List WsCompletion) : List HandlerCall :=
  (completions.flatMap (WsCompletion.responses boost)).map
    fun r => (handler, r)

/-- In every run of a session the calls of its handler that have begun are the
first of the answers to its completions, in order: the messages among
themselves and the failures among themselves.  The two threads alone can
always finish, and then every answer has been given exactly once and every
completed close has been told once.

Order and number of the calls rest on what `WsRun` assumes: the pool runs the
queued calls one at a time on a worker of its own, first in first out, and
loses none of them, and each started operation and each close completes at most
once. -/
theorem launch_session_gives_every_answer {boost : Boost}
    {session : WsSession} {f : ℕ} {host port path : Str}
    {events : List WsEvent} {t : SessionTrace}
    (hcallback : session.callback = some f) (hbuffer : session.buffer = [])
    (hrun : run (SessionTrace.step boost)
      (.launch session host port path) events = some t) :
    (∀ state ≠ .disconnect, ofState state (calledWith t.run.log) <+:
      ofState state (answers boost (some f)
        (events.filterMap WsEvent.completion?))) ∧
    ∃ more done, run (SessionTrace.step boost) t more = some done ∧
      (∀ event ∈ more, event.internal = true) ∧ done.run.Drained ∧
      (∀ state ≠ .disconnect, ofState state (calledWith done.run.log) =
        ofState state (answers boost (some f)
          (events.filterMap WsEvent.completion?))) ∧
      (ofState .disconnect (calledWith done.run.log)).length =
        (events.map WsEvent.isClose).sum := by
  have hlaunch := SessionTrace.launch_follows hcallback hbuffer host port path
  have hstart := SessionTrace.launch_accounts session host port path
  obtain ⟨p, hreached, hfollows⟩ := hlaunch.run rfl hrun
  have haccounts := SessionTrace.run_accounts hstart hrun
  have hanswers : answers boost (some f)
      (events.filterMap WsEvent.completion?) =
        p.responses.map fun r => (some f, r) := by
    rw [answers, (WsProtocol.follows_of_run hreached).responses,
      SessionTrace.run_completions hrun]
  rw [hanswers]
  obtain ⟨more, done, hmore, hinternal, hdrained, hanswered, hdisconnects⟩ :=
    haccounts.exists_finish hreached hfollows
  have hclosed := WsRun.run_closes (SessionTrace.run_of_run hrun)
  refine ⟨fun state hstate => haccounts.begun_prefix hfollows hstate, more,
    done, hmore, hinternal, hdrained, hanswered, ?_⟩
  rw [hdisconnects, hclosed]
  exact Nat.zero_add _

/-- Two messages and a text that is not JSON, the second message still in the
queue when the last read completes. -/
def hurriedMessages : List WsEvent :=
  [.complete (.resolve .success), .io,
    .complete (.connect .success 443 none), .io,
    .complete (.sslHandshake .success), .io,
    .complete (.handshake .success), .io,
    .arrives "[]", .io, .io, .io, .workerStarts,
    .arrives "\x7b\x7d", .io, .stopWebSocket none, .io, .io,
    .arrives "oops"]

theorem hurried_messages_are_answered :
    ∃ t more done, run (SessionTrace.step sampleBoost)
        (.launch bookTickerSession (ascii "stream.binancefuture.com")
          (ascii "443") (ascii "/ws/btcusdt@bookTicker"))
        hurriedMessages = some t ∧
      run (SessionTrace.step sampleBoost) t more = some done ∧
      done.run.Drained ∧
      ofState .success (calledWith done.run.log) =
        [(some 0, .ofJson (.array [])), (some 0, .ofJson (.object []))] := by
  have hrun : ∃ t, run (SessionTrace.step sampleBoost)
      (.launch bookTickerSession (ascii "stream.binancefuture.com")
        (ascii "443") (ascii "/ws/btcusdt@bookTicker"))
      hurriedMessages = some t := ⟨_, rfl⟩
  obtain ⟨t, hrun⟩ := hrun
  obtain ⟨_, more, done, hmore, _, hdrained, hall, _⟩ :=
    launch_session_gives_every_answer rfl rfl hrun
  refine ⟨t, more, done, hrun, hmore, hdrained, ?_⟩
  rw [hall .success (by simp)]
  rfl

end Bblib
