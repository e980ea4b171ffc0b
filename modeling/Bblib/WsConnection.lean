import Bblib.WsProtocol
import Mathlib.Tactic

/-!
# Every run of a session follows its protocol

A session from the call that made it, among its threads.  The trace keeps the
completions and the effects that have been executed; the rest of the script is
what the io thread has still to do.  Whatever the order of the threads, and
however often the session is stopped, both together are those of the protocol
on the same completions.
-/

namespace Bblib

open LabelledRuns

/-! ## The trace -/

structure SessionTrace where
  run : WsRun
  completions : List WsCompletion
  performed : List WsEffect

def WsEvent.completion? : WsEvent → Option WsCompletion
  | .complete completion => some completion
  | _ => none

def WsEffect.operation : WsEffect → Option WsOp
  | .start op => some op
  | _ => none

/-- The operations a list of effects starts. -/
def operations (effects : List WsEffect) : List WsOp :=
  effects.filterMap WsEffect.operation

namespace SessionTrace

def step (boost : Boost) (t : SessionTrace) (event : WsEvent) :
    Option SessionTrace :=
  (t.run.step boost event).map fun next => {
    run := next
    completions := t.completions ++ event.completion?.toList
    performed := t.performed ++ (t.run.executed event).toList }

/-- The caller of `WsSession::run` executes its effects. -/
def launch (session : WsSession) (host port path : Str) : SessionTrace where
  run := WsRun.launch session host port path
  completions := []
  performed := (session.run host port path).2

def effects (t : SessionTrace) : List WsEffect := t.performed ++ t.run.script

/-- The trace sees every run of the session it traces. -/
theorem exists_run {boost : Boost} {t : SessionTrace}
    {labels : List WsEvent} {s : WsRun}
    (hrun : LabelledRuns.run (WsRun.step boost) t.run labels = some s) :
    ∃ next, LabelledRuns.run (SessionTrace.step boost) t labels = some next ∧
      next.run = s := by
  induction labels generalizing t with
  | nil =>
      obtain rfl : t.run = s := by simpa using hrun
      exact ⟨t, rfl, rfl⟩
  | cons label labels ih =>
      obtain ⟨middle, hstep, hrest⟩ := run_cons_eq_some.mp hrun
      let traced : SessionTrace := {
        run := middle
        completions := t.completions ++ label.completion?.toList
        performed := t.performed ++ (t.run.executed label).toList }
      have htraced : t.step boost label = some traced := by
        simp only [SessionTrace.step, hstep, Option.map_some]
        rfl
      obtain ⟨next, hnext, hsame⟩ := ih (t := traced) hrest
      exact ⟨next, run_cons_eq_some.mpr ⟨traced, htraced, hnext⟩, hsame⟩

theorem run_of_run {boost : Boost} {t next : SessionTrace}
    {labels : List WsEvent}
    (hrun : LabelledRuns.run (SessionTrace.step boost) t labels = some next) :
    LabelledRuns.run (WsRun.step boost) t.run labels = some next.run := by
  induction labels generalizing t with
  | nil =>
      obtain rfl : t = next := by simpa using hrun
      rfl
  | cons label labels ih =>
      obtain ⟨middle, hstep, hrest⟩ := run_cons_eq_some.mp hrun
      obtain ⟨run, hmoved, rfl⟩ := Option.map_eq_some_iff.mp hstep
      exact run_cons_eq_some.mpr ⟨run, hmoved, ih hrest⟩

theorem run_completions_append {boost : Boost} {t next : SessionTrace}
    {events : List WsEvent}
    (hrun : LabelledRuns.run (SessionTrace.step boost) t events = some next) :
    next.completions =
      t.completions ++ events.filterMap WsEvent.completion? := by
  induction events generalizing t with
  | nil =>
      obtain rfl : t = next := by simpa using hrun
      exact (List.append_nil _).symm
  | cons event events ih =>
      obtain ⟨middle, hstep, hrest⟩ := run_cons_eq_some.mp hrun
      obtain ⟨run, _, rfl⟩ := Option.map_eq_some_iff.mp hstep
      rw [ih hrest, List.append_assoc, List.filterMap_cons]
      cases event.completion? with
      | none => rfl
      | some completion => rfl

/-- The completions a launched session has seen are those of the events. -/
theorem run_completions {boost : Boost} {session : WsSession}
    {host port path : Str} {t : SessionTrace} {events : List WsEvent}
    (hrun : LabelledRuns.run (SessionTrace.step boost)
      (.launch session host port path) events = some t) :
    t.completions = events.filterMap WsEvent.completion? :=
  run_completions_append hrun

theorem step_eq_some {boost : Boost} {t next : SessionTrace} {event : WsEvent}
    (hstep : t.step boost event = some next) :
    ∃ run, t.run.Moves boost event run ∧
      next = {
        run := run
        completions := t.completions ++ event.completion?.toList
        performed := t.performed ++ (t.run.executed event).toList } := by
  simp only [step, Option.map_eq_some_iff] at hstep
  obtain ⟨run, hrun, rfl⟩ := hstep
  exact ⟨run, WsRun.moves hrun, rfl⟩

end SessionTrace

theorem operations_append (left right : List WsEffect) :
    operations (left ++ right) = operations left ++ operations right :=
  List.filterMap_append

/-! ## One completion -/

/-- The name a session holds in a stage. -/
def WsStage.HostIs (host current : Str) : WsStage → Prop
  | .resolving => current = host
  | .connecting => current = host
  | .securing endpoint => current = hostAndPort host endpoint
  | .upgrading endpoint => current = hostAndPort host endpoint
  | .reading _ => True
  | .ended => True

/-- A session of the callback, in a stage and able to go on from it. -/
structure WsSession.InStage (f : ℕ) (host path : Str) (stage : WsStage)
    (session : WsSession) : Prop where
  callback : session.callback = some f
  path : session.path = path
  host : stage.HostIs host session.host

/-- What the effects of a completion handler amount to, when the completion
leads to the stage. -/
structure Handled (f : ℕ) (host port path : Str) (stage : WsStage)
    (responses : List WsResponse) (session : WsSession)
    (effects : List WsEffect) : Prop where
  served : session.InStage f host path stage
  requests : requested effects = responses.map fun r => (some f, r)
  started : operations effects = (stage.op host port path).toList
  pending : (effects.foldl settle (none, session.buffer)).1 =
    stage.op host port path
  buffer : stage ≠ .ended →
    (effects.foldl settle (none, session.buffer)).2 = []

/-- The session once the connect has found its endpoint. -/
def WsSession.named (session : WsSession) (endpoint : ℕ) : WsSession :=
  { session with host := hostAndPort session.host endpoint }

section Handled

variable {boost : Boost} {f : ℕ} {host port path : Str}
  {session : WsSession} {stage : WsStage}

/-- A failed stage is reported and ends the session. -/
theorem Handled.failed (hcallback : session.callback = some f)
    (hpath : session.path = path) (ec : ErrorCode) (what : String) :
    Handled f host port path .ended [stageFailure boost what ec] session
      (failOnThread boost ec what session.callback) where
  served := ⟨hcallback, hpath, trivial⟩
  requests := by
    rw [hcallback, failOnThread_some]
    rfl
  started := by
    rw [hcallback, failOnThread_some]
    rfl
  pending := by
    rw [hcallback, failOnThread_some]
    rfl
  buffer := fun hlive => absurd rfl hlive

/-- A stage that succeeded starts the operation of the next one. -/
theorem WsSession.InStage.starts {op : WsOp}
    (hsession : session.InStage f host path stage)
    (hbuffer : session.buffer = [])
    (hop : stage.op host port path = some op) :
    Handled f host port path stage [] session [.start op] where
  served := hsession
  requests := rfl
  started := by
    rw [hop]
    rfl
  pending := hop.symm
  buffer := fun _ => hbuffer

theorem Handled.read (hcallback : session.callback = some f)
    (hpath : session.path = path) (endpoint : ℕ) {read : ReadResult}
    (hbuffer : session.buffer = read.data) :
    Handled f host port path
      (if !read.ec.failed then .reading endpoint else .ended)
      (read.responses boost) session (session.onRead boost read.ec) := by
  have heffects : session.onRead boost read.ec =
      read.effects boost (some f) := by
    unfold ReadResult.effects WsSession.onRead
    rw [hcallback, hbuffer]
  have hsettles := ReadResult.settles boost f read
  have hrequests := ReadResult.requested_effects boost f read
  rw [heffects]
  cases hfailed : read.ec.failed with
  | false =>
      rw [hfailed] at hsettles
      obtain ⟨report, hreport, hthree⟩ :=
        ReadResult.effects_of_ok boost f hfailed
      exact {
        served := ⟨hcallback, hpath, trivial⟩
        requests := hrequests
        started := by
          rw [hthree]
          rcases hreport with rfl | rfl
          · rfl
          · rfl
        pending := by
          rw [hbuffer, hsettles]
          rfl
        buffer := fun _ => by
          rw [hbuffer, hsettles]
          rfl }
  | true =>
      rw [hfailed] at hsettles
      exact {
        served := ⟨hcallback, hpath, trivial⟩
        requests := hrequests
        started := by
          rw [ReadResult.effects_of_failed boost f hfailed]
          cases WsSession.silent read.ec with
          | true => rfl
          | false => rfl
        pending := by
          rw [hbuffer, hsettles]
          rfl
        buffer := fun hlive => absurd rfl hlive }

/-- Every completion handler does what the protocol says. -/
theorem WsSession.InStage.handled {after : WsSession} {op : WsOp}
    {c : WsCompletion} {effects : List WsEffect}
    (hstage : session.InStage f host path stage)
    (hbuffer : session.buffer = [])
    (hop : stage.op host port path = some op)
    (hhandled : session.onCompletion boost op c = some (after, effects)) :
    ∃ following, stage.next c = some following ∧
      Handled f host port path (if c.succeeded then following else .ended)
        (c.responses boost) after effects := by
  obtain ⟨hcallback, hpath, hhost⟩ := hstage
  cases stage with
  | resolving =>
      obtain rfl := Option.some.inj hop
      cases c <;> simp only [WsSession.onCompletion, Option.some.injEq,
        Prod.mk.injEq, reduceCtorEq] at hhandled
      rename_i ec
      obtain ⟨rfl, rfl⟩ := hhandled
      refine ⟨_, rfl, ?_⟩
      unfold WsSession.onResolve
      cases hfailed : ec.failed with
      | true =>
          simpa [WsCompletion.succeeded, WsCompletion.responses, hfailed]
            using Handled.failed hcallback hpath ec "resolve"
      | false =>
          have hstage : session.InStage f host path .connecting :=
            ⟨hcallback, hpath, hhost⟩
          simpa [WsCompletion.succeeded, WsCompletion.responses, hfailed]
            using hstage.starts hbuffer rfl
  | connecting =>
      obtain rfl := Option.some.inj hop
      cases c <;> simp only [WsSession.onCompletion, Option.some.injEq,
        reduceCtorEq] at hhandled
      rename_i ec endpoint sni
      refine ⟨_, rfl, ?_⟩
      unfold WsSession.onConnect at hhandled
      cases hfailed : ec.failed with
      | true =>
          simp only [hfailed, if_true, Prod.mk.injEq] at hhandled
          obtain ⟨rfl, rfl⟩ := hhandled
          simpa [WsCompletion.succeeded, WsCompletion.responses, hfailed]
            using Handled.failed hcallback hpath ec "connect"
      | false =>
          simp only [hfailed, Bool.false_eq_true, if_false] at hhandled
          cases sni with
          | some sniEc =>
              simp only [Prod.mk.injEq] at hhandled
              obtain ⟨rfl, rfl⟩ := hhandled
              have hnamed : (session.named endpoint).callback = some f :=
                hcallback
              have hreport : Handled f host port path .ended
                  [stageFailure boost "connect" sniEc]
                  (session.named endpoint)
                  (failOnThread boost sniEc "connect" session.callback) :=
                Handled.failed hnamed hpath sniEc "connect"
              simp only [WsCompletion.succeeded, WsCompletion.responses,
                hfailed]
              exact hreport
          | none =>
              simp only [Prod.mk.injEq] at hhandled
              obtain ⟨rfl, rfl⟩ := hhandled
              have hname : session.host = host := hhost
              have hstage : (session.named endpoint).InStage f host path
                  (.securing endpoint) := by
                refine ⟨hcallback, hpath, ?_⟩
                rw [← hname]
                rfl
              have hstarts : Handled f host port path (.securing endpoint) []
                  (session.named endpoint) [.start .sslHandshake] :=
                hstage.starts hbuffer rfl
              simp only [WsCompletion.succeeded, WsCompletion.responses,
                hfailed]
              exact hstarts
  | securing endpoint =>
      obtain rfl := Option.some.inj hop
      cases c <;> simp only [WsSession.onCompletion, Option.some.injEq,
        Prod.mk.injEq, reduceCtorEq] at hhandled
      rename_i ec
      obtain ⟨rfl, rfl⟩ := hhandled
      refine ⟨_, rfl, ?_⟩
      unfold WsSession.onSslHandshake
      cases hfailed : ec.failed with
      | true =>
          simpa [WsCompletion.succeeded, WsCompletion.responses, hfailed]
            using Handled.failed hcallback hpath ec "ssl handshake"
      | false =>
          have hname : session.host = hostAndPort host endpoint := hhost
          have hstage : session.InStage f host path (.upgrading endpoint) :=
            ⟨hcallback, hpath, hhost⟩
          rw [hname, hpath]
          simpa [WsCompletion.succeeded, WsCompletion.responses, hfailed]
            using hstage.starts hbuffer rfl
  | upgrading endpoint =>
      obtain rfl := Option.some.inj hop
      cases c <;> simp only [WsSession.onCompletion, Option.some.injEq,
        Prod.mk.injEq, reduceCtorEq] at hhandled
      rename_i ec
      obtain ⟨rfl, rfl⟩ := hhandled
      refine ⟨_, rfl, ?_⟩
      unfold WsSession.onHandshake
      cases hfailed : ec.failed with
      | true =>
          simpa [WsCompletion.succeeded, WsCompletion.responses, hfailed]
            using Handled.failed hcallback hpath ec "handshake"
      | false =>
          have hstage : session.InStage f host path (.reading endpoint) :=
            ⟨hcallback, hpath, trivial⟩
          simpa [WsCompletion.succeeded, WsCompletion.responses, hfailed]
            using hstage.starts hbuffer rfl
  | reading endpoint =>
      obtain rfl := Option.some.inj hop
      cases c <;> simp only [WsSession.onCompletion, Option.some.injEq,
        Prod.mk.injEq, reduceCtorEq] at hhandled
      rename_i ec data
      obtain ⟨rfl, rfl⟩ := hhandled
      refine ⟨_, rfl, ?_⟩
      let filled : WsSession :=
        { session with buffer := session.buffer ++ data }
      let read : ReadResult := ⟨ec, data⟩
      have hfilled : filled.callback = some f := hcallback
      have hdata : filled.buffer = read.data := by
        show session.buffer ++ data = data
        rw [hbuffer, List.nil_append]
      exact Handled.read hfilled hpath endpoint hdata
  | ended => contradiction

end Handled

/-! ## The refinement -/

/-- What was done and is left to do is what the protocol has done. -/
structure SessionTrace.Follows (f : ℕ) (host port path : Str)
    (p : WsProtocol) (t : SessionTrace) : Prop where
  session : t.run.session.InStage f host path p.stage
  requests : requested t.effects = p.responses.map fun r => (some f, r)
  started : operations t.effects = p.started
  pending : t.run.settled.1 = p.stage.op host port path
  buffer : p.stage ≠ .ended → t.run.settled.2 = []

namespace SessionTrace

section Follows

variable {boost : Boost} {f : ℕ} {host port path : Str} {p : WsProtocol}
  {t next : SessionTrace}

theorem launch_follows {session : WsSession}
    (hcallback : session.callback = some f) (hbuffer : session.buffer = [])
    (host port path : Str) :
    (launch session host port path).Follows f host port path
      (.start host port path) where
  session := ⟨hcallback, rfl, rfl⟩
  requests := rfl
  started := rfl
  pending := rfl
  buffer := fun _ => hbuffer

theorem Follows.of_same (hfollows : t.Follows f host port path p)
    (hsession : ∀ stage : WsStage, t.run.session.InStage f host path stage →
      next.run.session.InStage f host path stage)
    (hrequests : requested next.effects = requested t.effects)
    (hstarted : operations next.effects = operations t.effects)
    (hsettled : next.run.settled = t.run.settled) :
    next.Follows f host port path p where
  session := hsession _ hfollows.session
  requests := hrequests.trans hfollows.requests
  started := hstarted.trans hfollows.started
  pending := by
    rw [hsettled]
    exact hfollows.pending
  buffer := by
    rw [hsettled]
    exact hfollows.buffer

theorem Follows.keep {run : WsRun} (hfollows : t.Follows f host port path p)
    (hsession : run.session = t.run.session)
    (hpending : run.pending = t.run.pending)
    (hscript : run.script = t.run.script) :
    Follows f host port path p { t with run := run } := by
  have heffects : effects { t with run := run } = t.effects := by
    unfold effects
    rw [hscript]
  apply hfollows.of_same
  · intro stage hstage
    rw [hsession]
    exact hstage
  · rw [heffects]
  · rw [heffects]
  · unfold WsRun.settled
    rw [hsession, hpending, hscript]

theorem Follows.perform {effect : WsEffect} {rest : List WsEffect}
    (hfollows : t.Follows f host port path p)
    (hscript : t.run.script = effect :: rest) :
    Follows f host port path p {
      run := t.run.perform rest effect
      completions := t.completions
      performed := t.performed ++ [effect] } := by
  have hrest : (t.run.perform rest effect).script = rest := by
    cases effect <;> rfl
  have heffects : t.performed ++ [effect] ++ rest = t.effects := by
    unfold effects
    rw [hscript, List.append_assoc, List.singleton_append]
  apply hfollows.of_same
  · rintro stage ⟨hcallback, hpath, hhost⟩
    cases effect <;> exact ⟨hcallback, hpath, hhost⟩
  · unfold effects at heffects ⊢
    rw [hrest, heffects]
  · unfold effects at heffects ⊢
    rw [hrest, heffects]
  · exact WsRun.perform_settled hscript

theorem Follows.close {run : WsRun} {handler : Callback}
    (hfollows : t.Follows f host port path p) (hscript : t.run.script = [])
    (hsession : run.session = t.run.session)
    (hpending : run.pending = t.run.pending)
    (hclose : run.script = t.run.session.onClose handler) :
    Follows f host port path p { t with run := run } := by
  have hdone : t.effects = t.performed := by
    unfold effects
    rw [hscript, List.append_nil]
  have hnext : effects { t with run := run } =
      t.performed ++ t.run.session.onClose handler := by
    unfold effects
    rw [hclose]
  apply hfollows.of_same
  · intro stage hstage
    rw [hsession]
    exact hstage
  · rw [hnext, hdone, requested_append]
    exact List.append_nil _
  · rw [hnext, hdone, operations_append]
    exact List.append_nil _
  · rw [WsRun.settled_of_nil hscript]
    unfold WsRun.settled
    rw [hclose, hsession, hpending]
    rfl

theorem Follows.complete {op : WsOp} {c : WsCompletion}
    {session : WsSession} {effects : List WsEffect}
    (hfollows : t.Follows f host port path p) (hscript : t.run.script = [])
    (hpending : t.run.pending = some op)
    (hhandled : t.run.session.onCompletion boost op c =
      some (session, effects)) :
    ∃ q, p.step boost host port path c = some q ∧
      Follows f host port path q {
        run := { t.run with
          session := session
          pending := none
          script := effects
          completions := t.run.completions + 1 }
        completions := t.completions ++ [c]
        performed := t.performed } := by
  have hsettled := WsRun.settled_of_nil hscript
  have hop : p.stage.op host port path = some op := by
    rw [← hfollows.pending, hsettled]
    exact hpending
  have hlive : p.stage ≠ .ended := by
    intro hended
    rw [hended] at hop
    contradiction
  have hbuffer : t.run.session.buffer = [] := by
    have hempty := hfollows.buffer hlive
    rw [hsettled] at hempty
    exact hempty
  have hdone : t.effects = t.performed := by
    unfold SessionTrace.effects
    rw [hscript, List.append_nil]
  have hrequests := hfollows.requests
  have hstarted := hfollows.started
  rw [hdone] at hrequests hstarted
  obtain ⟨following, hnext, hc⟩ :=
    hfollows.session.handled hbuffer hop hhandled
  refine ⟨_, by rw [WsProtocol.step, hnext, Option.map_some], ?_⟩
  exact {
    session := hc.served
    requests := by
      unfold SessionTrace.effects
      rw [requested_append, hrequests, hc.requests, List.map_append]
    started := by
      unfold SessionTrace.effects
      rw [operations_append, hstarted, hc.started]
    pending := hc.pending
    buffer := hc.buffer }

/-- One step takes the protocol as far as its completions go. -/
theorem Follows.step {event : WsEvent}
    (hfollows : t.Follows f host port path p)
    (hstep : t.step boost event = some next) :
    ∃ q, LabelledRuns.run (WsProtocol.step boost host port path) p
        event.completion?.toList = some q ∧
      next.completions = t.completions ++ event.completion?.toList ∧
      next.Follows f host port path q := by
  obtain ⟨after, hmoves, rfl⟩ := step_eq_some hstep
  have hnone : t.completions ++ (none : Option WsCompletion).toList =
      t.completions := by simp
  have hquiet : t.performed ++ (none : Option WsEffect).toList =
      t.performed := by simp
  cases hmoves with
  | completes hscript _ hpending hhandled =>
      obtain ⟨q, hq, hnext⟩ := hfollows.complete hscript hpending hhandled
      refine ⟨q, ?_, rfl, ?_⟩
      · simp [WsEvent.completion?, hq]
      · simpa [WsEvent.completion?, WsRun.executed] using hnext
  | performs hscript _ =>
      refine ⟨p, rfl, rfl, ?_⟩
      have hnext := hfollows.perform hscript
      simpa [WsEvent.completion?, WsRun.executed, hscript] using hnext
  | ioReturns _ =>
      refine ⟨p, rfl, rfl, ?_⟩
      simp only [WsEvent.completion?, WsRun.executed, hnone, hquiet]
      exact hfollows.keep rfl rfl rfl
  | workerStarts _ _ =>
      refine ⟨p, rfl, rfl, ?_⟩
      simp only [WsEvent.completion?, WsRun.executed, hnone, hquiet]
      exact hfollows.keep rfl rfl rfl
  | workerReturns _ =>
      refine ⟨p, rfl, rfl, ?_⟩
      simp only [WsEvent.completion?, WsRun.executed, hnone, hquiet]
      exact hfollows.keep rfl rfl rfl
  | stops =>
      refine ⟨p, rfl, rfl, ?_⟩
      simp only [WsEvent.completion?, WsRun.executed, hnone, hquiet]
      exact hfollows.keep rfl rfl rfl
  | closes hscript _ _ =>
      refine ⟨p, rfl, rfl, ?_⟩
      simp only [WsEvent.completion?, WsRun.executed, hnone, hquiet]
      exact hfollows.close hscript rfl rfl rfl

theorem Follows.run {events : List WsEvent}
    {start : WsProtocol} (hfollows : t.Follows f host port path p)
    (hreached : LabelledRuns.run (WsProtocol.step boost host port path) start
      t.completions = some p)
    (hrun : LabelledRuns.run (SessionTrace.step boost) t events = some next) :
    ∃ q, LabelledRuns.run (WsProtocol.step boost host port path) start
        next.completions = some q ∧
      next.Follows f host port path q := by
  refine invariant_of_run
    (I := fun t => ∃ q,
      LabelledRuns.run (WsProtocol.step boost host port path) start
        t.completions = some q ∧ t.Follows f host port path q)
    ?_ ⟨p, hreached, hfollows⟩ (meets_true _ _ _) hrun
  rintro s event after ⟨q, hq, hs⟩ _ hstep
  obtain ⟨r, hr, hcompletions, hafter⟩ := hs.step hstep
  refine ⟨r, ?_, hafter⟩
  rw [hcompletions]
  exact run_append_eq_some.mpr ⟨q, hq, hr⟩

end Follows

end SessionTrace

/-! ## Every run from the launch -/

/-- In every run of a session, with its stops and closes, the completions are
a run of the protocol, so that all but the last succeeded.  The operations
started so far are the first ones of the sequence a session starts them in,
and no more than one after each success; the handler invocations requested so
far are, in order, those of the completions.  With nothing left to execute
both are complete, and an operation is under way unless one has failed. -/
theorem launch_session_follows_its_protocol {boost : Boost}
    {session : WsSession} {f : ℕ} {host port path : Str}
    {events : List WsEvent} {t : SessionTrace}
    (hcallback : session.callback = some f) (hbuffer : session.buffer = [])
    (hrun : run (SessionTrace.step boost)
      (.launch session host port path) events = some t) :
    ∃ p, run (WsProtocol.step boost host port path) (.start host port path)
        t.completions = some p ∧
      p.started = WsOp.sequence host port path t.completions
        (t.completions.countP WsCompletion.succeeded + 1) ∧
      p.responses = t.completions.flatMap (WsCompletion.responses boost) ∧
      (∀ c ∈ t.completions.dropLast, c.succeeded = true) ∧
      (p.stage = .ended ↔ ∃ c ∈ t.completions, c.succeeded = false) ∧
      operations t.performed <+: p.started ∧
      requested t.performed <+: p.responses.map (fun r => (some f, r)) ∧
      (t.run.script = [] →
        operations t.performed = p.started ∧
        requested t.performed = p.responses.map (fun r => (some f, r)) ∧
        t.run.pending = p.stage.op host port path) := by
  have hlaunch := SessionTrace.launch_follows hcallback hbuffer host port path
  obtain ⟨p, hreached, hfollows⟩ := hlaunch.run rfl hrun
  have hp := WsProtocol.follows_of_run hreached
  have hended : p.stage = .ended ↔
      ∃ c ∈ t.completions, c.succeeded = false := by
    constructor
    · exact hp.ended
    · rintro ⟨c, hc, hfailed⟩
      by_contra hlive
      rw [hp.live hlive c hc] at hfailed
      contradiction
  have hstarted := hfollows.started
  have hrequests := hfollows.requests
  refine ⟨p, hreached, hp.started, hp.responses, hp.earlier, hended, ?_, ?_, ?_⟩
  · rw [← hstarted, SessionTrace.effects, operations_append]
    exact List.prefix_append _ _
  · rw [← hrequests, SessionTrace.effects, requested_append]
    exact List.prefix_append _ _
  · intro hscript
    have hpending := hfollows.pending
    rw [SessionTrace.effects, hscript, List.append_nil] at hstarted hrequests
    rw [WsRun.settled_of_nil hscript] at hpending
    exact ⟨hstarted, hrequests, hpending⟩

/-- A session that is stopped while it connects, and whose TLS handshake then
fails. -/
def abortedConnection : List WsEvent :=
  [.complete (.resolve .success), .io, .stopWebSocket none,
    .complete (.connect .success 443 none), .io,
    .complete (.sslHandshake .operationAborted), .io, .ioReturns,
    .closeCompletes 0, .io]

theorem aborted_connection_follows_its_protocol :
    ∃ (t : SessionTrace) (p : WsProtocol),
      run (SessionTrace.step sampleBoost)
        (.launch bookTickerSession (ascii "stream.binancefuture.com")
          (ascii "443") (ascii "/ws/btcusdt@bookTicker"))
        abortedConnection = some t ∧
      operations t.performed = p.started ∧
      requested t.performed =
        p.responses.map (fun r => (some 0, r)) ∧
      t.run.pending = none := by
  have hrun : ∃ t, run (SessionTrace.step sampleBoost)
      (.launch bookTickerSession (ascii "stream.binancefuture.com")
        (ascii "443") (ascii "/ws/btcusdt@bookTicker"))
      abortedConnection = some t ∧ t.run.script = [] ∧
        t.run.pending = none := ⟨_, rfl, rfl, rfl⟩
  obtain ⟨t, hrun, hscript, hpending⟩ := hrun
  obtain ⟨p, _, _, _, _, _, _, _, hdone⟩ :=
    launch_session_follows_its_protocol rfl rfl hrun
  obtain ⟨hstarted, hrequests, _⟩ := hdone hscript
  exact ⟨t, p, hrun, hstarted, hrequests, hpending⟩

end Bblib
