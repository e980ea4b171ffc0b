import Bblib.WsSession
import Mathlib.Tactic

/-!
# Order and overlap of handler calls

The user's handler of a websocket session is called from two places: the pool
worker takes the parsed messages, and the io thread calls it directly to
report a message that does not parse or a read error.  Calls never overlap and
begin in the order of the completions that caused them as long as every direct
call finds the pool idle.
-/

namespace Bblib

open LabelledRuns

/-- The completions whose calls have begun, in the order they began. -/
def begun (log : List WsLog) : List ℕ :=
  log.filterMap fun
    | .begins invocation => some invocation.cause
    | _ => none

@[simp] theorem begun_append (left right : List WsLog) :
    begun (left ++ right) = begun left ++ begun right := by
  simp [begun]

@[simp] theorem begun_begins (invocation : Invocation) :
    begun [.begins invocation] = [invocation.cause] := rfl

@[simp] theorem begun_ends (invocation : Invocation) :
    begun [.ends invocation] = [] := rfl

@[simp] theorem begun_stopped : begun [.stopped] = [] := rfl

@[simp] theorem begun_closed : begun [.closed] = [] := rfl

/-- No two calls are in progress, and calls began in the order of the
completions that caused them. -/
structure WsRun.Orderly (s : WsRun) : Prop where
  single : s.ioCall = none ∨ s.worker = none
  ordered : (begun s.log).Pairwise (· < ·)

/-- A step in which the io thread enters the handler finds the pool idle. -/
def WsRun.PoolIdleAtCalls (s : WsRun) (event : WsEvent) : Prop :=
  event = .io → ∀ handler response rest,
    s.script = .call handler response :: rest → s.queue = [] ∧ s.worker = none

theorem WsRun.PoolIdleAtCalls.of_ne {s : WsRun} {event : WsEvent}
    (hother : event ≠ .io) : s.PoolIdleAtCalls event := by
  intro hio
  exact absurd hio hother

theorem WsRun.PoolIdleAtCalls.of_idle {s : WsRun} {event : WsEvent}
    (hqueue : s.queue = []) (hworker : s.worker = none) :
    s.PoolIdleAtCalls event := by
  intro _ _ _ _ _
  exact ⟨hqueue, hworker⟩

/-! ## Calls requested by one completion -/

def Effect.isRequest {ResultT Op : Type} : Effect ResultT Op → Bool
  | .call _ _ => true
  | .post _ _ => true
  | .start _ => false
  | .clearBuffer => false

def requests (script : List WsEffect) : ℕ := script.countP Effect.isRequest

@[simp] theorem requests_nil : requests [] = 0 := rfl

theorem requests_cons (effect : WsEffect) (script : List WsEffect) :
    requests (effect :: script) =
      requests script + if effect.isRequest then 1 else 0 := by
  simp [requests, List.countP_cons]

theorem requests_failOnThread_le (boost : Boost) (ec : ErrorCode)
    (what : String) (callback : Callback) (rest : List WsEffect)
    (hrest : requests rest = 0) :
    requests (failOnThread boost ec what callback ++ rest) ≤ 1 := by
  unfold failOnThread
  split
  · simp [requests_cons, hrest, Effect.isRequest]
  · simp [hrest]

theorem requests_onRead_le (boost : Boost) (session : WsSession)
    (ec : ErrorCode) : requests (session.onRead boost ec) ≤ 1 := by
  unfold WsSession.onRead
  split
  · simp
  · split
    · simpa using
        requests_failOnThread_le boost ec "read" session.callback [] rfl
    · cases boost.parse session.buffer with
      | error jsonEc =>
          exact requests_failOnThread_le boost jsonEc "json read"
            session.callback _ rfl
      | ok jsonValue => simp [requests_cons, Effect.isRequest]

/-- A completion handler asks for at most one call of the user's handler. -/
theorem requests_onCompletion_le {boost : Boost} {session after : WsSession}
    {op : WsOp} {completion : WsCompletion} {effects : List WsEffect}
    (hhandled : session.onCompletion boost op completion =
      some (after, effects)) : requests effects ≤ 1 := by
  have hfail : ∀ (ec : ErrorCode) (what : String),
      requests (failOnThread boost ec what session.callback) ≤ 1 := by
    intro ec what
    simpa using requests_failOnThread_le boost ec what session.callback [] rfl
  cases op <;> cases completion <;>
    simp only [WsSession.onCompletion, Option.some.injEq, Prod.mk.injEq,
      reduceCtorEq] at hhandled
  · obtain ⟨_, rfl⟩ := hhandled
    unfold WsSession.onResolve
    split
    · exact hfail _ _
    · simp [requests_cons, Effect.isRequest]
  · rename_i ec port sni
    have heffects : effects = (session.onConnect boost ec port sni).2 := by
      rw [hhandled]
    rw [heffects]
    unfold WsSession.onConnect
    split
    · exact hfail _ _
    · cases sni with
      | some ec => exact hfail _ _
      | none => simp [requests_cons, Effect.isRequest]
  · obtain ⟨_, rfl⟩ := hhandled
    unfold WsSession.onSslHandshake
    split
    · exact hfail _ _
    · simp [requests_cons, Effect.isRequest]
  · obtain ⟨_, rfl⟩ := hhandled
    unfold WsSession.onHandshake
    split
    · exact hfail _ _
    · simp [requests_cons, Effect.isRequest]
  · obtain ⟨_, rfl⟩ := hhandled
    exact requests_onRead_le boost _ _

/-! ## The invariant -/

/-- The completions whose calls have begun or wait in the pool. -/
def WsRun.causes (s : WsRun) : List ℕ :=
  begun s.log ++ s.queue.map Invocation.cause

/-- `fresh` leaves room for the calls the running completion handler has not
requested yet: those get the number of the latest completion. -/
structure WsRun.OrderInvariant (s : WsRun) : Prop where
  exclusive : s.ioCall ≠ none → s.queue = [] ∧ s.worker = none
  ordered : s.causes.Pairwise (· < ·)
  fresh : ∀ cause ∈ s.causes, cause + requests s.script ≤ s.completions
  single : requests s.script ≤ 1

theorem WsRun.established_orderInvariant (session : WsSession)
    (completions : ℕ) :
    (WsRun.established session completions).OrderInvariant := by
  constructor <;> simp [WsRun.established, WsRun.causes, begun]

theorem WsRun.OrderInvariant.pairwise_snoc {s : WsRun}
    (hinv : s.OrderInvariant) (hrequest : requests s.script = 1) :
    (s.causes ++ [s.completions]).Pairwise (· < ·) := by
  rw [List.pairwise_append]
  refine ⟨hinv.ordered, by simp, ?_⟩
  intro cause hcause latest hlatest
  have hfresh := hinv.fresh cause hcause
  simp only [List.mem_singleton] at hlatest
  omega

theorem WsRun.OrderInvariant.request {s next : WsRun}
    (hinv : s.OrderInvariant)
    (hrequests : requests s.script = requests next.script + 1)
    (hexclusive : next.ioCall ≠ none → next.queue = [] ∧ next.worker = none)
    (hcauses : next.causes = s.causes ++ [s.completions])
    (hcompletions : next.completions = s.completions) :
    next.OrderInvariant := by
  have hsingle := hinv.single
  constructor
  · exact hexclusive
  · rw [hcauses]
    exact hinv.pairwise_snoc (by omega)
  · intro cause hcause
    rw [hcauses, List.mem_append, List.mem_singleton] at hcause
    rcases hcause with hold | hnew
    · have hfresh := hinv.fresh cause hold
      omega
    · omega
  · omega

theorem WsRun.OrderInvariant.keep {s next : WsRun} (hinv : s.OrderInvariant)
    (hrequests : requests next.script = requests s.script)
    (hexclusive : next.ioCall ≠ none → next.queue = [] ∧ next.worker = none)
    (hcauses : next.causes = s.causes)
    (hcompletions : next.completions = s.completions) :
    next.OrderInvariant := by
  have hsingle := hinv.single
  constructor
  · exact hexclusive
  · rw [hcauses]
    exact hinv.ordered
  · intro cause hcause
    rw [hcauses] at hcause
    have hfresh := hinv.fresh cause hcause
    omega
  · omega

theorem WsRun.OrderInvariant.handler {s next : WsRun}
    (hinv : s.OrderInvariant) (hscript : s.script = [])
    (hioCall : next.ioCall = none) (hcauses : next.causes = s.causes)
    (hrequests : requests next.script ≤ 1)
    (hcompletions : next.completions = s.completions + 1) :
    next.OrderInvariant := by
  constructor
  · intro hbusy
    exact absurd hioCall hbusy
  · rw [hcauses]
    exact hinv.ordered
  · intro cause hcause
    rw [hcauses] at hcause
    have hfresh := hinv.fresh cause hcause
    rw [hscript, requests_nil] at hfresh
    omega
  · exact hrequests

theorem WsRun.OrderInvariant.perform {s : WsRun} {effect : WsEffect}
    {rest : List WsEffect} (hinv : s.OrderInvariant)
    (hscript : s.script = effect :: rest) (hioCall : s.ioCall = none)
    (hidle : ∀ handler response, effect = .call handler response →
      s.queue = [] ∧ s.worker = none) :
    (s.perform rest effect).OrderInvariant := by
  have hcount : requests s.script =
      requests rest + if effect.isRequest then 1 else 0 := by
    rw [hscript, requests_cons]
  cases effect with
  | call handler response =>
      have hpool := hidle handler response rfl
      refine hinv.request hcount ?_ ?_ ?_
      · intro _
        exact hpool
      · simp [WsRun.perform, WsRun.causes, hpool.1]
      · rfl
  | post handler response =>
      refine hinv.request hcount ?_ ?_ ?_
      · intro hbusy
        exact absurd hioCall hbusy
      · simp [WsRun.perform, WsRun.causes]
      · rfl
  | start op =>
      refine hinv.keep hcount.symm ?_ ?_ ?_
      · intro hbusy
        exact absurd hioCall hbusy
      · rfl
      · rfl
  | clearBuffer =>
      refine hinv.keep hcount.symm ?_ ?_ ?_
      · intro hbusy
        exact absurd hioCall hbusy
      · rfl
      · rfl

theorem WsRun.OrderInvariant.step {boost : Boost} {s next : WsRun}
    {event : WsEvent} (hinv : s.OrderInvariant)
    (hidle : s.PoolIdleAtCalls event)
    (hstep : s.step boost event = some next) : next.OrderInvariant := by
  cases WsRun.moves hstep with
  | completes script ioCall pending handled =>
      exact hinv.handler script ioCall rfl (requests_onCompletion_le handled) rfl
  | performs script ioCall =>
      apply hinv.perform script ioCall
      intro handler response heffect
      subst heffect
      exact hidle rfl handler response _ script
  | ioReturns ioCall =>
      refine hinv.keep rfl ?_ ?_ rfl
      · intro hbusy
        exact absurd rfl hbusy
      · simp [WsRun.causes]
  | workerStarts worker queue =>
      refine hinv.keep rfl ?_ ?_ rfl
      · intro hbusy
        have hempty := (hinv.exclusive hbusy).1
        rw [hempty] at queue
        contradiction
      · simp [WsRun.causes, queue]
  | workerReturns worker =>
      refine hinv.keep rfl ?_ ?_ rfl
      · intro hbusy
        exact ⟨(hinv.exclusive hbusy).1, rfl⟩
      · simp [WsRun.causes]
  | stops =>
      refine hinv.keep rfl hinv.exclusive ?_ rfl
      simp [WsRun.causes]
  | closes script ioCall closing =>
      refine WsRun.OrderInvariant.handler hinv script ?_ ?_ ?_ ?_
      · exact ioCall
      · simp [WsRun.causes]
      · simp [WsSession.onClose, requests_cons, Effect.isRequest]
      · rfl

theorem WsRun.OrderInvariant.orderly {s : WsRun} (hinv : s.OrderInvariant) :
    s.Orderly := by
  constructor
  · by_cases hbusy : s.ioCall = none
    · exact .inl hbusy
    · exact .inr (hinv.exclusive hbusy).2
  · exact (List.pairwise_append.mp hinv.ordered).1

/-- Over every interleaving of the io thread with the pool worker, as long as
each direct call finds the pool idle. -/
theorem WsRun.established_calls_are_orderly (boost : Boost)
    (session : WsSession) (completions : ℕ) (events : List WsEvent)
    (hidle : Meets (WsRun.step boost) WsRun.PoolIdleAtCalls
      (WsRun.established session completions) events) :
    Throughout (WsRun.step boost) WsRun.Orderly
      (WsRun.established session completions) events :=
  throughout_of_invariant
    (fun _ _ _ hinv hallowed hstep => hinv.step hallowed hstep)
    (fun _ hinv => hinv.orderly)
    (WsRun.established_orderInvariant session completions) hidle

/-- The handler has returned from a message when one that is not JSON
arrives. -/
theorem report_after_delivery_is_orderly :
    Throughout (WsRun.step sampleBoost) WsRun.Orderly
      (WsRun.established bookTickerSession 4)
      [.arrives "[]", .io, .workerStarts, .workerReturns, .io, .io,
        .arrives "oops", .io] := by
  apply WsRun.established_calls_are_orderly
  refine meets_cons_of_step (.of_ne nofun) rfl ?_
  refine meets_cons_of_step (.of_idle rfl rfl) rfl ?_
  refine meets_cons_of_step (.of_ne nofun) rfl ?_
  refine meets_cons_of_step (.of_ne nofun) rfl ?_
  refine meets_cons_of_step (.of_idle rfl rfl) rfl ?_
  refine meets_cons_of_step (.of_idle rfl rfl) rfl ?_
  refine meets_cons_of_step (.of_ne nofun) rfl ?_
  exact meets_cons_of_step (.of_idle rfl rfl) rfl meets_nil

/-- A message that is not JSON is reported while the message before it waits
in the pool, and while the worker is inside the handler with it. -/
theorem direct_report_is_not_orderly :
    (¬ Throughout (WsRun.step sampleBoost) WsRun.Orderly
      (WsRun.established bookTickerSession 4)
      [.arrives "[]", .io, .io, .io, .arrives "oops", .io, .ioReturns,
        .workerStarts]) ∧
    ¬ Throughout (WsRun.step sampleBoost) WsRun.Orderly
      (WsRun.established bookTickerSession 4)
      [.arrives "[]", .io, .workerStarts, .io, .io, .arrives "oops", .io] := by
  constructor
  · intro hall
    have horderly := hall _ [] _ (List.append_nil _).symm rfl
    exact absurd horderly.ordered (by decide)
  · intro hall
    have horderly := hall _ [] _ (List.append_nil _).symm rfl
    rcases horderly.single with hio | hworker
    · contradiction
    · contradiction

end Bblib
