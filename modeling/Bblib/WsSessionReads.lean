import Bblib.WsSessionStop
import Mathlib.Tactic

/-!
# Reading messages until an error

The reads of an established session beside what it does about them.  The trace
keeps the completions of reads and the effects the io thread has executed; the
rest of the script is what it has still to do.  Together they are, read for
read, the effects of `on_read` on a buffer that holds that message alone: when
the script has been executed the session reads again with an empty buffer, or
the last read failed and it reads no more.
-/

namespace Bblib

open LabelledRuns

/-! ## From the handshake to the first read -/

/-- A session whose operations succeed reads with an empty buffer. -/
theorem WsRun.launch_established (boost : Boost) (session : WsSession)
    (hbuffer : session.buffer = []) (host port path : Str) (endpoint : ℕ) :
    run (WsRun.step boost) (WsRun.launch session host port path)
        [.complete (.resolve .success), .io,
          .complete (.connect .success endpoint none), .io,
          .complete (.sslHandshake .success), .io,
          .complete (.handshake .success), .io] =
      some (WsRun.established
        { session with
          host := host ++ ascii ":" ++ decimal endpoint
          path := path } 4) := by
  obtain ⟨_, _, callback, buffer⟩ := session
  obtain rfl : buffer = [] := hbuffer
  rfl

/-! ## The trace -/

structure ReadResult where
  ec : ErrorCode
  data : Str

structure ReadTrace where
  run : WsRun
  reads : List ReadResult
  performed : List WsEffect

def WsEvent.read? : WsEvent → Option ReadResult
  | .complete (.read ec data) => some ⟨ec, data⟩
  | _ => none

/-- The effect the io thread executes in a step. -/
def WsRun.executed (s : WsRun) : WsEvent → Option WsEffect
  | .io => s.script.head?
  | _ => none

/-- The handler invocation an effect asks for.  The Disconnect call belongs to
a close, not to a read. -/
def WsEffect.request (effect : WsEffect) : Option (Callback × WsResponse) :=
  match effect with
  | .call handler response =>
      if response.state = .disconnect then none else some (handler, response)
  | .post handler response =>
      if response.state = .disconnect then none else some (handler, response)
  | _ => none

def WsEffect.startsRead : WsEffect → Bool
  | .start .read => true
  | _ => false

def requested (effects : List WsEffect) : List (Callback × WsResponse) :=
  effects.filterMap WsEffect.request

def readsStarted (effects : List WsEffect) : ℕ :=
  effects.countP WsEffect.startsRead

namespace ReadTrace

def step (boost : Boost) (t : ReadTrace) (event : WsEvent) :
    Option ReadTrace :=
  (t.run.step boost event).map fun next => {
    run := next
    reads := t.reads ++ event.read?.toList
    performed := t.performed ++ (t.run.executed event).toList }

def established (session : WsSession) (completions : ℕ) : ReadTrace where
  run := WsRun.established session completions
  reads := []
  performed := []

/-- What the io thread has done and what its script leaves to do. -/
def effects (t : ReadTrace) : List WsEffect := t.performed ++ t.run.script

end ReadTrace

/-! ## What the script leaves behind -/

/-- The pending operation and the buffer after one effect. -/
def settle (state : Option WsOp × Str) : WsEffect → Option WsOp × Str
  | .start op => (some op, state.2)
  | .clearBuffer => (state.1, [])
  | .call _ _ => state
  | .post _ _ => state

/-- The pending operation and the buffer once the script is executed. -/
def WsRun.settled (s : WsRun) : Option WsOp × Str :=
  s.script.foldl settle (s.pending, s.session.buffer)

theorem WsRun.settled_of_nil {s : WsRun} (hscript : s.script = []) :
    s.settled = (s.pending, s.session.buffer) := by
  simp [WsRun.settled, hscript]

theorem WsRun.perform_settled {s : WsRun} {effect : WsEffect}
    {rest : List WsEffect} (hscript : s.script = effect :: rest) :
    (s.perform rest effect).settled = s.settled := by
  unfold WsRun.settled
  rw [hscript, List.foldl_cons]
  cases effect with
  | call handler response => rfl
  | post handler response => rfl
  | start op => rfl
  | clearBuffer => rfl

/-! ## One read -/

/-- The effects of `on_read` on a buffer that holds one message. -/
def ReadResult.effects (boost : Boost) (callback : Callback)
    (read : ReadResult) : List WsEffect :=
  WsSession.onRead boost ⟨[], [], callback, read.data⟩ read.ec

/-- The response to one message: its JSON value, or that it has none. -/
def answer (boost : Boost) (message : Str) : WsResponse :=
  match boost.parse message with
  | .ok jsonValue => .ofJson jsonValue
  | .error jsonEc =>
      .ofReason (ascii "json read" ++ ascii " " ++ boost.message jsonEc)

def readFailure (boost : Boost) (ec : ErrorCode) : WsResponse :=
  .ofReason (ascii "read" ++ ascii " " ++ boost.message ec)

def ReadResult.responses (boost : Boost) (read : ReadResult) :
    List WsResponse :=
  if read.ec.failed then
    if WsSession.silent read.ec then [] else [readFailure boost read.ec]
  else [answer boost read.data]

theorem WsSession.not_silent_of_ok {ec : ErrorCode}
    (hok : ec.failed = false) : WsSession.silent ec = false := by
  cases hsilent : WsSession.silent ec with
  | false => rfl
  | true =>
      rw [WsSession.failed_of_silent hsilent] at hok
      contradiction

theorem ReadResult.effects_of_ok (boost : Boost) (f : ℕ) {read : ReadResult}
    (hok : read.ec.failed = false) :
    ∃ report : WsEffect,
      (report = .call (some f) (answer boost read.data) ∨
        report = .post (some f) (answer boost read.data)) ∧
      read.effects boost (some f) = [report, .clearBuffer, .start .read] := by
  have hsilent := WsSession.not_silent_of_ok hok
  unfold ReadResult.effects WsSession.onRead answer
  rw [hsilent, hok]
  cases hparse : boost.parse read.data with
  | ok jsonValue => exact ⟨_, .inr rfl, by simp⟩
  | error jsonEc => exact ⟨_, .inl rfl, by simp; rfl⟩

theorem ReadResult.effects_of_failed (boost : Boost) (f : ℕ)
    {read : ReadResult} (hfailed : read.ec.failed = true) :
    read.effects boost (some f) =
      if WsSession.silent read.ec then []
      else [.call (some f) (readFailure boost read.ec)] := by
  unfold ReadResult.effects WsSession.onRead
  cases hsilent : WsSession.silent read.ec with
  | true => rfl
  | false =>
      simp only [hfailed, Bool.false_eq_true, if_false, if_true,
        failOnThread_some]
      rfl

theorem answer_state_ne (boost : Boost) (message : Str) :
    (answer boost message).state ≠ .disconnect := by
  unfold answer
  cases boost.parse message with
  | ok jsonValue => simp
  | error jsonEc => simp

theorem ReadResult.requested_effects (boost : Boost) (f : ℕ)
    (read : ReadResult) :
    requested (read.effects boost (some f)) =
      (read.responses boost).map fun r => (some f, r) := by
  unfold ReadResult.responses
  cases hfailed : read.ec.failed with
  | false =>
      obtain ⟨report, hreport, heffects⟩ :=
        ReadResult.effects_of_ok boost f hfailed
      have hstate := answer_state_ne boost read.data
      rw [heffects]
      rcases hreport with rfl | rfl
      · simp [requested, WsEffect.request, hstate]
      · simp [requested, WsEffect.request, hstate]
  | true =>
      rw [ReadResult.effects_of_failed boost f hfailed]
      cases hsilent : WsSession.silent read.ec with
      | true => simp [requested]
      | false => simp [requested, WsEffect.request, readFailure]

theorem ReadResult.readsStarted_effects (boost : Boost) (f : ℕ)
    (read : ReadResult) :
    readsStarted (read.effects boost (some f)) =
      if read.ec.failed then 0 else 1 := by
  cases hfailed : read.ec.failed with
  | false =>
      obtain ⟨report, hreport, heffects⟩ :=
        ReadResult.effects_of_ok boost f hfailed
      rw [heffects]
      rcases hreport with rfl | rfl
      · rfl
      · rfl
  | true =>
      rw [ReadResult.effects_of_failed boost f hfailed]
      cases hsilent : WsSession.silent read.ec with
      | true => rfl
      | false => rfl

theorem ReadResult.settles (boost : Boost) (f : ℕ) (read : ReadResult) :
    (read.effects boost (some f)).foldl settle (none, read.data) =
      if read.ec.failed then (none, read.data) else (some .read, []) := by
  cases hfailed : read.ec.failed with
  | false =>
      obtain ⟨report, hreport, heffects⟩ :=
        ReadResult.effects_of_ok boost f hfailed
      rw [heffects]
      rcases hreport with rfl | rfl
      · rfl
      · rfl
  | true =>
      rw [ReadResult.effects_of_failed boost f hfailed]
      cases hsilent : WsSession.silent read.ec with
      | true => rfl
      | false => rfl

/-! ## The invariant -/

theorem requested_append (left right : List WsEffect) :
    requested (left ++ right) = requested left ++ requested right :=
  List.filterMap_append

theorem readsStarted_append (left right : List WsEffect) :
    readsStarted (left ++ right) = readsStarted left + readsStarted right :=
  List.countP_append

/-- Effect for effect, what was done and is left to do answers the reads; only
the last read can have failed. -/
structure ReadTrace.Invariant (boost : Boost) (f : ℕ) (t : ReadTrace) :
    Prop where
  callback : t.run.session.callback = some f
  requests : requested t.effects =
    t.reads.flatMap fun read => (read.responses boost).map fun r => (some f, r)
  starts : readsStarted t.effects = t.reads.countP fun read => !read.ec.failed
  ends : ∀ read ∈ t.reads.dropLast, read.ec.failed = false
  reading : (∀ read ∈ t.reads, read.ec.failed = false) →
    t.run.settled = (some .read, [])
  stopped : (∃ read ∈ t.reads, read.ec.failed = true) →
    t.run.settled.1 = none

namespace ReadTrace

theorem established_invariant (boost : Boost) {session : WsSession} {f : ℕ}
    (hcallback : session.callback = some f) (completions : ℕ) :
    (established session completions).Invariant boost f where
  callback := hcallback
  requests := by simp [established, effects, requested, WsRun.established]
  starts := by simp [established, effects, readsStarted, WsRun.established]
  ends := by simp [established]
  reading := by simp [established, WsRun.settled, WsRun.established]
  stopped := by simp [established]

theorem Invariant.keep {boost : Boost} {f : ℕ} {t : ReadTrace} {next : WsRun}
    (hinv : t.Invariant boost f) (hsession : next.session = t.run.session)
    (hpending : next.pending = t.run.pending)
    (hscript : next.script = t.run.script) :
    Invariant boost f { t with run := next } := by
  have hsettled : next.settled = t.run.settled := by
    unfold WsRun.settled
    rw [hsession, hpending, hscript]
  have heffects : effects { t with run := next } = t.effects := by
    unfold effects
    rw [hscript]
  exact {
    callback := by rw [hsession]; exact hinv.callback
    requests := by rw [heffects]; exact hinv.requests
    starts := by rw [heffects]; exact hinv.starts
    ends := hinv.ends
    reading := fun hok => by rw [hsettled]; exact hinv.reading hok
    stopped := fun hfailed => by rw [hsettled]; exact hinv.stopped hfailed }

theorem Invariant.perform {boost : Boost} {f : ℕ} {t : ReadTrace}
    {effect : WsEffect} {rest : List WsEffect} (hinv : t.Invariant boost f)
    (hscript : t.run.script = effect :: rest) :
    Invariant boost f {
      run := t.run.perform rest effect
      reads := t.reads
      performed := t.performed ++ [effect] } := by
  have hsettled := WsRun.perform_settled hscript
  have hrest : (t.run.perform rest effect).script = rest := by
    cases effect <;> rfl
  have hsession :
      (t.run.perform rest effect).session.callback = t.run.session.callback := by
    cases effect <;> rfl
  have heffects : t.performed ++ [effect] ++ rest = t.effects := by
    unfold effects
    rw [hscript, List.append_assoc, List.singleton_append]
  exact {
    callback := by rw [hsession]; exact hinv.callback
    requests := by
      unfold effects
      rw [hrest, heffects]
      exact hinv.requests
    starts := by
      unfold effects
      rw [hrest, heffects]
      exact hinv.starts
    ends := hinv.ends
    reading := fun hok => by rw [hsettled]; exact hinv.reading hok
    stopped := fun hfailed => by rw [hsettled]; exact hinv.stopped hfailed }

/-- While an operation is pending and the script is empty, no read has failed
and the session reads into an empty buffer. -/
theorem Invariant.reads_ok {boost : Boost} {f : ℕ} {t : ReadTrace} {op : WsOp}
    (hinv : t.Invariant boost f) (hscript : t.run.script = [])
    (hpending : t.run.pending = some op) :
    (∀ read ∈ t.reads, read.ec.failed = false) ∧ op = .read ∧
      t.run.session.buffer = [] := by
  have hsettled := WsRun.settled_of_nil hscript
  have hok : ∀ read ∈ t.reads, read.ec.failed = false := by
    intro read hread
    by_contra hfailed
    have hnone := hinv.stopped ⟨read, hread, by simpa using hfailed⟩
    rw [hsettled, hpending] at hnone
    contradiction
  have hreading := hinv.reading hok
  rw [hsettled, hpending] at hreading
  simp only [Prod.mk.injEq, Option.some.injEq] at hreading
  exact ⟨hok, hreading.1, hreading.2⟩

theorem Invariant.complete {boost : Boost} {f : ℕ} {t : ReadTrace}
    {session : WsSession} (hinv : t.Invariant boost f) (read : ReadResult)
    (hscript : t.run.script = [])
    (hok : ∀ earlier ∈ t.reads, earlier.ec.failed = false)
    (hsession : session = { t.run.session with buffer := read.data }) :
    Invariant boost f {
      run := { t.run with
        session := session
        pending := none
        script := session.onRead boost read.ec
        completions := t.run.completions + 1 }
      reads := t.reads ++ [read]
      performed := t.performed } := by
  have hcallback : session.callback = some f := by
    rw [hsession]
    exact hinv.callback
  have hbuffer : session.buffer = read.data := by rw [hsession]
  have heffects : session.onRead boost read.ec =
      read.effects boost (some f) := by
    unfold ReadResult.effects WsSession.onRead
    rw [hcallback, hbuffer]
  have hdone : t.effects = t.performed := by
    unfold effects
    rw [hscript, List.append_nil]
  have hrequests := hinv.requests
  have hstarts := hinv.starts
  rw [hdone] at hrequests hstarts
  have hsettles := ReadResult.settles boost f read
  exact {
    callback := hcallback
    requests := by
      unfold effects
      rw [requested_append, hrequests, heffects,
        ReadResult.requested_effects, List.flatMap_append,
        List.flatMap_singleton]
    starts := by
      unfold effects
      rw [readsStarted_append, hstarts, heffects,
        ReadResult.readsStarted_effects, List.countP_append,
        List.countP_singleton]
      cases read.ec.failed with
      | true => rfl
      | false => rfl
    ends := by
      rw [List.dropLast_concat]
      exact hok
    reading := by
      intro hall
      have hlast := hall read (by simp)
      unfold WsRun.settled
      rw [hlast] at hsettles
      rw [heffects, hbuffer]
      exact hsettles
    stopped := by
      rintro ⟨failed, hmem, hfailed⟩
      have hlast : read.ec.failed = true := by
        rcases List.mem_append.mp hmem with hearlier | hnew
        · rw [hok failed hearlier] at hfailed
          contradiction
        · rw [← List.mem_singleton.mp hnew]
          exact hfailed
      unfold WsRun.settled
      rw [hlast] at hsettles
      rw [heffects, hbuffer, hsettles]
      rfl }

theorem Invariant.close {boost : Boost} {f : ℕ} {t : ReadTrace}
    {handler : Callback} {next : WsRun} (hinv : t.Invariant boost f)
    (hscript : t.run.script = []) (hsession : next.session = t.run.session)
    (hpending : next.pending = t.run.pending)
    (hclose : next.script = t.run.session.onClose handler) :
    Invariant boost f { t with run := next } := by
  have hsettled : next.settled = t.run.settled := by
    rw [WsRun.settled_of_nil hscript]
    unfold WsRun.settled
    rw [hclose, hsession, hpending]
    rfl
  have hdone : t.effects = t.performed := by
    unfold effects
    rw [hscript, List.append_nil]
  have hrequested : requested (t.run.session.onClose handler) = [] := rfl
  have hstarted : readsStarted (t.run.session.onClose handler) = 0 := rfl
  have hrequests := hinv.requests
  have hstarts := hinv.starts
  rw [hdone] at hrequests hstarts
  exact {
    callback := by rw [hsession]; exact hinv.callback
    requests := by
      unfold effects
      rw [requested_append, hclose, hrequested, List.append_nil]
      exact hrequests
    starts := by
      unfold effects
      rw [readsStarted_append, hclose, hstarted]
      exact hstarts
    ends := hinv.ends
    reading := fun hok => by rw [hsettled]; exact hinv.reading hok
    stopped := fun hfailed => by rw [hsettled]; exact hinv.stopped hfailed }

theorem step_eq_some {boost : Boost} {t next : ReadTrace} {event : WsEvent}
    (hstep : t.step boost event = some next) :
    ∃ run, t.run.Moves boost event run ∧
      next = {
        run := run
        reads := t.reads ++ event.read?.toList
        performed := t.performed ++ (t.run.executed event).toList } := by
  simp only [step, Option.map_eq_some_iff] at hstep
  obtain ⟨run, hrun, rfl⟩ := hstep
  exact ⟨run, WsRun.moves hrun, rfl⟩

theorem Invariant.step {boost : Boost} {f : ℕ} {t next : ReadTrace}
    {event : WsEvent} (hinv : t.Invariant boost f)
    (hstep : t.step boost event = some next) : next.Invariant boost f := by
  obtain ⟨run, hmoves, rfl⟩ := step_eq_some hstep
  have hnone : t.reads ++ (none : Option ReadResult).toList = t.reads := by simp
  have hquiet : t.performed ++ (none : Option WsEffect).toList =
      t.performed := by simp
  cases hmoves with
  | @completes op completion session effects hscript _ hpending hhandled =>
      obtain ⟨hok, rfl, hbuffer⟩ := hinv.reads_ok hscript hpending
      cases completion with
      | read ec data =>
          simp only [WsSession.onCompletion, hbuffer, List.nil_append,
            Option.some.injEq, Prod.mk.injEq] at hhandled
          obtain ⟨rfl, rfl⟩ := hhandled
          have hnext := hinv.complete ⟨ec, data⟩ hscript hok rfl
          simpa [WsEvent.read?, WsRun.executed] using hnext
      | resolve ec => simp [WsSession.onCompletion] at hhandled
      | connect ec port sni => simp [WsSession.onCompletion] at hhandled
      | sslHandshake ec => simp [WsSession.onCompletion] at hhandled
      | handshake ec => simp [WsSession.onCompletion] at hhandled
  | performs hscript _ =>
      have hnext := hinv.perform hscript
      simpa [WsEvent.read?, WsRun.executed, hscript] using hnext
  | ioReturns _ =>
      simp only [WsEvent.read?, WsRun.executed, hnone, hquiet]
      exact hinv.keep rfl rfl rfl
  | workerStarts _ _ =>
      simp only [WsEvent.read?, WsRun.executed, hnone, hquiet]
      exact hinv.keep rfl rfl rfl
  | workerReturns _ =>
      simp only [WsEvent.read?, WsRun.executed, hnone, hquiet]
      exact hinv.keep rfl rfl rfl
  | stops =>
      simp only [WsEvent.read?, WsRun.executed, hnone, hquiet]
      exact hinv.keep rfl rfl rfl
  | closes hscript _ _ =>
      simp only [WsEvent.read?, WsRun.executed, hnone, hquiet]
      exact hinv.close hscript rfl rfl rfl

end ReadTrace

/-! ## What the requests are -/

theorem exists_messages {reads : List ReadResult}
    (hends : ∀ read ∈ reads.dropLast, read.ec.failed = false) :
    ∃ (messages : List ReadResult) (ending : Option ReadResult),
      reads = messages ++ ending.toList ∧
      (∀ m ∈ messages, m.ec.failed = false) ∧
      ∀ e ∈ ending, e.ec.failed = true := by
  rcases List.eq_nil_or_concat reads with rfl | ⟨earlier, last, hreads⟩
  · exact ⟨[], none, by simp, by simp, by simp⟩
  · rw [List.concat_eq_append] at hreads
    have hearlier : ∀ m ∈ earlier, m.ec.failed = false := by
      simpa [hreads] using hends
    cases hlast : last.ec.failed with
    | true => exact ⟨earlier, some last, by simp [hreads], hearlier, by simpa⟩
    | false =>
        refine ⟨earlier ++ [last], none, by simp [hreads], ?_, by simp⟩
        intro m hm
        rcases List.mem_append.mp hm with hmem | hmem
        · exact hearlier m hmem
        · rw [List.mem_singleton.mp hmem]
          exact hlast

/-- One invocation for each message, in order, and one for the error that ends
the reads unless it is a silent one. -/
def expectedRequests (boost : Boost) (f : ℕ) (messages : List ReadResult)
    (ending : Option ReadResult) : List (Callback × WsResponse) :=
  messages.map (fun m => (some f, answer boost m.data)) ++
    match ending with
    | none => []
    | some e =>
        if WsSession.silent e.ec then []
        else [(some f, readFailure boost e.ec)]

theorem flatMap_responses {boost : Boost} {f : ℕ} {messages : List ReadResult}
    {ending : Option ReadResult} (hok : ∀ m ∈ messages, m.ec.failed = false)
    (hfailed : ∀ e ∈ ending, e.ec.failed = true) :
    (messages ++ ending.toList).flatMap
        (fun read => (read.responses boost).map fun r => (some f, r)) =
      expectedRequests boost f messages ending := by
  have hmessages : ∀ ms : List ReadResult, (∀ m ∈ ms, m.ec.failed = false) →
      ms.flatMap (fun read => (read.responses boost).map fun r => (some f, r)) =
        ms.map fun m => (some f, answer boost m.data) := by
    intro ms hms
    induction ms with
    | nil => rfl
    | cons m ms ih =>
        have hm : m.ec.failed = false := hms m (by simp)
        have htail := ih fun other hother => hms other (by simp [hother])
        rw [List.flatMap_cons, htail]
        simp [ReadResult.responses, hm]
  unfold expectedRequests
  rw [List.flatMap_append, hmessages messages hok]
  cases ending with
  | none => rfl
  | some e =>
      have he : e.ec.failed = true := hfailed e rfl
      cases hsilent : WsSession.silent e.ec with
      | true => simp [ReadResult.responses, he, hsilent]
      | false => simp [ReadResult.responses, he, hsilent]

theorem countP_ok {messages : List ReadResult} {ending : Option ReadResult}
    (hok : ∀ m ∈ messages, m.ec.failed = false)
    (hfailed : ∀ e ∈ ending, e.ec.failed = true) :
    (messages ++ ending.toList).countP (fun read => !read.ec.failed) =
      messages.length := by
  have hmessages : messages.countP (fun read => !read.ec.failed) =
      messages.length := by
    rw [List.countP_eq_length]
    intro m hm
    simp [hok m hm]
  rw [List.countP_append, hmessages]
  cases ending with
  | none => simp
  | some e => simp [hfailed e rfl]

/-! ## The io thread goes on -/

namespace ReadTrace

theorem run_io {boost : Boost} {t : ReadTrace} {effect : WsEffect}
    {rest : List WsEffect} (hscript : t.run.script = effect :: rest)
    (hioCall : t.run.ioCall = none) :
    t.step boost .io = some {
      run := t.run.perform rest effect
      reads := t.reads
      performed := t.performed ++ [effect] } := by
  simp [step, WsRun.step, hscript, hioCall, WsEvent.read?, WsRun.executed]

theorem run_ioReturns {boost : Boost} {t : ReadTrace} {invocation : Invocation}
    (hioCall : t.run.ioCall = some invocation) :
    t.step boost .ioReturns = some { t with
      run := { t.run with
        ioCall := none
        log := t.run.log ++ [.ends invocation] } } := by
  simp [step, WsRun.step, hioCall, WsEvent.read?, WsRun.executed]

/-- A handler the io thread is inside of returns, and the script is executed
to its end. -/
theorem exists_run_to_end_of_script (boost : Boost) (t : ReadTrace) :
    ∃ more done, LabelledRuns.run (ReadTrace.step boost) t more = some done ∧
      done.run.script = [] ∧ done.run.ioCall = none ∧ done.reads = t.reads := by
  generalize hlength : t.run.script.length = remaining
  induction remaining generalizing t with
  | zero =>
      have hscript : t.run.script = [] := List.length_eq_zero_iff.mp hlength
      cases hioCall : t.run.ioCall with
      | none => exact ⟨[], t, rfl, hscript, hioCall, rfl⟩
      | some invocation =>
          have hreturns : LabelledRuns.run (step boost) t [.ioReturns] =
              some { t with
                run := { t.run with
                  ioCall := none
                  log := t.run.log ++ [.ends invocation] } } := by
            rw [run_cons, run_ioReturns hioCall]
            rfl
          exact ⟨_, _, hreturns, hscript, rfl, rfl⟩
  | succ remaining ih =>
      obtain ⟨effect, rest, hscript⟩ :
          ∃ effect rest, t.run.script = effect :: rest := by
        cases hcases : t.run.script with
        | nil => simp [hcases] at hlength
        | cons effect rest => exact ⟨effect, rest, rfl⟩
      have hafter : ∀ u : ReadTrace, u.run.script = effect :: rest →
          u.run.ioCall = none → u.reads = t.reads →
          ∃ more done, LabelledRuns.run (ReadTrace.step boost) u more = some done ∧
            done.run.script = [] ∧ done.run.ioCall = none ∧
              done.reads = t.reads := by
        intro u huscript huioCall hureads
        have hrest : (u.run.perform rest effect).script = rest := by
          cases effect <;> rfl
        have hremaining : rest.length = remaining := by
          simpa [hscript] using hlength
        obtain ⟨more, done, hrun, hend, hidle, hreads⟩ := ih {
          run := u.run.perform rest effect
          reads := u.reads
          performed := u.performed ++ [effect] }
          (by rw [hrest]; exact hremaining)
        refine ⟨.io :: more, done, ?_, hend, hidle, hreads.trans hureads⟩
        rw [run_cons, run_io huscript huioCall]
        exact hrun
      cases hioCall : t.run.ioCall with
      | none => exact hafter t hscript hioCall rfl
      | some invocation =>
          obtain ⟨more, done, hrun, hend⟩ := hafter { t with
            run := { t.run with
              ioCall := none
              log := t.run.log ++ [.ends invocation] } } hscript rfl rfl
          refine ⟨.ioReturns :: more, done, ?_, hend⟩
          rw [run_cons, run_ioReturns hioCall]
          exact hrun

/-! ## Every run of an established session -/

/-- The state of the session once its script is executed: every read was
requested for, and the next one is under way unless one has failed. -/
structure Answered (boost : Boost) (f : ℕ) (messages : List ReadResult)
    (ending : Option ReadResult) (t : ReadTrace) : Prop where
  requests : requested t.performed = expectedRequests boost f messages ending
  starts : readsStarted t.performed = messages.length
  pending : t.run.pending = if ending.isNone then some .read else none

theorem Invariant.answered {boost : Boost} {f : ℕ} {t : ReadTrace}
    {messages : List ReadResult} {ending : Option ReadResult}
    (hinv : t.Invariant boost f) (hreads : t.reads = messages ++ ending.toList)
    (hok : ∀ m ∈ messages, m.ec.failed = false)
    (hfailed : ∀ e ∈ ending, e.ec.failed = true)
    (hscript : t.run.script = []) : t.Answered boost f messages ending := by
  have hdone : t.effects = t.performed := by
    unfold effects
    rw [hscript, List.append_nil]
  have hsettled := WsRun.settled_of_nil hscript
  have hrequests := hinv.requests
  have hstarts := hinv.starts
  rw [hdone, hreads] at hrequests hstarts
  constructor
  · rw [hrequests, flatMap_responses hok hfailed]
  · rw [hstarts, countP_ok hok hfailed]
  · cases ending with
    | none =>
        have hall : ∀ read ∈ t.reads, read.ec.failed = false := by
          simpa [hreads] using hok
        have hreading := hinv.reading hall
        rw [hsettled] at hreading
        exact congrArg Prod.fst hreading
    | some e =>
        have hmem : e ∈ t.reads := by simp [hreads]
        have hnone := hinv.stopped ⟨e, hmem, hfailed e rfl⟩
        rw [hsettled] at hnone
        exact hnone

theorem Invariant.requests_prefix {boost : Boost} {f : ℕ} {t : ReadTrace}
    {messages : List ReadResult} {ending : Option ReadResult}
    (hinv : t.Invariant boost f) (hreads : t.reads = messages ++ ending.toList)
    (hok : ∀ m ∈ messages, m.ec.failed = false)
    (hfailed : ∀ e ∈ ending, e.ec.failed = true) :
    requested t.performed <+: expectedRequests boost f messages ending ∧
      readsStarted t.performed ≤ messages.length := by
  have hrequests := hinv.requests
  have hstarts := hinv.starts
  unfold effects at hrequests hstarts
  rw [hreads, requested_append, flatMap_responses hok hfailed] at hrequests
  rw [hreads, readsStarted_append, countP_ok hok hfailed] at hstarts
  exact ⟨⟨_, hrequests⟩, by omega⟩

end ReadTrace

/-- In every run of an established session the reads are messages with at most
one error behind them.  Each message is parsed alone, answered once and
followed by the next read; the error is reported once unless it is silent, and
nothing is read or requested after it. -/
theorem established_answers_its_reads {boost : Boost} {session : WsSession}
    {f completions : ℕ} {events : List WsEvent} {t : ReadTrace}
    (hcallback : session.callback = some f)
    (hrun : run (ReadTrace.step boost)
      (ReadTrace.established session completions) events = some t) :
    EveryStep (ReadTrace.step boost)
        (fun _ event next => ∀ ec data, event = .complete (.read ec data) →
          next.run.session.buffer = data)
        (ReadTrace.established session completions) events ∧
      ∃ (messages : List ReadResult) (ending : Option ReadResult),
        t.reads = messages ++ ending.toList ∧
        (∀ m ∈ messages, m.ec.failed = false) ∧
        (∀ e ∈ ending, e.ec.failed = true) ∧
        requested t.performed <+: expectedRequests boost f messages ending ∧
        readsStarted t.performed ≤ messages.length ∧
        (t.run.script = [] → t.Answered boost f messages ending) ∧
        ∃ more done, run (ReadTrace.step boost) t more = some done ∧
          done.reads = t.reads ∧ done.run.script = [] ∧
          done.Answered boost f messages ending := by
  have hstart := ReadTrace.established_invariant boost hcallback completions
  have hstep : ∀ t event next, ReadTrace.Invariant boost f t → True →
      t.step boost event = some next → next.Invariant boost f :=
    fun _ _ _ hinv _ hnext => hinv.step hnext
  have hmeets := meets_true (ReadTrace.step boost)
    (ReadTrace.established session completions) events
  constructor
  · refine everyStep_of_invariant hstep ?_ hstart hmeets
    rintro t _ next hinv _ hnext ec data rfl
    obtain ⟨_, hmoves, rfl⟩ := ReadTrace.step_eq_some hnext
    cases hmoves with
    | completes hscript _ hpending hhandled =>
        obtain ⟨_, rfl, hbuffer⟩ := hinv.reads_ok hscript hpending
        simp only [WsSession.onCompletion, hbuffer, List.nil_append,
          Option.some.injEq, Prod.mk.injEq] at hhandled
        rw [← hhandled.1]
  · have hinv := invariant_of_run hstep hstart hmeets hrun
    obtain ⟨messages, ending, hreads, hok, hfailed⟩ :=
      exists_messages hinv.ends
    obtain ⟨hrequests, hstarts⟩ := hinv.requests_prefix hreads hok hfailed
    obtain ⟨more, done, hmore, hend, _, hsame⟩ :=
      ReadTrace.exists_run_to_end_of_script boost t
    have hdone := invariant_of_run hstep hinv
      (meets_true (ReadTrace.step boost) t more) hmore
    exact ⟨messages, ending, hreads, hok, hfailed, hrequests, hstarts,
      hinv.answered hreads hok hfailed, more, done, hmore, hsame, hend,
      hdone.answered (hsame.trans hreads) hok hfailed hend⟩

/-- A message, a text that is not JSON, and the end of the stream. -/
def bookTickerReads : List WsEvent :=
  [.arrives "[]", .io, .io, .io, .workerStarts,
    .arrives "[", .io, .workerReturns, .ioReturns, .io, .io,
    .complete (.read .websocketClosed []), .io]

theorem bookTicker_answers_its_reads :
    ∃ t messages ending,
      run (ReadTrace.step sampleBoost)
        (ReadTrace.established bookTickerSession 4) bookTickerReads = some t ∧
      t.reads = messages ++ ending.toList ∧
      t.Answered sampleBoost 0 messages ending := by
  have hrun : ∃ t, run (ReadTrace.step sampleBoost)
      (ReadTrace.established bookTickerSession 4) bookTickerReads = some t ∧
        t.run.script = [] := ⟨_, rfl, rfl⟩
  obtain ⟨t, hrun, hscript⟩ := hrun
  obtain ⟨_, messages, ending, hreads, _, _, _, _, hanswered, _⟩ :=
    established_answers_its_reads rfl hrun
  exact ⟨t, messages, ending, hrun, hreads, hanswered hscript⟩

end Bblib
