import Bblib.WsSessionOrder
import Mathlib.Tactic

/-!
# Stopping an established session

`stopWebSocket` starts a close and, when that completes, calls the handler
with `State::Disconnect` on the io thread.  The Disconnect call is the last
one, and no failure is reported after the stop, as long as the pending read
ends with one of the two silent error codes, no message arrives after the
close, and the Disconnect call finds the pool idle.
-/

namespace Bblib

open LabelledRuns

def Disconnected (log : List WsLog) : Prop :=
  ∃ invocation, .begins invocation ∈ log ∧
    invocation.response.state = .disconnect

structure StopContract (log : List WsLog) : Prop where
  no_fail : ∀ before invocation after,
    log = before ++ .begins invocation :: after →
    .stopped ∈ before → invocation.response.state ≠ .fail
  disconnect_last : ∀ before invocation after,
    log = before ++ .begins invocation :: after →
    invocation.response.state = .disconnect →
    (∀ earlier, .begins earlier ∈ before → .ends earlier ∈ before) ∧
      ∀ later, .begins later ∉ after

/-- The contract of a stop, with the Disconnect call made once nothing of the
close is left to do. -/
structure WsRun.Stops (s : WsRun) : Prop where
  contract : StopContract s.log
  disconnects : .stopped ∈ s.log → s.closing = [] → s.script = [] →
    Disconnected s.log

/-- Messages are valid JSON, a read fails only once the session is being
stopped, and it is stopped once. -/
def WsRun.StopScenario (boost : Boost) (s : WsRun) : WsEvent → Prop
  | .complete (.read ec data) =>
      if ec.failed then .stopped ∈ s.log
      else ∃ jsonValue, boost.parse data = .ok jsonValue
  | .stopWebSocket _ => .stopped ∉ s.log
  | _ => True

def WsRun.QuietClose (s : WsRun) (event : WsEvent) : Prop :=
  s.PoolIdleAtCalls event ∧
    match event with
    | .complete (.read ec _) =>
        if ec.failed then WsSession.silent ec = true else .closed ∉ s.log
    | _ => True

/-! ## The contract of a growing log -/

theorem StopContract.nil : StopContract [] := by
  constructor
  · intro before invocation after hsplit
    simp at hsplit
  · intro before invocation after hsplit
    simp at hsplit

theorem StopContract.quiet {log : List WsLog} {entry : WsLog}
    (hcontract : StopContract log)
    (hentry : ∀ invocation, entry ≠ .begins invocation) :
    StopContract (log ++ [entry]) := by
  constructor
  · intro before invocation after hsplit
    rcases snoc_eq_append_cons hsplit with ⟨rest, _, hlog⟩ | ⟨_, _, hlast⟩
    · exact hcontract.no_fail before invocation rest hlog
    · exact absurd hlast (hentry invocation)
  · intro before invocation after hsplit hstate
    rcases snoc_eq_append_cons hsplit with ⟨rest, rfl, hlog⟩ | ⟨_, _, hlast⟩
    · obtain ⟨hearlier, hlater⟩ :=
        hcontract.disconnect_last before invocation rest hlog hstate
      refine ⟨hearlier, ?_⟩
      intro later hmem
      rcases List.mem_append.mp hmem with hrest | hentry'
      · exact hlater later hrest
      · exact hentry later (List.mem_singleton.mp hentry').symm
    · exact absurd hlast (hentry invocation)

/-- A call begins before the Disconnect call has; that call itself needs all
calls before it ended. -/
theorem StopContract.begins {log : List WsLog} {next : Invocation}
    (hcontract : StopContract log) (hbefore : ¬ Disconnected log)
    (hstate : next.response.state ≠ .fail)
    (hended : next.response.state = .disconnect →
      ∀ earlier, .begins earlier ∈ log → .ends earlier ∈ log) :
    StopContract (log ++ [.begins next]) := by
  constructor
  · intro before invocation after hsplit hstopped
    rcases snoc_eq_append_cons hsplit with ⟨rest, _, hlog⟩ | ⟨_, _, hlast⟩
    · exact hcontract.no_fail before invocation rest hlog hstopped
    · obtain rfl : next = invocation := by simpa using hlast
      exact hstate
  · intro before invocation after hsplit hdisconnect
    rcases snoc_eq_append_cons hsplit with
      ⟨rest, _, hlog⟩ | ⟨rfl, rfl, hlast⟩
    · have hmem : WsLog.begins invocation ∈ log := by simp [hlog]
      exact absurd ⟨invocation, hmem, hdisconnect⟩ hbefore
    · obtain rfl : next = invocation := by simpa using hlast
      exact ⟨hended hdisconnect, by simp⟩

theorem not_disconnected_append {log : List WsLog} {entry : WsLog}
    (hbefore : ¬ Disconnected log)
    (hentry : ∀ invocation, entry = .begins invocation →
      invocation.response.state ≠ .disconnect) :
    ¬ Disconnected (log ++ [entry]) := by
  rintro ⟨invocation, hmem, hstate⟩
  rcases List.mem_append.mp hmem with hold | hnew
  · exact hbefore ⟨invocation, hold, hstate⟩
  · exact hentry invocation (List.mem_singleton.mp hnew).symm hstate

theorem disconnected_append_iff {log : List WsLog} {entry : WsLog}
    (hentry : ∀ invocation, entry ≠ .begins invocation) :
    Disconnected (log ++ [entry]) ↔ Disconnected log := by
  constructor
  · intro hdisconnected
    by_contra hbefore
    have hafter : ¬ Disconnected (log ++ [entry]) :=
      not_disconnected_append hbefore
        fun invocation heq => absurd heq (hentry invocation)
    exact hafter hdisconnected
  · rintro ⟨invocation, hmem, hstate⟩
    exact ⟨invocation, List.mem_append_left _ hmem, hstate⟩

/-! ## The invariant -/

/-- The script is that of a read or the Disconnect call alone, and a read
starts with an empty buffer; `silent` says what is left to do once the
Disconnect call has begun. -/
structure WsRun.StopInvariant (s : WsRun) : Prop where
  contract : StopContract s.log
  reading : ∀ op, s.pending = some op ∨ .start op ∈ s.script →
    op = .read ∧ (.clearBuffer ∈ s.script ∨ s.session.buffer = [])
  posts : ∀ handler response, .post handler response ∈ s.script →
    response.state = .success ∧ ¬ Disconnected s.log
  calls : ∀ handler response, .call handler response ∈ s.script →
    response.state = .disconnect ∧ .closed ∈ s.log ∧
      ¬ Disconnected s.log ∧ s.script = [.call handler response]
  queued : ∀ invocation ∈ s.queue, invocation.response.state = .success
  accounted : ∀ invocation, .begins invocation ∈ s.log →
    .ends invocation ∈ s.log ∨ s.ioCall = some invocation ∨
      s.worker = some invocation
  silent : Disconnected s.log → s.queue = [] ∧ .closed ∈ s.log
  unstopped : .stopped ∉ s.log → s.closing = [] ∧ .closed ∉ s.log
  stopped : .stopped ∈ s.log → s.closing ≠ [] ∨
    (∃ handler response, .call handler response ∈ s.script) ∨
      Disconnected s.log
  closing_length : s.closing.length ≤ 1
  closed : .closed ∈ s.log → s.closing = []

theorem WsRun.established_stopInvariant (session : WsSession)
    (completions : ℕ) :
    (WsRun.established session completions).StopInvariant where
  contract := StopContract.nil
  reading := by
    intro op hop
    have hread : op = .read := by
      simpa [WsRun.established, eq_comm] using hop
    exact ⟨hread, .inr rfl⟩
  posts := by simp [WsRun.established]
  calls := by simp [WsRun.established]
  queued := by simp [WsRun.established]
  accounted := by simp [WsRun.established]
  silent := by simp [WsRun.established, Disconnected]
  unstopped := by simp [WsRun.established]
  stopped := by simp [WsRun.established]
  closing_length := by simp [WsRun.established]
  closed := by simp [WsRun.established]

theorem WsRun.StopInvariant.stops {s : WsRun} (hinv : s.StopInvariant) :
    s.Stops where
  contract := hinv.contract
  disconnects := by
    intro hstopped hclosing hscript
    rcases hinv.stopped hstopped with hopen | ⟨handler, response, hcall⟩ | hdone
    · exact absurd hclosing hopen
    · rw [hscript] at hcall
      contradiction
    · exact hdone

theorem WsSession.failed_of_silent {ec : ErrorCode}
    (hsilent : WsSession.silent ec = true) : ec.failed = true := by
  rw [WsSession.silent, Bool.or_eq_true, beq_iff_eq, beq_iff_eq] at hsilent
  rcases hsilent with rfl | rfl
  · rfl
  · rfl

theorem WsSession.onRead_of_silent (boost : Boost) (session : WsSession)
    {ec : ErrorCode} (hsilent : WsSession.silent ec = true) :
    session.onRead boost ec = [] := by
  simp [WsSession.onRead, hsilent]

theorem WsSession.onRead_of_parse {boost : Boost} {session : WsSession}
    {ec : ErrorCode} {jsonValue : Json} (hok : ec.failed = false)
    (hparse : boost.parse session.buffer = .ok jsonValue) :
    session.onRead boost ec =
      [.post session.callback (.ofJson jsonValue), .clearBuffer,
        .start .read] := by
  have hsilent : WsSession.silent ec = false := by
    by_contra hsilent
    rw [Bool.not_eq_false] at hsilent
    rw [WsSession.failed_of_silent hsilent] at hok
    contradiction
  simp [WsSession.onRead, hsilent, hok, hparse]

/-- What a read of an established session leaves to do. -/
inductive WsRun.ReadScript (s : WsRun) : List WsEffect → Prop where
  | silent : ReadScript s []
  | message (callback : Callback) (jsonValue : Json)
      (closed : .closed ∉ s.log) :
      ReadScript s
        [.post callback (.ofJson jsonValue), .clearBuffer, .start .read]

theorem WsRun.StopInvariant.buffer_eq_nil {s : WsRun} {op : WsOp}
    (hinv : s.StopInvariant) (hpending : s.pending = some op)
    (hscript : .clearBuffer ∉ s.script) :
    op = .read ∧ s.session.buffer = [] := by
  obtain ⟨hread, hcleared⟩ := hinv.reading op (.inl hpending)
  exact ⟨hread, hcleared.resolve_left hscript⟩

theorem WsRun.StopInvariant.readScript {boost : Boost} {s : WsRun}
    {op : WsOp} {completion : WsCompletion} {session : WsSession}
    {effects : List WsEffect} (hinv : s.StopInvariant)
    (hscenario : s.StopScenario boost (.complete completion))
    (hquiet : s.QuietClose (.complete completion))
    (hscript : s.script = []) (hpending : s.pending = some op)
    (hhandled : s.session.onCompletion boost op completion =
      some (session, effects)) : s.ReadScript effects := by
  obtain ⟨rfl, hempty⟩ := hinv.buffer_eq_nil hpending (by simp [hscript])
  cases completion with
  | read ec data =>
      simp only [WsSession.onCompletion, Option.some.injEq,
        Prod.mk.injEq] at hhandled
      obtain ⟨_, rfl⟩ := hhandled
      have hcondition := hquiet.2
      simp only [WsRun.StopScenario] at hscenario
      cases hfailed : ec.failed with
      | true =>
          simp only [hfailed, if_true] at hcondition
          rw [WsSession.onRead_of_silent boost _ hcondition]
          exact .silent
      | false =>
          simp only [hfailed, Bool.false_eq_true, if_false] at hcondition hscenario
          obtain ⟨jsonValue, hparse⟩ := hscenario
          rw [hempty, List.nil_append, WsSession.onRead_of_parse hfailed hparse]
          exact .message _ _ hcondition
  | resolve ec => simp [WsSession.onCompletion] at hhandled
  | connect ec port sni => simp [WsSession.onCompletion] at hhandled
  | sslHandshake ec => simp [WsSession.onCompletion] at hhandled
  | handshake ec => simp [WsSession.onCompletion] at hhandled

theorem WsRun.StopInvariant.completes {s : WsRun} {effects : List WsEffect}
    (hinv : s.StopInvariant) (hscript : s.script = [])
    (heffects : s.ReadScript effects) (session : WsSession) :
    { s with
      session := session
      pending := none
      script := effects
      completions := s.completions + 1 : WsRun }.StopInvariant where
  contract := hinv.contract
  reading := by
    intro op hop
    cases heffects with
    | silent => simp at hop
    | message callback jsonValue closed =>
        have hread : op = .read := by simpa using hop
        exact ⟨hread, .inl (by simp)⟩
  posts := by
    intro handler response hpost
    cases heffects with
    | silent => simp at hpost
    | message callback jsonValue closed =>
        obtain ⟨_, rfl⟩ : handler = callback ∧ response = .ofJson jsonValue := by
          simpa using hpost
        refine ⟨rfl, ?_⟩
        intro hdisconnected
        exact closed (hinv.silent hdisconnected).2
  calls := by
    intro handler response hcall
    cases heffects with
    | silent => simp at hcall
    | message callback jsonValue closed => simp at hcall
  queued := hinv.queued
  accounted := hinv.accounted
  silent := hinv.silent
  unstopped := hinv.unstopped
  stopped := by
    intro hstopped
    rcases hinv.stopped hstopped with hopen | ⟨handler, response, hcall⟩ | hdone
    · exact .inl hopen
    · rw [hscript] at hcall
      contradiction
    · exact .inr (.inr hdone)
  closing_length := hinv.closing_length
  closed := hinv.closed

theorem WsRun.StopInvariant.call {s : WsRun} {handler : Callback}
    {response : WsResponse} {rest : List WsEffect} (hinv : s.StopInvariant)
    (hscript : s.script = .call handler response :: rest)
    (hioCall : s.ioCall = none) (hidle : s.queue = [] ∧ s.worker = none) :
    (s.perform rest (.call handler response)).StopInvariant := by
  obtain ⟨hqueue, hworker⟩ := hidle
  obtain ⟨hstate, hclosed, hbefore, halone⟩ :=
    hinv.calls handler response (by simp [hscript])
  obtain rfl : rest = [] := by simpa [hscript] using halone
  constructor
  case contract =>
    apply hinv.contract.begins hbefore
    · simp [hstate]
    · intro _ earlier hearlier
      rcases hinv.accounted earlier hearlier with hended | hio | hpool
      · exact hended
      · rw [hioCall] at hio
        contradiction
      · rw [hworker] at hpool
        contradiction
  case reading =>
    intro op hop
    rcases hop with hpending | hstart
    · obtain ⟨hread, hempty⟩ :=
        hinv.buffer_eq_nil hpending (by simp [hscript])
      exact ⟨hread, .inr hempty⟩
    · contradiction
  case posts =>
    intro handler' response' hpost
    contradiction
  case calls =>
    intro handler' response' hcall
    contradiction
  case queued => exact hinv.queued
  case accounted =>
    intro invocation hbegins
    rcases List.mem_append.mp hbegins with hold | hnew
    · rcases hinv.accounted invocation hold with hended | hio | hpool
      · exact .inl (List.mem_append_left _ hended)
      · rw [hioCall] at hio
        contradiction
      · exact .inr (.inr hpool)
    · obtain rfl : invocation = ⟨s.completions, handler, response⟩ := by
        simpa using hnew
      exact .inr (.inl rfl)
  case silent =>
    intro _
    exact ⟨hqueue, List.mem_append_left _ hclosed⟩
  case unstopped =>
    intro hunstopped
    have hbefore' : WsLog.stopped ∉ s.log := by
      intro hmem
      exact hunstopped (List.mem_append_left _ hmem)
    exact absurd hclosed (hinv.unstopped hbefore').2
  case stopped =>
    intro _
    exact .inr (.inr ⟨⟨s.completions, handler, response⟩, by simp [perform], hstate⟩)
  case closing_length => exact hinv.closing_length
  case closed =>
    intro _
    exact hinv.closed hclosed

theorem WsRun.StopInvariant.drop {s : WsRun} {effect : WsEffect}
    {rest : List WsEffect} {session : WsSession} (hinv : s.StopInvariant)
    (hscript : s.script = effect :: rest)
    (hquiet : ∀ handler response, effect ≠ .call handler response)
    (hbuffer : .clearBuffer ∈ s.script ∨ s.session.buffer = [] →
      .clearBuffer ∈ rest ∨ session.buffer = []) :
    { s with session := session, script := rest : WsRun }.StopInvariant := by
  have hrest : ∀ other ∈ rest, other ∈ s.script := by
    intro other hmem
    rw [hscript]
    exact List.mem_cons_of_mem effect hmem
  have hnone : ∀ handler response, .call handler response ∉ s.script := by
    intro handler response hcall
    obtain ⟨_, _, _, halone⟩ := hinv.calls handler response hcall
    rw [hscript] at halone
    exact hquiet handler response (List.cons.inj halone).1
  constructor
  case contract => exact hinv.contract
  case reading =>
    intro op hop
    obtain ⟨hread, hcleared⟩ := hinv.reading op (hop.imp_right (hrest _))
    exact ⟨hread, hbuffer hcleared⟩
  case posts =>
    intro handler response hpost
    exact hinv.posts handler response (hrest _ hpost)
  case calls =>
    intro handler response hcall
    exact absurd (hrest _ hcall) (hnone handler response)
  case queued => exact hinv.queued
  case accounted => exact hinv.accounted
  case silent => exact hinv.silent
  case unstopped => exact hinv.unstopped
  case stopped =>
    intro hstopped
    rcases hinv.stopped hstopped with hopen | ⟨handler, response, hcall⟩ | hdone
    · exact .inl hopen
    · exact absurd hcall (hnone handler response)
    · exact .inr (.inr hdone)
  case closing_length => exact hinv.closing_length
  case closed => exact hinv.closed

theorem WsRun.StopInvariant.perform {s : WsRun} {effect : WsEffect}
    {rest : List WsEffect} (hinv : s.StopInvariant)
    (hscript : s.script = effect :: rest) (hioCall : s.ioCall = none)
    (hidle : ∀ handler response, effect = .call handler response →
      s.queue = [] ∧ s.worker = none) :
    (s.perform rest effect).StopInvariant := by
  cases effect with
  | call handler response =>
      exact hinv.call hscript hioCall (hidle handler response rfl)
  | post handler response =>
      have hdrop : { s with script := rest : WsRun }.StopInvariant :=
        hinv.drop hscript nofun (by simp [hscript])
      obtain ⟨hstate, hbefore⟩ := hinv.posts handler response (by simp [hscript])
      refine { hdrop with queued := ?_, silent := ?_ }
      · intro invocation hmem
        rcases List.mem_append.mp hmem with hold | hnew
        · exact hinv.queued invocation hold
        · rw [List.mem_singleton.mp hnew]
          exact hstate
      · intro hdisconnected
        exact absurd hdisconnected hbefore
  | start op =>
      have hdrop : { s with script := rest : WsRun }.StopInvariant :=
        hinv.drop hscript nofun (by simp [hscript])
      obtain ⟨hread, hbuffer⟩ := hinv.reading op (.inr (by simp [hscript]))
      refine { hdrop with reading := ?_ }
      intro other hother
      rcases hother with hpending | hstart
      · have hsame : other = .read := by
          rw [← Option.some.inj hpending, hread]
        have hcleared : .clearBuffer ∈ rest ∨ s.session.buffer = [] := by
          simpa [hscript] using hbuffer
        exact ⟨hsame, hcleared⟩
      · exact hdrop.reading other (.inr hstart)
  | clearBuffer => exact hinv.drop hscript nofun (fun _ => .inr rfl)

theorem WsRun.StopInvariant.ends {s : WsRun} {invocation : Invocation}
    {ioCall worker : Option Invocation} (hinv : s.StopInvariant)
    (hkept : ∀ other, s.ioCall = some other ∨ s.worker = some other →
      other = invocation ∨ ioCall = some other ∨ worker = some other) :
    { s with
      ioCall := ioCall
      worker := worker
      log := s.log ++ [.ends invocation] : WsRun }.StopInvariant := by
  have hdisconnected : Disconnected (s.log ++ [.ends invocation]) ↔
      Disconnected s.log := disconnected_append_iff nofun
  constructor
  case contract => exact hinv.contract.quiet nofun
  case reading => exact hinv.reading
  case posts => simpa only [hdisconnected] using hinv.posts
  case calls => simpa [hdisconnected] using hinv.calls
  case queued => exact hinv.queued
  case accounted =>
    intro other hbegins
    have hold : .begins other ∈ s.log := by simpa using hbegins
    rcases hinv.accounted other hold with hended | hbusy
    · exact .inl (List.mem_append_left _ hended)
    · rcases hkept other hbusy with rfl | hstill
      · exact .inl (by simp)
      · exact .inr hstill
  case silent => simpa [hdisconnected] using hinv.silent
  case unstopped => simpa using hinv.unstopped
  case stopped => simpa [hdisconnected] using hinv.stopped
  case closing_length => exact hinv.closing_length
  case closed => simpa using hinv.closed

theorem WsRun.StopInvariant.workerStarts {s : WsRun} {invocation : Invocation}
    {rest : List Invocation} (hinv : s.StopInvariant)
    (hworker : s.worker = none) (hqueue : s.queue = invocation :: rest) :
    { s with
      worker := some invocation
      queue := rest
      log := s.log ++ [.begins invocation] : WsRun }.StopInvariant := by
  have hstate := hinv.queued invocation (by simp [hqueue])
  have hbefore : ¬ Disconnected s.log := by
    intro hdisconnected
    rw [(hinv.silent hdisconnected).1] at hqueue
    contradiction
  have hafter : ¬ Disconnected (s.log ++ [.begins invocation]) := by
    apply not_disconnected_append hbefore
    intro other hother
    cases hother
    simp [hstate]
  constructor
  case contract =>
    apply hinv.contract.begins hbefore
    · simp [hstate]
    · simp [hstate]
  case reading => exact hinv.reading
  case posts =>
    intro handler response hpost
    exact ⟨(hinv.posts handler response hpost).1, hafter⟩
  case calls =>
    intro handler response hcall
    obtain ⟨hdisconnect, hclosed, _, halone⟩ := hinv.calls handler response hcall
    exact ⟨hdisconnect, List.mem_append_left _ hclosed, hafter, halone⟩
  case queued =>
    intro other hmem
    exact hinv.queued other (by simp [hqueue, hmem])
  case accounted =>
    intro other hbegins
    rcases List.mem_append.mp hbegins with hold | hnew
    · rcases hinv.accounted other hold with hended | hio | hpool
      · exact .inl (List.mem_append_left _ hended)
      · exact .inr (.inl hio)
      · rw [hworker] at hpool
        contradiction
    · obtain rfl : other = invocation := by simpa using hnew
      exact .inr (.inr rfl)
  case silent =>
    intro hdisconnected
    exact absurd hdisconnected hafter
  case unstopped => simpa using hinv.unstopped
  case stopped =>
    intro hstopped
    rcases hinv.stopped (by simpa using hstopped) with hopen | hcall | hdone
    · exact .inl hopen
    · exact .inr (.inl hcall)
    · exact absurd hdone hbefore
  case closing_length => exact hinv.closing_length
  case closed => simpa using hinv.closed

theorem WsRun.StopInvariant.stopWebSocket {s : WsRun} (hinv : s.StopInvariant)
    (hfirst : .stopped ∉ s.log) (handler : Callback) :
    { s with
      closing := s.closing ++ [handler]
      log := s.log ++ [.stopped] : WsRun }.StopInvariant := by
  obtain ⟨hclosing, hclosed⟩ := hinv.unstopped hfirst
  have hdisconnected : Disconnected (s.log ++ [.stopped]) ↔
      Disconnected s.log := disconnected_append_iff nofun
  constructor
  case contract => exact hinv.contract.quiet nofun
  case reading => exact hinv.reading
  case posts => simpa only [hdisconnected] using hinv.posts
  case calls => simpa [hdisconnected] using hinv.calls
  case queued => exact hinv.queued
  case accounted => simpa using hinv.accounted
  case silent => simpa [hdisconnected] using hinv.silent
  case unstopped => simp
  case stopped =>
    intro _
    exact .inl (by simp)
  case closing_length => simp [hclosing]
  case closed =>
    intro hmem
    exact absurd (by simpa using hmem) hclosed

theorem WsRun.StopInvariant.closes {s : WsRun} {index : ℕ}
    {handler : Callback} (hinv : s.StopInvariant) (hscript : s.script = [])
    (hclosing : s.closing[index]? = some handler) :
    { s with
      script := s.session.onClose handler
      closing := s.closing.eraseIdx index
      completions := s.completions + 1
      log := s.log ++ [.closed] : WsRun }.StopInvariant := by
  have hindex : index < s.closing.length :=
    (List.getElem?_eq_some_iff.mp hclosing).1
  have hrest : s.closing.eraseIdx index = [] := by
    have hlength := hinv.closing_length
    apply List.eq_nil_of_length_eq_zero
    rw [List.length_eraseIdx_of_lt hindex]
    omega
  have hopen : WsLog.closed ∉ s.log := by
    intro hclosed
    rw [hinv.closed hclosed] at hclosing
    contradiction
  have hbefore : ¬ Disconnected s.log := by
    intro hdisconnected
    exact hopen (hinv.silent hdisconnected).2
  have hafter : ¬ Disconnected (s.log ++ [.closed]) :=
    not_disconnected_append hbefore nofun
  constructor
  case contract => exact hinv.contract.quiet nofun
  case reading =>
    intro op hop
    rcases hop with hpending | hstart
    · obtain ⟨hread, hempty⟩ :=
        hinv.buffer_eq_nil hpending (by simp [hscript])
      exact ⟨hread, .inr hempty⟩
    · simp [WsSession.onClose] at hstart
  case posts =>
    intro other response hpost
    simp [WsSession.onClose] at hpost
  case calls =>
    intro other response hcall
    obtain ⟨rfl, rfl⟩ : other = _ ∧ response = .ofState .disconnect := by
      simpa [WsSession.onClose] using hcall
    exact ⟨rfl, by simp, hafter, rfl⟩
  case queued => exact hinv.queued
  case accounted => simpa using hinv.accounted
  case silent =>
    intro hdisconnected
    exact absurd hdisconnected hafter
  case unstopped =>
    intro hunstopped
    have hnone := (hinv.unstopped (by simpa using hunstopped)).1
    rw [hnone] at hclosing
    contradiction
  case stopped =>
    intro _
    exact .inr (.inl ⟨_, _, List.mem_singleton_self _⟩)
  case closing_length => simp [hrest]
  case closed =>
    intro _
    exact hrest

theorem WsRun.StopInvariant.step {boost : Boost} {s next : WsRun}
    {event : WsEvent} (hinv : s.StopInvariant)
    (hscenario : s.StopScenario boost event) (hquiet : s.QuietClose event)
    (hstep : s.step boost event = some next) : next.StopInvariant := by
  cases WsRun.moves hstep with
  | completes script ioCall pending handled =>
      exact hinv.completes script
        (hinv.readScript hscenario hquiet script pending handled) _
  | performs script ioCall =>
      apply hinv.perform script ioCall
      intro handler response heffect
      subst heffect
      exact hquiet.1 rfl handler response _ script
  | ioReturns ioCall =>
      apply hinv.ends
      intro other hbusy
      rcases hbusy with hio | hpool
      · exact .inl (Option.some.inj (hio.symm.trans ioCall))
      · exact .inr (.inr hpool)
  | workerStarts worker queue => exact hinv.workerStarts worker queue
  | workerReturns worker =>
      apply hinv.ends
      intro other hbusy
      rcases hbusy with hio | hpool
      · exact .inr (.inl hio)
      · exact .inl (Option.some.inj (hpool.symm.trans worker))
  | stops => exact hinv.stopWebSocket hscenario _
  | closes script ioCall closing => exact hinv.closes script closing

/-! ## What `stopWebSocket` promises -/

theorem WsRun.established_stops (boost : Boost) (session : WsSession)
    (completions : ℕ) (events : List WsEvent)
    (hscenario : Meets (WsRun.step boost) (WsRun.StopScenario boost)
      (WsRun.established session completions) events)
    (hquiet : Meets (WsRun.step boost) WsRun.QuietClose
      (WsRun.established session completions) events) :
    Throughout (WsRun.step boost) WsRun.Stops
      (WsRun.established session completions) events :=
  throughout_of_invariant
    (fun _ _ _ hinv hallowed hstep =>
      hinv.step hallowed.1 hallowed.2 hstep)
    (fun _ hinv => hinv.stops)
    (WsRun.established_stopInvariant session completions)
    (hscenario.and hquiet)

/-- The message read before the stop has been handled when the close
completes, and the pending read is aborted. -/
theorem aborted_read_stops :
    Throughout (WsRun.step sampleBoost) WsRun.Stops
      (WsRun.established bookTickerSession 4)
      [.arrives "[]", .io, .io, .io, .stopWebSocket none,
        .complete (.read .operationAborted []), .workerStarts, .workerReturns,
        .closeCompletes 0, .io] := by
  apply WsRun.established_stops
  · refine meets_cons_of_step ⟨.array [], rfl⟩ rfl ?_
    refine meets_cons_of_step trivial rfl ?_
    refine meets_cons_of_step trivial rfl ?_
    refine meets_cons_of_step trivial rfl ?_
    refine meets_cons_of_step List.not_mem_nil rfl ?_
    refine meets_cons_of_step (List.mem_singleton_self _) rfl ?_
    refine meets_cons_of_step trivial rfl ?_
    refine meets_cons_of_step trivial rfl ?_
    refine meets_cons_of_step trivial rfl ?_
    exact meets_cons_of_step trivial rfl meets_nil
  · refine meets_cons_of_step ⟨.of_ne nofun, List.not_mem_nil⟩ rfl ?_
    refine meets_cons_of_step ⟨.of_idle rfl rfl, trivial⟩ rfl ?_
    refine meets_cons_of_step ⟨fun _ _ _ _ => nofun, trivial⟩ rfl ?_
    refine meets_cons_of_step ⟨fun _ _ _ _ => nofun, trivial⟩ rfl ?_
    refine meets_cons_of_step ⟨.of_ne nofun, trivial⟩ rfl ?_
    refine meets_cons_of_step ⟨.of_ne nofun, rfl⟩ rfl ?_
    refine meets_cons_of_step ⟨.of_ne nofun, trivial⟩ rfl ?_
    refine meets_cons_of_step ⟨.of_ne nofun, trivial⟩ rfl ?_
    refine meets_cons_of_step ⟨.of_ne nofun, trivial⟩ rfl ?_
    exact meets_cons_of_step ⟨.of_idle rfl rfl, trivial⟩ rfl meets_nil

/-- The pending read ends with the code of a closed stream; the Disconnect
call is made while a message waits in the pool. -/
theorem stop_reports_failure_or_data :
    (Meets (WsRun.step sampleBoost) (WsRun.StopScenario sampleBoost)
        (WsRun.established bookTickerSession 4)
        [.stopWebSocket none, .complete (.read .websocketClosed []), .io] ∧
      ¬ Throughout (WsRun.step sampleBoost) WsRun.Stops
        (WsRun.established bookTickerSession 4)
        [.stopWebSocket none, .complete (.read .websocketClosed []), .io]) ∧
    Meets (WsRun.step sampleBoost) (WsRun.StopScenario sampleBoost)
        (WsRun.established bookTickerSession 4)
        [.arrives "[]", .io, .io, .io, .stopWebSocket none,
          .closeCompletes 0, .io, .ioReturns, .workerStarts] ∧
      ¬ Throughout (WsRun.step sampleBoost) WsRun.Stops
        (WsRun.established bookTickerSession 4)
        [.arrives "[]", .io, .io, .io, .stopWebSocket none,
          .closeCompletes 0, .io, .ioReturns, .workerStarts] := by
  refine ⟨⟨?_, ?_⟩, ?_, ?_⟩
  · refine meets_cons_of_step List.not_mem_nil rfl ?_
    refine meets_cons_of_step (List.mem_singleton_self _) rfl ?_
    exact meets_cons_of_step trivial rfl meets_nil
  · intro hall
    have hstops := hall _ [] _ (List.append_nil _).symm rfl
    exact hstops.contract.no_fail [.stopped] _ [] rfl
      (List.mem_singleton_self _) rfl
  · refine meets_cons_of_step ⟨.array [], rfl⟩ rfl ?_
    refine meets_cons_of_step trivial rfl ?_
    refine meets_cons_of_step trivial rfl ?_
    refine meets_cons_of_step trivial rfl ?_
    refine meets_cons_of_step List.not_mem_nil rfl ?_
    refine meets_cons_of_step trivial rfl ?_
    refine meets_cons_of_step trivial rfl ?_
    refine meets_cons_of_step trivial rfl ?_
    exact meets_cons_of_step trivial rfl meets_nil
  · intro hall
    have hstops := hall _ [] _ (List.append_nil _).symm rfl
    obtain ⟨_, hlater⟩ := hstops.contract.disconnect_last [.stopped, .closed]
      _ [.ends _, .begins _] rfl rfl
    exact hlater _ (List.mem_cons_of_mem _ (List.mem_singleton_self _))

end Bblib
