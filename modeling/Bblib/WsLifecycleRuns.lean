import Bblib.WsLifecycle
import Mathlib.Tactic

/-!
# Runs of starts, stops and completions

With fewer starts than the counter has values, the registry is a function of
what happened: its keys are the ids that were issued and not closed, each with
the session of its own start.  Every stop that found its id is told once, when
its close completes.
-/

namespace Bblib

open LabelledRuns

/-! ## The trace -/

/-- A token that was returned, the handler given for it, and the session made
for it. -/
structure IssuedToken where
  id : TokenId
  handler : Callback
  session : ℕ

/-- `found` holds the handler each successful stop has to tell, `told` the
stops that were told, in the order in which their closes completed. -/
structure LifeTrace where
  life : WsLife
  issued : List IssuedToken
  closed : List TokenId
  found : List Callback
  told : List ℕ

namespace LifeTrace

def handlerOf (issued : List IssuedToken) (id : TokenId) : Callback :=
  (issued.find? fun token => token.id == id).bind IssuedToken.handler

/-- Whom a stop tells: its own handler, or else the one of the session. -/
def expected (issued : List IssuedToken) (token : WsToken)
    (handler : Callback) : Callback :=
  if handler.isSome then handler else handlerOf issued token.id

/-- The token a start returns, with what it was made from. -/
def issues (t : LifeTrace) (handler : Callback) (call : StartCall) :
    List IssuedToken :=
  match ((call.run handler).outcome t.life.api).1 with
  | .ok token => [⟨token.id, handler, t.life.api.sessions.length⟩]
  | .error _ => []

/-- What an event adds to the trace, given the state it leads to. -/
def record (t : LifeTrace) (next : WsLife) : LifeEvent → LifeTrace
  | .start handler call =>
      { t with life := next, issued := t.issued ++ t.issues handler call }
  | .stop token handler =>
      { t with
        life := next
        found := t.found ++
          if (t.life.wsSessions token.id).isSome then
            [expected t.issued token handler]
          else [] }
  | .closeCompletes index =>
      let close := (t.life.closing[index]?).toList
      { t with
        life := next
        closed := t.closed ++ close.map fun close => close.token.id
        told := t.told ++ close.map PendingClose.stop }

def step (t : LifeTrace) (event : LifeEvent) : Option LifeTrace :=
  (t.life.step event).map fun next => t.record next event

def fresh (config : ConnectionConfig) (nRestIoContexts nWebsockIoContexts : ℕ) :
    LifeTrace where
  life := .fresh config nRestIoContexts nWebsockIoContexts
  issued := []
  closed := []
  found := []
  told := []

/-! ## The invariant -/

structure Invariant (t : LifeTrace) : Prop where
  nextId : t.life.api.beast.nextWsId.toNat = t.issued.length + 1
  ids : ∀ token ∈ t.issued, token.id.toNat ≤ t.issued.length
  ids_nodup : (t.issued.map IssuedToken.id).Nodup
  sessions : ∀ token ∈ t.issued, token.handler.isSome ∧
    ∃ started, t.life.api.sessions[token.session]? = some started ∧
      started.session.callback = token.handler
  entries : ∀ token ∈ t.issued, token.id ∉ t.closed →
    t.life.wsSessions token.id = some (some token.session)
  keys : ∀ id, t.life.wsSessions id ≠ none →
    (∃ token ∈ t.issued, token.id = id) ∧ id ∉ t.closed
  closed : ∀ id ∈ t.closed, ∃ token ∈ t.issued, token.id = id
  closing : ∀ close ∈ t.life.closing,
    (∃ token ∈ t.issued, token.id = close.token.id ∧
      close.session = some token.session) ∧
    t.found[close.stop]? = some (expected t.issued close.token close.handler)
  stops : t.life.stops = t.found.length
  told : (t.told ++ t.life.closing.map PendingClose.stop).Perm
    (List.range t.found.length)
  calls : List.Forall₂
    (fun stop call => t.found[stop]? = some (some call.1) ∧
      call.2 = WsResponse.ofState .disconnect) t.told t.life.api.calls

theorem fresh_invariant (config : ConnectionConfig)
    (nRestIoContexts nWebsockIoContexts : ℕ) :
    (fresh config nRestIoContexts nWebsockIoContexts).Invariant where
  nextId := rfl
  ids := by simp [fresh]
  ids_nodup := by simp [fresh]
  sessions := by simp [fresh]
  entries := by simp [fresh]
  keys := by
    intro id hkey
    exact absurd rfl hkey
  closed := by simp [fresh]
  closing := by simp [fresh, WsLife.fresh]
  stops := rfl
  told := .refl _
  calls := .nil

/-! ## Tokens that were issued -/

theorem getElem?_append_of_eq_some {α : Type*} {list : List α} {index : ℕ}
    {a : α} (hfound : list[index]? = some a) (later : List α) :
    (list ++ later)[index]? = some a := by
  have hindex := (List.getElem?_eq_some_iff.mp hfound).1
  rw [List.getElem?_append_left hindex, hfound]

theorem handlerOf_of_mem {issued : List IssuedToken}
    (hnodup : (issued.map IssuedToken.id).Nodup) {token : IssuedToken}
    (hmem : token ∈ issued) : handlerOf issued token.id = token.handler := by
  induction issued with
  | nil => contradiction
  | cons first issued ih =>
      rw [List.map_cons, List.nodup_cons] at hnodup
      rcases List.mem_cons.mp hmem with rfl | htail
      · simp [handlerOf]
      · have hne : first.id ≠ token.id := by
          intro heq
          apply hnodup.1
          rw [heq]
          exact List.mem_map_of_mem htail
        have hrest := ih hnodup.2 htail
        unfold handlerOf at hrest ⊢
        rw [List.find?_cons_of_neg (by simpa using hne)]
        exact hrest

theorem expected_append {issued : List IssuedToken}
    (later : List IssuedToken) {token : WsToken} (handler : Callback)
    (hissued : ∃ earlier ∈ issued, earlier.id = token.id) :
    expected (issued ++ later) token handler =
      expected issued token handler := by
  obtain ⟨earlier, hmem, hid⟩ := hissued
  have hsome : (issued.find? fun other => other.id == token.id).isSome := by
    rw [List.find?_isSome]
    exact ⟨earlier, hmem, by simpa using hid⟩
  obtain ⟨first, hfirst⟩ := Option.isSome_iff_exists.mp hsome
  unfold expected handlerOf
  rw [List.find?_append, hfirst]
  rfl

theorem Invariant.entry {t : LifeTrace} (hinv : t.Invariant) {id : TokenId}
    {pointer : ℕ} (hentry : t.life.wsSessions id = some (some pointer)) :
    ∃ token ∈ t.issued, token.id = id ∧ pointer = token.session := by
  have hkey : t.life.wsSessions id ≠ none := by simp [hentry]
  obtain ⟨⟨token, hmem, hid⟩, hopen⟩ := hinv.keys id hkey
  rw [← hid] at hopen hentry
  have hown := hinv.entries token hmem hopen
  rw [hentry] at hown
  exact ⟨token, hmem, hid, by simpa using hown⟩

/-- The handler a completed close calls is the one its stop was recorded
with. -/
theorem Invariant.callback {t : LifeTrace} (hinv : t.Invariant)
    {close : PendingClose} (hclose : close ∈ t.life.closing) :
    ∃ f, (if close.handler.isSome then some close.handler
        else t.life.sessionHandler close.session) = some (some f) ∧
      expected t.issued close.token close.handler = some f := by
  obtain ⟨⟨token, hmem, hid, hsession⟩, _⟩ := hinv.closing close hclose
  unfold expected
  cases hhandler : close.handler with
  | some f => exact ⟨f, rfl, rfl⟩
  | none =>
      obtain ⟨hsome, started, hstarted, hcallback⟩ := hinv.sessions token hmem
      obtain ⟨f, hf⟩ := Option.isSome_iff_exists.mp hsome
      have hown : handlerOf t.issued close.token.id = some f := by
        rw [← hid, handlerOf_of_mem hinv.ids_nodup hmem, hf]
      refine ⟨f, ?_, by simpa using hown⟩
      simp [WsLife.sessionHandler, hsession, hstarted, hcallback, hf]

/-! ## One step -/

/-- A start issues the next id, which no token has had. -/
theorem Invariant.start {t : LifeTrace} {f ioContext : ℕ}
    {started : StartedWsSession} (hinv : t.Invariant)
    (hroom : t.issued.length + 2 < 2 ^ 32)
    (hcallback : started.session.callback = some f) :
    Invariant { t with
      life := { t.life with
        api := { t.life.api with
          beast := { t.life.api.beast with
            nextWsIoContext := ioContext
            nextWsId := t.life.api.beast.nextWsId + 1
            wsSessions := t.life.wsSessions.assign t.life.api.beast.nextWsId
              t.life.api.sessions.length }
          sessions := t.life.api.sessions ++ [started] } }
      issued := t.issued ++
        [⟨t.life.api.beast.nextWsId, some f, t.life.api.sessions.length⟩] } := by
  have hnext := hinv.nextId
  have hfresh : ∀ token ∈ t.issued, token.id ≠ t.life.api.beast.nextWsId := by
    intro token hmem heq
    have hbelow := hinv.ids token hmem
    rw [heq] at hbelow
    omega
  have hunclosed : t.life.api.beast.nextWsId ∉ t.closed := by
    intro hclosed
    obtain ⟨token, hmem, hid⟩ := hinv.closed _ hclosed
    exact hfresh token hmem hid
  exact {
    nextId := by
      rw [List.length_append, List.length_singleton, UInt32.toNat_add, hnext]
      exact Nat.mod_eq_of_lt hroom
    ids := by
      intro token hmem
      rw [List.length_append, List.length_singleton]
      rcases List.mem_append.mp hmem with hold | hnew
      · have hbelow := hinv.ids token hold
        omega
      · rw [List.mem_singleton.mp hnew]
        exact hnext.le
    ids_nodup := by
      rw [List.map_append, List.nodup_append]
      refine ⟨hinv.ids_nodup, by simp, ?_⟩
      intro id hid other hother heq
      obtain ⟨token, hmem, rfl⟩ := List.mem_map.mp hid
      have hnew : other = t.life.api.beast.nextWsId := by simpa using hother
      exact hfresh token hmem (heq.trans hnew)
    sessions := by
      intro token hmem
      rcases List.mem_append.mp hmem with hold | hnew
      · obtain ⟨hsome, earlier, hearlier, hearlierCallback⟩ :=
          hinv.sessions token hold
        refine ⟨hsome, earlier, ?_, hearlierCallback⟩
        exact getElem?_append_of_eq_some hearlier _
      · rw [List.mem_singleton.mp hnew]
        refine ⟨rfl, started, ?_, hcallback⟩
        exact List.getElem?_concat_length
    entries := by
      intro token hmem hopen
      rcases List.mem_append.mp hmem with hold | hnew
      · have hentry := hinv.entries token hold hopen
        have hkept := t.life.wsSessions.assign_of_ne (hfresh token hold)
          t.life.api.sessions.length
        exact hkept.trans hentry
      · rw [List.mem_singleton.mp hnew]
        exact SessionMap.assign_self _ _ _
    keys := by
      intro id hkey
      by_cases hid : id = t.life.api.beast.nextWsId
      · rw [hid]
        exact ⟨⟨_, List.mem_append_right _ (List.mem_singleton_self _), rfl⟩,
          hunclosed⟩
      · have hkept := t.life.wsSessions.assign_of_ne hid
          t.life.api.sessions.length
        have hold : t.life.wsSessions id ≠ none := by
          rw [← hkept]
          exact hkey
        obtain ⟨⟨token, hmem, htoken⟩, hopen⟩ := hinv.keys id hold
        exact ⟨⟨token, List.mem_append_left _ hmem, htoken⟩, hopen⟩
    closed := by
      intro id hclosed
      obtain ⟨token, hmem, htoken⟩ := hinv.closed id hclosed
      exact ⟨token, List.mem_append_left _ hmem, htoken⟩
    closing := by
      intro close hclose
      obtain ⟨⟨token, hmem, htoken, hsession⟩, hfound⟩ :=
        hinv.closing close hclose
      refine ⟨⟨token, List.mem_append_left _ hmem, htoken, hsession⟩, ?_⟩
      rw [expected_append _ _ ⟨token, hmem, htoken⟩]
      exact hfound
    stops := hinv.stops
    told := hinv.told
    calls := hinv.calls }

theorem Invariant.stop {t : LifeTrace} {token : WsToken} {pointer : ℕ}
    (hinv : t.Invariant) (handler : Callback)
    (hentry : t.life.wsSessions token.id = some (some pointer)) :
    Invariant { t with
      life := { t.life with
        closing := t.life.closing ++
          [⟨token, handler, some pointer, t.life.stops⟩]
        stops := t.life.stops + 1 }
      found := t.found ++ [expected t.issued token handler] } := by
  have hkept : ∀ {stop : ℕ} {told : Callback}, t.found[stop]? = some told →
      (t.found ++ [expected t.issued token handler])[stop]? = some told :=
    fun hfound => getElem?_append_of_eq_some hfound _
  exact {
    nextId := hinv.nextId
    ids := hinv.ids
    ids_nodup := hinv.ids_nodup
    sessions := hinv.sessions
    entries := hinv.entries
    keys := hinv.keys
    closed := hinv.closed
    closing := by
      intro close hclose
      rcases List.mem_append.mp hclose with hold | hnew
      · obtain ⟨hissued, hfound⟩ := hinv.closing close hold
        exact ⟨hissued, hkept hfound⟩
      · obtain ⟨issued, hmem, hid, hpointer⟩ := hinv.entry hentry
        rw [List.mem_singleton.mp hnew]
        refine ⟨⟨issued, hmem, hid, congrArg some hpointer⟩, ?_⟩
        show (t.found ++ [expected t.issued token handler])[t.life.stops]? = _
        rw [hinv.stops]
        exact List.getElem?_concat_length
    stops := by
      rw [List.length_append, List.length_singleton, hinv.stops]
    told := by
      rw [List.map_append, ← List.append_assoc, List.length_append,
        List.length_singleton, List.range_succ, ← hinv.stops]
      have hold := hinv.told
      rw [← hinv.stops] at hold
      exact hold.append_right _
    calls := by
      refine hinv.calls.imp ?_
      rintro stop call ⟨hfound, hresponse⟩
      exact ⟨hkept hfound, hresponse⟩ }

theorem Invariant.close {t : LifeTrace} {index : ℕ} {close : PendingClose}
    {f : ℕ} (hinv : t.Invariant)
    (hpending : t.life.closing[index]? = some close)
    (hexpected : expected t.issued close.token close.handler = some f) :
    Invariant { t with
      life := { t.life with
        api := ((invoke (some f) (.ofState .disconnect)).outcome
          (t.life.withSessions (t.life.wsSessions.erase close.token.id))).2
        closing := t.life.closing.eraseIdx index }
      closed := t.closed ++ [close.token.id]
      told := t.told ++ [close.stop] } := by
  have hclose : close ∈ t.life.closing := List.mem_of_getElem? hpending
  obtain ⟨⟨issued, hissued, hissuedId, _⟩, hfound⟩ := hinv.closing close hclose
  exact {
    nextId := hinv.nextId
    ids := hinv.ids
    ids_nodup := hinv.ids_nodup
    sessions := hinv.sessions
    entries := by
      intro token hmem hopen
      have hne : token.id ≠ close.token.id := by
        intro heq
        apply hopen
        rw [heq]
        exact List.mem_append_right _ (List.mem_singleton_self _)
      have hstill : token.id ∉ t.closed :=
        fun hclosed => hopen (List.mem_append_left _ hclosed)
      have hkept := t.life.wsSessions.erase_of_ne hne
      exact hkept.trans (hinv.entries token hmem hstill)
    keys := by
      intro id hkey
      have hne : id ≠ close.token.id := by
        rintro rfl
        exact hkey (t.life.wsSessions.erase_self _)
      have hkept := t.life.wsSessions.erase_of_ne hne
      have hold : t.life.wsSessions id ≠ none := by
        rw [← hkept]
        exact hkey
      obtain ⟨hid, hopen⟩ := hinv.keys id hold
      refine ⟨hid, ?_⟩
      simp [hopen, hne]
    closed := by
      intro id hclosed
      rcases List.mem_append.mp hclosed with hold | hnew
      · exact hinv.closed id hold
      · rw [List.mem_singleton.mp hnew]
        exact ⟨issued, hissued, hissuedId⟩
    closing := by
      intro other hother
      exact hinv.closing other (List.mem_of_mem_eraseIdx hother)
    stops := hinv.stops
    told := by
      have hindex := (List.getElem?_eq_some_iff.mp hpending).1
      have hget := (List.getElem?_eq_some_iff.mp hpending).2
      have hperm : (close :: t.life.closing.eraseIdx index).Perm
          t.life.closing := by
        rw [← hget]
        exact List.getElem_cons_eraseIdx_perm hindex
      have hstops := hperm.map PendingClose.stop
      rw [List.append_assoc]
      exact (hstops.append_left t.told).trans hinv.told
    calls := by
      refine List.rel_append hinv.calls (.cons ⟨?_, rfl⟩ .nil)
      rw [hfound, hexpected] }

/-! ## Every run -/

theorem step_eq_some {t next : LifeTrace} {event : LifeEvent}
    (hstep : t.step event = some next) :
    ∃ life, t.life.step event = some life ∧ next = t.record life event := by
  obtain ⟨life, hlife, rfl⟩ := Option.map_eq_some_iff.mp hstep
  exact ⟨life, hlife, rfl⟩

theorem issues_some {t : LifeTrace} {f : ℕ} {call : StartCall} {wsid : TokenId}
    (hreturns : ((call.run (some f)).outcome t.life.api).1 = .ok ⟨wsid⟩) :
    t.issues (some f) call =
      [⟨wsid, some f, t.life.api.sessions.length⟩] := by
  unfold issues
  rw [hreturns]

theorem issues_none {t : LifeTrace} {call : StartCall} {e : Exn}
    (hthrows : ((call.run none).outcome t.life.api).1 = .error e) :
    t.issues none call = [] := by
  unfold issues
  rw [hthrows]

theorem Invariant.step {t next : LifeTrace} {event : LifeEvent}
    (hinv : t.Invariant) (hstep : t.step event = some next)
    (hroom : next.issued.length + 1 < 2 ^ 32) : next.Invariant := by
  obtain ⟨life, hlife, rfl⟩ := step_eq_some hstep
  cases WsLife.moves hlife with
  | starts hcallback hreturns =>
      have hissues := issues_some (t := t) hreturns
      simp only [record, hissues] at hroom ⊢
      rw [List.length_append, List.length_singleton] at hroom
      exact hinv.start hroom hcallback
  | throws hthrows =>
      obtain ⟨e, hthrows⟩ := hthrows
      have hissues := issues_none (t := t) hthrows
      simp only [record, hissues, List.append_nil]
      exact hinv
  | misses hmissing =>
      simp only [record, hmissing, Option.isSome_none, Bool.false_eq_true, if_false,
        List.append_nil]
      exact hinv
  | stops hentry =>
      simp only [record, hentry, Option.isSome_some, if_true]
      exact hinv.stop _ hentry
  | @closes index close cb hpending hcallback =>
      have hclose : close ∈ t.life.closing := List.mem_of_getElem? hpending
      obtain ⟨f, hf, hexpected⟩ := hinv.callback hclose
      rw [hf] at hcallback
      obtain rfl := Option.some.inj hcallback
      simp only [record, hpending, Option.toList_some, List.map_singleton]
      exact hinv.close hpending hexpected

theorem step_issued_length {t next : LifeTrace} {event : LifeEvent}
    (hstep : t.step event = some next) :
    next.issued.length = t.issued.length + if event.starts then 1 else 0 := by
  obtain ⟨life, hlife, rfl⟩ := step_eq_some hstep
  cases WsLife.moves hlife with
  | starts _ hreturns =>
      have hissues := issues_some (t := t) hreturns
      simp [record, hissues, LifeEvent.starts]
  | throws hthrows =>
      obtain ⟨e, hthrows⟩ := hthrows
      have hissues := issues_none (t := t) hthrows
      simp [record, hissues, LifeEvent.starts]
  | misses _ => rfl
  | stops _ => rfl
  | closes _ _ => rfl

theorem run_invariant {start t : LifeTrace} {events : List LifeEvent}
    (hinv : start.Invariant)
    (hrun : LabelledRuns.run LifeTrace.step start events = some t)
    (hroom :
      start.issued.length + events.countP LifeEvent.starts + 1 < 2 ^ 32) :
    t.Invariant := by
  induction events generalizing start with
  | nil =>
      obtain rfl : start = t := by simpa using hrun
      exact hinv
  | cons event events ih =>
      obtain ⟨next, hnext, hrest⟩ := run_cons_eq_some.mp hrun
      have hlength := step_issued_length hnext
      rw [List.countP_cons] at hroom
      have hinv' := hinv.step hnext (by omega)
      exact ih hinv' hrest (by omega)

/-! ## What a step leaves alone -/

def eventId (t : LifeTrace) : LifeEvent → Option TokenId
  | .start handler call =>
      match ((call.run handler).outcome t.life.api).1 with
      | .ok token => some token.id
      | .error _ => none
  | .stop token _ => some token.id
  | .closeCompletes index =>
      t.life.closing[index]?.map fun close => close.token.id

structure Frame (t : LifeTrace) (event : LifeEvent) (next : LifeTrace) :
    Prop where
  others : ∀ id, t.eventId event ≠ some id →
    next.life.wsSessions id = t.life.wsSessions id
  missing : ∀ token handler, event = .stop token handler →
    t.life.wsSessions token.id = none → next = t

theorem step_frame {t next : LifeTrace} {event : LifeEvent}
    (hstep : t.step event = some next) : t.Frame event next := by
  obtain ⟨life, hlife, rfl⟩ := step_eq_some hstep
  cases WsLife.moves hlife with
  | starts _ hreturns =>
      refine ⟨?_, nofun⟩
      intro id hid
      have hne : id ≠ t.life.api.beast.nextWsId := by
        rintro rfl
        simp [eventId, hreturns] at hid
      exact t.life.wsSessions.assign_of_ne hne _
  | throws _ => exact ⟨fun _ _ => rfl, nofun⟩
  | @misses token handler hmissing =>
      have hsame : t.record t.life (.stop token handler) = t := by
        simp [record, hmissing]
      rw [hsame]
      exact ⟨fun _ _ => rfl, fun _ _ _ _ => rfl⟩
  | @stops token handler pointer hentry =>
      refine ⟨fun _ _ => rfl, ?_⟩
      rintro other _ hsame hnone
      obtain ⟨rfl, rfl⟩ : token = other ∧ _ := by simpa using hsame
      rw [hentry] at hnone
      contradiction
  | @closes index close cb hpending _ =>
      refine ⟨?_, nofun⟩
      intro id hid
      have hne : id ≠ close.token.id := by
        rintro rfl
        simp [eventId, hpending] at hid
      show BinanceBeast.wsSessions _ id = t.life.wsSessions id
      simp only [record, invoke_beast]
      exact t.life.wsSessions.erase_of_ne hne

/-- Starts and stops are always possible, and so is the completion of a close
under way: no null pointer is followed. -/
theorem Invariant.enabled {t : LifeTrace} (hinv : t.Invariant)
    {event : LifeEvent} (hpending : ∀ index, event = .closeCompletes index →
      index < t.life.closing.length) : ∃ next, t.step event = some next := by
  have hstep : ∀ life, t.life.step event = some life →
      ∃ next, t.step event = some next := by
    intro life hlife
    exact ⟨t.record life event, by simp [LifeTrace.step, hlife]⟩
  cases event with
  | start handler call => exact hstep _ rfl
  | stop token handler =>
      cases hentry : t.life.wsSessions token.id with
      | none => exact hstep _ (WsLife.step_stop_of_none hentry handler)
      | some pointer =>
          have hkey : t.life.wsSessions token.id ≠ none := by simp [hentry]
          obtain ⟨⟨issued, hmem, hid⟩, hopen⟩ := hinv.keys token.id hkey
          rw [← hid] at hopen
          have hown := hinv.entries issued hmem hopen
          rw [hid] at hown
          exact hstep _ (WsLife.step_stop_of_some hown handler)
  | closeCompletes index =>
      have hindex := hpending index rfl
      have hget := List.getElem?_eq_getElem hindex
      obtain ⟨f, hf, _⟩ := hinv.callback (List.getElem_mem hindex)
      exact hstep _ (WsLife.step_closeCompletes hget hf)

/-! ## The registry over a run -/

/-- The registry, the sessions and the Disconnect calls are what the starts,
stops and completions amount to. -/
structure Accounted (t : LifeTrace) : Prop where
  keys : ∀ id, (t.life.wsSessions id).isSome ↔
    (∃ token ∈ t.issued, token.id = id) ∧ id ∉ t.closed
  entries : ∀ token ∈ t.issued, token.id ∉ t.closed →
    t.life.wsSessions token.id = some (some token.session)
  sessions : ∀ token ∈ t.issued,
    ∃ started, t.life.api.sessions[token.session]? = some started ∧
      started.session.callback = token.handler
  ids_nodup : (t.issued.map IssuedToken.id).Nodup
  told_once : (t.told ++ t.life.closing.map PendingClose.stop).Perm
    (List.range t.found.length)
  calls : List.Forall₂
    (fun stop call => t.found[stop]? = some (some call.1) ∧
      call.2 = WsResponse.ofState .disconnect) t.told t.life.api.calls

theorem Invariant.accounted {t : LifeTrace} (hinv : t.Invariant) :
    t.Accounted where
  keys := by
    intro id
    constructor
    · intro hsome
      apply hinv.keys id
      intro hnone
      rw [hnone] at hsome
      contradiction
    · rintro ⟨⟨token, hmem, rfl⟩, hopen⟩
      rw [hinv.entries token hmem hopen]
      rfl
  entries := hinv.entries
  sessions := fun token hmem => (hinv.sessions token hmem).2
  ids_nodup := hinv.ids_nodup
  told_once := hinv.told
  calls := hinv.calls

end LifeTrace

/-- Over every run of a fresh object with fewer than `2 ^ 32 - 1` starts: every
step leaves the other entries alone and a stop of a missing id changes
nothing; the registry holds the ids that were issued and not closed, each with
its own session; every stop that found its id is told once, and no stop and no
completion of a pending close goes through a null session pointer. -/
theorem registry_follows_its_tokens {config : ConnectionConfig}
    {nRestIoContexts nWebsockIoContexts : ℕ} {events : List LifeEvent}
    {t : LifeTrace}
    (hstarts : events.countP LifeEvent.starts < 2 ^ 32 - 1)
    (hrun : run LifeTrace.step
      (LifeTrace.fresh config nRestIoContexts nWebsockIoContexts) events =
        some t) :
    EveryStep LifeTrace.step LifeTrace.Frame
        (LifeTrace.fresh config nRestIoContexts nWebsockIoContexts) events ∧
      t.Accounted ∧
      (t.life.closing = [] → t.told.Perm (List.range t.found.length)) ∧
      ∀ event, (∀ index, event = .closeCompletes index →
        index < t.life.closing.length) → ∃ next, t.step event = some next := by
  have hroom : (LifeTrace.fresh config nRestIoContexts
      nWebsockIoContexts).issued.length +
        events.countP LifeEvent.starts + 1 < 2 ^ 32 := by
    have hnil : (LifeTrace.fresh config nRestIoContexts
        nWebsockIoContexts).issued.length = 0 := rfl
    omega
  have hinv := LifeTrace.run_invariant
    (LifeTrace.fresh_invariant config nRestIoContexts nWebsockIoContexts)
    hrun hroom
  refine ⟨?_, hinv.accounted, ?_, ?_⟩
  · intro before event after m next _ _ hstep
    exact LifeTrace.step_frame hstep
  · intro hclosing
    have htold := hinv.told
    rw [hclosing, List.map_nil, List.append_nil] at htold
    exact htold
  · intro event hpending
    exact hinv.enabled hpending

/-- Two stops of one session, whose closes complete in the other order around
the start of a second session. -/
def twoStops : List LifeEvent :=
  [.start (some 0) (.name (ascii "btcusdt@bookTicker")),
    .stop ⟨1⟩ none, .stop ⟨1⟩ (some 1), .closeCompletes 1,
    .start (some 2) (.vector [ascii "btcusdt@trade", ascii "ethusdt@trade"]),
    .closeCompletes 0, .stop ⟨1⟩ none]

theorem two_stops_are_told_once :
    ∃ t, run LifeTrace.step (LifeTrace.fresh sampleBeast.config 4 6) twoStops =
        some t ∧
      t.told = [1, 0] ∧ t.found = [some 0, some 1] ∧ t.Accounted := by
  have hrun : ∃ t, run LifeTrace.step
      (LifeTrace.fresh sampleBeast.config 4 6) twoStops = some t ∧
        t.told = [1, 0] ∧ t.found = [some 0, some 1] := ⟨_, rfl, rfl, rfl⟩
  obtain ⟨t, hrun, htold, hfound⟩ := hrun
  obtain ⟨_, haccounted, _⟩ := registry_follows_its_tokens (by decide) hrun
  exact ⟨t, hrun, htold, hfound, haccounted⟩

end Bblib
