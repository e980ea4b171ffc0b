import Bblib.ClientSessions
import Mathlib.Tactic

/-!
# The registry of a client

What `m_wsSessions` says about the sessions of a client, while requests,
messages, listen key calls and stops go on around it.  Session by session, an
id is registered from the call that returned it until the first close of the
session has completed, and every stop that found the session is a close that
is under way or has completed.
-/

namespace Bblib

open LabelledRuns HostedRuns

/-! ## The closes of one session -/

theorem WsRun.close_under_way {boost : Boost} {s next : WsRun} {close : ℕ}
    (hstep : s.step boost (.closeCompletes close) = some next) :
    close < s.closing.length := by
  cases WsRun.moves hstep with
  | closes script ioCall closing =>
      exact (List.getElem?_eq_some_iff.mp closing).1

theorem WsEvent.quiet_of_own {event : WsEvent} (hown : event.own = true) :
    event.isStop = 0 ∧ event.isClose = 0 := by
  cases event <;> first | exact ⟨rfl, rfl⟩ | contradiction

/-- Every stop of a session is under way or has completed. -/
def WsRun.Accounted (s : WsRun) : Prop :=
  stops s.log = closes s.log + s.closing.length

theorem WsRun.Accounted.step {boost : Boost} {s next : WsRun}
    {event : WsEvent} (haccounted : s.Accounted)
    (hstep : s.step boost event = some next) : next.Accounted := by
  obtain ⟨hcloses, hstops, hclosing⟩ := WsRun.closings hstep
  unfold WsRun.Accounted at haccounted ⊢
  omega

/-! ## What the registry is to be -/

/-- The entry of an id: the session that was started under it, until one of
its closes has completed. -/
def registered (sessions : List ClientSession) (id : TokenId) :
    Option (SharedPtr ℕ) :=
  if id.toNat = 0 then none
  else (sessions[id.toNat - 1]?).bind fun session =>
    if closes session.state.log = 0 then some (some (id.toNat - 1)) else none

theorem registered_of_index {sessions : List ClientSession} {id : TokenId}
    {index : ℕ} {session : ClientSession} (hid : id.toNat = index + 1)
    (hfound : sessions[index]? = some session) :
    registered sessions id =
      if closes session.state.log = 0 then some (some index) else none := by
  unfold registered
  rw [if_neg (by omega), hid, Nat.add_sub_cancel, hfound]
  rfl

theorem index_of_registered {sessions : List ClientSession} {id : TokenId}
    {pointer : SharedPtr ℕ}
    (hregistered : registered sessions id = some pointer) :
    ∃ index session, id.toNat = index + 1 ∧ pointer = some index ∧
      sessions[index]? = some session ∧ closes session.state.log = 0 := by
  unfold registered at hregistered
  split at hregistered
  · contradiction
  · rename_i hid
    obtain ⟨session, hfound, hentry⟩ := Option.bind_eq_some_iff.mp hregistered
    split at hentry
    · rename_i hopen
      obtain rfl := Option.some.inj hentry
      exact ⟨id.toNat - 1, session, by omega, rfl, hfound, hopen⟩
    · contradiction

/-- A step of a session changes the entry of its own id at most. -/
theorem registered_set {sessions : List ClientSession} {index : ℕ}
    {session moved : ClientSession} (hfound : sessions[index]? = some session)
    (id : TokenId) :
    registered (sessions.set index moved) id =
      if id.toNat = index + 1 then
        if closes moved.state.log = 0 then some (some index) else none
      else registered sessions id := by
  have hindex := (List.getElem?_eq_some_iff.mp hfound).1
  by_cases hid : id.toNat = index + 1
  · rw [if_pos hid]
    apply registered_of_index hid
    exact List.getElem?_set_self hindex
  · rw [if_neg hid]
    unfold registered
    by_cases hzero : id.toNat = 0
    · rw [if_pos hzero, if_pos hzero]
    · rw [if_neg hzero, if_neg hzero, List.getElem?_set_ne (by omega)]

theorem registered_snoc (sessions : List ClientSession)
    {session : ClientSession} (hnew : closes session.state.log = 0)
    (id : TokenId) :
    registered (sessions ++ [session]) id =
      if id.toNat = sessions.length + 1 then some (some sessions.length)
      else registered sessions id := by
  by_cases hid : id.toNat = sessions.length + 1
  · rw [if_pos hid, registered_of_index hid List.getElem?_concat_length,
      if_pos hnew]
  · rw [if_neg hid]
    unfold registered
    by_cases hzero : id.toNat = 0
    · rw [if_pos hzero, if_pos hzero]
    · have hother : (sessions ++ [session])[id.toNat - 1]? =
          sessions[id.toNat - 1]? := by
        by_cases hless : id.toNat - 1 < sessions.length
        · exact List.getElem?_append_left hless
        · rw [List.getElem?_eq_none (by simp; omega),
            List.getElem?_eq_none (by omega)]
      rw [if_neg hzero, if_neg hzero, hother]

/-! ## The invariant -/

/-- The token of the session at a position. -/
def WsToken.ofIndex (index : ℕ) : WsToken := ⟨UInt32.ofNat (index + 1)⟩

structure Client.Registered (c : Client) : Prop where
  nextWsId : c.api.beast.nextWsId.toNat = c.sessions.length + 1
  entries : ∀ id, c.wsSessions id = registered c.sessions id
  captured : ∀ index, (c.captured index).length =
    ((c.sessions[index]?).map fun s => s.state.closing.length).getD 0
  tokens : ∀ index, ∀ token ∈ c.captured index, token.id.toNat = index + 1
  returned : c.returned.filter WsToken.isValidId =
    (List.range c.sessions.length).map WsToken.ofIndex
  accounted : ∀ session ∈ c.sessions, session.state.Accounted

namespace Client

theorem start_registered (config : ConnectionConfig)
    (nRestIoContexts nWebsockIoContexts : ℕ) :
    (start config nRestIoContexts nWebsockIoContexts).Registered where
  nextWsId := rfl
  entries := by
    intro id
    unfold registered
    split <;> rfl
  captured := fun _ => rfl
  tokens := by simp [start]
  returned := rfl
  accounted := by simp [start]

section Registered

variable {boost : Boost} {hmac : Hmac} {config : ConnectionConfig}
  {c next : Client}

/-- A step of one session, after which the registry is right again. -/
theorem Registered.set {index : ℕ} {session : ClientSession} {run : WsRun}
    {event : WsEvent} (hregistered : c.Registered)
    (hfound : c.sessions[index]? = some session)
    (hstep : session.state.step boost event = some run)
    (hsessions : next.sessions = c.sessions.set index ⟨session.birth, run⟩)
    (hnextWsId : next.api.beast.nextWsId = c.api.beast.nextWsId)
    (hreturned : next.returned = c.returned)
    (hentries : ∀ id, next.wsSessions id =
      if id.toNat = index + 1 then
        if closes run.log = 0 then some (some index) else none
      else c.wsSessions id)
    (hothers : ∀ other ≠ index, next.captured other = c.captured other)
    (hlength : (next.captured index).length + event.isClose =
      (c.captured index).length + event.isStop)
    (htokens : ∀ token ∈ next.captured index, token.id.toNat = index + 1) :
    next.Registered where
  nextWsId := by
    rw [hnextWsId, hsessions, List.length_set]
    exact hregistered.nextWsId
  entries := by
    intro id
    rw [hentries, hsessions, registered_set hfound, hregistered.entries]
  captured := by
    intro other
    rw [hsessions]
    by_cases hother : other = index
    · subst hother
      have hindex := (List.getElem?_eq_some_iff.mp hfound).1
      have hbefore := hregistered.captured other
      have hclosing := (WsRun.closings hstep).closing
      rw [hfound] at hbefore
      rw [List.getElem?_set_self hindex]
      simp only [Option.map_some, Option.getD_some] at hbefore ⊢
      omega
    · rw [hothers other hother, List.getElem?_set_ne (Ne.symm hother)]
      exact hregistered.captured other
  tokens := by
    intro other token htoken
    by_cases hother : other = index
    · subst hother
      exact htokens token htoken
    · rw [hothers other hother] at htoken
      exact hregistered.tokens other token htoken
  returned := by
    rw [hreturned, hsessions, List.length_set]
    exact hregistered.returned
  accounted := by
    intro other hother
    rw [hsessions] at hother
    rcases List.mem_or_eq_of_mem_set hother with hold | rfl
    · exact hregistered.accounted other hold
    · have hbefore := hregistered.accounted session
        (List.mem_of_getElem? hfound)
      exact hbefore.step hstep

/-- A call that opens no session. -/
theorem Registered.same (hregistered : c.Registered)
    (hsessions : next.sessions = c.sessions)
    (hnextWsId : next.api.beast.nextWsId = c.api.beast.nextWsId)
    (hentries : next.wsSessions = c.wsSessions)
    (hcaptured : next.captured = c.captured)
    (hreturned : next.returned.filter WsToken.isValidId =
      c.returned.filter WsToken.isValidId) : next.Registered where
  nextWsId := by
    rw [hnextWsId, hsessions]
    exact hregistered.nextWsId
  entries := by
    rw [hentries, hsessions]
    exact hregistered.entries
  captured := by
    rw [hcaptured, hsessions]
    exact hregistered.captured
  tokens := by
    rw [hcaptured]
    exact hregistered.tokens
  returned := by
    rw [hreturned, hsessions]
    exact hregistered.returned
  accounted := by
    rw [hsessions]
    exact hregistered.accounted

theorem launched_log (started : StartedWsSession)
    (hstarts : started.Starts config started.launched) :
    closes started.launched.log = 0 ∧ stops started.launched.log = 0 ∧
      started.launched.closing = [] := by
  obtain ⟨f, ioContext, target, rfl, _⟩ := hstarts
  exact ⟨rfl, rfl, rfl⟩

/-- A call that opens a session under the next id. -/
theorem Registered.opens {started : StartedWsSession}
    (hregistered : c.Registered)
    (hfew : c.sessions.length + 1 < 2 ^ 32 - 1)
    (hstarts : started.Starts config started.launched)
    (hsessions : next.sessions =
      c.sessions ++ [⟨started, started.launched⟩])
    (hnextWsId : next.api.beast.nextWsId = c.api.beast.nextWsId + 1)
    (hentries : next.wsSessions =
      c.wsSessions.assign c.api.beast.nextWsId c.sessions.length)
    (hcaptured : next.captured = c.captured)
    (hreturned : next.returned = c.returned ++ [⟨c.api.beast.nextWsId⟩]) :
    next.Registered := by
  obtain ⟨hcloses, hstops, hclosing⟩ := launched_log started hstarts
  have hid := hregistered.nextWsId
  have hlength : next.sessions.length = c.sessions.length + 1 := by
    rw [hsessions, List.length_append, List.length_singleton]
  constructor
  case nextWsId =>
    have hone : (1 : UInt32).toNat = 1 := rfl
    rw [hnextWsId, hlength, UInt32.toNat_add, hid, hone]
    omega
  case entries =>
    intro id
    rw [hentries, hsessions, registered_snoc _ hcloses]
    by_cases hsame : id = c.api.beast.nextWsId
    · subst hsame
      rw [SessionMap.assign_self, if_pos hid]
    · have hne : id.toNat ≠ c.sessions.length + 1 := by
        intro heq
        exact hsame (UInt32.toNat_inj.mp (heq.trans hid.symm))
      rw [SessionMap.assign_of_ne _ hsame, if_neg hne]
      exact hregistered.entries id
  case captured =>
    intro index
    rw [hcaptured, hsessions, hregistered.captured index]
    by_cases hless : index < c.sessions.length
    · rw [List.getElem?_append_left hless]
    · rw [List.getElem?_eq_none (by omega)]
      by_cases hlast : index = c.sessions.length
      · subst hlast
        rw [List.getElem?_concat_length]
        simp [hclosing]
      · rw [List.getElem?_eq_none (by simp; omega)]
  case tokens =>
    rw [hcaptured]
    exact hregistered.tokens
  case returned =>
    have hvalid : WsToken.isValidId ⟨c.api.beast.nextWsId⟩ = true := by
      have hne : c.api.beast.nextWsId ≠ 0 := by
        intro hzero
        rw [hzero] at hid
        simp at hid
      simpa [WsToken.isValidId] using hne
    have htoken : WsToken.ofIndex c.sessions.length =
        ⟨c.api.beast.nextWsId⟩ := by
      rw [WsToken.ofIndex, ← hid, UInt32.ofNat_toNat]
    rw [hreturned, hlength, List.filter_append, hregistered.returned,
      List.range_succ, List.map_append, List.map_singleton, htoken]
    simp [hvalid]
  case accounted =>
    intro session hsession
    rw [hsessions] at hsession
    rcases List.mem_append.mp hsession with hold | hnew
    · exact hregistered.accounted session hold
    · rw [List.mem_singleton.mp hnew]
      show stops started.launched.log =
        closes started.launched.log + started.launched.closing.length
      rw [hstops, hcloses, hclosing]
      rfl

theorem Moves.length_le {event : ClientEvent}
    (hmoves : Moves boost hmac c event next) :
    c.sessions.length ≤ next.sessions.length := by
  cases hmoves with
  | sends handler => exact le_rfl
  | throws handler => exact le_rfl
  | requests found stepped => exact le_rfl
  | calls outcome ends => simp [afterCall]
  | misses missing => exact le_rfl
  | stops entry found stepped => simp [stopping]
  | sessions own found stepped => simp
  | closes captured found stepped => simp [closed]

theorem Registered.step {event : ClientEvent} (hregistered : c.Registered)
    (hconsistent : c.Consistent config)
    (hmoves : Moves boost hmac c event next)
    (hfew : next.sessions.length < 2 ^ 32 - 1) : next.Registered := by
  cases hmoves with
  | sends handler => exact hregistered.same rfl rfl rfl rfl rfl
  | throws handler => exact hregistered
  | requests found stepped => exact hregistered.same rfl rfl rfl rfl rfl
  | misses missing => exact hregistered
  | calls outcome ends =>
      cases ends with
      | opens f target key opening =>
          have hlength : c.api.sessions.length = c.sessions.length := by
            rw [hconsistent.sessions, List.length_map]
          let started : StartedWsSession := {
            ioContext := c.api.beast.nextWsIoContext
            session := ⟨c.api.beast.config.wsApiUri, target, some f, []⟩
            effects := [.start (.resolve c.api.beast.config.wsApiUri
              c.api.beast.config.wsPort)] }
          have hstarts : started.Starts config started.launched := by
            rw [← hconsistent.config]
            exact ⟨f, _, target, rfl, rfl⟩
          have hsessions : (c.afterCall (.ok (some ⟨c.api.beast.nextWsId⟩),
              (c.api.withKey key).opened f c.api.beast.config.wsApiUri
                target)).sessions =
              c.sessions ++ [⟨started, started.launched⟩] := by
            have hdrop := hconsistent.opened_sessions [started]
            show c.sessions ++ ((c.api.sessions ++ [started]).drop
              c.sessions.length).map _ = _
            rw [hdrop]
            rfl
          rw [hsessions, List.length_append, List.length_singleton] at hfew
          refine hregistered.opens hfew hstarts hsessions rfl ?_ rfl rfl
          show c.wsSessions.assign c.api.beast.nextWsId
            c.api.sessions.length = _
          rw [hlength]
      | @keeps result s nothing onlyKey invalid =>
          have hsame : c.sessions ++ (s.sessions.drop
              c.sessions.length).map (fun started =>
                (⟨started, started.launched⟩ : ClientSession)) =
              c.sessions := by
            have hdrop := hconsistent.opened_sessions []
            rw [List.append_nil] at hdrop
            rw [onlyKey.sessions, hdrop]
            exact List.append_nil _
          refine hregistered.same hsame ?_ ?_ rfl ?_
          · show s.beast.nextWsId = _
            rw [onlyKey.beast]
          · show s.beast.wsSessions = _
            rw [onlyKey.beast]
            rfl
          · show (c.returned ++ _).filter WsToken.isValidId = _
            rw [List.filter_append]
            cases result with
            | error e => exact List.append_nil _
            | ok token =>
                cases token with
                | none => exact List.append_nil _
                | some token =>
                    rw [invalid token rfl]
                    exact List.append_nil _
  | sessions own found stepped =>
      obtain ⟨hstop, hclose⟩ := WsEvent.quiet_of_own own
      have hcloses := (WsRun.closings stepped).closes
      rw [hclose, Nat.add_zero] at hcloses
      refine hregistered.set found stepped rfl rfl rfl ?_ (fun _ _ => rfl)
        (by rw [hstop, hclose]) (hregistered.tokens _)
      intro id
      split
      · rename_i hid
        rw [hcloses]
        exact (hregistered.entries id).trans (registered_of_index hid found)
      · rfl
  | @stops token handler pointer session run entry found stepped =>
      have hcloses := (WsRun.closings stepped).closes
      rw [hregistered.entries] at entry
      obtain ⟨index, other, hid, hpointer, hother, hopen⟩ :=
        index_of_registered entry
      obtain rfl := Option.some.inj hpointer
      obtain rfl := Option.some.inj (found.symm.trans hother)
      have hnone : closes run.log = 0 := by
        rw [hcloses, hopen]
        rfl
      refine hregistered.set found stepped rfl rfl rfl ?_ ?_ ?_ ?_
      · intro id
        rw [if_pos hnone]
        split
        · rename_i hsame
          have heq : id = token.id :=
            UInt32.toNat_inj.mp (hsame.trans hid.symm)
          rw [heq, ← entry]
          exact hregistered.entries token.id
        · rfl
      · intro index hindex
        exact Function.update_of_ne hindex _ _
      · simp [stopping, WsEvent.isClose, WsEvent.isStop]
      · intro captured hcaptured
        simp only [stopping, Function.update_self, List.mem_append,
          List.mem_singleton] at hcaptured
        rcases hcaptured with hold | rfl
        · exact hregistered.tokens pointer captured hold
        · exact hid
  | @closes index close token session run captured found stepped =>
      have hcloses := (WsRun.closings stepped).closes
      have hid : token.id.toNat = index + 1 :=
        hregistered.tokens index token (List.mem_of_getElem? captured)
      have hclosed : closes run.log ≠ 0 := by
        rw [hcloses]
        simp [WsEvent.isClose]
      refine hregistered.set found stepped rfl rfl rfl ?_ ?_ ?_ ?_
      · intro id
        rw [if_neg hclosed]
        show c.wsSessions.erase token.id id = _
        split
        · rename_i hsame
          have heq : id = token.id :=
            UInt32.toNat_inj.mp (hsame.trans hid.symm)
          rw [heq, SessionMap.erase_self]
        · rename_i hother
          have hne : id ≠ token.id := by
            intro heq
            exact hother (heq ▸ hid)
          exact SessionMap.erase_of_ne _ hne
      · intro other hother
        exact Function.update_of_ne hother _ _
      · simp only [closed, Function.update_self]
        exact List.length_eraseIdx_add_one
          (List.getElem?_eq_some_iff.mp captured).1
      · intro other hother
        simp only [closed, Function.update_self] at hother
        exact hregistered.tokens index other (List.mem_of_mem_eraseIdx hother)

end Registered

theorem run_registered {boost : Boost} {hmac : Hmac}
    {config : ConnectionConfig} {nRestIoContexts nWebsockIoContexts : ℕ}
    {events : List ClientEvent} {t : Client}
    (hrun : run (step boost hmac)
      (start config nRestIoContexts nWebsockIoContexts) events = some t)
    (hfew : t.sessions.length < 2 ^ 32 - 1) :
    t.Consistent config ∧ t.Registered := by
  have hinv := invariant_of_run
    (I := fun c : Client => c.Consistent config ∧
      (c.sessions.length < 2 ^ 32 - 1 → c.Registered))
    (fun c event next hc _ hstep => by
      have hmoves := Client.moves hstep
      refine ⟨hmoves.consistent hc.1, ?_⟩
      intro hnext
      have hlength := hmoves.length_le
      exact (hc.2 (by omega)).step hc.1 hmoves hnext)
    ⟨⟨rfl, rfl⟩, fun _ => start_registered config _ _⟩ (meets_true _ _ _) hrun
  exact ⟨hinv.1, hinv.2 hfew⟩

section Enabled

variable {boost : Boost} {hmac : Hmac} {c : Client} {index : ℕ}
  {session : ClientSession}

theorem step_stop_of_none {token : WsToken}
    (hmissing : c.wsSessions token.id = none) (handler : Callback) :
    c.step boost hmac (.stopWebSocket token handler) = some c := by
  simp only [step, stopWebSocket, SessionMap.find, hmissing]

theorem step_stop_of_some {token : WsToken} {pointer : ℕ}
    (hentry : c.wsSessions token.id = some (some pointer))
    (hfound : c.sessions[pointer]? = some session) (handler : Callback) :
    ∃ run, session.state.step boost (.stopWebSocket handler) = some run ∧
      c.step boost hmac (.stopWebSocket token handler) =
        some (c.stopping pointer token ⟨session.birth, run⟩) := by
  refine ⟨_, rfl, ?_⟩
  simp only [step, stopWebSocket, SessionMap.find, hentry,
    SessionMap.index_of_some hentry, stepSession, hfound]
  rfl

theorem Registered.step_close {close : ℕ} {run : WsRun}
    (hregistered : c.Registered)
    (hfound : c.sessions[index]? = some session)
    (hstep : session.state.step boost (.closeCompletes close) = some run) :
    ∃ token, (c.captured index)[close]? = some token ∧
      token.id.toNat = index + 1 ∧
      c.step boost hmac (.closeCompletes index close) =
        some (c.closed index close token ⟨session.birth, run⟩) := by
  have hlength := hregistered.captured index
  rw [hfound] at hlength
  have hless : close < (c.captured index).length := by
    rw [hlength]
    exact WsRun.close_under_way hstep
  have hcaptured := List.getElem?_eq_getElem hless
  refine ⟨_, hcaptured, ?_, ?_⟩
  · exact hregistered.tokens index _ (List.mem_of_getElem? hcaptured)
  · have hstepped : session.birth.step boost session.state
        (.closeCompletes close) = some run := hstep
    simp only [Client.step, closeCompletes, hcaptured, stepSession,
      hfound, hstepped, Option.map_some]
    rfl

end Enabled

/-- In every run of a client with fewer than 2^32 - 1 sessions, whose calls
and close completions are made one at a time, the valid tokens it returned are
those of its sessions, in order, and the registry has exactly the sessions none
of whose closes has completed.  A stop of such a token reaches its session and
no other; any other stop changes nothing.  Whichever close of a session
completes, it removes the session's entry and no other, and every stop that
found its session is a close under way or a completed one.  No stop and no
close goes through a null pointer. -/
theorem registry_names_its_open_sessions {boost : Boost} {hmac : Hmac}
    {config : ConnectionConfig} {nRestIoContexts nWebsockIoContexts : ℕ}
    {events : List ClientEvent} {t : Client}
    (hrun : run (step boost hmac)
      (start config nRestIoContexts nWebsockIoContexts) events = some t)
    (hfew : t.sessions.length < 2 ^ 32 - 1) :
    t.returned.filter WsToken.isValidId =
        (List.range t.sessions.length).map WsToken.ofIndex ∧
      (∀ id, t.wsSessions id = registered t.sessions id) ∧
      (∀ session ∈ t.sessions, session.state.Accounted) ∧
      (∀ token handler, registered t.sessions token.id = none →
        t.step boost hmac (.stopWebSocket token handler) = some t) ∧
      (∀ token handler pointer,
        registered t.sessions token.id = some pointer →
        ∃ index session run, pointer = some index ∧
          token.id.toNat = index + 1 ∧ t.sessions[index]? = some session ∧
          session.state.step boost (.stopWebSocket handler) = some run ∧
          t.step boost hmac (.stopWebSocket token handler) =
            some (t.stopping index token ⟨session.birth, run⟩)) ∧
      ∀ index close session run, t.sessions[index]? = some session →
        session.state.step boost (.closeCompletes close) = some run →
        ∃ next, t.step boost hmac (.closeCompletes index close) = some next ∧
          next.sessions = t.sessions.set index ⟨session.birth, run⟩ ∧
          ∀ id, next.wsSessions id =
            if id.toNat = index + 1 then none else t.wsSessions id := by
  obtain ⟨_, hregistered⟩ := run_registered hrun hfew
  refine ⟨hregistered.returned, hregistered.entries, hregistered.accounted,
    ?_, ?_, ?_⟩
  · intro token handler hnone
    exact step_stop_of_none ((hregistered.entries token.id).trans hnone) handler
  · intro token handler pointer hentry
    obtain ⟨index, session, hid, rfl, hfound, _⟩ := index_of_registered hentry
    have hstored := (hregistered.entries token.id).trans hentry
    obtain ⟨run, hstep, hstop⟩ := step_stop_of_some hstored hfound handler
    exact ⟨index, session, run, rfl, hid, hfound, hstep, hstop⟩
  · intro index close session run hfound hstep
    obtain ⟨token, _, hid, hclose⟩ := hregistered.step_close hfound hstep
    refine ⟨_, hclose, rfl, ?_⟩
    intro id
    show t.wsSessions.erase token.id id = _
    by_cases hsame : id = token.id
    · rw [hsame, if_pos hid, SessionMap.erase_self]
    · have hother : ¬ id.toNat = index + 1 := by
        intro heq
        exact hsame (UInt32.toNat_inj.mp (heq.trans hid.symm))
      rw [if_neg hother, SessionMap.erase_of_ne _ hsame]

/-- After a stop whose close has completed only the other session is left. -/
theorem closed_session_leaves_the_registry :
    ∃ t, run (step sampleBoost sampleEnvironment.hmac)
        (start sampleBeast.config 4 6)
        (twoSessions ++ [.session 1 .ioReturns, .closeCompletes 1 0,
          .stopWebSocket ⟨2⟩ none]) = some t ∧
      (∀ id, t.wsSessions id = registered t.sessions id) ∧
      registered t.sessions 1 = some (some 0) ∧
      registered t.sessions 2 = none := by
  have hrun : ∃ t, run (step sampleBoost sampleEnvironment.hmac)
      (start sampleBeast.config 4 6)
      (twoSessions ++ [.session 1 .ioReturns, .closeCompletes 1 0,
        .stopWebSocket ⟨2⟩ none]) = some t ∧ t.sessions.length = 2 ∧
      registered t.sessions 1 = some (some 0) ∧
      registered t.sessions 2 = none := ⟨_, rfl, rfl, rfl, rfl⟩
  obtain ⟨t, hrun, hlength, hopen, hclosed⟩ := hrun
  obtain ⟨_, hentries, _⟩ :=
    registry_names_its_open_sessions hrun (by rw [hlength]; norm_num)
  exact ⟨t, hrun, hentries, hopen, hclosed⟩

end Client

end Bblib
