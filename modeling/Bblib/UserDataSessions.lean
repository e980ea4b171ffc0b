import Bblib.ListenKeyRuns
import Mathlib.Tactic

/-!
# Which user data sessions are opened

`startUserData` takes the key of its session from the member that
`amendUserDataListenKey` cleared and may have set again.  So a session is
opened exactly when the response of this very call carried a key, with that
key; every other end of the exchange leaves the sessions and the counters as
they were.
-/

namespace Bblib

open LabelledRuns

/-! ## What an exchange leaves alone -/

/-- Only the listen key and the record of handler calls may differ. -/
structure ApiState.OnlyKey (s t : ApiState) : Prop where
  beast : t.beast = { s.beast with listenKey := t.beast.listenKey }
  sessions : t.sessions = s.sessions

namespace ApiState.OnlyKey

theorem refl (s : ApiState) : s.OnlyKey s := ⟨rfl, rfl⟩

theorem trans {s t u : ApiState} (hst : s.OnlyKey t) (htu : t.OnlyKey u) :
    s.OnlyKey u where
  beast := by rw [htu.beast, hst.beast]
  sessions := htu.sessions.trans hst.sessions

theorem withKey (s : ApiState) (key : Str) : s.OnlyKey (s.withKey key) :=
  ⟨rfl, rfl⟩

theorem reported (s : ApiState) (handler : Callback) (reason : Str) :
    s.OnlyKey (s.reported handler reason) := ⟨rfl, rfl⟩

theorem invoke (handler : Callback) (response : WsResponse) (s : ApiState) :
    s.OnlyKey ((Bblib.invoke handler response).outcome s).2 := by
  cases handler with
  | none => exact refl s
  | some f => exact ⟨rfl, rfl⟩

theorem beforeReply (s : ApiState) (mode : UserDataStreamMode) :
    s.OnlyKey (s.beforeReply mode) := by
  cases mode with
  | create => exact withKey s []
  | extend => exact refl s
  | close => exact refl s

theorem acceptReply (mode : UserDataStreamMode) (object : JsonObject)
    (s : ApiState) : s.OnlyKey (Bblib.acceptReply mode object s).2 := by
  unfold Bblib.acceptReply
  split
  · cases (object.index (ascii "listenKey")).1.valueToString with
    | none => exact refl s
    | some key => exact withKey s key
  · exact refl s

theorem amend (boost : Boost) (exchange : Exchange) (handler : Callback)
    (mode : UserDataStreamMode) (streamName : Str) (s : ApiState) :
    s.OnlyKey ((amendUserDataListenKey boost exchange handler mode
      streamName).outcome s).2 := by
  cases hexchange : exchange s.beast.config.restApiUri (ascii "443")
      (s.beast.listenKeyRequest mode streamName) with
  | error ec =>
      rw [amendUserDataListenKey_error hexchange]
      exact refl s
  | ok res =>
      have hbefore := beforeReply s mode
      rw [amendUserDataListenKey_state hexchange, readListenKeyResponse_outcome]
      cases res.listenKeyReply boost with
      | accepted object => exact hbefore.trans (acceptReply mode object _)
      | rejected reason => exact hbefore.trans (reported _ handler reason)
      | malformed => exact hbefore

theorem renewListenKey (boost : Boost) (exchange : Exchange)
    (handler : Callback) (stream : Str) (s : ApiState) :
    s.OnlyKey
      ((Bblib.renewListenKey boost exchange handler stream).outcome s).2 := by
  have hamend := amend boost exchange handler .extend stream s
  apply Api.outcome_bind_ite_keeps hamend
  · exact fun t hkey => hkey.trans (invoke handler _ t)
  · exact fun t hkey => hkey.trans (invoke handler _ t)

theorem closeUserData (boost : Boost) (exchange : Exchange)
    (handler : Callback) (stream : Str) (s : ApiState) :
    s.OnlyKey
      ((Bblib.closeUserData boost exchange handler stream).outcome s).2 := by
  have hamend := amend boost exchange handler .close stream s
  apply Api.outcome_bind_ite_keeps hamend
  · intro t hkey
    exact (hkey.trans (withKey t [])).trans (invoke handler _ _)
  · exact fun t hkey => hkey.trans (invoke handler _ t)

end ApiState.OnlyKey

/-! ## The response of a Create request -/

/-- The non-empty key this call's own response carries. -/
def ownKey (boost : Boost) (received : Except ErrorCode HttpResponse) :
    Option Str :=
  match received with
  | .ok res => (res.createdKey boost).filter fun key => !key.isEmpty
  | .error _ => none

theorem ownKey_eq_some {boost : Boost}
    {received : Except ErrorCode HttpResponse} {k : Str} :
    ownKey boost received = some k ↔
      ∃ res object, received = .ok res ∧
        res.acceptedObject boost = some object ∧
        (JsonObject.ifContains object (ascii "listenKey")).bind
          Json.valueToString = some k ∧ k ≠ [] := by
  unfold ownKey HttpResponse.createdKey
  cases received with
  | error ec => simp
  | ok res =>
      cases haccepted : res.acceptedObject boost with
      | none => simp [haccepted]
      | some object =>
          simp only [haccepted, Option.bind_some,
            Option.filter_eq_some_iff, Except.ok.injEq]
          constructor
          · rintro ⟨hkey, hne⟩
            exact ⟨res, object, rfl, haccepted, hkey, by simpa using hne⟩
          · rintro ⟨_, _, rfl, hobject, hkey, hne⟩
            rw [haccepted] at hobject
            obtain rfl := Option.some.inj hobject
            exact ⟨hkey, by simpa using hne⟩

theorem amend_create_of_key {boost : Boost} {exchange : Exchange}
    {handler : Callback} {streamName : Str} {s : ApiState}
    {res : HttpResponse} {key : Str}
    (hexchange : exchange s.beast.config.restApiUri (ascii "443")
      (s.beast.listenKeyRequest .create streamName) = .ok res)
    (hkey : res.createdKey boost = some key) :
    (amendUserDataListenKey boost exchange handler .create
      streamName).outcome s = (.ok (!key.isEmpty), s.withKey key) := by
  obtain ⟨object, haccepted, hstring⟩ := Option.bind_eq_some_iff.mp hkey
  have hreply := HttpResponse.listenKeyReply_eq_accepted.mpr haccepted
  have hindex : (JsonObject.index object (ascii "listenKey")).1.valueToString =
      some key := by
    rw [JsonObject.valueToString_index]
    exact hstring
  rw [amendUserDataListenKey_ok hexchange, readListenKeyResponse_outcome,
    hreply]
  simp only [acceptReply, if_true, hindex]
  rfl

theorem amend_create_of_none {boost : Boost} {exchange : Exchange}
    (handler : Callback) {streamName : Str} {s : ApiState}
    (hkey : ownKey boost (exchange s.beast.config.restApiUri (ascii "443")
      (s.beast.listenKeyRequest .create streamName)) = none) :
    ((amendUserDataListenKey boost exchange handler .create
      streamName).outcome s).1 ≠ .ok true := by
  cases hexchange : exchange s.beast.config.restApiUri (ascii "443")
      (s.beast.listenKeyRequest .create streamName) with
  | error ec =>
      rw [amendUserDataListenKey_error hexchange]
      simp
  | ok res =>
      rw [hexchange] at hkey
      cases hcreated : res.createdKey boost with
      | some key =>
          have hempty : key = [] := by
            by_contra hne
            simp [ownKey, hcreated, hne] at hkey
          rw [amend_create_of_key hexchange hcreated, hempty]
          simp
      | none =>
          rw [amendUserDataListenKey_ok hexchange,
            readListenKeyResponse_outcome]
          cases hreply : res.listenKeyReply boost with
          | accepted object =>
              have haccepted :=
                HttpResponse.listenKeyReply_eq_accepted.mp hreply
              have hindex : (JsonObject.index object
                  (ascii "listenKey")).1.valueToString = none := by
                rw [JsonObject.valueToString_index]
                simpa [HttpResponse.createdKey, haccepted] using hcreated
              simp [acceptReply, hindex]
          | rejected reason =>
              simp [ApiState.beforeReply]
          | malformed => simp

/-! ## One call -/

/-- The call made a session for the path and returned its id. -/
structure Registers (f : ℕ) (path : Str) (s : ApiState)
    (ended : Except Exn WsToken × ApiState) : Prop where
  session : ∃ new : StartedWsSession,
    ended.2.sessions = s.sessions ++ [new] ∧
    new.session.path = path ∧ new.session.callback = some f
  entry : ended.2.beast.wsSessions =
    s.beast.wsSessions.assign s.beast.nextWsId s.sessions.length
  nextWsId : ended.2.beast.nextWsId = s.beast.nextWsId + 1
  returns : ended.1 = .ok ⟨s.beast.nextWsId⟩

structure RegistersNone (s : ApiState)
    (ended : Except Exn WsToken × ApiState) : Prop where
  sessions : ended.2.sessions = s.sessions
  wsSessions : ended.2.beast.wsSessions = s.beast.wsSessions
  nextWsId : ended.2.beast.nextWsId = s.beast.nextWsId
  nextWsIoContext : ended.2.beast.nextWsIoContext = s.beast.nextWsIoContext

theorem ApiState.OnlyKey.registersNone {s t : ApiState} (hkey : s.OnlyKey t)
    (result : Except Exn WsToken) : RegistersNone s (result, t) where
  sessions := hkey.sessions
  wsSessions := by
    have hbeast := congrArg BinanceBeast.wsSessions hkey.beast
    exact hbeast
  nextWsId := by
    have hbeast := congrArg BinanceBeast.nextWsId hkey.beast
    exact hbeast
  nextWsIoContext := by
    have hbeast := congrArg BinanceBeast.nextWsIoContext hkey.beast
    exact hbeast

theorem startUserData_of_key (boost : Boost) (exchange : Exchange) (f : ℕ)
    (stream : Str) (s : ApiState) {k : Str}
    (hkey : ownKey boost (exchange s.beast.config.restApiUri (ascii "443")
      (s.beast.listenKeyRequest .create stream)) = some k) :
    Registers f (ascii "/ws/" ++ k) s
      ((startUserData boost exchange (some f) stream).outcome s) := by
  obtain ⟨res, object, hexchange, haccepted, hstring, hne⟩ :=
    ownKey_eq_some.mp hkey
  have hcreated : res.createdKey boost = some k := by
    rw [HttpResponse.createdKey, haccepted]
    exact hstring
  have hstored : (!k.isEmpty) = true := by simpa using hne
  rw [startUserData_outcome, amend_create_of_key hexchange hcreated, hstored]
  exact {
    session := ⟨_, rfl, rfl, rfl⟩
    entry := rfl
    nextWsId := rfl
    returns := rfl }

theorem startUserData_of_none {boost : Boost} {exchange : Exchange}
    (handler : Callback) {stream : Str} {s : ApiState}
    (hkey : ownKey boost (exchange s.beast.config.restApiUri (ascii "443")
      (s.beast.listenKeyRequest .create stream)) = none) :
    s.OnlyKey
      ((startUserData boost exchange handler stream).outcome s).2 := by
  have hamend := ApiState.OnlyKey.amend boost exchange handler .create stream s
  have hresult := amend_create_of_none handler hkey
  rw [startUserData_outcome]
  generalize (amendUserDataListenKey boost exchange handler .create
    stream).outcome s = amended at hamend hresult
  obtain ⟨result, t⟩ := amended
  cases result with
  | error e => exact hamend
  | ok stored =>
      cases stored with
      | true => exact absurd rfl hresult
      | false => exact hamend

theorem startUserData_null (boost : Boost) (exchange : Exchange) (stream : Str)
    (s : ApiState) :
    s.OnlyKey ((startUserData boost exchange none stream).outcome s).2 := by
  have hamend := ApiState.OnlyKey.amend boost exchange none .create stream s
  apply Api.outcome_bind_ite_keeps hamend
  · exact fun t hkey => hkey
  · exact fun t hkey => hkey

/-! ## Runs of the three calls -/

def KeyEvent.opens (boost : Boost) (event : KeyEvent) : Option Str :=
  match event.call with
  | .startUserData (some _) _ => ownKey boost event.received
  | _ => none

theorem KeyRun.step_sessions {boost : Boost} {m next : KeyRun}
    {event : KeyEvent} (hstep : m.step boost event = some next) :
    ∃ opened, next.api.sessions = m.api.sessions ++ opened ∧
      opened.map (fun new => new.session.path) =
        ((event.opens boost).map fun k => ascii "/ws/" ++ k).toList := by
  obtain rfl := Option.some.inj hstep
  obtain ⟨call, received⟩ := event
  show ∃ opened,
    ((call.run boost fun _ _ _ => received).outcome m.api).2.sessions =
      m.api.sessions ++ opened ∧ _
  have hnone : ∀ t : ApiState, m.api.OnlyKey t → ∃ opened,
      t.sessions = m.api.sessions ++ opened ∧
        opened.map (fun new => new.session.path) = [] :=
    fun t hkey => ⟨[], by simp [hkey.sessions], rfl⟩
  cases call with
  | renewListenKey handler stream =>
      exact hnone _ (ApiState.OnlyKey.renewListenKey boost _ handler stream _)
  | closeUserData handler stream =>
      exact hnone _ (ApiState.OnlyKey.closeUserData boost _ handler stream _)
  | startUserData handler stream =>
      rw [UserDataCall.run_startUserData]
      cases handler with
      | none => exact hnone _ (startUserData_null boost _ stream _)
      | some f =>
          cases hkey : ownKey boost received with
          | none =>
              simp only [KeyEvent.opens, hkey]
              exact hnone _ (startUserData_of_none (some f) hkey)
          | some k =>
              have hregisters := startUserData_of_key boost
                (fun _ _ _ => received) f stream m.api hkey
              obtain ⟨new, hsessions, hpath, _⟩ := hregisters.session
              exact ⟨[new], hsessions, by simp [KeyEvent.opens, hkey, hpath]⟩

theorem KeyRun.run_sessions {boost : Boost} {m t : KeyRun}
    {events : List KeyEvent} (hrun : run (KeyRun.step boost) m events = some t) :
    ∃ opened, t.api.sessions = m.api.sessions ++ opened ∧
      opened.map (fun new => new.session.path) =
        (events.filterMap (KeyEvent.opens boost)).map
          fun k => ascii "/ws/" ++ k := by
  induction events generalizing m with
  | nil =>
      obtain rfl : m = t := by simpa using hrun
      exact ⟨[], by simp, rfl⟩
  | cons event events ih =>
      obtain ⟨next, hstep, hrest⟩ := run_cons_eq_some.mp hrun
      obtain ⟨first, hfirst, hpath⟩ := KeyRun.step_sessions hstep
      obtain ⟨others, hothers, hpaths⟩ := ih hrest
      refine ⟨first ++ others, ?_, ?_⟩
      · rw [hothers, hfirst, List.append_assoc]
      · rw [List.map_append, hpath, hpaths, List.filterMap_cons]
        cases event.opens boost with
        | none => rfl
        | some k => rfl

/-- One call registers a session exactly when its own response carried a key,
and then one with that key; a run of calls opens, in order, the sessions of
the keys its own Create responses carried and no others.  The object has a
websocket context for each session to run on (`usesInBounds_iff`). -/
theorem startUserData_opens_its_own_key (boost : Boost) :
    (∀ (exchange : Exchange) (f : ℕ) (stream : Str) (s : ApiState),
      match ownKey boost (exchange s.beast.config.restApiUri (ascii "443")
        (s.beast.listenKeyRequest .create stream)) with
      | some k => Registers f (ascii "/ws/" ++ k) s
          ((startUserData boost exchange (some f) stream).outcome s)
      | none => RegistersNone s
          ((startUserData boost exchange (some f) stream).outcome s)) ∧
    ∀ (s : ApiState) (events : List KeyEvent), ∃ t opened,
      run (KeyRun.step boost) (KeyRun.start s) events = some t ∧
      t.api.sessions = s.sessions ++ opened ∧
      opened.map (fun new => new.session.path) =
        (events.filterMap (KeyEvent.opens boost)).map
          fun k => ascii "/ws/" ++ k := by
  constructor
  · intro exchange f stream s
    cases hkey : ownKey boost (exchange s.beast.config.restApiUri (ascii "443")
        (s.beast.listenKeyRequest .create stream)) with
    | some k => exact startUserData_of_key boost exchange f stream s hkey
    | none => exact (startUserData_of_none (some f) hkey).registersNone _
  · intro s events
    have htotal : ∀ (es : List KeyEvent) (m : KeyRun),
        ∃ t, run (KeyRun.step boost) m es = some t := by
      intro es
      induction es with
      | nil => exact fun m => ⟨m, rfl⟩
      | cons event es ih => exact fun m => ih _
    obtain ⟨t, hrun⟩ := htotal events (KeyRun.start s)
    obtain ⟨opened, hsessions, hpaths⟩ := KeyRun.run_sessions hrun
    exact ⟨t, opened, hrun, hsessions, hpaths⟩

end Bblib
