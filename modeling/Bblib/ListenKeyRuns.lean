import Bblib.ListenKey
import Bblib.LabelledRuns
import Mathlib.Tactic

/-!
# What users of the listen key are told

Two results about the three calls that use the listen key: what a renewal or a
close reports to its handler, and how the stored key follows the requests the
server accepted.
-/

namespace Bblib

open LabelledRuns

/-- The object of an accepted response: of one of the two JSON content types,
with a body that parses to an object without `code`. -/
def HttpResponse.acceptedObject (boost : Boost) (res : HttpResponse) :
    Option JsonObject :=
  if res.contentType = ascii "application/json" ∨
      res.contentType = ascii "application/json;charset=UTF-8" then
    match boost.parse res.body with
    | .ok (.object object) =>
        if (JsonObject.ifContains object (ascii "code")).isSome then none
        else some object
    | _ => none
  else none

theorem HttpResponse.listenKeyReply_eq_accepted {boost : Boost}
    {res : HttpResponse} {object : JsonObject} :
    res.listenKeyReply boost = .accepted object ↔
      res.acceptedObject boost = some object := by
  unfold listenKeyReply acceptedObject
  simp only [← HttpResponse.isJson_iff]
  by_cases hjson : res.isJson = true
  · rw [if_pos hjson, if_pos hjson]
    cases boost.parse res.body with
    | error ec => simp
    | ok value =>
        cases value with
        | object members =>
            simp only [Json.asObject_object]
            cases hcode : (JsonObject.ifContains members (ascii "code")).isSome with
            | true =>
                simp only [if_true, reduceCtorEq, iff_false]
                cases (JsonObject.index members (ascii "msg")).1.valueToString with
                | none => simp
                | some msg => simp
            | false => simp
        | _ => simp [Json.asObject]
  · simp [hjson]

theorem HttpResponse.acceptedObject_of_rejected {boost : Boost}
    {res : HttpResponse}
    (hreply : ∀ object, res.listenKeyReply boost ≠ .accepted object) :
    res.acceptedObject boost = none := by
  rw [Option.eq_none_iff_forall_ne_some]
  intro object haccepted
  exact hreply object (HttpResponse.listenKeyReply_eq_accepted.mpr haccepted)

/-! ## One report for each request -/

/-- The call invoked the handler once, with what the server answered. -/
def ReportedOnce (boost : Boost) (res : HttpResponse) (f : ℕ)
    (s t : ApiState) : Prop :=
  ∃ r : WsResponse, t.calls = s.calls ++ [(f, r)] ∧
    ((res.acceptedObject boost).isSome → r.state = .success) ∧
    (res.acceptedObject boost = none → r.state = .fail)

/-- An answer to a renewal or a close that lets `amendUserDataListenKey`
return: it is accepted, or reported to the handler. -/
theorem UserDataCall.amend_of_stored {boost : Boost} {exchange : Exchange}
    {call : UserDataCall} {s t : ApiState} {res : HttpResponse}
    {stored : Bool} (hmode : call.mode ≠ .create)
    (hkey : s.beast.listenKey ≠ [])
    (hexchange : exchange s.beast.config.restApiUri (ascii "443")
      (s.beast.listenKeyRequest call.mode call.stream) = .ok res)
    (hreturns : (call.amend boost exchange).outcome s = (.ok stored, t)) :
    stored = true ∧
      ((∃ object, res.acceptedObject boost = some object) ∧ t = s ∨
        res.acceptedObject boost = none ∧
          ∃ reason, t = s.reported call.handler reason) := by
  have hstored := amendUserDataListenKey_stored hreturns
  rw [amend, amendUserDataListenKey_ok hexchange,
    readListenKeyResponse_outcome, ApiState.beforeReply, if_neg hmode] at hreturns
  cases hreply : res.listenKeyReply boost with
  | accepted object =>
      simp only [hreply, acceptReply, if_neg hmode, Prod.mk.injEq,
        Except.ok.injEq] at hreturns
      obtain ⟨_, rfl⟩ := hreturns
      refine ⟨by simp [hstored, hkey], .inl ⟨⟨object, ?_⟩, rfl⟩⟩
      exact HttpResponse.listenKeyReply_eq_accepted.mp hreply
  | rejected reason =>
      simp only [hreply, Prod.mk.injEq, Except.ok.injEq] at hreturns
      obtain ⟨_, rfl⟩ := hreturns
      refine ⟨by simp [hstored, hkey], .inr ⟨?_, reason, rfl⟩⟩
      apply HttpResponse.acceptedObject_of_rejected
      simp [hreply]
  | malformed => simp [hreply] at hreturns

/-- A renewal or a close of a stored key adds a report of success to what
`amendUserDataListenKey` reported. -/
theorem UserDataCall.run_calls {boost : Boost} {exchange : Exchange}
    {call : UserDataCall} {s t : ApiState} {f : ℕ}
    (hmode : call.mode ≠ .create) (hhandler : call.handler = some f)
    (hamend : (call.amend boost exchange).outcome s = (.ok true, t)) :
    ((call.run boost exchange).outcome s).2.calls =
      t.calls ++ [(f, .ofState .success)] := by
  cases call with
  | startUserData handler stream => exact absurd rfl hmode
  | renewListenKey handler stream =>
      obtain rfl : handler = some f := hhandler
      have hextend : (amendUserDataListenKey boost exchange (some f) .extend
        stream).outcome s = (.ok true, t) := hamend
      rw [run, renewListenKey_outcome, hextend]
      rfl
  | closeUserData handler stream =>
      obtain rfl : handler = some f := hhandler
      have hclose : (amendUserDataListenKey boost exchange (some f) .close
        stream).outcome s = (.ok true, t) := hamend
      rw [run, closeUserData_outcome, hclose]
      rfl

theorem reportedOnce_iff_accepted {boost : Boost} {exchange : Exchange}
    {call : UserDataCall} {s t : ApiState} {f : ℕ} {res : HttpResponse}
    {stored : Bool} (hmode : call.mode ≠ .create)
    (hhandler : call.handler = some f) (hkey : s.beast.listenKey ≠ [])
    (hexchange : exchange s.beast.config.restApiUri (ascii "443")
      (s.beast.listenKeyRequest call.mode call.stream) = .ok res)
    (hreturns : (call.amend boost exchange).outcome s = (.ok stored, t)) :
    ReportedOnce boost res f s ((call.run boost exchange).outcome s).2 ↔
      ∃ object, res.acceptedObject boost = some object := by
  obtain ⟨rfl, hanswer⟩ :=
    UserDataCall.amend_of_stored hmode hkey hexchange hreturns
  have hcalls := UserDataCall.run_calls hmode hhandler hreturns
  rcases hanswer with ⟨⟨object, haccepted⟩, rfl⟩ | ⟨hrejected, reason, rfl⟩
  · constructor
    · intro _
      exact ⟨object, haccepted⟩
    · intro _
      refine ⟨.ofState .success, hcalls, ?_, ?_⟩
      · simp
      · simp [haccepted]
  · constructor
    · rintro ⟨r, honce, _⟩
      rw [hcalls, hhandler] at honce
      simp at honce
    · rintro ⟨object, haccepted⟩
      rw [hrejected] at haccepted
      contradiction

def sampleApi (listenKey : Str) : ApiState where
  beast := { sampleBeast with listenKey := listenKey }
  sessions := []
  calls := []

def jsonResponse (body : String) : HttpResponse :=
  ⟨200, ascii "application/json", ascii body⟩

def keyCreated : HttpResponse := jsonResponse "\x7b\"listenKey\":\"k1\"\x7d"

def keyUnknown : HttpResponse :=
  jsonResponse "\x7b\"code\":-1125,\"msg\":\"unknown key\"\x7d"

theorem accepted_close_is_reported_once :
    ReportedOnce sampleBoost (jsonResponse "\x7b\x7d") 0 (sampleApi (ascii "k1"))
        (((UserDataCall.closeUserData (some 0)
          (ascii "/fapi/v1/listenKey")).run sampleBoost
            fun _ _ _ => .ok (jsonResponse "\x7b\x7d")).outcome
              (sampleApi (ascii "k1"))).2 ↔
      ∃ object, (jsonResponse "\x7b\x7d").acceptedObject sampleBoost =
        some object := by
  apply reportedOnce_iff_accepted
  · decide
  · rfl
  · decide
  · rfl
  · rfl

/-- The handler of a rejected renewal hears of the failure and of a success. -/
theorem rejected_renewal_is_reported_twice :
    ¬ ∀ (boost : Boost) (exchange : Exchange) (call : UserDataCall)
      (s t : ApiState) (f : ℕ) (res : HttpResponse) (stored : Bool),
      call.mode ≠ .create → call.handler = some f → s.beast.listenKey ≠ [] →
      exchange s.beast.config.restApiUri (ascii "443")
        (s.beast.listenKeyRequest call.mode call.stream) = .ok res →
      (call.amend boost exchange).outcome s = (.ok stored, t) →
      ReportedOnce boost res f s ((call.run boost exchange).outcome s).2 := by
  intro hall
  obtain ⟨r, honce, _⟩ := hall sampleBoost (fun _ _ _ => .ok keyUnknown)
    (.renewListenKey (some 0) (ascii "/fapi/v1/listenKey"))
    (sampleApi (ascii "k1")) _ 0 keyUnknown _ (by decide) rfl (by decide) rfl
    rfl
  have hlength : 2 = 1 := congrArg List.length honce
  exact absurd hlength (by decide)

/-! ## The key across calls -/

/-- The stored key after `amendUserDataListenKey`. -/
def amendedKey (boost : Boost) (mode : UserDataStreamMode)
    (received : Except ErrorCode HttpResponse) (key : Str) : Str :=
  match received, mode with
  | .ok res, .create =>
      match res.listenKeyReply boost with
      | .accepted object =>
          ((JsonObject.index object (ascii "listenKey")).1.valueToString).getD []
      | _ => []
  | _, _ => key

theorem UserDataCall.amend_listenKey (boost : Boost) (call : UserDataCall)
    (received : Except ErrorCode HttpResponse) (s : ApiState) :
    ((call.amend boost fun _ _ _ => received).outcome s).2.beast.listenKey =
      amendedKey boost call.mode received s.beast.listenKey := by
  unfold amend
  cases received with
  | error ec =>
      rw [amendUserDataListenKey_error rfl]
      rfl
  | ok res =>
      rw [amendUserDataListenKey_ok rfl, readListenKeyResponse_outcome]
      cases hreply : res.listenKeyReply boost with
      | accepted object =>
          cases call.mode with
          | create =>
              simp only [acceptReply, ApiState.beforeReply, amendedKey, hreply,
                if_true]
              cases (object.index (ascii "listenKey")).1.valueToString with
              | none => rfl
              | some key => rfl
          | extend => rfl
          | close => rfl
      | rejected reason =>
          cases hmode : call.mode <;>
            simp [ApiState.beforeReply, amendedKey, hreply]
      | malformed =>
          cases hmode : call.mode <;>
            simp [ApiState.beforeReply, amendedKey, hreply]

theorem invoke_listenKey (handler : Callback) (response : WsResponse)
    (s : ApiState) :
    ((invoke handler response).outcome s).2.beast.listenKey =
      s.beast.listenKey := by
  rw [invoke_beast]

theorem UserDataCall.run_startUserData (boost : Boost) (exchange : Exchange)
    (handler : Callback) (stream : Str) (s : ApiState) :
    (((UserDataCall.startUserData handler stream).run boost
      exchange).outcome s).2 =
      ((Bblib.startUserData boost exchange handler stream).outcome s).2 := by
  rw [run, Api.outcome_bind]
  generalize (Bblib.startUserData boost exchange handler stream).outcome s =
    started
  obtain ⟨result, t⟩ := started
  cases result with
  | error e => rfl
  | ok token => rfl

theorem startUserData_listenKey (boost : Boost) (exchange : Exchange)
    (handler : Callback) (stream : Str) (s : ApiState) :
    ((startUserData boost exchange handler stream).outcome s).2.beast.listenKey =
      ((amendUserDataListenKey boost exchange handler .create
        stream).outcome s).2.beast.listenKey := by
  apply Api.outcome_bind_ite_keeps
    (P := fun t => t.beast.listenKey = ((amendUserDataListenKey boost exchange
      handler .create stream).outcome s).2.beast.listenKey) rfl
  · intro t hkey
    rw [Api.outcome_get_bind, createWsSession_listenKey]
    exact hkey
  · exact fun t hkey => hkey

theorem renewListenKey_listenKey (boost : Boost) (exchange : Exchange)
    (handler : Callback) (stream : Str) (s : ApiState) :
    ((renewListenKey boost exchange handler stream).outcome s).2.beast.listenKey =
      ((amendUserDataListenKey boost exchange handler .extend
        stream).outcome s).2.beast.listenKey := by
  apply Api.outcome_bind_ite_keeps
    (P := fun t => t.beast.listenKey = ((amendUserDataListenKey boost exchange
      handler .extend stream).outcome s).2.beast.listenKey) rfl
  · exact fun t hkey => (invoke_listenKey handler _ t).trans hkey
  · exact fun t hkey => (invoke_listenKey handler _ t).trans hkey

theorem closeUserData_listenKey (boost : Boost) (exchange : Exchange)
    (handler : Callback) (stream : Str) (s : ApiState) :
    ((closeUserData boost exchange handler stream).outcome s).2.beast.listenKey =
      match (amendUserDataListenKey boost exchange handler .close
        stream).outcome s with
      | (.ok _, _) => []
      | (.error _, t) => t.beast.listenKey := by
  rw [closeUserData_outcome]
  cases hamend : (amendUserDataListenKey boost exchange handler .close
      stream).outcome s with
  | mk result t =>
      cases result with
      | error e => rfl
      | ok stored =>
          have hstored := amendUserDataListenKey_stored hamend
          cases stored with
          | true => exact invoke_listenKey handler _ (t.withKey [])
          | false =>
              have hempty : t.beast.listenKey = [] := by simpa using hstored
              exact (invoke_listenKey handler _ t).trans hempty

/-- The listen key an accepted Create response carries. -/
def HttpResponse.createdKey (boost : Boost) (res : HttpResponse) :
    Option Str :=
  (res.acceptedObject boost).bind fun object =>
    (JsonObject.ifContains object (ascii "listenKey")).bind Json.valueToString

structure KeyEvent where
  call : UserDataCall
  received : Except ErrorCode HttpResponse

/-- The object together with the key the accepted requests amount to. -/
structure KeyRun where
  api : ApiState
  ghost : Str

namespace KeyRun

def start (s : ApiState) : KeyRun := ⟨s, s.beast.listenKey⟩

def ghostAfter (boost : Boost) (event : KeyEvent) (ghost : Str) : Str :=
  match event.received, event.call.mode with
  | .ok res, .create => (res.createdKey boost).getD []
  | .ok res, .close =>
      if (res.acceptedObject boost).isSome then [] else ghost
  | _, _ => ghost

def outcome (boost : Boost) (m : KeyRun) (event : KeyEvent) :
    Except Exn Unit × ApiState :=
  (event.call.run boost fun _ _ _ => event.received).outcome m.api

def step (boost : Boost) (m : KeyRun) (event : KeyEvent) : Option KeyRun :=
  some ⟨(m.outcome boost event).2, ghostAfter boost event m.ghost⟩

structure Follows (boost : Boost) (m : KeyRun) (event : KeyEvent)
    (next : KeyRun) : Prop where
  key_eq_ghost : (m.outcome boost event).1 = .ok () →
    next.api.beast.listenKey = next.ghost
  kept : event.call.mode ≠ .create → ∀ res, event.received = .ok res →
    res.acceptedObject boost = none →
    next.api.beast.listenKey = m.api.beast.listenKey

/-- No close of a stored key is rejected in a way the handler is told of. -/
def NoRejectedClose (boost : Boost) (m : KeyRun) (event : KeyEvent) : Prop :=
  event.call.mode = .close → m.api.beast.listenKey ≠ [] →
    ∀ res, event.received = .ok res →
      ∀ reason, res.listenKeyReply boost ≠ .rejected reason

end KeyRun

theorem amendedKey_create (boost : Boost) (res : HttpResponse) (key : Str) :
    amendedKey boost .create (.ok res) key = (res.createdKey boost).getD [] := by
  unfold amendedKey HttpResponse.createdKey
  cases hreply : res.listenKeyReply boost with
  | accepted object =>
      have haccepted := HttpResponse.listenKeyReply_eq_accepted.mp hreply
      simp only [hreply, haccepted, Option.bind_some,
        JsonObject.valueToString_index]
  | rejected reason =>
      have hnone : res.acceptedObject boost = none :=
        HttpResponse.acceptedObject_of_rejected (by simp [hreply])
      simp [hreply, hnone]
  | malformed =>
      have hnone : res.acceptedObject boost = none :=
        HttpResponse.acceptedObject_of_rejected (by simp [hreply])
      simp [hreply, hnone]

theorem closeUserData_received (boost : Boost) (handler : Callback)
    (stream : Str) (received : Except ErrorCode HttpResponse) (s : ApiState) :
    ((closeUserData boost (fun _ _ _ => received) handler
      stream).outcome s).2.beast.listenKey =
      match received with
      | .error _ => s.beast.listenKey
      | .ok res =>
          match res.listenKeyReply boost with
          | .malformed => s.beast.listenKey
          | _ => [] := by
  rw [closeUserData_listenKey]
  cases received with
  | error ec => rw [amendUserDataListenKey_error rfl]
  | ok res =>
      rw [amendUserDataListenKey_ok rfl, readListenKeyResponse_outcome]
      cases hreply : res.listenKeyReply boost with
      | accepted object => simp [hreply, acceptReply]
      | rejected reason => simp [hreply]
      | malformed => simp [hreply, ApiState.beforeReply]

/-- The stored key follows the ghost key, also through calls that throw. -/
theorem KeyRun.step_listenKey {boost : Boost} {m next : KeyRun}
    {event : KeyEvent} (hinv : m.api.beast.listenKey = m.ghost)
    (hcondition : m.NoRejectedClose boost event)
    (hstep : m.step boost event = some next) :
    next.api.beast.listenKey = next.ghost := by
  obtain rfl := Option.some.inj hstep
  obtain ⟨call, received⟩ := event
  show ((call.run boost fun _ _ _ => received).outcome m.api).2.beast.listenKey =
    ghostAfter boost ⟨call, received⟩ m.ghost
  cases call with
  | startUserData handler stream =>
      have hkey := (startUserData_listenKey boost _ handler stream m.api).trans
        (UserDataCall.amend_listenKey boost (.startUserData handler stream)
          received m.api)
      rw [UserDataCall.run_startUserData, hkey]
      cases received with
      | error ec => exact hinv
      | ok res => exact amendedKey_create boost res _
  | renewListenKey handler stream =>
      have hkey := (renewListenKey_listenKey boost _ handler stream m.api).trans
        (UserDataCall.amend_listenKey boost (.renewListenKey handler stream)
          received m.api)
      rw [UserDataCall.run, hkey]
      cases received with
      | error ec => exact hinv
      | ok res => exact hinv
  | closeUserData handler stream =>
      rw [UserDataCall.run, closeUserData_received]
      cases received with
      | error ec => exact hinv
      | ok res =>
          cases hreply : res.listenKeyReply boost with
          | accepted object =>
              have haccepted := HttpResponse.listenKeyReply_eq_accepted.mp hreply
              simp [ghostAfter, UserDataCall.mode, hreply, haccepted]
          | rejected reason =>
              have hempty : m.api.beast.listenKey = [] := by
                by_contra hne
                exact hcondition rfl hne res rfl reason hreply
              have hnone : res.acceptedObject boost = none :=
                HttpResponse.acceptedObject_of_rejected (by simp [hreply])
              simp [ghostAfter, UserDataCall.mode, hreply, hnone, ← hinv, hempty]
          | malformed =>
              have hnone : res.acceptedObject boost = none :=
                HttpResponse.acceptedObject_of_rejected (by simp [hreply])
              simp [ghostAfter, UserDataCall.mode, hreply, hnone, hinv]

theorem KeyRun.step_follows {boost : Boost} {m next : KeyRun}
    {event : KeyEvent} (hinv : m.api.beast.listenKey = m.ghost)
    (hcondition : m.NoRejectedClose boost event)
    (hstep : m.step boost event = some next) :
    m.Follows boost event next := by
  have hkey := KeyRun.step_listenKey hinv hcondition hstep
  obtain rfl := Option.some.inj hstep
  constructor
  · intro _
    exact hkey
  · intro hmode res hreceived hrejected
    rw [hkey, hinv]
    unfold ghostAfter
    cases hcall : event.call.mode with
    | create => exact absurd hcall hmode
    | extend => simp [hreceived]
    | close => simp [hreceived, hrejected]

/-- Over every run of the three calls, against every server. -/
theorem KeyRun.stored_key_follows_ghost (boost : Boost) (s : ApiState)
    (events : List KeyEvent)
    (hcondition : Meets (KeyRun.step boost) (KeyRun.NoRejectedClose boost)
      (KeyRun.start s) events) :
    EveryStep (KeyRun.step boost) (KeyRun.Follows boost) (KeyRun.start s)
      events :=
  everyStep_of_invariant (I := fun m => m.api.beast.listenKey = m.ghost)
    (fun _ _ _ hinv hallowed hstep =>
      KeyRun.step_listenKey hinv hallowed hstep)
    (fun _ _ _ hinv hallowed hstep => KeyRun.step_follows hinv hallowed hstep)
    rfl hcondition

def userDataCreated : KeyEvent where
  call := .startUserData (some 0) (ascii "/fapi/v1/listenKey")
  received := .ok keyCreated

def userDataClosed (res : HttpResponse) : KeyEvent where
  call := .closeUserData (some 0) (ascii "/fapi/v1/listenKey")
  received := .ok res

theorem accepted_close_follows_ghost :
    EveryStep (KeyRun.step sampleBoost) (KeyRun.Follows sampleBoost)
      (KeyRun.start (sampleApi []))
      [userDataCreated, userDataClosed (jsonResponse "\x7b\x7d")] := by
  apply KeyRun.stored_key_follows_ghost
  refine meets_cons_of_step nofun rfl ?_
  refine meets_cons_of_step ?_ rfl meets_nil
  intro _ _ res hres reason
  obtain rfl := Except.ok.inj hres
  exact nofun

/-- The server knows the key but rejects the close; the key is gone. -/
theorem rejected_close_clears_key :
    ¬ EveryStep (KeyRun.step sampleBoost) (KeyRun.Follows sampleBoost)
      (KeyRun.start (sampleApi []))
      [userDataCreated, userDataClosed keyUnknown] := by
  intro hall
  have hfollows := hall [userDataCreated] (userDataClosed keyUnknown) [] _ _
    rfl rfl rfl
  have hkey := hfollows.key_eq_ghost rfl
  exact absurd hkey (by decide)

end Bblib
