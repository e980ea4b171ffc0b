import Bblib.ListenKeyRuns
import Mathlib.Tactic

/-!
# Replies the listen key functions cannot read

`amendUserDataListenKey` reads the JSON of a reply with accessors that throw
and, unlike `hasErrorCode`, catches nothing.  It returns, and reports every
reply it does not accept, exactly for the replies whose members have the kinds
it expects.
-/

namespace Bblib

def JsonObject.HasString (object : JsonObject) (key : Str) : Prop :=
  ∃ text, object.ifContains key = some (.string text)

theorem JsonObject.hasString_iff {object : JsonObject} {key : Str} :
    object.HasString key ↔ (object.index key).1.valueToString.isSome := by
  rw [JsonObject.valueToString_index]
  unfold JsonObject.HasString
  cases object.ifContains key with
  | none => simp
  | some value =>
      cases value with
      | string text => simp [Json.valueToString]
      | _ => simp [Json.valueToString]

/-! ## Replies -/

/-- The members that are read of an object have the kinds expected of them. -/
def JsonObject.Readable (mode : UserDataStreamMode) (object : JsonObject) :
    Prop :=
  if (object.ifContains (ascii "code")).isSome then
    object.HasString (ascii "msg")
  else mode = .create → object.HasString (ascii "listenKey")

/-- A reply of another content type, or whose body does not parse, is not
looked into; any other is an object that can be read. -/
def HttpResponse.Readable (boost : Boost) (mode : UserDataStreamMode)
    (res : HttpResponse) : Prop :=
  (res.contentType = ascii "application/json" ∨
      res.contentType = ascii "application/json;charset=UTF-8") →
    ∀ value, boost.parse res.body = .ok value →
      ∃ object, value = .object object ∧ JsonObject.Readable mode object

/-- The reply is an object without `code`, and for a Create request one with a
string for the listen key. -/
def HttpResponse.Accepts (boost : Boost) (mode : UserDataStreamMode)
    (res : HttpResponse) : Prop :=
  ∃ object, res.acceptedObject boost = some object ∧
    (mode = .create → object.HasString (ascii "listenKey"))

/-- The call returned, and reported the reply as a failure unless it accepted
it. -/
structure HandlesReply (boost : Boost) (handler : Callback)
    (mode : UserDataStreamMode) (res : HttpResponse) (s : ApiState)
    (ended : Except Exn Bool × ApiState) : Prop where
  returns : ∃ stored, ended.1 = .ok stored
  reports : ¬ res.Accepts boost mode → ∃ reason,
    ended.2.calls = s.calls ++
      (handler.map fun f => (f, WsResponse.ofReason reason)).toList

/-! ## How each kind of reply is handled -/

theorem ApiState.beforeReply_calls (s : ApiState) (mode : UserDataStreamMode) :
    (s.beforeReply mode).calls = s.calls := by
  cases mode <;> rfl

section Reply

variable {boost : Boost} {exchange : Exchange} {handler : Callback}
  {mode : UserDataStreamMode} {streamName : Str} {s : ApiState}
  {res : HttpResponse}

theorem HandlesReply.of_rejected {reason : Str}
    (hexchange : exchange s.beast.config.restApiUri (ascii "443")
      (s.beast.listenKeyRequest mode streamName) = .ok res)
    (hreply : res.listenKeyReply boost = .rejected reason) :
    HandlesReply boost handler mode res s
      ((amendUserDataListenKey boost exchange handler mode
        streamName).outcome s) := by
  rw [amendUserDataListenKey_ok hexchange, readListenKeyResponse_outcome,
    hreply]
  constructor
  · exact ⟨_, rfl⟩
  · intro _
    refine ⟨reason, ?_⟩
    rw [← ApiState.beforeReply_calls s mode]
    rfl

theorem not_handlesReply_of_malformed
    (hexchange : exchange s.beast.config.restApiUri (ascii "443")
      (s.beast.listenKeyRequest mode streamName) = .ok res)
    (hreply : res.listenKeyReply boost = .malformed) :
    ¬ HandlesReply boost handler mode res s
      ((amendUserDataListenKey boost exchange handler mode
        streamName).outcome s) := by
  rw [amendUserDataListenKey_ok hexchange, readListenKeyResponse_outcome,
    hreply]
  rintro ⟨⟨stored, hreturns⟩, _⟩
  simp at hreturns

theorem handlesReply_of_accepted_iff {object : JsonObject}
    (hexchange : exchange s.beast.config.restApiUri (ascii "443")
      (s.beast.listenKeyRequest mode streamName) = .ok res)
    (hreply : res.listenKeyReply boost = .accepted object) :
    HandlesReply boost handler mode res s
        ((amendUserDataListenKey boost exchange handler mode
          streamName).outcome s) ↔
      (mode = .create → object.HasString (ascii "listenKey")) := by
  have haccepted := HttpResponse.listenKeyReply_eq_accepted.mp hreply
  rw [amendUserDataListenKey_ok hexchange, readListenKeyResponse_outcome,
    hreply]
  simp only [acceptReply]
  by_cases hmode : mode = .create
  · rw [if_pos hmode]
    cases hkey : (object.index (ascii "listenKey")).1.valueToString with
    | none =>
        have hnone : ¬ object.HasString (ascii "listenKey") := by
          rw [JsonObject.hasString_iff, hkey]
          simp
        constructor
        · rintro ⟨⟨stored, hreturns⟩, _⟩
          simp at hreturns
        · intro hstring
          exact absurd (hstring hmode) hnone
    | some key =>
        have hstring : object.HasString (ascii "listenKey") := by
          rw [JsonObject.hasString_iff, hkey]
          simp
        constructor
        · intro _ _
          exact hstring
        · intro _
          refine ⟨⟨_, rfl⟩, ?_⟩
          intro hrefused
          exact absurd ⟨object, haccepted, fun _ => hstring⟩ hrefused
  · rw [if_neg hmode]
    constructor
    · intro _ hcreate
      exact absurd hcreate hmode
    · intro _
      refine ⟨⟨_, rfl⟩, ?_⟩
      intro hrefused
      exact absurd ⟨object, haccepted, fun hcreate => absurd hcreate hmode⟩
        hrefused

end Reply

/-! ## Which replies are readable -/

theorem HttpResponse.readable_iff (boost : Boost) (mode : UserDataStreamMode)
    (res : HttpResponse) :
    res.Readable boost mode ↔
      match res.listenKeyReply boost with
      | .accepted object =>
          mode = .create → object.HasString (ascii "listenKey")
      | .rejected _ => True
      | .malformed => False := by
  unfold HttpResponse.Readable listenKeyReply
  simp only [← HttpResponse.isJson_iff]
  by_cases hjson : res.isJson = true
  · rw [if_pos hjson]
    cases hparse : boost.parse res.body with
    | error ec => simp
    | ok value =>
        cases hobject : value.asObject with
        | none =>
            have hkind : ∀ object, value ≠ .object object := by
              rintro object rfl
              simp at hobject
            simp [hjson, hkind, hobject]
        | some object =>
            obtain rfl : value = .object object := by
              cases value <;> simp_all [Json.asObject]
            simp only [hjson, Except.ok.injEq, forall_const, forall_eq',
              Json.object.injEq, exists_eq_left', JsonObject.Readable, hobject]
            cases hcode : (object.ifContains (ascii "code")).isSome with
            | false => simp
            | true =>
                simp only [if_true, JsonObject.hasString_iff]
                cases (object.index (ascii "msg")).1.valueToString with
                | none => simp
                | some msg => simp
  · simp [hjson]

/-- Over every response a server can send: the call returns and reports what
it does not accept exactly when the reply is readable. -/
theorem amendUserDataListenKey_handles_iff {boost : Boost}
    {exchange : Exchange} {handler : Callback} {mode : UserDataStreamMode}
    {streamName : Str} {s : ApiState} {res : HttpResponse}
    (hexchange : exchange s.beast.config.restApiUri (ascii "443")
      (s.beast.listenKeyRequest mode streamName) = .ok res) :
    HandlesReply boost handler mode res s
        ((amendUserDataListenKey boost exchange handler mode
          streamName).outcome s) ↔ res.Readable boost mode := by
  rw [HttpResponse.readable_iff]
  cases hreply : res.listenKeyReply boost with
  | accepted object => exact handlesReply_of_accepted_iff hexchange hreply
  | rejected reason =>
      simp only [iff_true]
      exact HandlesReply.of_rejected hexchange hreply
  | malformed =>
      simp only [iff_false]
      exact not_handlesReply_of_malformed hexchange hreply

theorem rejected_create_is_handled :
    HandlesReply sampleBoost (some 0) .create keyUnknown (sampleApi [])
        ((amendUserDataListenKey sampleBoost (fun _ _ _ => .ok keyUnknown)
          (some 0) .create (ascii "/fapi/v1/listenKey")).outcome
            (sampleApi [])) ↔
      keyUnknown.Readable sampleBoost .create := by
  apply amendUserDataListenKey_handles_iff
  rfl

/-- A reply that is an array ends a renewal in an exception. -/
theorem array_reply_throws :
    ¬ ∀ (boost : Boost) (exchange : Exchange) (handler : Callback)
      (mode : UserDataStreamMode) (streamName : Str) (s : ApiState)
      (res : HttpResponse),
      exchange s.beast.config.restApiUri (ascii "443")
        (s.beast.listenKeyRequest mode streamName) = .ok res →
      HandlesReply boost handler mode res s
        ((amendUserDataListenKey boost exchange handler mode
          streamName).outcome s) := by
  intro hall
  obtain ⟨⟨stored, hreturns⟩, _⟩ := hall sampleBoost
    (fun _ _ _ => .ok (jsonResponse "[]")) (some 0) .extend
    (ascii "/fapi/v1/listenKey") (sampleApi (ascii "k1")) _ rfl
  contradiction

end Bblib
