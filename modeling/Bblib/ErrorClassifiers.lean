import Bblib.Common
import Mathlib.Tactic

/-!
# The two `hasErrorCode`

The classes recognise errors by separate code with the tests in a different
order.  One equation for each says what a call returns and leaves: the answer
depends on the stored JSON value and the flag alone and the value stays, so
that calling again returns the same.  On which values the classes differ is a
condition on the members `error` and `code`.
-/

namespace Bblib

/-! ## The errors of a value -/

def JsonObject.restError (boost : Boost) (object : JsonObject) : Bool :=
  (object.ifContains (ascii "error")).isSome ||
    match object.ifContains (ascii "code") with
    | none => false
    | some code => boost.valueToInt64 code != some 200

def JsonObject.wsError (object : JsonObject) : Bool :=
  (object.ifContains (ascii "error")).isSome ||
    (object.ifContains (ascii "code")).isSome

/-- An object is an error if `objectError` says so, null if it is not allowed,
and nothing else. -/
def Json.hasError (objectError : JsonObject → Bool) (isNullAllowed : Bool) :
    Json → Bool
  | .null => !isNullAllowed
  | .object members => objectError members
  | _ => false

/-- The message that replaces `old` where an object has a `code`. -/
def JsonObject.message (object : JsonObject) (old : Str) : Str :=
  match object.ifContains (ascii "msg") with
  | none => []
  | some msg => msg.valueToString.getD old

def JsonObject.restMessage (boost : Boost) (object : JsonObject) (old : Str) :
    Str :=
  if (object.ifContains (ascii "error")).isSome then old
  else
    match (object.ifContains (ascii "code")).bind boost.valueToInt64 with
    | none => old
    | some code => if code = 200 then old else object.message old

def JsonObject.wsMessage (object : JsonObject) (old : Str) : Str :=
  if (object.ifContains (ascii "code")).isSome then object.message old else old

def Json.failMessage (objectMessage : JsonObject → Str → Str) (old : Str) :
    Json → Str
  | .object members => objectMessage members old
  | _ => old

/-- There is no member `error`, and `code` converts to 200. -/
def JsonObject.CodeIsOk (boost : Boost) (object : JsonObject) : Prop :=
  object.ifContains (ascii "error") = none ∧
    ∃ code, object.ifContains (ascii "code") = some code ∧
      boost.valueToInt64 code = some 200

def Json.CodeIsOk (boost : Boost) (value : Json) : Prop :=
  ∃ object : JsonObject, value = .object object ∧ object.CodeIsOk boost

theorem JsonObject.wsError_of_restError {boost : Boost} {object : JsonObject}
    (herror : object.restError boost = true) : object.wsError = true := by
  unfold restError at herror
  unfold wsError
  cases hcode : object.ifContains (ascii "code") with
  | none =>
      rw [hcode] at herror
      simpa using herror
  | some code => simp

theorem JsonObject.errors_of_codeIsOk {boost : Boost} {object : JsonObject}
    (hok : object.CodeIsOk boost) :
    object.restError boost = false ∧ object.wsError = true := by
  obtain ⟨herror, code, hcode, hvalue⟩ := hok
  constructor
  · simp [restError, herror, hcode, hvalue]
  · simp [wsError, hcode]

theorem JsonObject.restError_eq_wsError_iff (boost : Boost)
    (object : JsonObject) :
    object.restError boost = object.wsError ↔ ¬ object.CodeIsOk boost := by
  unfold restError wsError CodeIsOk
  cases object.ifContains (ascii "error") with
  | some value => simp
  | none =>
      cases object.ifContains (ascii "code") with
      | none => simp
      | some code => simp

theorem Json.codeIsOk_object {boost : Boost} {object : JsonObject} :
    (Json.object object).CodeIsOk boost ↔ object.CodeIsOk boost := by
  simp [Json.CodeIsOk]

theorem Json.hasError_eq_iff (boost : Boost) (isNullAllowed : Bool)
    (value : Json) :
    value.hasError (JsonObject.restError boost) isNullAllowed =
        value.hasError JsonObject.wsError isNullAllowed ↔
      ¬ value.CodeIsOk boost := by
  cases value with
  | object members =>
      rw [codeIsOk_object]
      exact JsonObject.restError_eq_wsError_iff boost members
  | _ => simp [hasError, CodeIsOk]

theorem Json.wsError_of_restError {boost : Boost} {isNullAllowed : Bool}
    {value : Json}
    (herror : value.hasError (JsonObject.restError boost) isNullAllowed =
      true) :
    value.hasError JsonObject.wsError isNullAllowed = true := by
  cases value with
  | object members => exact JsonObject.wsError_of_restError herror
  | _ => exact herror

theorem Json.errors_of_codeIsOk {boost : Boost} {value : Json}
    (hok : value.CodeIsOk boost) (isNullAllowed : Bool) :
    value.hasError (JsonObject.restError boost) isNullAllowed = false ∧
      value.hasError JsonObject.wsError isNullAllowed = true := by
  obtain ⟨object, rfl, hobject⟩ := hok
  exact JsonObject.errors_of_codeIsOk hobject

/-! ## What one call does -/

theorem RestResponse.findError_object (boost : Boost) (object : JsonObject)
    (state : State) (old : Str) (isNullAllowed : Bool) :
    findError boost ⟨.object object, state, old⟩ isNullAllowed =
      (object.restError boost,
        ⟨.object object, state, object.restMessage boost old⟩) := by
  unfold findError JsonObject.restError JsonObject.restMessage
  cases herror : object.ifContains (ascii "error") with
  | some value => simp [Json.isNull, herror]
  | none =>
      cases hcode : object.ifContains (ascii "code") with
      | none => simp [Json.isNull, herror, hcode]
      | some code =>
          have hindex := JsonObject.index_of_ifContains hcode
          cases hvalue : boost.valueToInt64 code with
          | none => simp [Json.isNull, herror, hcode, hindex, hvalue]
          | some value =>
              by_cases hok : value = 200
              · simp [Json.isNull, herror, hcode, hindex, hvalue, hok]
              · cases hmsg : object.ifContains (ascii "msg") with
                | none =>
                    simp [Json.isNull, herror, hcode, hindex, hvalue, hok,
                      JsonObject.message, hmsg]
                | some msg =>
                    have hmsgIndex := JsonObject.index_of_ifContains hmsg
                    cases hstring : msg.valueToString with
                    | none =>
                        simp [Json.isNull, herror, hcode, hindex, hvalue, hok,
                          JsonObject.message, hmsg, hmsgIndex, hstring]
                    | some text =>
                        simp [Json.isNull, herror, hcode, hindex, hvalue, hok,
                          JsonObject.message, hmsg, hmsgIndex, hstring]

theorem WsResponse.findError_object (object : JsonObject) (state : State)
    (old : Str) (isNullAllowed : Bool) :
    findError ⟨.object object, state, old⟩ isNullAllowed =
      (object.wsError, ⟨.object object, state, object.wsMessage old⟩) := by
  unfold findError JsonObject.wsError JsonObject.wsMessage
  cases hcode : object.ifContains (ascii "code") with
  | none => simp [Json.isNull, hcode]
  | some code =>
      cases hmsg : object.ifContains (ascii "msg") with
      | none => simp [Json.isNull, hcode, JsonObject.message, hmsg]
      | some msg =>
          have hindex := JsonObject.index_of_ifContains hmsg
          cases hstring : msg.valueToString with
          | none =>
              simp [Json.isNull, hcode, JsonObject.message, hmsg, hindex,
                hstring]
          | some text =>
              simp [Json.isNull, hcode, JsonObject.message, hmsg, hindex,
                hstring]

/-- The answer is that of the value, which stays. -/
theorem RestResponse.hasErrorCode_eq (boost : Boost) (response : RestResponse)
    (isNullAllowed : Bool) :
    response.hasErrorCode boost isNullAllowed =
      let error :=
        response.json.hasError (JsonObject.restError boost) isNullAllowed
      (error, {
        json := response.json
        state := if error then .fail else .success
        failMessage := response.json.failMessage
          (JsonObject.restMessage boost) response.failMessage }) := by
  obtain ⟨value, state, old⟩ := response
  unfold hasErrorCode
  cases value with
  | object members => rw [findError_object]; rfl
  | null =>
      cases isNullAllowed with
      | true => rfl
      | false => rfl
  | _ => simp [findError, Json.isNull, Json.asObject, Json.hasError,
      Json.failMessage]

theorem WsResponse.hasErrorCode_eq {response : WsResponse}
    (hstate : response.state ≠ .disconnect) (isNullAllowed : Bool) :
    response.hasErrorCode isNullAllowed =
      let error := response.json.hasError JsonObject.wsError isNullAllowed
      (error, {
        json := response.json
        state := if error then .fail else .success
        failMessage := response.json.failMessage JsonObject.wsMessage
          response.failMessage }) := by
  obtain ⟨value, state, old⟩ := response
  unfold hasErrorCode
  rw [if_neg hstate]
  cases value with
  | object members => rw [findError_object]; rfl
  | null =>
      cases isNullAllowed with
      | true => rfl
      | false => rfl
  | _ => simp [findError, Json.isNull, Json.asObject, Json.hasError,
      Json.failMessage]

/-! ## A series of calls -/

/-- The answers of calls with these flags, one after another on one response,
and the response they leave. -/
def checkSeries {ResultT : Type} (check : ResultT → Bool → Bool × ResultT)
    (response : ResultT) : List Bool → List Bool × ResultT
  | [] => ([], response)
  | flag :: flags =>
      let (error, response) := check response flag
      let (errors, response) := checkSeries check response flags
      (error :: errors, response)

/-- If a call answers from what every call keeps, all answers are known at the
start. -/
theorem checkSeries_of_keeps {ResultT : Type}
    {check : ResultT → Bool → Bool × ResultT} {answer : Bool → Bool}
    (Keeps : ResultT → Prop)
    (hcheck : ∀ response flag, Keeps response →
      (check response flag).1 = answer flag ∧ Keeps (check response flag).2)
    {response : ResultT} (hresponse : Keeps response) (flags : List Bool) :
    (checkSeries check response flags).1 = flags.map answer ∧
      Keeps (checkSeries check response flags).2 := by
  induction flags generalizing response with
  | nil => exact ⟨rfl, hresponse⟩
  | cons flag flags ih =>
      have hfirst := hcheck response flag hresponse
      have hrest := ih hfirst.2
      simp only [checkSeries, List.map_cons]
      exact ⟨by rw [hfirst.1, hrest.1], hrest.2⟩

theorem RestResponse.hasErrorCode_keeps {boost : Boost} {value : Json}
    {response : RestResponse} (hjson : response.json = value)
    (isNullAllowed : Bool) :
    (response.hasErrorCode boost isNullAllowed).1 =
        value.hasError (JsonObject.restError boost) isNullAllowed ∧
      (response.hasErrorCode boost isNullAllowed).2.json = value := by
  rw [hasErrorCode_eq, hjson]
  exact ⟨rfl, rfl⟩

theorem RestResponse.checkSeries_eq {boost : Boost} {value : Json}
    {response : RestResponse} (hjson : response.json = value)
    (flags : List Bool) :
    (checkSeries (hasErrorCode boost) response flags).1 = flags.map (fun flag =>
        value.hasError (JsonObject.restError boost) flag) ∧
      (checkSeries (hasErrorCode boost) response flags).2.json = value :=
  checkSeries_of_keeps (fun next : RestResponse => next.json = value)
    (fun _ flag hnext => hasErrorCode_keeps hnext flag) hjson flags

/-- The response stores `value`, and is not that of a stopped session. -/
def WsResponse.Stores (value : Json) (response : WsResponse) : Prop :=
  response.json = value ∧ response.state ≠ .disconnect

theorem WsResponse.hasErrorCode_keeps {value : Json} {response : WsResponse}
    (hstores : response.Stores value) (isNullAllowed : Bool) :
    (response.hasErrorCode isNullAllowed).1 =
        value.hasError JsonObject.wsError isNullAllowed ∧
      (response.hasErrorCode isNullAllowed).2.Stores value := by
  obtain ⟨hjson, hstate⟩ := hstores
  rw [hasErrorCode_eq hstate, hjson]
  refine ⟨rfl, rfl, ?_⟩
  dsimp only
  split
  · simp
  · simp

theorem WsResponse.checkSeries_eq {value : Json} {response : WsResponse}
    (hstores : response.Stores value) (flags : List Bool) :
    (checkSeries hasErrorCode response flags).1 =
        flags.map (fun flag => value.hasError JsonObject.wsError flag) ∧
      (checkSeries hasErrorCode response flags).2.Stores value :=
  checkSeries_of_keeps (Stores value)
    (fun _ flag hnext => hasErrorCode_keeps hnext flag) hstores flags

/-- Over every value and both flags, starting from fresh responses: the
classes differ exactly where `code` is 200 and there is no `error`, and there
only the websocket class sees an error.  Further calls answer the same and the
value stays. -/
theorem hasErrorCode_compared (boost : Boost) (value : Json)
    (isNullAllowed : Bool) :
    let rest := (RestResponse.ofJson value).hasErrorCode boost isNullAllowed
    let ws := (WsResponse.ofJson value).hasErrorCode isNullAllowed
    (rest.1 = ws.1 ↔ ¬ value.CodeIsOk boost) ∧
      (value.CodeIsOk boost → rest.1 = false ∧ ws.1 = true) ∧
      (rest.1 = true → ws.1 = true) ∧
      rest.2.json = value ∧ ws.2.json = value ∧
      ∀ n,
        let restCalls := checkSeries (RestResponse.hasErrorCode boost) rest.2
          (List.replicate n isNullAllowed)
        let wsCalls := checkSeries WsResponse.hasErrorCode ws.2
          (List.replicate n isNullAllowed)
        restCalls.1 = List.replicate n rest.1 ∧ restCalls.2.json = value ∧
          wsCalls.1 = List.replicate n ws.1 ∧ wsCalls.2.json = value := by
  intro rest ws
  obtain ⟨hrest, hrestJson⟩ := RestResponse.hasErrorCode_keeps
    (RestResponse.ofJson_json value) isNullAllowed
  have hstores : (WsResponse.ofJson value).Stores value :=
    ⟨rfl, by simp [WsResponse.ofJson]⟩
  obtain ⟨hws, hwsStores⟩ :=
    WsResponse.hasErrorCode_keeps hstores isNullAllowed
  refine ⟨?_, ?_, ?_, hrestJson, hwsStores.1, ?_⟩
  · rw [hrest, hws]
    exact value.hasError_eq_iff boost isNullAllowed
  · intro hok
    rw [hrest, hws]
    exact value.errors_of_codeIsOk hok isNullAllowed
  · intro herror
    rw [hrest] at herror
    rw [hws]
    exact value.wsError_of_restError herror
  · intro n restCalls wsCalls
    obtain ⟨hrestErrors, hrestLast⟩ :=
      RestResponse.checkSeries_eq hrestJson (List.replicate n isNullAllowed)
    obtain ⟨hwsErrors, hwsLast⟩ :=
      WsResponse.checkSeries_eq hwsStores (List.replicate n isNullAllowed)
    rw [List.map_replicate, ← hrest] at hrestErrors
    rw [List.map_replicate, ← hws] at hwsErrors
    exact ⟨hrestErrors, hrestLast, hwsErrors, hwsLast.1⟩

end Bblib
