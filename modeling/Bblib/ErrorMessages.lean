import Bblib.ErrorClassifiers
import Mathlib.Tactic

/-!
# The message behind `hasErrorCode`

Both classes set `failMessage` in one place only: where an object has a `code`
and a `msg`.  Every other way of recognising an error leaves it empty, and so
does a `msg` that is empty or no string.
-/

namespace Bblib

/-- When `hasErrorCode` returns true, the message is set. -/
def RestResponse.ErrorHasMessage (boost : Boost) (response : RestResponse)
    (isNullAllowed : Bool) : Prop :=
  (response.hasErrorCode boost isNullAllowed).1 = true →
    (response.hasErrorCode boost isNullAllowed).2.failMessage ≠ []

def WsResponse.ErrorHasMessage (response : WsResponse)
    (isNullAllowed : Bool) : Prop :=
  (response.hasErrorCode isNullAllowed).1 = true →
    (response.hasErrorCode isNullAllowed).2.failMessage ≠ []

/-! ## Values whose errors have a message -/

/-- The member `msg` is a string that is not empty. -/
def JsonObject.HasMessage (object : JsonObject) : Prop :=
  ∃ text, object.ifContains (ascii "msg") = some (.string text) ∧ text ≠ []

/-- No error is recognised, or it is a `code` other than 200 with a message. -/
def JsonObject.RestExplained (boost : Boost) (object : JsonObject) : Prop :=
  object.ifContains (ascii "error") = none ∧
    ∀ code, object.ifContains (ascii "code") = some code →
      ∃ value, boost.valueToInt64 code = some value ∧
        (value = 200 ∨ object.HasMessage)

/-- The websocket class takes every `code` for an error. -/
def JsonObject.WsExplained (object : JsonObject) : Prop :=
  if (object.ifContains (ascii "code")).isSome then object.HasMessage
  else object.ifContains (ascii "error") = none

/-- A null value is allowed, and an object has its errors explained. -/
def Json.Explained (explained : JsonObject → Prop) (value : Json)
    (isNullAllowed : Bool) : Prop :=
  (value = .null → isNullAllowed = true) ∧
    ∀ object, value = .object object → explained object

/-! ## The message of an object -/

theorem JsonObject.message_ne_nil_iff (object : JsonObject) :
    object.message [] ≠ [] ↔ object.HasMessage := by
  unfold message HasMessage
  cases object.ifContains (ascii "msg") with
  | none => simp
  | some msg =>
      simp only [Option.some.injEq, ← Json.valueToString_eq_some]
      cases msg.valueToString with
      | none => simp
      | some text => simp

theorem JsonObject.restMessage_ne_nil_iff (boost : Boost)
    (object : JsonObject) :
    (object.restError boost = true → object.restMessage boost [] ≠ []) ↔
      object.RestExplained boost := by
  unfold restError restMessage RestExplained
  cases object.ifContains (ascii "error") with
  | some value => simp
  | none =>
      cases object.ifContains (ascii "code") with
      | none => simp
      | some code =>
          cases hvalue : boost.valueToInt64 code with
          | none => simp [hvalue]
          | some value =>
              by_cases hok : value = 200
              · simp [hvalue, hok]
              · have hmessage := object.message_ne_nil_iff
                simp [hvalue, hok, hmessage]

theorem JsonObject.wsMessage_ne_nil_iff (object : JsonObject) :
    (object.wsError = true → object.wsMessage [] ≠ []) ↔
      object.WsExplained := by
  unfold wsError wsMessage WsExplained
  cases object.ifContains (ascii "code") with
  | none => simp
  | some code =>
      have hmessage := object.message_ne_nil_iff
      simp [hmessage]

/-! ## Every value -/

/-- An error that is not an object has no message. -/
theorem Json.message_ne_nil_iff {objectError : JsonObject → Bool}
    {objectMessage : JsonObject → Str → Str} {explained : JsonObject → Prop}
    (hobject : ∀ object,
      (objectError object = true → objectMessage object [] ≠ []) ↔
        explained object) (value : Json) (isNullAllowed : Bool) :
    (value.hasError objectError isNullAllowed = true →
        value.failMessage objectMessage [] ≠ []) ↔
      value.Explained explained isNullAllowed := by
  cases value with
  | object members =>
      have hmembers := hobject members
      simpa [hasError, failMessage, Explained] using hmembers
  | null => simp [hasError, failMessage, Explained]
  | _ => simp [hasError, Explained]

/-- Over every JSON value and both flags: an error comes with a message
exactly for the values whose errors are explained. -/
theorem errorHasMessage_iff (boost : Boost) (value : Json)
    (isNullAllowed : Bool) :
    ((RestResponse.ofJson value).ErrorHasMessage boost isNullAllowed ↔
        value.Explained (JsonObject.RestExplained boost) isNullAllowed) ∧
      ((WsResponse.ofJson value).ErrorHasMessage isNullAllowed ↔
        value.Explained JsonObject.WsExplained isNullAllowed) := by
  have hstate : (WsResponse.ofJson value).state ≠ .disconnect := by
    simp [WsResponse.ofJson]
  unfold RestResponse.ErrorHasMessage WsResponse.ErrorHasMessage
  rw [RestResponse.hasErrorCode_eq, WsResponse.hasErrorCode_eq hstate]
  constructor
  · exact Json.message_ne_nil_iff (JsonObject.restMessage_ne_nil_iff boost)
      value isNullAllowed
  · exact Json.message_ne_nil_iff JsonObject.wsMessage_ne_nil_iff value
      isNullAllowed

/-- A null value is an error without a message, in both classes. -/
theorem null_error_has_no_message :
    ¬ ∀ (boost : Boost) (value : Json) (isNullAllowed : Bool),
      (RestResponse.ofJson value).ErrorHasMessage boost isNullAllowed ∧
        (WsResponse.ofJson value).ErrorHasMessage isNullAllowed := by
  intro hall
  have hmessage := (hall sampleBoost .null false).1 rfl
  contradiction

end Bblib
