import Bblib.JsonValue
import Mathlib.Tactic

/-!
# Errors, responses and failure reports

This module follows `BinanceCommon.h` and the two response classes.  The
parts of Boost whose code is elsewhere (the JSON parser, the numeric
conversion, the texts of error codes) form the parameter `Boost`.

The `fail` overloads do not run the user's callback by themselves here: they
return what they do with it, so that a session can be interleaved with the
threads that run its callbacks.
-/

namespace Bblib

structure ErrorCode where
  category : Str
  value : ℤ
  deriving DecidableEq

/-- The conversion of an error code to `bool`. -/
def ErrorCode.failed (ec : ErrorCode) : Bool := ec.value != 0

def ErrorCode.success : ErrorCode := ⟨ascii "system", 0⟩

/-! Linux values of the two socket errors which `on_read` keeps silent, and the
code of a websocket stream that was closed by its close handshake. -/

def ErrorCode.shutDown : ErrorCode := ⟨ascii "system", 108⟩

def ErrorCode.operationAborted : ErrorCode := ⟨ascii "system", 125⟩

def ErrorCode.websocketClosed : ErrorCode := ⟨ascii "boost.beast.websocket", 1⟩

structure Boost where
  parse : Str → Except ErrorCode Json
  valueToInt64 : Json → Option ℤ
  message : ErrorCode → Str

/-- Boost on the few texts of the worked exchanges in this development. -/
def sampleBoost : Boost where
  parse body :=
    if body = ascii "[]" then .ok (.array [])
    else if body = ascii "\x7b\x7d" then .ok (.object [])
    else if body = ascii "\x7b\"listenKey\":\"k1\"\x7d" then
      .ok (.object [(ascii "listenKey", .string (ascii "k1"))])
    else if body = ascii "\x7b\"code\":-1125,\"msg\":\"unknown key\"\x7d" then
      .ok (.object [(ascii "code", .int64 (-1125)),
        (ascii "msg", .string (ascii "unknown key"))])
    else .error ⟨ascii "boost.json", 1⟩
  valueToInt64
    | .int64 i => some i.toInt
    | _ => none
  message ec := if ec.failed then ascii "failed" else ascii "Success"

inductive Exn where
  | runtimeError (what : Str)
  | systemError (ec : ErrorCode)
  | badFunctionCall
  | jsonAccess

/-- The fields of an HTTP response the library reads; a header that is absent
reads as the empty text. -/
structure HttpResponse where
  result : ℕ
  contentType : Str
  body : Str

def HttpResponse.notFound : ℕ := 404

/-- The comparison both response readers make with the content type. -/
def HttpResponse.isJson (res : HttpResponse) : Bool :=
  res.contentType == ascii "application/json" ||
    res.contentType == ascii "application/json;charset=UTF-8"

/-! ## Callbacks -/

/-- A `std::function`, which is null or holds one of the user's functions. -/
abbrev Callback := Option ℕ

/-- The `ResultT {string}` of the `fail` templates. -/
class FailResult (ResultT : Type) where
  ofReason : Str → ResultT

/-- What a completion handler does: call back on the thread it runs on, hand a
call to the session's pool, or start an operation. -/
inductive Effect (ResultT Op : Type) where
  | call (callback : Callback) (result : ResultT)
  | post (callback : Callback) (result : ResultT)
  | start (op : Op)
  | clearBuffer

section Fail

variable {ResultT Op : Type} [FailResult ResultT]

/-- `fail (ec, what, callerPool, callback)` -/
def failOnPool (boost : Boost) (ec : ErrorCode) (what : String)
    (callback : Callback) : List (Effect ResultT Op) :=
  if callback.isSome then
    [.post callback
      (FailResult.ofReason (ascii what ++ ascii " " ++ boost.message ec))]
  else []

/-- `fail (ec, what, callback)` -/
def failOnThread (boost : Boost) (ec : ErrorCode) (what : String)
    (callback : Callback) : List (Effect ResultT Op) :=
  if callback.isSome then
    [.call callback
      (FailResult.ofReason (ascii what ++ ascii " " ++ boost.message ec))]
  else []

/-- `fail (what, callback)` -/
def failWhat (what : Str) (callback : Callback) : List (Effect ResultT Op) :=
  if callback.isSome then [.call callback (FailResult.ofReason what)] else []

@[simp] theorem failOnPool_some (boost : Boost) (ec : ErrorCode)
    (what : String) (f : ℕ) :
    (failOnPool boost ec what (some f) : List (Effect ResultT Op)) =
      [.post (some f)
        (FailResult.ofReason (ascii what ++ ascii " " ++ boost.message ec))] :=
  rfl

@[simp] theorem failOnThread_some (boost : Boost) (ec : ErrorCode)
    (what : String) (f : ℕ) :
    (failOnThread boost ec what (some f) : List (Effect ResultT Op)) =
      [.call (some f)
        (FailResult.ofReason (ascii what ++ ascii " " ++ boost.message ec))] :=
  rfl

@[simp] theorem failWhat_some (what : Str) (f : ℕ) :
    (failWhat what (some f) : List (Effect ResultT Op)) =
      [.call (some f) (FailResult.ofReason what)] := rfl

end Fail

/-! ## REST responses -/

inductive RestResponse.State where
  | fail
  | success
  deriving DecidableEq

structure RestResponse where
  json : Json
  state : RestResponse.State
  failMessage : Str

def RestResponse.ofReason (failReason : Str) : RestResponse where
  json := .null
  state := .fail
  failMessage := failReason

def RestResponse.ofJson (object : Json) : RestResponse where
  json := object
  state := .success
  failMessage := []

instance : FailResult RestResponse := ⟨RestResponse.ofReason⟩

/-- The `try` block of `RestResponse::hasErrorCode`; a conversion that throws
ends in its `catch(...)`. -/
def RestResponse.findError (boost : Boost) (response : RestResponse)
    (isNullAllowed : Bool) : Bool × RestResponse :=
  if !isNullAllowed && response.json.isNull then (true, response)
  else
    match response.json.asObject with
    | none => (false, response)
    | some jsonObj =>
        if (jsonObj.ifContains (ascii "error")).isSome then (true, response)
        else if (jsonObj.ifContains (ascii "code")).isSome then
          let (code, jsonObj) := jsonObj.index (ascii "code")
          let response := { response with json := .object jsonObj }
          match boost.valueToInt64 code with
          | none => (true, response)
          | some code =>
              if code ≠ 200 then
                if (jsonObj.ifContains (ascii "msg")).isSome then
                  let (msg, jsonObj) := jsonObj.index (ascii "msg")
                  let response := { response with json := .object jsonObj }
                  match msg.valueToString with
                  | none => (true, response)
                  | some text => (true, { response with failMessage := text })
                else (true, { response with failMessage := [] })
              else (false, response)
        else (false, response)

def RestResponse.hasErrorCode (boost : Boost) (response : RestResponse)
    (isNullAllowed : Bool) : Bool × RestResponse :=
  let (error, response) := response.findError boost isNullAllowed
  (error, { response with state := if error then .fail else .success })

/-! ## Websocket responses -/

inductive WsResponse.State where
  | fail
  | success
  | disconnect
  deriving DecidableEq

structure WsResponse where
  json : Json
  state : WsResponse.State
  failMessage : Str

def WsResponse.ofState (s : WsResponse.State) : WsResponse where
  json := .null
  state := s
  failMessage := []

def WsResponse.ofReason (failReason : Str) : WsResponse where
  json := .null
  state := .fail
  failMessage := failReason

def WsResponse.ofJson (object : Json) : WsResponse where
  json := object
  state := .success
  failMessage := []

instance : FailResult WsResponse := ⟨WsResponse.ofReason⟩

/-- The `try` block of `WsResponse::hasErrorCode`. -/
def WsResponse.findError (response : WsResponse)
    (isNullAllowed : Bool) : Bool × WsResponse :=
  if !isNullAllowed && response.json.isNull then (true, response)
  else
    match response.json.asObject with
    | none => (false, response)
    | some jsonObj =>
        let error := (jsonObj.ifContains (ascii "code")).isSome ||
          (jsonObj.ifContains (ascii "error")).isSome
        if (jsonObj.ifContains (ascii "code")).isSome then
          if (jsonObj.ifContains (ascii "msg")).isSome then
            let (msg, jsonObj) := jsonObj.index (ascii "msg")
            let response := { response with json := .object jsonObj }
            match msg.valueToString with
            | none => (true, response)
            | some text => (error, { response with failMessage := text })
          else (error, { response with failMessage := [] })
        else (error, response)

def WsResponse.hasErrorCode (response : WsResponse)
    (isNullAllowed : Bool) : Bool × WsResponse :=
  if response.state = .disconnect then (false, response)
  else
    let (error, response) := response.findError isNullAllowed
    (error, { response with state := if error then .fail else .success })

@[simp] theorem RestResponse.ofReason_json (failReason : Str) :
    (RestResponse.ofReason failReason).json = .null := rfl

@[simp] theorem RestResponse.ofReason_state (failReason : Str) :
    (RestResponse.ofReason failReason).state = .fail := rfl

@[simp] theorem RestResponse.ofReason_failMessage (failReason : Str) :
    (RestResponse.ofReason failReason).failMessage = failReason := rfl

@[simp] theorem RestResponse.ofJson_json (object : Json) :
    (RestResponse.ofJson object).json = object := rfl

@[simp] theorem RestResponse.ofJson_state (object : Json) :
    (RestResponse.ofJson object).state = .success := rfl

@[simp] theorem WsResponse.ofReason_json (failReason : Str) :
    (WsResponse.ofReason failReason).json = .null := rfl

@[simp] theorem WsResponse.ofReason_state (failReason : Str) :
    (WsResponse.ofReason failReason).state = .fail := rfl

@[simp] theorem WsResponse.ofJson_state (object : Json) :
    (WsResponse.ofJson object).state = .success := rfl

@[simp] theorem WsResponse.ofState_state (s : WsResponse.State) :
    (WsResponse.ofState s).state = s := rfl

end Bblib
