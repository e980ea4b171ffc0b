import Bblib.RestSession
import Mathlib.Tactic

/-!
# The members of `BinanceBeast`

The state one `BinanceBeast` object keeps between calls: its configuration,
the listen key, the round-robin positions of the two context vectors, and the
registry of websocket sessions.  A `std::map` from tokens to shared pointers
is a partial function; a shared pointer is null or names a session, and what
names a session is left open.
-/

namespace Bblib

/-! ## The map of websocket sessions -/

abbrev TokenId := UInt32

abbrev SharedPtr (P : Type*) := Option P

abbrev SessionMap (P : Type*) := TokenId → Option (SharedPtr P)

namespace SessionMap

variable {P : Type*}

def empty : SessionMap P := fun _ => none

def find (sessions : SessionMap P) (id : TokenId) : Option (SharedPtr P) :=
  sessions id

/-- `operator[]` read as a value: a missing key is inserted with null. -/
def index (sessions : SessionMap P) (id : TokenId) :
    SharedPtr P × SessionMap P :=
  match sessions id with
  | some pointer => (pointer, sessions)
  | none => (none, Function.update sessions id (some none))

/-- `m_wsSessions[id] = session` -/
def assign (sessions : SessionMap P) (id : TokenId) (session : P) :
    SessionMap P :=
  Function.update sessions id (some (some session))

def erase (sessions : SessionMap P) (id : TokenId) : SessionMap P :=
  Function.update sessions id none

@[simp] theorem assign_self (sessions : SessionMap P) (id : TokenId)
    (session : P) : sessions.assign id session id = some (some session) := by
  simp [assign]

theorem assign_of_ne (sessions : SessionMap P) {id other : TokenId}
    (hne : other ≠ id) (session : P) :
    sessions.assign id session other = sessions other := by
  simp [assign, hne]

@[simp] theorem erase_self (sessions : SessionMap P) (id : TokenId) :
    sessions.erase id id = none := by
  simp [erase]

theorem erase_of_ne (sessions : SessionMap P) {id other : TokenId}
    (hne : other ≠ id) : sessions.erase id other = sessions other := by
  simp [erase, hne]

theorem index_of_some {sessions : SessionMap P} {id : TokenId}
    {pointer : SharedPtr P} (hfound : sessions id = some pointer) :
    sessions.index id = (pointer, sessions) := by
  simp [index, hfound]

theorem index_of_none {sessions : SessionMap P} {id : TokenId}
    (hmissing : sessions id = none) :
    sessions.index id = (none, Function.update sessions id (some none)) := by
  simp [index, hmissing]

theorem index_of_entry {sessions : SessionMap P} {id other : TokenId}
    {pointer : SharedPtr P} (hentry : sessions other = some pointer) :
    (sessions.index id).2 other = some pointer := by
  cases hfound : sessions id with
  | some session =>
      rw [index_of_some hfound]
      exact hentry
  | none =>
      have hne : other ≠ id := by
        intro heq
        rw [heq, hfound] at hentry
        contradiction
      rw [index_of_none hfound]
      show Function.update sessions id (some none) other = some pointer
      rw [Function.update_of_ne hne, hentry]

end SessionMap

/-! ## The object -/

inductive Market where
  | none
  | usdm
  | coinm
  | spot
  deriving DecidableEq

structure ConnectionConfig where
  restApiUri : Str
  wsApiUri : Str
  verifyPeer : Bool
  keys : ConnectionKeys
  usingTestRootCertificates : Bool
  restPort : Str
  wsPort : Str

def ConnectionConfig.make (restUri wsUri : String) (sslVerifyPeer : Bool)
    (apiKeys : ConnectionKeys) (websockPort : String) : ConnectionConfig where
  restApiUri := ascii restUri
  wsApiUri := ascii wsUri
  verifyPeer := sslVerifyPeer
  keys := apiKeys
  usingTestRootCertificates := true
  restPort := ascii "443"
  wsPort := ascii websockPort

def ConnectionConfig.makeConfig (apiKey secretKey : Str) (isLive : Bool)
    (market : Market) : Except Exn ConnectionConfig :=
  let keys : ConnectionKeys := ⟨apiKey, secretKey⟩
  match market, isLive with
  | .usdm, true => .ok (.make "fapi.binance.com" "fstream.binance.com" true keys "443")
  | .usdm, false =>
      .ok (.make "testnet.binancefuture.com" "stream.binancefuture.com" false keys "443")
  | .coinm, true => .ok (.make "dapi.binance.com" "dstream.binance.com" true keys "443")
  | .coinm, false =>
      .ok (.make "testnet.binancefuture.com" "dstream.binancefuture.com" false keys "443")
  | .spot, true => .ok (.make "api.binance.com" "stream.binance.com" true keys "9443")
  | .spot, false =>
      .ok (.make "testnet.binance.vision" "testnet.binance.vision" false keys "443")
  | .none, _ => .error (.runtimeError (ascii "Invalid market type"))

/-- The two vectors of contexts enter with their sizes; sessions are named by
the order in which they were made. -/
structure BinanceBeast where
  config : ConnectionConfig
  listenKey : Str
  restIocThreads : ℕ
  nextRestIoContext : ℕ
  wsIocThreads : ℕ
  nextWsIoContext : ℕ
  nextWsId : TokenId
  wsSessions : SessionMap ℕ

/-- `curr + 1 < size ? curr + 1 : 0` -/
def nextIoContext (curr size : ℕ) : ℕ :=
  if curr + 1 < size then curr + 1 else 0

namespace BinanceBeast

/-- A new object on which `start` has been called; the context vectors are
clamped to 24 elements. -/
def start (config : ConnectionConfig)
    (nRestIoContexts nWebsockIoContexts : ℕ) : BinanceBeast where
  config := config
  listenKey := []
  restIocThreads := max 0 (min nRestIoContexts 24)
  nextRestIoContext := 0
  wsIocThreads := max 0 (min nWebsockIoContexts 24)
  nextWsIoContext := 0
  nextWsId := 1
  wsSessions := .empty

/-- The index of the next REST context and the object after the call.  The
access to `m_restIocThreads` at that index is not modelled: it is undefined on
an object without REST contexts, and in bounds on any other
(`usesInBounds_iff`). -/
def getRestIoContext (beast : BinanceBeast) : ℕ × BinanceBeast :=
  let curr := beast.nextRestIoContext
  (curr, { beast with
    nextRestIoContext := nextIoContext curr beast.restIocThreads })

/-- Likewise for `m_wsIocThreads` and the websocket contexts. -/
def getWsIoContext (beast : BinanceBeast) : ℕ × BinanceBeast :=
  let curr := beast.nextWsIoContext
  (curr, { beast with
    nextWsIoContext := nextIoContext curr beast.wsIocThreads })

end BinanceBeast

def sampleBeast : BinanceBeast :=
  .start (.make "testnet.binancefuture.com" "stream.binancefuture.com" false
    ⟨ascii "key", ascii "secret"⟩ "443") 4 6

end Bblib
