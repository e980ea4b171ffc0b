import Bblib.IoContexts
import Mathlib.Tactic

/-!
# Starting the object again, and destroying it

`BinanceBeast::start` resizes the two vectors of contexts and starts every
element, also those that were running before; `stop` and the destructor of
`IoContext` take them down.  A context that was never started has a null
pointer to its `io_context` and its destructor goes through it.  A thread that
is running must not be assigned to.

So a second `start` ends the program whenever it finds a context and keeps one.
A `start` that throws leaves the contexts alone but has already replaced the
configuration, so that the verification mode and the hosts may belong to
different calls.
-/

namespace Bblib

open LabelledRuns

/-! ## Contexts -/

/-- What ends the program. -/
inductive Fault where
  | nullIoContext
  | terminate

/-- Whether the two pointers are set and the thread is joinable. -/
structure IoContext where
  ioc : Bool
  iocThread : Bool
  guard : Bool

namespace IoContext

def new : IoContext := ⟨false, false, false⟩

def running : IoContext := ⟨true, true, true⟩

/-- What the move constructor leaves of its argument. -/
def movedFrom (_ : IoContext) : IoContext := ⟨false, false, false⟩

/-- `~IoContext`: `guard.reset()`, `ioc->stop()`, `iocThread.join()`.  Joining
a thread that is not joinable throws, out of a destructor. -/
def destroy (context : IoContext) : Except Fault Unit :=
  if !context.ioc then .error .nullIoContext
  else if !context.iocThread then .error .terminate
  else .ok ()

/-- `IoContext::start`.  Assigning to a joinable thread calls `terminate`. -/
def start (context : IoContext) : Except Fault IoContext :=
  if context.iocThread then .error .terminate
  else .ok { ioc := true, iocThread := true, guard := true }

def destroyAll : List IoContext → Except Fault Unit
  | [] => .ok ()
  | context :: contexts =>
      match context.destroy with
      | .error fault => .error fault
      | .ok () => destroyAll contexts

def startAll : List IoContext → Except Fault (List IoContext)
  | [] => .ok []
  | context :: contexts =>
      match context.start with
      | .error fault => .error fault
      | .ok context =>
          match startAll contexts with
          | .error fault => .error fault
          | .ok contexts => .ok (context :: contexts)

theorem destroyAll_running (count : ℕ) :
    destroyAll (List.replicate count running) = .ok () := by
  induction count with
  | zero => rfl
  | succ count ih => exact ih

theorem startAll_new (count : ℕ) :
    startAll (List.replicate count new) =
      .ok (List.replicate count running) := by
  induction count with
  | zero => rfl
  | succ count ih =>
      simp only [List.replicate_succ, startAll, start, new,
        Bool.false_eq_true, if_false]
      unfold new at ih
      rw [ih]
      rfl

end IoContext

/-- A `std::vector<IoContext>`. -/
structure ContextVector where
  elements : List IoContext
  capacity : ℕ

namespace ContextVector

def empty : ContextVector := ⟨[], 0⟩

/-- `resize`.  Growing beyond the capacity moves the elements to new storage
and destroys what is left of them; how much is allocated is the library's
choice. -/
def resize (grow : ℕ → ℕ → ℕ) (v : ContextVector) (size : ℕ) :
    Except Fault ContextVector :=
  let fresh := List.replicate (size - v.elements.length) IoContext.new
  if size ≤ v.elements.length then
    match IoContext.destroyAll (v.elements.drop size) with
    | .error fault => .error fault
    | .ok () => .ok ⟨v.elements.take size, v.capacity⟩
  else if size ≤ v.capacity then .ok ⟨v.elements ++ fresh, v.capacity⟩
  else
    match IoContext.destroyAll (v.elements.map IoContext.movedFrom) with
    | .error fault => .error fault
    | .ok () => .ok ⟨v.elements ++ fresh, grow v.elements.length size⟩

/-- The part of `start` that is about one of the vectors. -/
def restart (grow : ℕ → ℕ → ℕ) (v : ContextVector) (n : ℕ) :
    Except Fault ContextVector :=
  match v.resize grow (max 0 (min n 24)) with
  | .error fault => .error fault
  | .ok resized =>
      match IoContext.startAll resized.elements with
      | .error fault => .error fault
      | .ok elements => .ok ⟨elements, resized.capacity⟩

/-- Nothing is left to start again: one of the two sizes is 0. -/
theorem restart_of_zero (grow : ℕ → ℕ → ℕ) {v : ContextVector} {count n : ℕ}
    (hrunning : v.elements = List.replicate count .running)
    (hzero : count = 0 ∨ min n 24 = 0) :
    ∃ w, v.restart grow n = .ok w ∧
      w.elements = List.replicate (min n 24) .running := by
  have hsize : max 0 (min n 24) = min n 24 := Nat.zero_max _
  unfold restart
  rw [hsize]
  rcases hzero with rfl | hnone
  · have helements : v.elements = [] := hrunning
    have hresize : ∃ capacity, v.resize grow (min n 24) =
        .ok ⟨List.replicate (min n 24) .new, capacity⟩ := by
      unfold resize
      rw [helements]
      split
      · rename_i hle
        have hempty : min n 24 = 0 := Nat.le_zero.mp hle
        rw [hempty]
        exact ⟨_, rfl⟩
      · split
        · exact ⟨_, rfl⟩
        · exact ⟨_, rfl⟩
    obtain ⟨capacity, hresize⟩ := hresize
    rw [hresize]
    simp only [IoContext.startAll_new]
    exact ⟨_, rfl, rfl⟩
  · have hresize : v.resize grow 0 = .ok ⟨[], v.capacity⟩ := by
      unfold resize
      rw [if_pos (Nat.zero_le _), List.drop_zero, List.take_zero, hrunning,
        IoContext.destroyAll_running]
    rw [hnone, hresize]
    exact ⟨_, rfl, rfl⟩

/-- A running context that is kept ends the program. -/
theorem restart_of_kept (grow : ℕ → ℕ → ℕ) {v : ContextVector} {count n : ℕ}
    (hrunning : v.elements = List.replicate count .running)
    (hkept : ¬ (count = 0 ∨ min n 24 = 0)) :
    ∃ fault, v.restart grow n = .error fault := by
  have hsize : max 0 (min n 24) = min n 24 := Nat.zero_max _
  obtain ⟨count, rfl⟩ := Nat.exists_eq_succ_of_ne_zero (not_or.mp hkept).1
  obtain ⟨size, hpos⟩ := Nat.exists_eq_succ_of_ne_zero (not_or.mp hkept).2
  unfold restart resize
  rw [hsize, hpos, hrunning, List.length_replicate, List.drop_replicate,
    IoContext.destroyAll_running, List.take_replicate]
  by_cases hshrinks : size.succ ≤ count + 1
  · have hmin : min size.succ (count + 1) = size + 1 := Nat.min_eq_left hshrinks
    rw [if_pos hshrinks, hmin]
    exact ⟨.terminate, rfl⟩
  · rw [if_neg hshrinks]
    by_cases hroom : size.succ ≤ v.capacity
    · rw [if_pos hroom]
      exact ⟨.terminate, rfl⟩
    · rw [if_neg hroom]
      exact ⟨.nullIoContext, rfl⟩

end ContextVector

/-! ## The object -/

/-- A default constructed `ConnectionConfig`. -/
def ConnectionConfig.unset : ConnectionConfig where
  restApiUri := []
  wsApiUri := []
  verifyPeer := false
  keys := ⟨[], []⟩
  usingTestRootCertificates := true
  restPort := ascii "443"
  wsPort := ascii "443"

/-- The object with its two vectors, whose sizes `beast` has too, and whether
the TLS context verifies its peers. -/
structure Lifecycle where
  beast : BinanceBeast
  restIocThreads : ContextVector
  wsIocThreads : ContextVector
  verifyPeer : Bool

/-- A call of `start`, and what loading the certificates reports. -/
structure StartArguments where
  config : ConnectionConfig
  nRestIoContexts : ℕ
  nWebsockIoContexts : ℕ
  certificates : ErrorCode

/-- The call does not throw. -/
def StartArguments.passes (call : StartArguments) : Bool :=
  !(call.config.usingTestRootCertificates && call.certificates.failed)

namespace Lifecycle

def create : Lifecycle where
  beast := {
    config := .unset
    listenKey := []
    restIocThreads := 0
    nextRestIoContext := 0
    wsIocThreads := 0
    nextWsIoContext := 0
    nextWsId := 1
    wsSessions := .empty }
  restIocThreads := .empty
  wsIocThreads := .empty
  verifyPeer := false

/-- `BinanceBeast::start`: how the call ends, and the object it leaves. -/
def start (boost : Boost) (grow : ℕ → ℕ → ℕ) (life : Lifecycle)
    (call : StartArguments) : Except Fault (Except Exn Unit × Lifecycle) :=
  let beast := { life.beast with
    nextWsIoContext := 0
    nextRestIoContext := 0
    config := call.config }
  if call.config.usingTestRootCertificates && call.certificates.failed then
    .ok (.error (.runtimeError (boost.message call.certificates ++
      ascii "failed to load root certificates")), { life with beast := beast })
  else
    match life.restIocThreads.restart grow call.nRestIoContexts with
    | .error fault => .error fault
    | .ok rest =>
        match life.wsIocThreads.restart grow call.nWebsockIoContexts with
        | .error fault => .error fault
        | .ok ws =>
            .ok (.ok (), {
              beast := { beast with
                restIocThreads := rest.elements.length
                wsIocThreads := ws.elements.length }
              restIocThreads := rest
              wsIocThreads := ws
              verifyPeer := call.config.verifyPeer })

/-- `stop`, which the destructor calls. -/
def stop (life : Lifecycle) : Except Fault Lifecycle :=
  match IoContext.destroyAll life.wsIocThreads.elements with
  | .error fault => .error fault
  | .ok () =>
      match IoContext.destroyAll life.restIocThreads.elements with
      | .error fault => .error fault
      | .ok () =>
          .ok { life with
            beast := { life.beast with
              wsSessions := .empty
              wsIocThreads := 0
              restIocThreads := 0
              nextWsId := 0 }
            restIocThreads := ⟨[], life.restIocThreads.capacity⟩
            wsIocThreads := ⟨[], life.wsIocThreads.capacity⟩ }

/-- The call ends, one way or the other. -/
def step (boost : Boost) (grow : ℕ → ℕ → ℕ) (life : Lifecycle)
    (call : StartArguments) : Option Lifecycle :=
  match life.start boost grow call with
  | .error _ => none
  | .ok (_, next) => some next

/-! ## Runs of starts -/

/-- The calls that got past the certificates. -/
def passed (calls : List StartArguments) : List StartArguments :=
  calls.filter StartArguments.passes

/-- How many contexts a call asks for, after the clamp. -/
def asked (kind : ContextKind) (call : StartArguments) : ℕ :=
  min (kind.argument call.nRestIoContexts call.nWebsockIoContexts) 24

/-- The numbers of contexts there are, from none on. -/
def sizes (kind : ContextKind) (calls : List StartArguments) : List ℕ :=
  0 :: (passed calls).map (asked kind)

/-- A part of the last call, if there was one. -/
def ofLast {α : Type} (calls : List StartArguments) (other : α)
    (part : StartArguments → α) : α :=
  (calls.getLast?.map part).getD other

/-- How many contexts of a kind are running. -/
def size (kind : ContextKind) (calls : List StartArguments) : ℕ :=
  ofLast (passed calls) 0 (asked kind)

/-- Of every two numbers that follow each other one is 0. -/
def NeverKept (kind : ContextKind) (calls : List StartArguments) : Prop :=
  (sizes kind calls).IsChain fun old new => old = 0 ∨ new = 0

/-- What the calls have made of the object: its configuration is that of the
last one, all the rest that of the last one that passed. -/
structure Started (calls : List StartArguments) (life : Lifecycle) :
    Prop where
  beast : life.beast = .start (ofLast calls .unset StartArguments.config)
    (ofLast (passed calls) 0 StartArguments.nRestIoContexts)
    (ofLast (passed calls) 0 StartArguments.nWebsockIoContexts)
  rest : life.restIocThreads.elements =
    List.replicate (size .rest calls) .running
  websocket : life.wsIocThreads.elements =
    List.replicate (size .websocket calls) .running
  verifyPeer : life.verifyPeer =
    ofLast (passed calls) false fun call => call.config.verifyPeer

theorem ofLast_snoc {α : Type} (calls : List StartArguments)
    (call : StartArguments) (other : α) (part : StartArguments → α) :
    ofLast (calls ++ [call]) other part = part call := by
  simp [ofLast]

section Passing

variable {call : StartArguments}

theorem passed_snoc_of_passes (hpasses : call.passes = true)
    (calls : List StartArguments) :
    passed (calls ++ [call]) = passed calls ++ [call] := by
  simp [passed, hpasses]

theorem passed_snoc_of_throws (hthrows : call.passes = false)
    (calls : List StartArguments) :
    passed (calls ++ [call]) = passed calls := by
  simp [passed, hthrows]

theorem getLast?_sizes (kind : ContextKind) (calls : List StartArguments) :
    (sizes kind calls).getLast? = some (size kind calls) := by
  unfold sizes size ofLast
  rw [List.getLast?_cons, List.getLast?_map]

theorem neverKept_snoc_of_passes (hpasses : call.passes = true)
    (kind : ContextKind) (calls : List StartArguments) :
    NeverKept kind (calls ++ [call]) ↔ NeverKept kind calls ∧
      (size kind calls = 0 ∨ asked kind call = 0) := by
  have hsizes : sizes kind (calls ++ [call]) =
      sizes kind calls ++ [asked kind call] := by
    simp [sizes, passed_snoc_of_passes hpasses]
  unfold NeverKept
  rw [hsizes, List.isChain_append, getLast?_sizes]
  simp

theorem neverKept_snoc_of_throws (hthrows : call.passes = false)
    (kind : ContextKind) (calls : List StartArguments) :
    NeverKept kind (calls ++ [call]) ↔ NeverKept kind calls := by
  unfold NeverKept sizes
  rw [passed_snoc_of_throws hthrows]

end Passing

section Steps

variable {boost : Boost} {grow : ℕ → ℕ → ℕ} {life next : Lifecycle}
  {calls : List StartArguments} {call : StartArguments}

theorem create_started : Started [] create := ⟨rfl, rfl, rfl, rfl⟩

theorem start_of_throws (hthrows : call.passes = false) :
    life.start boost grow call = .ok (.error (.runtimeError
        (boost.message call.certificates ++
          ascii "failed to load root certificates")),
      { life with beast := { life.beast with
          nextWsIoContext := 0
          nextRestIoContext := 0
          config := call.config } }) := by
  have hfails : (call.config.usingTestRootCertificates &&
      call.certificates.failed) = true := (Bool.not_eq_false' _).mp hthrows
  unfold start
  rw [if_pos hfails]

theorem Started.throws (hstarted : Started calls life)
    (hthrows : call.passes = false) :
    Started (calls ++ [call]) { life with beast := { life.beast with
      nextWsIoContext := 0
      nextRestIoContext := 0
      config := call.config } } where
  beast := by
    rw [hstarted.beast, ofLast_snoc, passed_snoc_of_throws hthrows]
    rfl
  rest := by
    unfold size
    rw [passed_snoc_of_throws hthrows]
    exact hstarted.rest
  websocket := by
    unfold size
    rw [passed_snoc_of_throws hthrows]
    exact hstarted.websocket
  verifyPeer := by
    rw [passed_snoc_of_throws hthrows]
    exact hstarted.verifyPeer

theorem Started.passes {rest ws : ContextVector}
    (hstarted : Started calls life) (hpasses : call.passes = true)
    (hrest : rest.elements = List.replicate (asked .rest call) .running)
    (hws : ws.elements = List.replicate (asked .websocket call) .running) :
    Started (calls ++ [call]) {
      beast := { life.beast with
        nextWsIoContext := 0
        nextRestIoContext := 0
        config := call.config
        restIocThreads := rest.elements.length
        wsIocThreads := ws.elements.length }
      restIocThreads := rest
      wsIocThreads := ws
      verifyPeer := call.config.verifyPeer } where
  beast := by
    rw [hstarted.beast, passed_snoc_of_passes hpasses, ofLast_snoc, ofLast_snoc,
      ofLast_snoc, hrest, hws, List.length_replicate, List.length_replicate]
    simp [BinanceBeast.start, asked, ContextKind.argument]
  rest := by
    unfold size
    rw [passed_snoc_of_passes hpasses, ofLast_snoc]
    exact hrest
  websocket := by
    unfold size
    rw [passed_snoc_of_passes hpasses, ofLast_snoc]
    exact hws
  verifyPeer := by
    rw [passed_snoc_of_passes hpasses, ofLast_snoc]

/-- One call: it ends unless it would keep a running context, and does what
the calls so far and it together do. -/
theorem Started.step_iff (boost : Boost) (grow : ℕ → ℕ → ℕ)
    (hstarted : Started calls life) (call : StartArguments) :
    ((∃ next, life.step boost grow call = some next) ↔
      (call.passes = true →
        ∀ kind, size kind calls = 0 ∨ asked kind call = 0)) ∧
    ∀ next, life.step boost grow call = some next →
      Started (calls ++ [call]) next := by
  cases hpasses : call.passes with
  | false =>
      unfold step
      rw [start_of_throws hpasses]
      refine ⟨by simp, ?_⟩
      intro next hnext
      obtain rfl := Option.some.inj hnext
      exact hstarted.throws hpasses
  | true =>
      have hfine : (call.config.usingTestRootCertificates &&
          call.certificates.failed) = false :=
        (Bool.not_eq_true' _).mp hpasses
      have hkinds : (∀ kind, size kind calls = 0 ∨ asked kind call = 0) ↔
          (size .rest calls = 0 ∨ asked .rest call = 0) ∧
            (size .websocket calls = 0 ∨ asked .websocket call = 0) := by
        constructor
        · exact fun hall => ⟨hall .rest, hall .websocket⟩
        · rintro ⟨hrest, hws⟩ kind
          cases kind with
          | rest => exact hrest
          | websocket => exact hws
      rw [hkinds]
      unfold step start
      rw [hfine, if_neg Bool.false_ne_true]
      by_cases hrest : size .rest calls = 0 ∨ asked .rest call = 0
      · obtain ⟨v, hv, hvrunning⟩ := ContextVector.restart_of_zero grow
          (n := call.nRestIoContexts) hstarted.rest hrest
        simp only [hv]
        by_cases hws : size .websocket calls = 0 ∨ asked .websocket call = 0
        · obtain ⟨w, hw, hwrunning⟩ := ContextVector.restart_of_zero grow
            (n := call.nWebsockIoContexts) hstarted.websocket hws
          simp only [hw]
          refine ⟨by simp [hrest, hws], ?_⟩
          intro next hnext
          obtain rfl := Option.some.inj hnext
          exact hstarted.passes hpasses hvrunning hwrunning
        · obtain ⟨fault, hw⟩ := ContextVector.restart_of_kept grow
            (n := call.nWebsockIoContexts) hstarted.websocket hws
          simp [hw, hws]
      · obtain ⟨fault, hv⟩ := ContextVector.restart_of_kept grow
          (n := call.nRestIoContexts) hstarted.rest hrest
        simp [hv, hrest]

end Steps

/-- The contexts of a started object can be taken down. -/
theorem Started.exists_stop {life : Lifecycle} {calls : List StartArguments}
    (hstarted : Started calls life) : ∃ done, life.stop = .ok done := by
  unfold stop
  rw [hstarted.websocket, hstarted.rest, IoContext.destroyAll_running,
    IoContext.destroyAll_running]
  exact ⟨_, rfl⟩

theorem neverKept_of_length_le (kind : ContextKind)
    {calls : List StartArguments} (hone : (passed calls).length ≤ 1) :
    NeverKept kind calls := by
  unfold NeverKept sizes
  match passed calls, hone with
  | [], _ => simp
  | [call], _ => simp

theorem length_le_of_neverKept {kind : ContextKind}
    {calls : List StartArguments} (hnever : NeverKept kind calls)
    (hpositive : ∀ call ∈ calls, 0 < asked kind call) :
    (passed calls).length ≤ 1 := by
  have hpassed : ∀ call ∈ passed calls, asked kind call ≠ 0 :=
    fun call hcall => (hpositive call (List.mem_filter.mp hcall).1).ne'
  unfold NeverKept sizes at hnever
  match hcalls : passed calls with
  | [] => simp
  | [call] => simp
  | first :: second :: rest =>
      rw [hcalls] at hnever hpassed
      have hfirst := hpassed first (by simp)
      have hsecond := hpassed second (by simp)
      simp [hfirst, hsecond] at hnever

/-- A sequence of starts on a new object ends the program unless, among the
starts that do not throw, no context that is running is ever kept: of two in
succession one asks for none of its kind.  When it does not, the object has the
configuration of the last start, and the contexts and the verification mode of
the last one that did not throw, and can be destroyed.  So where every start
asks for contexts of some kind, only one of them may pass. -/
theorem starts_end_well_iff (boost : Boost) (grow : ℕ → ℕ → ℕ)
    (calls : List StartArguments) :
    ((∃ life, run (step boost grow) create calls = some life) ↔
        ∀ kind, NeverKept kind calls) ∧
      (∀ life, run (step boost grow) create calls = some life →
        Started calls life ∧ ∃ done, life.stop = .ok done) ∧
      ∀ kind, (∀ call ∈ calls, 0 < asked kind call) →
        ((∃ life, run (step boost grow) create calls = some life) ↔
          (passed calls).length ≤ 1) := by
  have hruns : ((∃ life, run (step boost grow) create calls = some life) ↔
        ∀ kind, NeverKept kind calls) ∧
      ∀ life, run (step boost grow) create calls = some life →
        Started calls life := by
    induction calls using List.reverseRecOn with
    | nil =>
        refine ⟨⟨fun _ kind => ?_, fun _ => ⟨create, rfl⟩⟩, ?_⟩
        · exact neverKept_of_length_le kind (Nat.zero_le _)
        · intro life hrun
          obtain rfl := Option.some.inj hrun
          exact create_started
    | append_singleton calls call ih =>
        obtain ⟨hiff, hstarted⟩ := ih
        have hnever : (∀ kind, NeverKept kind (calls ++ [call])) ↔
            (∀ kind, NeverKept kind calls) ∧ (call.passes = true →
              ∀ kind, size kind calls = 0 ∨ asked kind call = 0) := by
          cases hpasses : call.passes with
          | true =>
              simp [neverKept_snoc_of_passes hpasses, forall_and]
          | false => simp [neverKept_snoc_of_throws hpasses]
        rw [hnever, ← hiff]
        simp only [run_snoc_eq_some]
        constructor
        · constructor
          · rintro ⟨next, life, hrun, hstep⟩
            have hone := (hstarted life hrun).step_iff boost grow call
            exact ⟨⟨life, hrun⟩, hone.1.mp ⟨next, hstep⟩⟩
          · rintro ⟨⟨life, hrun⟩, hkept⟩
            have hone := (hstarted life hrun).step_iff boost grow call
            obtain ⟨next, hstep⟩ := hone.1.mpr hkept
            exact ⟨next, life, hrun, hstep⟩
        · rintro next ⟨life, hrun, hstep⟩
          exact ((hstarted life hrun).step_iff boost grow call).2 next hstep
  refine ⟨hruns.1, ?_, ?_⟩
  · intro life hrun
    exact ⟨hruns.2 life hrun, (hruns.2 life hrun).exists_stop⟩
  · intro kind hpositive
    rw [hruns.1]
    constructor
    · exact fun hnever => length_le_of_neverKept (hnever kind) hpositive
    · exact fun hone other => neverKept_of_length_le other hone

/-- A client of the test network that is started again for the live one, with
certificates that cannot be loaded. -/
def failedRestart : List StartArguments :=
  [⟨sampleBeast.config, 4, 6, .success⟩,
    ⟨.make "fapi.binance.com" "fstream.binance.com" true
      ⟨ascii "key", ascii "secret"⟩ "443", 4, 6, .shutDown⟩]

/-- It goes to the live hosts and verifies no peer. -/
theorem failed_restart_mixes_configurations :
    ∃ life, run (step sampleBoost fun _ size => size) create failedRestart =
        some life ∧
      life.beast.config.restApiUri = ascii "fapi.binance.com" ∧
      life.verifyPeer = false := by
  obtain ⟨_, hstarted, hone⟩ :=
    starts_end_well_iff sampleBoost (fun _ size => size) failedRestart
  have hpositive : ∀ call ∈ failedRestart, 0 < asked .rest call := by decide
  obtain ⟨life, hrun⟩ := (hone .rest hpositive).mpr (by decide)
  obtain ⟨hlife, _⟩ := hstarted life hrun
  refine ⟨life, hrun, ?_, ?_⟩
  · rw [hlife.beast]
    rfl
  · rw [hlife.verifyPeer]
    rfl

end Lifecycle

end Bblib
