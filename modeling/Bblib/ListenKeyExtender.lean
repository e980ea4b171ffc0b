import Bblib.Client
import Bblib.ListenKeyRuns
import Mathlib.Data.Multiset.Replicate
import Mathlib.Tactic

/-!
# Renewing the listen key from a timer

`ListenKeyExtender` of the user data example renews the listen key whenever its
timer expires, and sets the timer again from the handler of the renewal.  The
handler of a refused renewal is called twice, so a refusal leaves one wait too
many: the second call cancels the wait of the first, whose handler renews the
key without looking at the error code.

One handler or wait is added for each refusal and none ever goes away.  Until
the first refusal there is one renewal for each expiry; from then on a handler
is always ready to run, and the key is renewed without a pause.

The timer is Boost.Asio's.  It enters as a parameter, of which no more is used
than what is documented about waits, expiry and cancellation.
-/

namespace Bblib

open LabelledRuns

/-! ## The timer -/

/-- What is used of a `steady_timer` and the context that runs its handlers:
the operations, and of their state how many waits are under way and what the
completed ones pass to the handlers that are still to run. -/
structure TimerLibrary (T : Type) where
  create : T
  asyncWait : T → T
  expiresAfter : T → T
  /-- The time has come. -/
  expire : T → T
  /-- The context takes a handler that is ready, if there is one. -/
  runOne : T → Option (ErrorCode × T)
  waiting : T → ℕ
  ready : T → Multiset ErrorCode

/-- The documented behaviour: every wait completes once, when the timer expires
or when setting its expiry cancels it; a handler that is ready can no longer be
cancelled; the context runs the handlers that are ready, one at a time and in
any order. -/
structure TimerLibrary.Documented {T : Type} (asio : TimerLibrary T) :
    Prop where
  waiting_create : asio.waiting asio.create = 0
  ready_create : asio.ready asio.create = 0
  waiting_asyncWait : ∀ timer,
    asio.waiting (asio.asyncWait timer) = asio.waiting timer + 1
  ready_asyncWait : ∀ timer,
    asio.ready (asio.asyncWait timer) = asio.ready timer
  waiting_expiresAfter : ∀ timer, asio.waiting (asio.expiresAfter timer) = 0
  ready_expiresAfter : ∀ timer, asio.ready (asio.expiresAfter timer) =
    asio.ready timer +
      Multiset.replicate (asio.waiting timer) .operationAborted
  waiting_expire : ∀ timer, asio.waiting (asio.expire timer) = 0
  ready_expire : ∀ timer, asio.ready (asio.expire timer) =
    asio.ready timer + Multiset.replicate (asio.waiting timer) .success
  runOne_none : ∀ timer, asio.runOne timer = none ↔ asio.ready timer = 0
  runOne_some : ∀ timer ec next, asio.runOne timer = some (ec, next) →
    asio.ready timer = ec ::ₘ asio.ready next ∧
      asio.waiting next = asio.waiting timer

/-! ## The extender -/

/-- The object it renews the key of, and its timer. -/
structure ListenKeyExtender (T : Type) where
  api : ApiState
  timer : T

def fapiListenKey : Str := ascii "/fapi/v1/listenKey"

/-- `std::bind(&ListenKeyExtender::onListenKeyRenew, …)` -/
def renewHandler : Callback := some 0

inductive ExtenderEvent where
  | expires
  | onTimerExpire (exchange : Exchange)
  | call (call : ClientCall)

namespace ListenKeyExtender

variable {T : Type}

/-- The constructor starts the first wait. -/
def start (asio : TimerLibrary T) (api : ApiState) : ListenKeyExtender T where
  api := api
  timer := asio.asyncWait asio.create

/-- `hasErrorCode(true)` decides about nothing but what is printed. -/
def onListenKeyRenew (asio : TimerLibrary T) (timer : T) : T :=
  asio.asyncWait (asio.expiresAfter timer)

/-- `none` when an exception leaves the handler, and with it `m_ioc.run()` and
the thread. -/
def onTimerExpire (asio : TimerLibrary T) (boost : Boost)
    (exchange : Exchange) (extender : ListenKeyExtender T) :
    Option (ListenKeyExtender T) :=
  match (renewListenKey boost exchange renewHandler fapiListenKey).outcome
      extender.api with
  | (.error _, _) => none
  | (.ok _, api) =>
      let renewed := api.calls.drop extender.api.calls.length
      some {
        api := api
        timer := renewed.foldl (fun timer _ => onListenKeyRenew asio timer)
          extender.timer }

/-- The timer expires, its thread runs the next handler, or the main thread
makes a call. -/
def step (asio : TimerLibrary T) (boost : Boost)
    (extender : ListenKeyExtender T) :
    ExtenderEvent → Option (ListenKeyExtender T)
  | .expires =>
      if asio.waiting extender.timer = 0 then none
      else some { extender with timer := asio.expire extender.timer }
  | .onTimerExpire exchange =>
      match asio.runOne extender.timer with
      | none => none
      | some (_, timer) =>
          onTimerExpire asio boost exchange { extender with timer := timer }
  | .call call =>
      some { extender with api := ((call.run boost).outcome extender.api).2 }

/-- What the server answers to a renewal now, unless the exchange fails. -/
def reply (boost : Boost) (extender : ListenKeyExtender T)
    (exchange : Exchange) : Option ListenKeyReply :=
  match exchange extender.api.beast.config.restApiUri (ascii "443")
      (extender.api.beast.listenKeyRequest .extend fapiListenKey) with
  | .error _ => none
  | .ok res => some (res.listenKeyReply boost)

def refuses (boost : Boost) (extender : ListenKeyExtender T) :
    ExtenderEvent → Bool
  | .onTimerExpire exchange =>
      match extender.reply boost exchange with
      | some (.rejected _) => true
      | _ => false
  | _ => false

end ListenKeyExtender

/-! ## One renewal -/

/-- The handler is called once for an accepted renewal and twice for a refused
one. -/
theorem renewListenKey_extend (boost : Boost) {exchange : Exchange} (f : ℕ)
    {stream : Str} {s : ApiState} {res : HttpResponse}
    (hexchange : exchange s.beast.config.restApiUri (ascii "443")
      (s.beast.listenKeyRequest .extend stream) = .ok res) :
    match res.listenKeyReply boost with
    | .accepted _ => ∃ last t,
        (renewListenKey boost exchange (some f) stream).outcome s =
          (.ok (), t) ∧ t.calls = s.calls ++ [last]
    | .rejected _ => ∃ first last t,
        (renewListenKey boost exchange (some f) stream).outcome s =
          (.ok (), t) ∧ t.calls = s.calls ++ [first, last]
    | .malformed => ∃ e,
        (renewListenKey boost exchange (some f) stream).outcome s =
          (.error e, s) := by
  rw [renewListenKey_outcome, amendUserDataListenKey_ok hexchange,
    readListenKeyResponse_outcome]
  have hbefore : s.beforeReply .extend = s := rfl
  rw [hbefore]
  cases res.listenKeyReply boost with
  | malformed => exact ⟨_, rfl⟩
  | accepted object =>
      cases hkey : s.beast.listenKey.isEmpty with
      | true => simp [acceptReply, hkey]
      | false => simp [acceptReply, hkey]
  | rejected reason =>
      cases hkey : s.beast.listenKey.isEmpty with
      | true => simp [hkey]
      | false => simp [hkey]

namespace ListenKeyExtender

variable {T : Type}

theorem waiting_onListenKeyRenew {asio : TimerLibrary T}
    (hasio : asio.Documented) (timer : T) :
    asio.waiting (onListenKeyRenew asio timer) = 1 := by
  rw [onListenKeyRenew, hasio.waiting_asyncWait, hasio.waiting_expiresAfter]

theorem ready_onListenKeyRenew {asio : TimerLibrary T}
    (hasio : asio.Documented) (timer : T) :
    asio.ready (onListenKeyRenew asio timer) = asio.ready timer +
      Multiset.replicate (asio.waiting timer) .operationAborted := by
  rw [onListenKeyRenew, hasio.ready_asyncWait, hasio.ready_expiresAfter]

/-- Everything one step can do. -/
inductive Moves (asio : TimerLibrary T) (boost : Boost)
    (extender : ListenKeyExtender T) :
    ExtenderEvent → ListenKeyExtender T → Prop where
  | expires (waiting : asio.waiting extender.timer ≠ 0) :
      Moves asio boost extender .expires
        { extender with timer := asio.expire extender.timer }
  | accepted {exchange : Exchange} {ec : ErrorCode} {timer : T}
      {object : JsonObject} (api : ApiState)
      (taken : asio.runOne extender.timer = some (ec, timer))
      (reply : extender.reply boost exchange = some (.accepted object)) :
      Moves asio boost extender (.onTimerExpire exchange)
        ⟨api, onListenKeyRenew asio timer⟩
  | rejected {exchange : Exchange} {ec : ErrorCode} {timer : T}
      {reason : Str} (api : ApiState)
      (taken : asio.runOne extender.timer = some (ec, timer))
      (reply : extender.reply boost exchange = some (.rejected reason)) :
      Moves asio boost extender (.onTimerExpire exchange)
        ⟨api, onListenKeyRenew asio (onListenKeyRenew asio timer)⟩
  | calls {call : ClientCall} (api : ApiState) :
      Moves asio boost extender (.call call) { extender with api := api }

section Moves

variable {asio : TimerLibrary T} {boost : Boost}
  {extender next : ListenKeyExtender T} {event : ExtenderEvent}
  {exchange : Exchange}

/-- Each call of the handler sets the timer again. -/
theorem onTimerExpire_of_outcome {t : ApiState}
    {calls : List (ℕ × WsResponse)}
    (houtcome : (renewListenKey boost exchange renewHandler
      fapiListenKey).outcome extender.api = (.ok (), t))
    (hcalls : t.calls = extender.api.calls ++ calls) :
    extender.onTimerExpire asio boost exchange =
      some ⟨t, calls.foldl (fun timer _ => onListenKeyRenew asio timer)
        extender.timer⟩ := by
  unfold onTimerExpire
  simp only [houtcome, hcalls, List.drop_left]

theorem onTimerExpire_accepted {object : JsonObject}
    (hreply : extender.reply boost exchange = some (.accepted object)) :
    ∃ api, extender.onTimerExpire asio boost exchange =
      some ⟨api, onListenKeyRenew asio extender.timer⟩ := by
  unfold reply at hreply
  split at hreply
  · contradiction
  · rename_i res hexchange
    have hrenewal := renewListenKey_extend boost 0 hexchange
    rw [Option.some.inj hreply] at hrenewal
    obtain ⟨last, t, houtcome, hcalls⟩ := hrenewal
    exact ⟨t, onTimerExpire_of_outcome houtcome hcalls⟩

theorem onTimerExpire_rejected {reason : Str}
    (hreply : extender.reply boost exchange = some (.rejected reason)) :
    ∃ api, extender.onTimerExpire asio boost exchange =
      some ⟨api, onListenKeyRenew asio
        (onListenKeyRenew asio extender.timer)⟩ := by
  unfold reply at hreply
  split at hreply
  · contradiction
  · rename_i res hexchange
    have hrenewal := renewListenKey_extend boost 0 hexchange
    rw [Option.some.inj hreply] at hrenewal
    obtain ⟨first, last, t, houtcome, hcalls⟩ := hrenewal
    exact ⟨t, onTimerExpire_of_outcome houtcome hcalls⟩

theorem onTimerExpire_throws
    (hreply : extender.reply boost exchange = none ∨
      extender.reply boost exchange = some .malformed) :
    extender.onTimerExpire asio boost exchange = none := by
  unfold reply at hreply
  split at hreply
  · rename_i ec hexchange
    unfold onTimerExpire renewHandler
    rw [renewListenKey_outcome, amendUserDataListenKey_error hexchange]
  · rename_i res hexchange
    have hmalformed : res.listenKeyReply boost = .malformed := by
      simpa using hreply
    have hrenewal := renewListenKey_extend boost 0 hexchange
    rw [hmalformed] at hrenewal
    obtain ⟨e, houtcome⟩ := hrenewal
    unfold onTimerExpire renewHandler
    rw [houtcome]

theorem moves (hstep : extender.step asio boost event = some next) :
    Moves asio boost extender event next := by
  cases event with
  | expires =>
      simp only [step] at hstep
      split at hstep
      · contradiction
      · rename_i hwaiting
        obtain rfl := Option.some.inj hstep
        exact .expires hwaiting
  | call call =>
      obtain rfl := Option.some.inj hstep
      exact .calls _
  | onTimerExpire exchange =>
      simp only [step] at hstep
      split at hstep
      · contradiction
      · rename_i ec timer htaken
        let running : ListenKeyExtender T := { extender with timer := timer }
        cases hreply : running.reply boost exchange with
        | none =>
            rw [onTimerExpire_throws (.inl hreply)] at hstep
            contradiction
        | some answer =>
            cases answer with
            | malformed =>
                rw [onTimerExpire_throws (.inr hreply)] at hstep
                contradiction
            | accepted object =>
                obtain ⟨api, hnext⟩ := onTimerExpire_accepted hreply
                obtain rfl := Option.some.inj (hnext.symm.trans hstep)
                exact .accepted api htaken hreply
            | rejected reason =>
                obtain ⟨api, hnext⟩ := onTimerExpire_rejected hreply
                obtain rfl := Option.some.inj (hnext.symm.trans hstep)
                exact .rejected api htaken hreply

end Moves

end ListenKeyExtender

/-! ## The pace of the renewals -/

/-- The extender with the number of expiries, renewals and refusals so far. -/
structure ExtenderTrace (T : Type) where
  extender : ListenKeyExtender T
  expired : ℕ
  renewed : ℕ
  refused : ℕ

def ExtenderEvent.isExpiry : ExtenderEvent → Bool
  | .expires => true
  | _ => false

def ExtenderEvent.isRenewal : ExtenderEvent → Bool
  | .onTimerExpire _ => true
  | _ => false

namespace ExtenderTrace

section Pace

variable {T : Type} {asio : TimerLibrary T} {boost : Boost}
  {t next : ExtenderTrace T}

def start (asio : TimerLibrary T) (api : ApiState) : ExtenderTrace T where
  extender := .start asio api
  expired := 0
  renewed := 0
  refused := 0

def step (asio : TimerLibrary T) (boost : Boost) (t : ExtenderTrace T)
    (event : ExtenderEvent) : Option (ExtenderTrace T) :=
  (t.extender.step asio boost event).map fun next => {
    extender := next
    expired := t.expired + event.isExpiry.toNat
    renewed := t.renewed + event.isRenewal.toNat
    refused := t.refused + (t.extender.refuses boost event).toNat }

/-- How many handlers are ready to run. -/
def handlers (asio : TimerLibrary T) (t : ExtenderTrace T) : ℕ :=
  (asio.ready t.extender.timer).card

def waits (asio : TimerLibrary T) (t : ExtenderTrace T) : ℕ :=
  asio.waiting t.extender.timer

/-- One handler or wait more than there were refusals, and without a refusal
one renewal for each expiry whose handler has run. -/
structure Balanced (asio : TimerLibrary T) (t : ExtenderTrace T) : Prop where
  balance : t.handlers asio + t.waits asio = 1 + t.refused
  waiting : t.waits asio ≤ 1
  paced : t.refused = 0 →
    t.renewed + t.handlers asio = t.expired ∧
      ∀ ec ∈ asio.ready t.extender.timer, ec = .success

theorem start_balanced (hasio : asio.Documented) (api : ApiState) :
    (start asio api).Balanced asio := by
  have hready : asio.ready (start asio api).extender.timer = 0 :=
    (hasio.ready_asyncWait _).trans hasio.ready_create
  have hwaits : (start asio api).waits asio = 1 := by
    unfold waits start ListenKeyExtender.start
    rw [hasio.waiting_asyncWait, hasio.waiting_create]
  have hhandlers : (start asio api).handlers asio = 0 := by
    rw [handlers, hready, Multiset.card_zero]
  constructor
  case balance => rw [hhandlers, hwaits]; rfl
  case waiting => exact hwaits.le
  case paced =>
    intro _
    rw [hhandlers, hready]
    exact ⟨rfl, by simp⟩

theorem Balanced.expires (hasio : asio.Documented) {after : ExtenderTrace T}
    (hbalanced : t.Balanced asio) (hsome : t.waits asio ≠ 0)
    (htimer : after.extender.timer = asio.expire t.extender.timer)
    (hexpired : after.expired = t.expired + 1)
    (hrenewed : after.renewed = t.renewed)
    (hrefused : after.refused = t.refused) : after.Balanced asio := by
  obtain ⟨hbalance, hwaiting, hpaced⟩ := hbalanced
  have hone : t.waits asio = 1 := by omega
  have hready : asio.ready after.extender.timer =
      asio.ready t.extender.timer + {.success} := by
    have hcount : asio.waiting t.extender.timer = 1 := hone
    rw [htimer, hasio.ready_expire, hcount, Multiset.replicate_one]
  have hhandlers : after.handlers asio = t.handlers asio + 1 := by
    rw [handlers, hready, Multiset.card_add, Multiset.card_singleton]
    rfl
  have hwaits : after.waits asio = 0 := by
    rw [waits, htimer, hasio.waiting_expire]
  constructor
  case balance => omega
  case waiting => omega
  case paced =>
    intro hnone
    obtain ⟨hcount, hall⟩ := hpaced (hrefused.symm.trans hnone)
    refine ⟨by omega, ?_⟩
    intro ec hec
    rw [hready, Multiset.mem_add, Multiset.mem_singleton] at hec
    exact hec.elim (hall ec) id

/-- What a handler that is taken leaves. -/
theorem taken_handlers (hasio : asio.Documented) {ec : ErrorCode} {timer : T}
    (htaken : asio.runOne t.extender.timer = some (ec, timer)) :
    t.handlers asio = (asio.ready timer).card + 1 ∧
      t.waits asio = asio.waiting timer := by
  obtain ⟨hready, hwaiting⟩ := hasio.runOne_some _ _ _ htaken
  refine ⟨?_, hwaiting.symm⟩
  rw [handlers, hready, Multiset.card_cons]

theorem Balanced.accepted (hasio : asio.Documented) {after : ExtenderTrace T}
    {ec : ErrorCode} {timer : T} (hbalanced : t.Balanced asio)
    (htaken : asio.runOne t.extender.timer = some (ec, timer))
    (htimer : after.extender.timer =
      ListenKeyExtender.onListenKeyRenew asio timer)
    (hexpired : after.expired = t.expired)
    (hrenewed : after.renewed = t.renewed + 1)
    (hrefused : after.refused = t.refused) : after.Balanced asio := by
  obtain ⟨hbalance, hwaiting, hpaced⟩ := hbalanced
  obtain ⟨htook, hkept⟩ := taken_handlers hasio htaken
  have hready : asio.ready after.extender.timer = asio.ready timer +
      Multiset.replicate (asio.waiting timer) .operationAborted := by
    rw [htimer, ListenKeyExtender.ready_onListenKeyRenew hasio]
  have hhandlers : after.handlers asio =
      (asio.ready timer).card + asio.waiting timer := by
    rw [handlers, hready, Multiset.card_add, Multiset.card_replicate]
  have hwaits : after.waits asio = 1 := by
    rw [waits, htimer, ListenKeyExtender.waiting_onListenKeyRenew hasio]
  constructor
  case balance => omega
  case waiting => exact hwaits.le
  case paced =>
    intro hnone
    obtain ⟨hcount, _⟩ := hpaced (hrefused.symm.trans hnone)
    have hidle : (asio.ready timer).card = 0 ∧ asio.waiting timer = 0 := by
      omega
    refine ⟨by omega, ?_⟩
    rw [hready, Multiset.card_eq_zero.mp hidle.1, hidle.2]
    simp

theorem Balanced.rejected (hasio : asio.Documented) {after : ExtenderTrace T}
    {ec : ErrorCode} {timer : T} (hbalanced : t.Balanced asio)
    (htaken : asio.runOne t.extender.timer = some (ec, timer))
    (htimer : after.extender.timer = ListenKeyExtender.onListenKeyRenew asio
      (ListenKeyExtender.onListenKeyRenew asio timer))
    (hrefused : after.refused = t.refused + 1) : after.Balanced asio := by
  have hbalance := hbalanced.balance
  obtain ⟨htook, hkept⟩ := taken_handlers hasio htaken
  have hhandlers : after.handlers asio =
      (asio.ready timer).card + asio.waiting timer + 1 := by
    rw [handlers, htimer, ListenKeyExtender.ready_onListenKeyRenew hasio,
      ListenKeyExtender.ready_onListenKeyRenew hasio,
      ListenKeyExtender.waiting_onListenKeyRenew hasio, Multiset.card_add,
      Multiset.card_add, Multiset.card_replicate, Multiset.card_replicate]
  have hwaits : after.waits asio = 1 := by
    rw [waits, htimer, ListenKeyExtender.waiting_onListenKeyRenew hasio]
  constructor
  case balance => omega
  case waiting => exact hwaits.le
  case paced =>
    intro hnone
    omega

theorem Balanced.step (hasio : asio.Documented) {event : ExtenderEvent}
    (hbalanced : t.Balanced asio)
    (hstep : t.step asio boost event = some next) : next.Balanced asio := by
  obtain ⟨extender, hextender, rfl⟩ := Option.map_eq_some_iff.mp hstep
  cases ListenKeyExtender.moves hextender with
  | calls api => exact ⟨hbalanced.balance, hbalanced.waiting, hbalanced.paced⟩
  | expires waiting => exact hbalanced.expires hasio waiting rfl rfl rfl rfl
  | accepted api taken reply =>
      refine hbalanced.accepted hasio taken rfl rfl rfl ?_
      simp [ListenKeyExtender.refuses, reply]
  | rejected api taken reply =>
      refine hbalanced.rejected hasio taken rfl ?_
      simp [ListenKeyExtender.refuses, reply]

theorem Balanced.of_run (hasio : asio.Documented) {api : ApiState}
    {events : List ExtenderEvent}
    (hrun : run (ExtenderTrace.step asio boost) (start asio api) events =
      some t) :
    t.Balanced asio :=
  invariant_of_run (fun _ _ _ hbalanced _ => hbalanced.step hasio)
    (start_balanced hasio api) (meets_true _ _ _) hrun

/-! ## After a refusal -/

theorem Balanced.ready_ne_zero (hbalanced : t.Balanced asio)
    (hrefused : 0 < t.refused) : asio.ready t.extender.timer ≠ 0 := by
  intro hready
  have hbalance := hbalanced.balance
  have hwaiting := hbalanced.waiting
  rw [handlers, hready, Multiset.card_zero] at hbalance
  omega

/-- A handler that is ready renews the key at once, whatever it was passed. -/
theorem exists_renewal (hasio : asio.Documented) (boost : Boost)
    {res : HttpResponse} (hready : asio.ready t.extender.timer ≠ 0)
    (hreply : res.listenKeyReply boost ≠ .malformed) :
    ∃ next,
      t.step asio boost (.onTimerExpire fun _ _ _ => .ok res) = some next ∧
        next.renewed = t.renewed + 1 ∧ next.expired = t.expired ∧
        t.refused ≤ next.refused := by
  obtain ⟨⟨ec, timer⟩, htaken⟩ := Option.ne_none_iff_exists'.mp
    fun hnone => hready ((hasio.runOne_none _).mp hnone)
  let exchange : Exchange := fun _ _ _ => .ok res
  let running : ListenKeyExtender T := { t.extender with timer := timer }
  have hanswer : running.reply boost exchange =
      some (res.listenKeyReply boost) := rfl
  have hextender : ∃ next,
      t.extender.step asio boost (.onTimerExpire exchange) = some next := by
    simp only [ListenKeyExtender.step, htaken]
    cases hres : res.listenKeyReply boost with
    | malformed => exact absurd hres hreply
    | accepted object =>
        rw [hres] at hanswer
        obtain ⟨api, hnext⟩ :=
          ListenKeyExtender.onTimerExpire_accepted hanswer
        exact ⟨_, hnext⟩
    | rejected reason =>
        rw [hres] at hanswer
        obtain ⟨api, hnext⟩ :=
          ListenKeyExtender.onTimerExpire_rejected hanswer
        exact ⟨_, hnext⟩
  obtain ⟨next, hnext⟩ := hextender
  refine ⟨_, Option.map_eq_some_iff.mpr ⟨next, hnext, rfl⟩, rfl, rfl, ?_⟩
  exact Nat.le_add_right _ _

/-- From the first refusal on the timer need not expire again. -/
theorem exists_renewals (hasio : asio.Documented) (boost : Boost)
    {res : HttpResponse} (hbalanced : t.Balanced asio)
    (hrefused : 0 < t.refused)
    (hreply : res.listenKeyReply boost ≠ .malformed) (n : ℕ) :
    ∃ next, run (step asio boost) t
        (List.replicate n (.onTimerExpire fun _ _ _ => .ok res)) = some next ∧
      next.renewed = t.renewed + n ∧ next.expired = t.expired := by
  induction n generalizing t with
  | zero => exact ⟨t, rfl, rfl, rfl⟩
  | succ n ih =>
      obtain ⟨middle, hmiddle, hrenewed, hexpired, hmore⟩ :=
        exists_renewal hasio boost (hbalanced.ready_ne_zero hrefused) hreply
      obtain ⟨next, hrun, hcount, hsame⟩ :=
        ih (hbalanced.step hasio hmiddle) (hrefused.trans_le hmore)
      refine ⟨next, ?_, by omega, hsame.trans hexpired⟩
      rw [List.replicate_succ, run_cons, hmiddle]
      exact hrun

/-- With any timer that behaves as documented: the handlers that are ready and
the waits under way are one more than the refusals, and until the first of them
there is one renewal for each expiry whose handler has run.  From then on any
number of renewals can follow without another expiry. -/
theorem renewals_keep_pace_until_refused (hasio : asio.Documented)
    {api : ApiState} {events : List ExtenderEvent}
    (hrun : run (step asio boost) (start asio api) events = some t) :
    t.handlers asio + t.waits asio = 1 + t.refused ∧ t.waits asio ≤ 1 ∧
      (t.refused = 0 →
        t.renewed + t.handlers asio = t.expired ∧
          ∀ ec ∈ asio.ready t.extender.timer, ec = .success) ∧
      (0 < t.refused → ∀ res, res.listenKeyReply boost ≠ .malformed →
        ∀ n, ∃ next, run (step asio boost) t
            (List.replicate n (.onTimerExpire fun _ _ _ => .ok res)) =
              some next ∧
          next.renewed = t.renewed + n ∧ next.expired = t.expired) := by
  have hbalanced := Balanced.of_run hasio hrun
  refine ⟨hbalanced.balance, hbalanced.waiting, hbalanced.paced, ?_⟩
  intro hrefused res hreply n
  exact exists_renewals hasio boost hbalanced hrefused hreply n

end Pace

/-- A timer that runs its handlers in the order they became ready. -/
def queueTimer : TimerLibrary (ℕ × List ErrorCode) where
  create := (0, [])
  asyncWait timer := (timer.1 + 1, timer.2)
  expiresAfter timer :=
    (0, timer.2 ++ List.replicate timer.1 .operationAborted)
  expire timer := (0, timer.2 ++ List.replicate timer.1 .success)
  runOne
    | (_, []) => none
    | (waiting, ec :: ready) => some (ec, (waiting, ready))
  waiting := Prod.fst
  ready timer := timer.2

theorem queueTimer_documented : queueTimer.Documented where
  waiting_create := rfl
  ready_create := rfl
  waiting_asyncWait _ := rfl
  ready_asyncWait _ := rfl
  waiting_expiresAfter _ := rfl
  ready_expiresAfter _ := rfl
  waiting_expire _ := rfl
  ready_expire _ := rfl
  runOne_none := by
    rintro ⟨waiting, ready⟩
    cases ready with
    | nil => exact iff_of_true rfl rfl
    | cons ec ready => simp [queueTimer]
  runOne_some := by
    rintro ⟨waiting, ready⟩ ec next htaken
    cases ready with
    | nil => contradiction
    | cons first ready =>
        obtain ⟨rfl, rfl⟩ := Prod.mk.inj (Option.some.inj htaken)
        exact ⟨rfl, rfl⟩

/-- One refused renewal is followed by any number of others. -/
theorem refused_renewal_repeats :
    ∃ t, run (step queueTimer sampleBoost)
        (start queueTimer (sampleApi (ascii "k1")))
        [.expires, .onTimerExpire fun _ _ _ => .ok keyUnknown] = some t ∧
      t.refused = 1 ∧ ∀ n, ∃ next, run (step queueTimer sampleBoost) t
          (List.replicate n (.onTimerExpire fun _ _ _ => .ok keyUnknown)) =
            some next ∧
        next.renewed = 1 + n ∧ next.expired = 1 := by
  have hrun : ∃ t, run (step queueTimer sampleBoost)
      (start queueTimer (sampleApi (ascii "k1")))
      [.expires, .onTimerExpire fun _ _ _ => .ok keyUnknown] = some t ∧
        t.refused = 1 ∧ t.renewed = 1 ∧ t.expired = 1 :=
    ⟨_, rfl, rfl, rfl, rfl⟩
  obtain ⟨t, hrun, hrefused, hrenewed, hexpired⟩ := hrun
  obtain ⟨_, _, _, hagain⟩ :=
    renewals_keep_pace_until_refused queueTimer_documented hrun
  refine ⟨t, hrun, hrefused, ?_⟩
  intro n
  obtain ⟨next, hnext, hcount, hsame⟩ :=
    hagain (by omega) keyUnknown nofun n
  exact ⟨next, hnext, by omega, by omega⟩

end ExtenderTrace

end Bblib
