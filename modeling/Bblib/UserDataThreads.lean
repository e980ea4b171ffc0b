import Bblib.Client
import Bblib.ExclusiveSections
import Mathlib.Tactic

/-!
# User data calls of several threads

`startUserData`, `renewListenKey` and `closeUserData` are taken apart before
each of their accesses to `m_listenKey`, and any number of threads make the
pieces of their calls in any order, an access being atomic.  Nothing in the
class keeps the calls apart; what is shown is when they need not be.
-/

namespace Bblib

open LabelledRuns ExclusiveSections

/-! ## The calls in pieces -/

/-- How far a call has come: its exchange is over, the response has been
looked at, the key has been found stored, the call has returned or thrown. -/
inductive UserDataPhase where
  | called
  | answered (res : HttpResponse)
  | amended
  | stored
  | returned (result : Except Exn (Option WsToken))

/-- What each call does after `amendUserDataListenKey`, and the token it
returns when it is `startUserData`. -/
def UserDataCall.conclude (stored : Bool) :
    UserDataCall → Api (Option WsToken)
  | .startUserData handler _ =>
      if stored then do
        let s ← get
        let token ← createWsSession s.beast.config.wsApiUri
          (ascii "/ws/" ++ s.beast.listenKey) handler
        return some token
      else return some ⟨0⟩
  | .renewListenKey handler _ =>
      if stored then do
        invoke handler (.ofState .success)
        return none
      else do
        invoke handler (.ofReason (ascii "Failed to renew listen key"))
        return none
  | .closeUserData handler _ =>
      if stored then do
        setListenKey []
        invoke handler (.ofState .success)
        return none
      else do
        invoke handler (.ofReason (ascii "Failed to close listen key"))
        return none

/-- The next piece of the call, up to its next access to the key. -/
def KeyEvent.piece (boost : Boost) (event : KeyEvent) :
    UserDataPhase → Option (Api UserDataPhase)
  | .called => some <|
      match event.received with
      | .error ec => throw (.systemError ec)
      | .ok res => do
          if event.call.mode = .create then
            setListenKey []
          return .answered res
  | .answered res => some do
      readListenKeyResponse boost event.call.handler event.call.mode res
      return .amended
  | .amended => some do
      let s ← get
      let stored := !s.beast.listenKey.isEmpty
      if stored ∧ event.call.mode ≠ .extend then
        return .stored
      else
        let token ← event.call.conclude stored
        return .returned (.ok token)
  | .stored => some do
      let token ← event.call.conclude true
      return .returned (.ok token)
  | .returned _ => none

/-- The members the calls share. -/
structure SharedBeast where
  beast : BinanceBeast
  sessions : List StartedWsSession

/-- A call and the invocations of handlers it has made. -/
structure UserDataThread where
  phase : UserDataPhase
  told : List (ℕ × WsResponse)

def SharedBeast.seenBy (x : SharedBeast) (told : List (ℕ × WsResponse)) :
    ApiState :=
  ⟨x.beast, x.sessions, told⟩

def ApiState.shared (s : ApiState) : SharedBeast := ⟨s.beast, s.sessions⟩

/-- Where a piece of a call leaves the call; a piece that throws ends it. -/
def UserDataThread.after (ended : Except Exn UserDataPhase × ApiState) :
    UserDataThread :=
  match ended.1 with
  | .ok phase => ⟨phase, ended.2.calls⟩
  | .error e => ⟨.returned (.error e), ended.2.calls⟩

def KeyEvent.act (boost : Boost) (event : KeyEvent) (l : UserDataThread)
    (x : SharedBeast) : Option (UserDataThread × SharedBeast) :=
  (event.piece boost l.phase).map fun piece =>
    let ended := piece.outcome (x.seenBy l.told)
    (.after ended, ended.2.shared)

/-- A Create relies on the key from the time it has cleared it until it
returns, a Close from its look at the key until it clears it. -/
def KeyEvent.inside (event : KeyEvent) (l : UserDataThread) : Bool :=
  match event.call.mode, l.phase with
  | .create, .answered _ => true
  | .create, .amended => true
  | .create, .stored => true
  | .close, .stored => true
  | _, _ => false

/-- One thread for each call, with the answer its exchange will get. -/
def userDataThreads {Call : Type} (boost : Boost) (event : Call → KeyEvent) :
    Threads Call SharedBeast UserDataThread where
  begins := fun _ => ⟨.called, []⟩
  act := fun call => (event call).act boost
  inside := fun call l => (event call).inside l = true

/-! ## A call alone -/

/-- The call made by one thread alone. -/
def KeyEvent.alone (boost : Boost) (event : KeyEvent) :
    Api (Option WsToken) :=
  (ClientCall.userData event.call fun _ _ _ => event.received).run boost

/-- What is left of a call. -/
def KeyEvent.rest (boost : Boost) (event : KeyEvent) :
    UserDataPhase → Api (Option WsToken)
  | .called => event.alone boost
  | .answered res => do
      readListenKeyResponse boost event.call.handler event.call.mode res
      let s ← get
      event.call.conclude (!s.beast.listenKey.isEmpty)
  | .amended => do
      let s ← get
      event.call.conclude (!s.beast.listenKey.isEmpty)
  | .stored => event.call.conclude true
  | .returned (.ok token) => pure token
  | .returned (.error e) => throw e

theorem UserDataCall.client_outcome (boost : Boost) (exchange : Exchange)
    (call : UserDataCall) (s : ApiState) :
    ((ClientCall.userData call exchange).run boost).outcome s =
      match (call.amend boost exchange).outcome s with
      | (.ok stored, t) => (call.conclude stored).outcome t
      | (.error e, t) => (.error e, t) := by
  cases call with
  | startUserData handler stream =>
      rw [ClientCall.run, outcome_bind_pure, startUserData_outcome, amend]
      simp only [UserDataCall.handler, UserDataCall.mode, UserDataCall.stream]
      generalize (amendUserDataListenKey boost exchange handler .create
        stream).outcome s = ended
      obtain ⟨result, t⟩ := ended
      cases result with
      | error e => rfl
      | ok stored =>
          cases stored with
          | false => rfl
          | true =>
              simp only [conclude, if_true]
              rw [Api.outcome_get_bind, outcome_bind_pure]
  | renewListenKey handler stream =>
      rw [ClientCall.run, outcome_bind_pure, renewListenKey_outcome, amend]
      simp only [UserDataCall.handler, UserDataCall.mode, UserDataCall.stream]
      generalize (amendUserDataListenKey boost exchange handler .extend
        stream).outcome s = ended
      obtain ⟨result, t⟩ := ended
      cases result with
      | error e => rfl
      | ok stored =>
          cases stored with
          | false => exact (outcome_bind_pure _ (fun _ => none) t).symm
          | true => exact (outcome_bind_pure _ (fun _ => none) _).symm
  | closeUserData handler stream =>
      rw [ClientCall.run, outcome_bind_pure, closeUserData_outcome, amend]
      simp only [UserDataCall.handler, UserDataCall.mode, UserDataCall.stream]
      generalize (amendUserDataListenKey boost exchange handler .close
        stream).outcome s = ended
      obtain ⟨result, t⟩ := ended
      cases result with
      | error e => rfl
      | ok stored =>
          cases stored with
          | false => exact (outcome_bind_pure _ (fun _ => none) t).symm
          | true => exact (outcome_bind_pure _ (fun _ => none) _).symm

namespace KeyEvent

variable {boost : Boost} {event : KeyEvent}

theorem piece_called_outcome {res : HttpResponse}
    (hreceived : event.received = .ok res) :
    ∃ piece, event.piece boost .called = some piece ∧ ∀ s,
      piece.outcome s =
        (.ok (.answered res), s.beforeReply event.call.mode) := by
  refine ⟨_, rfl, ?_⟩
  intro s
  simp only [hreceived, ApiState.beforeReply]
  by_cases hmode : event.call.mode = .create
  · rw [if_pos hmode, if_pos hmode]
    rfl
  · rw [if_neg hmode, if_neg hmode]
    rfl

theorem piece_amended_outcome :
    ∃ piece, event.piece boost .amended = some piece ∧ ∀ s,
      piece.outcome s =
        if s.beast.listenKey ≠ [] ∧ event.call.mode ≠ .extend then
          (.ok .stored, s)
        else
          match (event.call.conclude (!s.beast.listenKey.isEmpty)).outcome s with
          | (.ok token, t) => (.ok (.returned (.ok token)), t)
          | (.error e, t) => (.error e, t) := by
  refine ⟨_, rfl, ?_⟩
  intro s
  have hstored : (!s.beast.listenKey.isEmpty) = true ↔
      s.beast.listenKey ≠ [] := by simp
  rw [Api.outcome_get_bind]
  simp only [hstored]
  split
  · rfl
  · rw [Api.outcome_bind]
    generalize (event.call.conclude (!s.beast.listenKey.isEmpty)).outcome s =
      concluded
    obtain ⟨result, t⟩ := concluded
    cases result with
    | error e => rfl
    | ok a => rfl

/-- A piece and what is left after it are what was left before. -/
theorem rest_of_piece {phase : UserDataPhase} {piece : Api UserDataPhase}
    (hpiece : event.piece boost phase = some piece) (s : ApiState) :
    (event.rest boost phase).outcome s =
      (piece >>= event.rest boost).outcome s := by
  cases phase with
  | called =>
      rw [rest, alone, UserDataCall.client_outcome, UserDataCall.amend]
      cases hreceived : event.received with
      | error ec =>
          obtain rfl := Option.some.inj hpiece
          rw [amendUserDataListenKey_error rfl]
          simp only [hreceived]
          rfl
      | ok res =>
          obtain ⟨_, hcalled, houtcome⟩ :=
            @piece_called_outcome boost event res hreceived
          rw [hcalled] at hpiece
          obtain rfl := Option.some.inj hpiece
          rw [amendUserDataListenKey_ok rfl, Api.outcome_bind, houtcome]
          show _ = (event.rest boost (.answered res)).outcome
            (s.beforeReply event.call.mode)
          rw [rest, Api.outcome_bind]
          generalize (readListenKeyResponse boost event.call.handler
            event.call.mode res).outcome (s.beforeReply event.call.mode) = read
          obtain ⟨result, t⟩ := read
          cases result with
          | error e => rfl
          | ok a => rfl
  | answered res =>
      obtain rfl := Option.some.inj hpiece
      rw [rest, Api.outcome_bind, Api.outcome_bind, Api.outcome_bind]
      generalize (readListenKeyResponse boost event.call.handler
        event.call.mode res).outcome s = read
      obtain ⟨result, t⟩ := read
      cases result with
      | error e => rfl
      | ok a => rfl
  | amended =>
      obtain ⟨_, hamended, houtcome⟩ :=
        @piece_amended_outcome boost event
      rw [hamended] at hpiece
      obtain rfl := Option.some.inj hpiece
      rw [rest, Api.outcome_get_bind, Api.outcome_bind, houtcome]
      by_cases hstored : s.beast.listenKey ≠ [] ∧ event.call.mode ≠ .extend
      · have hkey : (!s.beast.listenKey.isEmpty) = true := by
          simpa using hstored.1
        rw [if_pos hstored, hkey]
        rfl
      · rw [if_neg hstored]
        generalize (event.call.conclude
          (!s.beast.listenKey.isEmpty)).outcome s = concluded
        obtain ⟨result, t⟩ := concluded
        cases result with
        | error e => rfl
        | ok a => rfl
  | stored =>
      obtain rfl := Option.some.inj hpiece
      rw [rest, Api.outcome_bind, Api.outcome_bind]
      generalize (event.call.conclude true).outcome s = concluded
      obtain ⟨result, t⟩ := concluded
      cases result with
      | error e => rfl
      | ok a => rfl
  | returned result => contradiction

theorem act_eq_some {l l' : UserDataThread} {x y : SharedBeast} :
    event.act boost l x = some (l', y) ↔
      ∃ piece, event.piece boost l.phase = some piece ∧
        l' = .after (piece.outcome (x.seenBy l.told)) ∧
        y = (piece.outcome (x.seenBy l.told)).2.shared := by
  simp only [act, Option.map_eq_some_iff, Prod.mk.injEq]
  constructor
  · rintro ⟨piece, hpiece, rfl, rfl⟩
    exact ⟨piece, hpiece, rfl, rfl⟩
  · rintro ⟨piece, hpiece, rfl, rfl⟩
    exact ⟨piece, hpiece, rfl, rfl⟩

theorem rest_of_act {l l' : UserDataThread} {x y : SharedBeast}
    (hact : event.act boost l x = some (l', y)) :
    (event.rest boost l.phase).outcome (x.seenBy l.told) =
      (event.rest boost l'.phase).outcome (y.seenBy l'.told) := by
  obtain ⟨piece, hpiece, rfl, rfl⟩ := act_eq_some.mp hact
  rw [rest_of_piece hpiece, Api.outcome_bind]
  generalize piece.outcome (x.seenBy l.told) = ended
  obtain ⟨result, t⟩ := ended
  cases result with
  | error e => rfl
  | ok phase => rfl

/-! ## What a piece can do -/

theorem piece_eq_none {phase : UserDataPhase} :
    event.piece boost phase = none ↔ ∃ result, phase = .returned result := by
  cases phase <;> simp [piece]

theorem not_returned_of_act {l : UserDataThread} {x : SharedBeast}
    {next : UserDataThread × SharedBeast}
    (hact : event.act boost l x = some next) :
    ∀ result, l.phase ≠ .returned result := by
  intro result hphase
  obtain ⟨_, hpiece, _, _⟩ := act_eq_some.mp hact
  rw [hphase] at hpiece
  contradiction

/-- The ways a call goes on, none of which changes the sessions. -/
inductive GoesOn (event : KeyEvent) : UserDataPhase → UserDataPhase → Prop where
  | answers {res : HttpResponse} (received : event.received = .ok res) :
      GoesOn event .called (.answered res)
  | reads (res : HttpResponse) : GoesOn event (.answered res) .amended
  | finds (mode : event.call.mode ≠ .extend) : GoesOn event .amended .stored

theorem sessions_readListenKeyResponse (handler : Callback)
    (mode : UserDataStreamMode) (res : HttpResponse) (s : ApiState) :
    ((readListenKeyResponse boost handler mode res).outcome s).2.sessions =
      s.sessions := by
  rw [readListenKeyResponse_outcome]
  cases res.listenKeyReply boost with
  | accepted object => exact (ApiState.OnlyKey.acceptReply mode object s).sessions
  | rejected reason => rfl
  | malformed => rfl

theorem goesOn_of_act {l l' : UserDataThread} {x y : SharedBeast}
    (hact : event.act boost l x = some (l', y))
    (hrunning : ∀ result, l'.phase ≠ .returned result) :
    event.GoesOn l.phase l'.phase ∧ y.sessions = x.sessions := by
  obtain ⟨piece, hpiece, rfl, rfl⟩ := act_eq_some.mp hact
  cases hphase : l.phase with
  | called =>
      rw [hphase] at hpiece
      cases hreceived : event.received with
      | error ec =>
          simp only [KeyEvent.piece, hreceived, Option.some.injEq] at hpiece
          subst hpiece
          exact absurd rfl (hrunning _)
      | ok res =>
          obtain ⟨_, hcalled, houtcome⟩ :=
            @piece_called_outcome boost event res hreceived
          rw [hcalled] at hpiece
          obtain rfl := Option.some.inj hpiece
          rw [houtcome]
          exact ⟨.answers hreceived,
            (ApiState.OnlyKey.beforeReply _ event.call.mode).sessions⟩
  | answered res =>
      rw [hphase] at hpiece
      obtain rfl := Option.some.inj hpiece
      have hsessions := @sessions_readListenKeyResponse boost
        event.call.handler event.call.mode res (x.seenBy l.told)
      rw [Api.outcome_bind] at hrunning ⊢
      generalize (readListenKeyResponse boost event.call.handler
        event.call.mode res).outcome (x.seenBy l.told) = read
        at hsessions hrunning ⊢
      obtain ⟨result, t⟩ := read
      cases result with
      | error e => exact absurd rfl (hrunning _)
      | ok a => exact ⟨.reads res, hsessions⟩
  | amended =>
      rw [hphase] at hpiece
      obtain ⟨_, hamended, houtcome⟩ := @piece_amended_outcome boost event
      rw [hamended] at hpiece
      obtain rfl := Option.some.inj hpiece
      rw [houtcome] at hrunning ⊢
      split
      · rename_i hstored
        exact ⟨.finds hstored.2, rfl⟩
      · rename_i hstored
        rw [if_neg hstored] at hrunning
        generalize (event.call.conclude _).outcome _ = concluded at hrunning
        obtain ⟨result, t⟩ := concluded
        cases result with
        | error e => exact absurd rfl (hrunning _)
        | ok a => exact absurd rfl (hrunning _)
  | stored =>
      rw [hphase] at hpiece
      obtain rfl := Option.some.inj hpiece
      rw [Api.outcome_bind] at hrunning
      generalize (event.call.conclude true).outcome (x.seenBy l.told) =
        concluded at hrunning
      obtain ⟨result, t⟩ := concluded
      cases result with
      | error e => exact absurd rfl (hrunning _)
      | ok a => exact absurd rfl (hrunning _)
  | returned result =>
      rw [hphase] at hpiece
      contradiction

/-! ## Which pieces touch the key -/

theorem act_of_received {res : HttpResponse}
    (hreceived : event.received = .ok res) (told : List (ℕ × WsResponse))
    (x : SharedBeast) :
    event.act boost ⟨.called, told⟩ x =
      some (⟨.answered res, told⟩,
        ((x.seenBy told).beforeReply event.call.mode).shared) := by
  obtain ⟨piece, hpiece, houtcome⟩ :=
    @piece_called_outcome boost event res hreceived
  refine act_eq_some.mpr ⟨piece, hpiece, ?_, ?_⟩
  · rw [houtcome]
    cases event.call.mode <;> rfl
  · rw [houtcome]

theorem private_called (hmode : event.call.mode ≠ .create)
    (told : List (ℕ × WsResponse)) :
    ∃ l', ∀ x, event.act boost ⟨.called, told⟩ x = some (l', x) := by
  cases hreceived : event.received with
  | error ec =>
      refine ⟨⟨.returned (.error (.systemError ec)), told⟩, fun x => ?_⟩
      refine act_eq_some.mpr ⟨throw (.systemError ec), ?_, rfl, rfl⟩
      simp only [piece, hreceived]
  | ok res =>
      refine ⟨⟨.answered res, told⟩, fun x => ?_⟩
      rw [act_of_received hreceived, ApiState.beforeReply, if_neg hmode]
      rfl

theorem private_answered (hmode : event.call.mode ≠ .create)
    (res : HttpResponse) (told : List (ℕ × WsResponse)) :
    ∃ l', ∀ x, event.act boost ⟨.answered res, told⟩ x = some (l', x) := by
  have hread := readListenKeyResponse_outcome boost event.call.handler
    event.call.mode res
  cases hreply : res.listenKeyReply boost with
  | accepted object =>
      refine ⟨⟨.amended, told⟩, fun x => act_eq_some.mpr ⟨_, rfl, ?_⟩⟩
      rw [Api.outcome_bind, hread, hreply]
      simp only [acceptReply, if_neg hmode]
      exact ⟨rfl, rfl⟩
  | rejected reason =>
      refine ⟨⟨.amended, told ++ (event.call.handler.map fun f =>
        (f, WsResponse.ofReason reason)).toList⟩,
        fun x => act_eq_some.mpr ⟨_, rfl, ?_⟩⟩
      rw [Api.outcome_bind, hread, hreply]
      exact ⟨rfl, rfl⟩
  | malformed =>
      refine ⟨⟨.returned (.error .jsonAccess), told⟩,
        fun x => act_eq_some.mpr ⟨_, rfl, ?_⟩⟩
      rw [Api.outcome_bind, hread, hreply]
      exact ⟨rfl, rfl⟩

/-- An accepted exchange of a Create clears whatever key there was. -/
theorem called_touches {res : HttpResponse}
    (hreceived : event.received = .ok res) (hmode : event.call.mode = .create)
    (told : List (ℕ × WsResponse)) :
    ¬ ∃ l', ∀ x, event.act boost ⟨.called, told⟩ x = some (l', x) := by
  rintro ⟨l', hprivate⟩
  have hsame := hprivate (sampleApi (ascii "k1")).shared
  rw [act_of_received hreceived, hmode] at hsame
  have hkey : ([] : Str) = ascii "k1" :=
    congrArg (fun next => next.2.beast.listenKey) (Option.some.inj hsame)
  exact absurd hkey (by decide)

/-- A Close goes on to clear the key only when there is one. -/
theorem amended_touches {l' : UserDataThread} {x y : SharedBeast}
    {told : List (ℕ × WsResponse)}
    (hact : event.act boost ⟨.amended, told⟩ x = some (l', y))
    (hstored : l'.phase = .stored) :
    ¬ ∃ l', ∀ x, event.act boost ⟨.amended, told⟩ x = some (l', x) := by
  rintro ⟨next, hprivate⟩
  obtain ⟨rfl, -⟩ : l' = next ∧ y = x := by
    simpa using hact.symm.trans (hprivate x)
  obtain ⟨piece, hpiece, hnext, -⟩ :=
    act_eq_some.mp (hprivate (sampleApi []).shared)
  obtain ⟨_, hamended, houtcome⟩ := @piece_amended_outcome boost event
  rw [hamended] at hpiece
  obtain rfl := Option.some.inj hpiece
  rw [houtcome, if_neg (by rintro ⟨hkey, -⟩; exact hkey rfl)] at hnext
  generalize (event.call.conclude _).outcome _ = concluded at hnext
  obtain ⟨result, t⟩ := concluded
  subst hnext
  cases result with
  | error e => contradiction
  | ok a => contradiction

theorem not_returned_of_inside {l : UserDataThread}
    (hinside : event.inside l = true) :
    ∀ result, l.phase ≠ .returned result := by
  intro result hphase
  cases hmode : event.call.mode <;> simp [inside, hmode, hphase] at hinside

end KeyEvent

/-! ## The sections of the calls -/

section Threads

variable {Call : Type} {boost : Boost} {event : Call → KeyEvent}

theorem userDataThreads_ended {call : Call} {l : UserDataThread} :
    (userDataThreads boost event).Ended call l ↔
      ∃ result, l.phase = .returned result := by
  constructor
  · intro hended
    rw [← @KeyEvent.piece_eq_none boost (event call)]
    simpa [userDataThreads, KeyEvent.act] using hended (sampleApi []).shared
  · rintro ⟨result, hphase⟩ x
    simp [userDataThreads, KeyEvent.act, hphase, KeyEvent.piece]

theorem userDataThreads_sectioned :
    (userDataThreads boost event).Sectioned where
  begins call := by
    constructor
    · simp [userDataThreads, KeyEvent.inside]
    · rw [userDataThreads_ended]
      rintro ⟨result, hphase⟩
      contradiction
  ended call l hended := by
    obtain ⟨result, hphase⟩ := userDataThreads_ended.mp hended
    simp [userDataThreads, KeyEvent.inside, hphase]
  enters call l x l' y hact hbefore hinside := by
    obtain ⟨phase, told⟩ := l
    have hgoes := (KeyEvent.goesOn_of_act hact
      (KeyEvent.not_returned_of_inside hinside)).1
    generalize hnext : l'.phase = next at hgoes
    cases hgoes with
    | answers received =>
        refine @KeyEvent.called_touches boost _ _ received ?_ told
        cases hmode : (event call).call.mode with
        | create => rfl
        | extend => simp [userDataThreads, KeyEvent.inside, hmode] at hinside
        | close => simp [userDataThreads, KeyEvent.inside, hmode, hnext] at hinside
    | reads res =>
        exfalso
        cases hmode : (event call).call.mode with
        | create => simp [userDataThreads, KeyEvent.inside, hmode] at hbefore
        | extend => simp [userDataThreads, KeyEvent.inside, hmode] at hinside
        | close => simp [userDataThreads, KeyEvent.inside, hmode, hnext] at hinside
    | finds mode => exact @KeyEvent.amended_touches boost _ _ _ _ _ hact hnext
  outside call l x l' y hact hbefore hafter hended := by
    obtain ⟨phase, told⟩ := l
    rw [userDataThreads_ended] at hended
    have hgoes := (KeyEvent.goesOn_of_act hact
      fun result hphase => hended ⟨result, hphase⟩).1
    generalize hnext : l'.phase = next at hgoes
    cases hgoes with
    | answers received =>
        refine @KeyEvent.private_called boost _ ?_ told
        intro hmode
        simp [userDataThreads, KeyEvent.inside, hmode, hnext] at hafter
    | reads res =>
        refine @KeyEvent.private_answered boost _ ?_ res told
        intro hmode
        simp [userDataThreads, KeyEvent.inside, hmode] at hbefore
    | finds mode =>
        exfalso
        cases hmode : (event call).call.mode with
        | create => simp [userDataThreads, KeyEvent.inside, hmode, hnext] at hafter
        | extend => exact mode hmode
        | close => simp [userDataThreads, KeyEvent.inside, hmode, hnext] at hafter
  leaves call l x l' y hact hbefore hafter := by
    obtain ⟨phase, told⟩ := l
    rw [userDataThreads_ended]
    by_contra hrunning
    have hgoes := (KeyEvent.goesOn_of_act hact
      fun result hphase => hrunning ⟨result, hphase⟩).1
    generalize hnext : l'.phase = next at hgoes
    cases hmode : (event call).call.mode with
    | create =>
        cases hgoes <;>
          simp [userDataThreads, KeyEvent.inside, hmode, hnext] at hafter
    | extend => simp [userDataThreads, KeyEvent.inside, hmode] at hbefore
    | close =>
        cases hgoes with
        | answers received =>
            simp [userDataThreads, KeyEvent.inside, hmode] at hbefore
        | reads res => simp [userDataThreads, KeyEvent.inside, hmode] at hbefore
        | finds mode =>
            simp [userDataThreads, KeyEvent.inside, hmode] at hbefore

def UserDataPhase.rank : UserDataPhase → ℕ
  | .called => 4
  | .answered _ => 3
  | .amended => 2
  | .stored => 1
  | .returned _ => 0

theorem userDataThreads_finite :
    (userDataThreads boost event).Finite fun _ l => l.phase.rank where
  enabled call l x hact := by
    rw [userDataThreads_ended]
    rw [← @KeyEvent.piece_eq_none boost (event call)]
    simpa [userDataThreads, KeyEvent.act] using hact
  lowers call l x l' y hact := by
    by_cases hrunning : ∃ result, l'.phase = .returned result
    · obtain ⟨result, hresult⟩ := hrunning
      have hbefore := KeyEvent.not_returned_of_act hact
      cases hphase : l.phase with
      | returned result => exact absurd hphase (hbefore result)
      | _ => simp [hresult, UserDataPhase.rank]
    · have hgoes := (KeyEvent.goesOn_of_act hact
        fun result hphase => hrunning ⟨result, hphase⟩).1
      generalize l.phase = phase at hgoes ⊢
      generalize l'.phase = next at hgoes ⊢
      cases hgoes with
      | answers received => simp [UserDataPhase.rank]
      | reads res => simp [UserDataPhase.rank]
      | finds mode => simp [UserDataPhase.rank]

end Threads

/-! ## A call among others' reports -/

/-- The state with invocations that were made before. -/
def ApiState.logged (earlier : List (ℕ × WsResponse)) (s : ApiState) :
    ApiState :=
  { s with calls := earlier ++ s.calls }

section Logged

variable (earlier : List (ℕ × WsResponse))

theorem invoke_logged (handler : Callback) (response : WsResponse) :
    Api.Commutes (ApiState.logged earlier) (invoke handler response) := by
  intro s
  cases handler with
  | none => rfl
  | some f => simp [ApiState.logged]

theorem invoke_logged_none (handler : Callback) (response : WsResponse) :
    Api.Commutes (ApiState.logged earlier)
      (invoke handler response >>= fun _ => pure (none : Option WsToken)) :=
  (invoke_logged earlier handler response).bind fun _ => .pure none

theorem createWsSession_logged (host path : Str) (handler : Callback) :
    Api.Commutes (ApiState.logged earlier)
      (createWsSession host path handler) := by
  intro s
  cases handler with
  | none => rfl
  | some f => rfl

theorem readListenKeyResponse_logged (boost : Boost) (handler : Callback)
    (mode : UserDataStreamMode) (res : HttpResponse) :
    Api.Commutes (ApiState.logged earlier)
      (readListenKeyResponse boost handler mode res) := by
  intro s
  rw [readListenKeyResponse_outcome, readListenKeyResponse_outcome]
  cases res.listenKeyReply boost with
  | accepted object =>
      simp only [acceptReply]
      split
      · cases (object.index (ascii "listenKey")).1.valueToString with
        | none => rfl
        | some key => rfl
      · rfl
  | rejected reason => simp [ApiState.reported, ApiState.logged]
  | malformed => rfl

theorem UserDataCall.conclude_logged (stored : Bool) (call : UserDataCall) :
    Api.Commutes (ApiState.logged earlier) (call.conclude stored) := by
  cases call with
  | startUserData handler stream =>
      cases stored with
      | false => exact .pure (some (WsToken.mk 0))
      | true =>
          refine .get_bind fun s => ?_
          exact (createWsSession_logged earlier s.beast.config.wsApiUri
            (ascii "/ws/" ++ s.beast.listenKey) handler).bind
              (fun token => .pure (some token)) s
  | renewListenKey handler stream =>
      cases stored with
      | false => exact invoke_logged_none earlier handler _
      | true => exact invoke_logged_none earlier handler _
  | closeUserData handler stream =>
      cases stored with
      | false => exact invoke_logged_none earlier handler _
      | true =>
          have hclear : Api.Commutes (ApiState.logged earlier)
              (setListenKey []) := fun _ => rfl
          exact hclear.bind fun _ => invoke_logged_none earlier handler _

/-- What was invoked before changes nothing in what a call does. -/
theorem KeyEvent.alone_logged (boost : Boost) (event : KeyEvent) :
    Api.Commutes (ApiState.logged earlier) (event.alone boost) := by
  intro s
  cases hreceived : event.received with
  | error ec =>
      rw [alone, UserDataCall.client_outcome, UserDataCall.client_outcome,
        UserDataCall.amend, hreceived, amendUserDataListenKey_error rfl,
        amendUserDataListenKey_error rfl]
  | ok res =>
      obtain ⟨piece, hpiece, houtcome⟩ :=
        @KeyEvent.piece_called_outcome boost event res hreceived
      have hrest := KeyEvent.rest_of_piece hpiece
      simp only [KeyEvent.rest] at hrest
      have hbefore : (s.logged earlier).beforeReply event.call.mode =
          (s.beforeReply event.call.mode).logged earlier := by
        cases event.call.mode <;> rfl
      rw [hrest, hrest, Api.outcome_bind, Api.outcome_bind, houtcome,
        houtcome, hbefore]
      have hread := readListenKeyResponse_logged earlier boost
        event.call.handler event.call.mode res
      refine hread.bind (fun _ => .get_bind fun s => ?_) _
      exact UserDataCall.conclude_logged earlier
        (!s.beast.listenKey.isEmpty) event.call s

end Logged

/-! ## One call after another -/

section Serial

variable {Call : Type} {boost : Boost} {event : Call → KeyEvent}
  {x y : SharedBeast}

theorem outcome_of_reaches {call : Call} {l : UserDataThread}
    (hreaches : (userDataThreads boost event).Reaches call x l y) :
    ((event call).alone boost).outcome (x.seenBy []) =
      ((event call).rest boost l.phase).outcome (y.seenBy l.told) := by
  apply hreaches.invariant (P := fun l y => _ =
    ((event call).rest boost l.phase).outcome (y.seenBy l.told)) rfl
  intro l y l' z hrest hact
  rw [hrest]
  exact KeyEvent.rest_of_act hact

theorem sessions_of_reaches {call : Call} {l : UserDataThread}
    (hreaches : (userDataThreads boost event).Reaches call x l y)
    (hrunning : ∀ result, l.phase ≠ .returned result) :
    y.sessions = x.sessions := by
  revert hrunning
  apply hreaches.invariant (P := fun l y =>
    (∀ result, l.phase ≠ .returned result) → y.sessions = x.sessions)
    fun _ => rfl
  intro l y l' z hsessions hact hrunning
  rw [(KeyEvent.goesOn_of_act hact hrunning).2]
  exact hsessions (KeyEvent.not_returned_of_act hact)

/-- A call that has returned did alone what it did among the others. -/
theorem exists_result {call : Call} {l : UserDataThread}
    (hreaches : (userDataThreads boost event).Reaches call x l y)
    (hended : (userDataThreads boost event).Ended call l)
    (earlier : List (ℕ × WsResponse)) :
    ∃ result, l.phase = .returned result ∧
      ((event call).alone boost).outcome (x.seenBy earlier) =
        (result, y.seenBy (earlier ++ l.told)) := by
  obtain ⟨result, hphase⟩ := userDataThreads_ended.mp hended
  refine ⟨result, hphase, ?_⟩
  have hlogged : x.seenBy earlier = (x.seenBy []).logged earlier := by
    simp [SharedBeast.seenBy, ApiState.logged]
  rw [hlogged, KeyEvent.alone_logged earlier boost (event call),
    outcome_of_reaches hreaches, hphase]
  cases result with
  | ok a => rfl
  | error e => rfl

/-- One call made alone. -/
def ApiState.step (boost : Boost) (s : ApiState) (event : KeyEvent) :
    Option ApiState :=
  some ((event.alone boost).outcome s).2

/-- The calls of the list, one after another: what they leave, and each with
the result it has returned, a token or an exception where it has one. -/
structure OneAfterAnother (boost : Boost) (event : Call → KeyEvent)
    (own : Call → UserDataThread) (x : SharedBeast) (order : List Call)
    (s : ApiState) : Prop where
  runs : run (ApiState.step boost) (x.seenBy []) (order.map event) = some s
  calls : s.calls = order.flatMap fun call => (own call).told
  results : ∀ before call after s', order = before ++ call :: after →
    run (ApiState.step boost) (x.seenBy []) (before.map event) = some s' →
    (own call).phase = .returned (((event call).alone boost).outcome s').1

theorem oneAfterAnother_of_serial {own : Call → UserDataThread}
    {order : List Call}
    (hserial : (userDataThreads boost event).Serial own x order y) :
    ∃ s, OneAfterAnother boost event own x order s ∧ s.shared = y := by
  induction hserial with
  | nil =>
      refine ⟨x.seenBy [], ⟨rfl, rfl, ?_⟩, rfl⟩
      intro before call after s' hsplit
      simp at hsplit
  | @snoc order y z last _ reaches ended ih =>
      obtain ⟨s, hs, rfl⟩ := ih
      obtain ⟨result, hphase, houtcome⟩ :=
        exists_result reaches ended s.calls
      have hlast : ((event last).alone boost).outcome s =
          (result, z.seenBy (s.calls ++ (own last).told)) := houtcome
      refine ⟨z.seenBy (s.calls ++ (own last).told), ⟨?_, ?_, ?_⟩, rfl⟩
      · rw [List.map_append, List.map_singleton, run_snoc_eq_some]
        refine ⟨s, hs.runs, ?_⟩
        rw [ApiState.step, hlast]
      · simp [SharedBeast.seenBy, hs.calls]
      · intro before call after s' hsplit hbefore
        rcases snoc_eq_append_cons hsplit with
          ⟨rest, _, hinit⟩ | ⟨_, rfl, rfl⟩
        · exact hs.results before call rest s' hinit hbefore
        · obtain rfl : s = s' := by
            rw [hs.runs] at hbefore
            exact Option.some.inj hbefore
          rw [hphase, hlast]

/-- Alone, a call leaves what it leaves without its token. -/
theorem KeyEvent.alone_state (boost : Boost) (event : KeyEvent)
    (m : KeyRun) :
    ((event.alone boost).outcome m.api).2 = (m.outcome boost event).2 := by
  obtain ⟨call, received⟩ := event
  cases call with
  | startUserData handler stream =>
      rw [KeyRun.outcome, UserDataCall.run_startUserData, alone,
        ClientCall.run, outcome_bind_pure_state]
  | renewListenKey handler stream =>
      rw [KeyRun.outcome, UserDataCall.run, alone, ClientCall.run,
        outcome_bind_pure_state]
  | closeUserData handler stream =>
      rw [KeyRun.outcome, UserDataCall.run, alone, ClientCall.run,
        outcome_bind_pure_state]

theorem ApiState.run_keyRun {events : List KeyEvent} {m : KeyRun}
    {s : ApiState}
    (hrun : run (ApiState.step boost) m.api events = some s) :
    ∃ m', run (KeyRun.step boost) m events = some m' ∧ m'.api = s := by
  induction events generalizing m with
  | nil => exact ⟨m, rfl, by simpa using hrun⟩
  | cons event events ih =>
      obtain ⟨next, hstep, hrest⟩ := run_cons_eq_some.mp hrun
      obtain rfl := Option.some.inj hstep
      rw [KeyEvent.alone_state] at hrest
      exact @ih ⟨_, KeyRun.ghostAfter boost event m.ghost⟩ hrest

theorem ApiState.run_paths {order : List Call} {s t : ApiState}
    (hrun : run (ApiState.step boost) s (order.map event) = some t) :
    t.sessions.map (fun started => started.session.path) =
      s.sessions.map (fun started => started.session.path) ++
        order.filterMap fun call =>
          ((event call).opens boost).map fun k => ascii "/ws/" ++ k := by
  obtain ⟨m, hkeys, rfl⟩ := ApiState.run_keyRun (m := KeyRun.start s) hrun
  obtain ⟨opened, hsessions, hpaths⟩ := KeyRun.run_sessions hkeys
  have hstart : (KeyRun.start s).api.sessions = s.sessions := rfl
  rw [hsessions, hstart, List.map_append, hpaths, List.filterMap_map,
    List.map_filterMap]
  rfl

/-- The sessions that are there are those of the calls that have returned. -/
theorem sessions_of_serialised {s : State Call SharedBeast UserDataThread}
    {order : List Call}
    (hs : (userDataThreads boost event).Serialised x s order y) :
    s.shared.sessions = y.sessions := by
  by_cases hholder : ∃ call, (event call).inside (s.own call) = true
  · obtain ⟨call, hinside⟩ := hholder
    exact sessions_of_reaches (hs.within call hinside).1
      (KeyEvent.not_returned_of_inside hinside)
  · rw [hs.shared fun call hinside => hholder ⟨call, hinside⟩]

/-- Renewals only look at the key, so nothing has to keep them apart. -/
theorem renewals_are_exclusive
    (hrenewals : ∀ call, (event call).call.mode = .extend)
    (s : State Call SharedBeast UserDataThread) (call : Call) :
    (userDataThreads boost event).Exclusive s call := by
  intro _ other _
  simp [userDataThreads, KeyEvent.inside, hrenewals other]

variable [DecidableEq Call]

/-- When no call touches the key while another one relies on it, the calls
that have returned did what they do one after another and returned what they
return so, and every call can still return. -/
theorem exclusive_user_data_calls_are_serial (boost : Boost) (event : Call → KeyEvent)
    (x : SharedBeast) (schedule : List Call)
    (t : State Call SharedBeast UserDataThread)
    (hexclusive : Meets (userDataThreads boost event).step
      (userDataThreads boost event).Exclusive
      ((userDataThreads boost event).start x) schedule)
    (hrun : run (userDataThreads boost event).step
      ((userDataThreads boost event).start x) schedule = some t) :
    (∃ order s, order.Nodup ∧
      (∀ call, call ∈ order ↔
        ∃ result, (t.own call).phase = .returned result) ∧
      OneAfterAnother boost event t.own x order s ∧
      t.shared.sessions = s.sessions ∧
      ((∀ call, (event call).inside (t.own call) = false) →
        t.shared = s.shared) ∧
      t.shared.sessions.map (fun started => started.session.path) =
        x.sessions.map (fun started => started.session.path) ++
          order.filterMap fun call =>
            ((event call).opens boost).map fun k => ascii "/ws/" ++ k) ∧
    ∀ pending : List Call, ∃ rest u,
      Meets (userDataThreads boost event).step
        (userDataThreads boost event).Exclusive t rest ∧
      run (userDataThreads boost event).step t rest = some u ∧
      ∀ call ∈ pending, ∃ result, (u.own call).phase = .returned result := by
  obtain ⟨order, y, hs⟩ :=
    userDataThreads_sectioned.serialised_of_run hexclusive hrun
  constructor
  · obtain ⟨s, hserial, rfl⟩ := oneAfterAnother_of_serial hs.serial
    have hsessions : t.shared.sessions = s.sessions :=
      sessions_of_serialised hs
    refine ⟨order, s, hs.nodup, ?_, hserial, hsessions, ?_, ?_⟩
    · intro call
      rw [hs.mem_order, userDataThreads_ended]
    · intro hnone
      apply hs.shared
      intro call hinside
      exact absurd hinside (by simp [userDataThreads, hnone call])
    · rw [hsessions]
      exact ApiState.run_paths hserial.runs
  · intro pending
    obtain ⟨rest, u, hmeets, hrest, _, hall⟩ :=
      hs.exists_completion userDataThreads_finite userDataThreads_sectioned
        pending
    refine ⟨rest, u, hmeets, hrest, ?_⟩
    intro call hcall
    exact userDataThreads_ended.mp (hall call hcall)

end Serial

def renewalAccepted : KeyEvent where
  call := .renewListenKey (some 1) (ascii "/fapi/v1/listenKey")
  received := .ok (jsonResponse "\x7b\x7d")

def startRejected : KeyEvent where
  call := .startUserData (some 1) (ascii "/fapi/v1/listenKey")
  received := .ok keyUnknown

/-- The start of one thread and a call of another. -/
def startBeside (other : KeyEvent) : Bool → KeyEvent
  | false => userDataCreated
  | true => other

/-- The exchange of the renewal is over before that of the start, and its
response is read while the start relies on the key; the start returns the
token it would return alone. -/
theorem renewal_beside_start_is_serial :
    ∃ t, run (userDataThreads sampleBoost (startBeside renewalAccepted)).step
        ((userDataThreads sampleBoost (startBeside renewalAccepted)).start
          (sampleApi []).shared)
        [true, false, true, false, false, false, true] = some t ∧
      (t.own false).phase = .returned (.ok (some ⟨1⟩)) ∧
      (t.own true).phase = .returned (.ok none) ∧
      ∃ order s, OneAfterAnother sampleBoost (startBeside renewalAccepted)
        t.own (sampleApi []).shared order s := by
  have hstarts : ∀ s : State Bool SharedBeast UserDataThread,
      (userDataThreads sampleBoost
        (startBeside renewalAccepted)).Exclusive s false := by
    intro s _ other hother
    cases other with
    | false => exact absurd rfl hother
    | true => simp [userDataThreads, KeyEvent.inside, startBeside,
        renewalAccepted, UserDataCall.mode]
  have hrenewal : UserDataCall.mode renewalAccepted.call ≠ .create := by decide
  refine ⟨_, rfl, ?_⟩
  obtain ⟨⟨order, s, _, _, hserial, _⟩, _⟩ :=
    exclusive_user_data_calls_are_serial sampleBoost (startBeside renewalAccepted)
      (sampleApi []).shared [true, false, true, false, false, false, true] _
      (by
        refine meets_cons_of_step ?_ rfl <|
          meets_cons_of_step (hstarts _) rfl <|
          meets_cons_of_step ?_ rfl <|
          meets_cons_of_step (hstarts _) rfl <|
          meets_cons_of_step (hstarts _) rfl <|
          meets_cons_of_step (hstarts _) rfl <|
          meets_cons_of_step ?_ rfl meets_nil
        · intro htouches
          exact absurd
            (@KeyEvent.private_called sampleBoost _ hrenewal []) htouches
        · intro htouches
          exact absurd
            (@KeyEvent.private_answered sampleBoost _ hrenewal _ []) htouches
        · intro _ other hother
          cases other with
          | false => exact Bool.false_ne_true
          | true => exact absurd rfl hother)
      rfl
  exact ⟨rfl, rfl, order, s, hserial⟩

/-- A start whose request was rejected finds the key of another start that
overlaps it, and opens a session with that key. -/
theorem overlapping_starts_share_a_key :
    ∃ t, run (userDataThreads sampleBoost (startBeside startRejected)).step
        ((userDataThreads sampleBoost (startBeside startRejected)).start
          (sampleApi []).shared)
        [true, true, false, false, true, true, false, false] = some t ∧
      t.shared.sessions.map (fun started => started.session.path) =
        [ascii "/ws/k1", ascii "/ws/k1"] := by
  exact ⟨_, rfl, by decide⟩

end Bblib
