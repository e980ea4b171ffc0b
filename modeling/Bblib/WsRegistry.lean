import Bblib.Beast
import Bblib.LabelledRuns
import Mathlib.Tactic

/-!
# The registry of sessions under concurrent calls

`createWsSession` and `stopWebSocket` are taken apart into their accesses to
`m_nextWsId` and `m_wsSessions`, each an atomic step, and any number of calls
move in any order.  The statement `std::scoped_lock (m_wsSessionsMux);`
declares a local variable named `m_wsSessionsMux` whose class template
arguments are deduced from no mutex at all, so no block excludes another and
every step of every call is enabled.

A session is named by the `createWsSession` call that made it.
-/

namespace Bblib

open LabelledRuns

/-- How far a call has come.  A stop keeps the pointer `find` saw, then the
one `close` is called on, then the one the completion captured. -/
inductive CallPhase (Call : Type) where
  | idle
  | loaded (wsid : TokenId)
  | stored (wsid : TokenId)
  | returned (wsid : TokenId)
  | found (id : TokenId) (session : SharedPtr Call)
  | indexed (id : TokenId) (session closed : SharedPtr Call)
  | closing (id : TokenId) (session closed captured : SharedPtr Call)
  | done

structure WsRegistry (Call : Type) where
  nextWsId : TokenId
  wsSessions : SessionMap Call
  phase : Call → CallPhase Call

/-- `index` and `close` are the two `operator[]` accesses of a stop. -/
inductive WsAccess (Call : Type) where
  | load (call : Call)
  | store (call : Call)
  | assign (call : Call)
  | find (call : Call) (id : TokenId)
  | index (call : Call)
  | close (call : Call)
  | erase (call : Call)

namespace WsRegistry

variable {Call : Type} [DecidableEq Call]

def fresh : WsRegistry Call where
  nextWsId := 1
  wsSessions := .empty
  phase := fun _ => .idle

def advance (s : WsRegistry Call) (call : Call) (phase : CallPhase Call) :
    WsRegistry Call :=
  { s with phase := Function.update s.phase call phase }

def step (s : WsRegistry Call) : WsAccess Call → Option (WsRegistry Call)
  | .load call =>
      match s.phase call with
      | .idle => some (s.advance call (.loaded s.nextWsId))
      | _ => none
  | .store call =>
      match s.phase call with
      | .loaded wsid =>
          some ({ s with nextWsId := wsid + 1 }.advance call (.stored wsid))
      | _ => none
  | .assign call =>
      match s.phase call with
      | .stored wsid =>
          some ({ s with wsSessions := s.wsSessions.assign wsid call }.advance
            call (.returned wsid))
      | _ => none
  | .find call id =>
      match s.phase call with
      | .idle =>
          match s.wsSessions.find id with
          | none => some (s.advance call .done)
          | some session => some (s.advance call (.found id session))
      | _ => none
  | .index call =>
      match s.phase call with
      | .found id session =>
          let (closed, wsSessions) := s.wsSessions.index id
          some ({ s with wsSessions := wsSessions }.advance call
            (.indexed id session closed))
      | _ => none
  | .close call =>
      match s.phase call with
      | .indexed id session closed =>
          let (captured, wsSessions) := s.wsSessions.index id
          some ({ s with wsSessions := wsSessions }.advance call
            (.closing id session closed captured))
      | _ => none
  | .erase call =>
      match s.phase call with
      | .closing id _ (some _) _ =>
          some ({ s with wsSessions := s.wsSessions.erase id }.advance call
            .done)
      | _ => none

/-- Everything one access can do. -/
inductive Moves (s : WsRegistry Call) :
    WsAccess Call → WsRegistry Call → Prop where
  | loads {call : Call} (phase : s.phase call = .idle) :
      Moves s (.load call) (s.advance call (.loaded s.nextWsId))
  | stores {call : Call} {wsid : TokenId}
      (phase : s.phase call = .loaded wsid) :
      Moves s (.store call)
        ({ s with nextWsId := wsid + 1 }.advance call (.stored wsid))
  | assigns {call : Call} {wsid : TokenId}
      (phase : s.phase call = .stored wsid) :
      Moves s (.assign call)
        ({ s with wsSessions := s.wsSessions.assign wsid call }.advance call
          (.returned wsid))
  | misses {call : Call} {id : TokenId} (phase : s.phase call = .idle)
      (missing : s.wsSessions id = none) :
      Moves s (.find call id) (s.advance call .done)
  | finds {call : Call} {id : TokenId} {session : SharedPtr Call}
      (phase : s.phase call = .idle)
      (entry : s.wsSessions id = some session) :
      Moves s (.find call id) (s.advance call (.found id session))
  | indexes {call : Call} {id : TokenId} {session : SharedPtr Call}
      (phase : s.phase call = .found id session) :
      Moves s (.index call)
        ({ s with wsSessions := (s.wsSessions.index id).2 }.advance call
          (.indexed id session (s.wsSessions.index id).1))
  | closes {call : Call} {id : TokenId} {session closed : SharedPtr Call}
      (phase : s.phase call = .indexed id session closed) :
      Moves s (.close call)
        ({ s with wsSessions := (s.wsSessions.index id).2 }.advance call
          (.closing id session closed (s.wsSessions.index id).1))
  | erases {call : Call} {id : TokenId} {session captured : SharedPtr Call}
      {closed : Call}
      (phase : s.phase call = .closing id session (some closed) captured) :
      Moves s (.erase call)
        ({ s with wsSessions := s.wsSessions.erase id }.advance call .done)

theorem moves {s next : WsRegistry Call} {access : WsAccess Call}
    (hstep : s.step access = some next) : Moves s access next := by
  cases access with
  | load call =>
      simp only [step] at hstep
      split at hstep
      · rename_i hphase
        obtain rfl := Option.some.inj hstep
        exact .loads hphase
      · contradiction
  | store call =>
      simp only [step] at hstep
      split at hstep
      · rename_i wsid hphase
        obtain rfl := Option.some.inj hstep
        exact .stores hphase
      · contradiction
  | assign call =>
      simp only [step] at hstep
      split at hstep
      · rename_i wsid hphase
        obtain rfl := Option.some.inj hstep
        exact .assigns hphase
      · contradiction
  | find call id =>
      simp only [step] at hstep
      split at hstep
      · rename_i hphase
        split at hstep
        · rename_i hmissing
          obtain rfl := Option.some.inj hstep
          exact .misses hphase hmissing
        · rename_i session hentry
          obtain rfl := Option.some.inj hstep
          exact .finds hphase hentry
      · contradiction
  | index call =>
      simp only [step] at hstep
      split at hstep
      · rename_i id session hphase
        obtain rfl := Option.some.inj hstep
        exact .indexes hphase
      · contradiction
  | close call =>
      simp only [step] at hstep
      split at hstep
      · rename_i id session closed hphase
        obtain rfl := Option.some.inj hstep
        exact .closes hphase
      · contradiction
  | erase call =>
      simp only [step] at hstep
      split at hstep
      · rename_i id session closed captured hphase
        obtain rfl := Option.some.inj hstep
        exact .erases hphase
      · contradiction

@[simp] theorem advance_nextWsId (s : WsRegistry Call) (call : Call)
    (phase : CallPhase Call) : (s.advance call phase).nextWsId = s.nextWsId :=
  rfl

@[simp] theorem advance_wsSessions (s : WsRegistry Call) (call : Call)
    (phase : CallPhase Call) :
    (s.advance call phase).wsSessions = s.wsSessions := rfl

@[simp] theorem advance_phase_self (s : WsRegistry Call) (call : Call)
    (phase : CallPhase Call) : (s.advance call phase).phase call = phase := by
  simp [advance]

theorem advance_phase_of_ne (s : WsRegistry Call) {call other : Call}
    (phase : CallPhase Call) (hne : other ≠ call) :
    (s.advance call phase).phase other = s.phase other := by
  simp [advance, hne]

end WsRegistry

end Bblib
