import Bblib.WsRegistry
import Mathlib.Tactic

/-!
# The three lookups of a stop

`stopWebSocket` looks its token up with `find` and twice with `operator[]`,
which inserts a null pointer where there is no entry.  All three see the same
session as long as no close completion erases the token, and no start assigns
it, between the first and the last.
-/

namespace Bblib

open LabelledRuns

namespace WsRegistry

variable {Call : Type} [DecidableEq Call]

/-- A stop has found the token and has still to look it up again. -/
def LookingUp (s : WsRegistry Call) (id : TokenId) : Prop :=
  ∃ call session, s.phase call = .found id session ∨
    ∃ closed, s.phase call = .indexed id session closed

/-- An erased or assigned token is not being looked up. -/
def TokenSettled (s : WsRegistry Call) : WsAccess Call → Prop
  | .erase call => ∀ id session closed captured,
      s.phase call = .closing id session closed captured → ¬ s.LookingUp id
  | .assign call => ∀ wsid, s.phase call = .stored wsid → ¬ s.LookingUp wsid
  | _ => True

def isStop : WsAccess Call → Bool
  | .find _ _ => true
  | .index _ => true
  | .close _ => true
  | _ => false

/-- A stop adds nothing to the map, and the pointer it closes and the one it
captures are the session it found. -/
structure StopSound (s : WsRegistry Call) (access : WsAccess Call)
    (next : WsRegistry Call) : Prop where
  adds_nothing : isStop access = true → next.wsSessions = s.wsSessions
  indexed : ∀ call id session closed,
    next.phase call = .indexed id session closed → closed = session
  closing : ∀ call id session closed captured,
    next.phase call = .closing id session closed captured →
      closed = session ∧ captured = session ∧ closed ≠ none

structure StopInvariant (s : WsRegistry Call) : Prop where
  entries : ∀ id, s.wsSessions id ≠ some none
  found : ∀ call id session, s.phase call = .found id session →
    s.wsSessions id = some session
  indexed : ∀ call id session closed,
    s.phase call = .indexed id session closed →
      closed = session ∧ s.wsSessions id = some session
  closing : ∀ call id session closed captured,
    s.phase call = .closing id session closed captured →
      closed = session ∧ captured = session ∧ closed ≠ none

omit [DecidableEq Call] in
theorem fresh_stopInvariant : (fresh : WsRegistry Call).StopInvariant := by
  constructor
  · intro id
    exact nofun
  · exact nofun
  · exact nofun
  · exact nofun

/-- A move of one call into a phase that fits the map, while the tokens that
are being looked up keep their entries. -/
theorem StopInvariant.move {s : WsRegistry Call} {call : Call}
    {phase : CallPhase Call} {nextWsId : TokenId}
    {wsSessions : SessionMap Call} (hinv : s.StopInvariant)
    (hentries : ∀ id, wsSessions id ≠ some none)
    (hkept : ∀ id, s.LookingUp id → wsSessions id = s.wsSessions id)
    (hfound : ∀ id session, phase = .found id session →
      wsSessions id = some session)
    (hindexed : ∀ id session closed, phase = .indexed id session closed →
      closed = session ∧ wsSessions id = some session)
    (hclosing : ∀ id session closed captured,
      phase = .closing id session closed captured →
        closed = session ∧ captured = session ∧ closed ≠ none) :
    ({ s with
        nextWsId := nextWsId
        wsSessions := wsSessions }.advance call phase).StopInvariant := by
  constructor
  · exact hentries
  · intro other id session hother
    by_cases heq : other = call
    · subst heq
      rw [advance_phase_self] at hother
      exact hfound id session hother
    · rw [advance_phase_of_ne _ _ heq] at hother
      have hlooking : s.LookingUp id := ⟨other, session, .inl hother⟩
      show wsSessions id = some session
      rw [hkept id hlooking]
      exact hinv.found other id session hother
  · intro other id session closed hother
    by_cases heq : other = call
    · subst heq
      rw [advance_phase_self] at hother
      exact hindexed id session closed hother
    · rw [advance_phase_of_ne _ _ heq] at hother
      have hlooking : s.LookingUp id := ⟨other, session, .inr ⟨closed, hother⟩⟩
      obtain ⟨hsame, hentry⟩ := hinv.indexed other id session closed hother
      refine ⟨hsame, ?_⟩
      show wsSessions id = some session
      rw [hkept id hlooking]
      exact hentry
  · intro other id session closed captured hother
    by_cases heq : other = call
    · subst heq
      rw [advance_phase_self] at hother
      exact hclosing id session closed captured hother
    · rw [advance_phase_of_ne _ _ heq] at hother
      exact hinv.closing other id session closed captured hother

theorem StopInvariant.step {s next : WsRegistry Call}
    {access : WsAccess Call} (hinv : s.StopInvariant)
    (hsettled : s.TokenSettled access) (hstep : s.step access = some next) :
    next.StopInvariant := by
  cases moves hstep with
  | loads phase =>
      exact hinv.move hinv.entries (fun _ _ => rfl) (by simp) (by simp)
        (by simp)
  | stores phase =>
      exact hinv.move hinv.entries (fun _ _ => rfl) (by simp) (by simp)
        (by simp)
  | @assigns call wsid phase =>
      have hsettled' := hsettled wsid phase
      apply hinv.move _ _ (by simp) (by simp) (by simp)
      · intro id
        by_cases heq : id = wsid
        · subst heq
          simp
        · rw [SessionMap.assign_of_ne _ heq]
          exact hinv.entries id
      · intro id hlooking
        apply SessionMap.assign_of_ne
        rintro rfl
        exact hsettled' hlooking
  | misses phase missing =>
      exact hinv.move hinv.entries (fun _ _ => rfl) (by simp) (by simp)
        (by simp)
  | finds phase entry =>
      apply hinv.move hinv.entries (fun _ _ => rfl) _ (by simp) (by simp)
      intro id session hphase
      cases hphase
      exact entry
  | @indexes call id session phase =>
      have hentry := hinv.found call id session phase
      rw [SessionMap.index_of_some hentry]
      apply hinv.move hinv.entries (fun _ _ => rfl) (by simp) _ (by simp)
      intro id' session' closed hphase
      cases hphase
      exact ⟨rfl, hentry⟩
  | @closes call id session closed phase =>
      obtain ⟨hsame, hentry⟩ := hinv.indexed call id session closed phase
      rw [SessionMap.index_of_some hentry]
      apply hinv.move hinv.entries (fun _ _ => rfl) (by simp) (by simp) _
      intro id' session' closed' captured hphase
      cases hphase
      refine ⟨hsame, rfl, ?_⟩
      rintro rfl
      rw [← hsame] at hentry
      exact hinv.entries id hentry
  | @erases call id session captured closed phase =>
      have hsettled' := hsettled id session (some closed) captured phase
      apply hinv.move _ _ (by simp) (by simp) (by simp)
      · intro other
        by_cases heq : other = id
        · subst heq
          simp
        · rw [SessionMap.erase_of_ne _ heq]
          exact hinv.entries other
      · intro other hlooking
        apply SessionMap.erase_of_ne
        rintro rfl
        exact hsettled' hlooking

theorem StopInvariant.adds_nothing {s next : WsRegistry Call}
    {access : WsAccess Call} (hinv : s.StopInvariant)
    (hstop : isStop access = true) (hstep : s.step access = some next) :
    next.wsSessions = s.wsSessions := by
  cases moves hstep with
  | loads phase => contradiction
  | stores phase => contradiction
  | assigns phase => contradiction
  | misses phase missing => rfl
  | finds phase entry => rfl
  | indexes phase =>
      show (SessionMap.index _ _).2 = _
      rw [SessionMap.index_of_some (hinv.found _ _ _ phase)]
  | closes phase =>
      show (SessionMap.index _ _).2 = _
      rw [SessionMap.index_of_some (hinv.indexed _ _ _ _ phase).2]
  | erases phase => contradiction

/-- Over every interleaving of stops, starts and close completions. -/
theorem concurrent_stops_are_sound {accesses : List (WsAccess Call)}
    (hsettled : Meets WsRegistry.step TokenSettled fresh accesses) :
    EveryStep WsRegistry.step StopSound (fresh : WsRegistry Call) accesses := by
  refine everyStep_of_invariant (I := StopInvariant) ?_ ?_ fresh_stopInvariant
    hsettled
  · intro s access next hinv hallowed hstep
    exact hinv.step hallowed hstep
  · intro s access next hinv hallowed hstep
    have hnext := hinv.step hallowed hstep
    constructor
    · intro hstop
      exact hinv.adds_nothing hstop hstep
    · intro call id session closed hphase
      exact (hnext.indexed call id session closed hphase).1
    · exact hnext.closing

theorem stop_of_started_is_sound :
    EveryStep WsRegistry.step StopSound (fresh : WsRegistry ℕ)
      [.load 0, .store 0, .assign 0, .find 1 1, .index 1, .close 1,
        .erase 1] := by
  apply concurrent_stops_are_sound
  refine meets_cons_of_step trivial rfl ?_
  refine meets_cons_of_step trivial rfl ?_
  refine meets_cons_of_step ?_ rfl ?_
  · rintro wsid _ ⟨call, session, hlooking⟩
    by_cases hzero : call = 0
    · simp [advance, hzero] at hlooking
    · simp [advance, fresh, hzero] at hlooking
  refine meets_cons_of_step trivial rfl ?_
  refine meets_cons_of_step trivial rfl ?_
  refine meets_cons_of_step trivial rfl ?_
  refine meets_cons_of_step ?_ rfl meets_nil
  rintro id _ _ _ _ ⟨call, session, hlooking⟩
  by_cases hone : call = 1
  · simp [advance, hone] at hlooking
  · by_cases hzero : call = 0
    · simp [advance, hzero] at hlooking
    · simp [advance, fresh, hone, hzero] at hlooking

/-- Two stops find the session, and the close of the first completes before
the second looks it up again: it closes a null pointer. -/
theorem second_stop_closes_null :
    ¬ EveryStep WsRegistry.step StopSound (fresh : WsRegistry ℕ)
      [.load 0, .store 0, .assign 0, .find 1 1, .find 2 1, .index 1, .close 1,
        .erase 1, .index 2, .close 2] := by
  intro hall
  have hsound := hall [.load 0, .store 0, .assign 0, .find 1 1, .find 2 1,
    .index 1, .close 1, .erase 1, .index 2] (.close 2) [] _ _ rfl rfl rfl
  obtain ⟨_, _, hclosed⟩ := hsound.closing 2 1 (some 0) none none rfl
  exact hclosed rfl

end WsRegistry

end Bblib
