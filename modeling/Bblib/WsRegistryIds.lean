import Bblib.WsRegistry
import Mathlib.Tactic

/-!
# Token ids of concurrent starts

`createWsSession` allocates an id by loading `m_nextWsId` and storing the
value plus one.  The ids are distinct, and every session is found under its
own, as long as no call loads the counter between the load and the store of
another.
-/

namespace Bblib

open LabelledRuns

/-- The id a call has allocated, once the counter has moved past it. -/
def CallPhase.issued {Call : Type} : CallPhase Call → Option TokenId
  | .stored wsid => some wsid
  | .returned wsid => some wsid
  | _ => none

namespace WsRegistry

variable {Call : Type} [DecidableEq Call]

/-- A call loads the counter while no other is between its load and store. -/
def LoadsAlone (s : WsRegistry Call) (access : WsAccess Call) : Prop :=
  ∀ call, access = .load call → ∀ other wsid, s.phase other ≠ .loaded wsid

def isLoad : WsAccess Call → Bool
  | .load _ => true
  | _ => false

/-- The number of calls that have loaded the counter. -/
def loads (accesses : List (WsAccess Call)) : ℕ := accesses.countP isLoad

omit [DecidableEq Call] in
theorem LoadsAlone.of_other {s : WsRegistry Call} {access : WsAccess Call}
    (hother : isLoad access = false) : s.LoadsAlone access := by
  rintro call rfl
  contradiction

structure IdInvariant (count : ℕ) (s : WsRegistry Call) : Prop where
  loading : ∀ call wsid, s.phase call = .loaded wsid →
    s.nextWsId = wsid ∧ wsid.toNat ≤ count
  alone : ∀ call other wsid wsid', s.phase call = .loaded wsid →
    s.phase other = .loaded wsid' → call = other
  issued : ∀ call wsid, (s.phase call).issued = some wsid →
    wsid.toNat < s.nextWsId.toNat
  distinct : ∀ call other wsid, (s.phase call).issued = some wsid →
    (s.phase other).issued = some wsid → call = other
  counted : s.nextWsId.toNat ≤ count + 1

omit [DecidableEq Call] in
theorem fresh_idInvariant : IdInvariant 0 (fresh : WsRegistry Call) := by
  constructor <;> simp [fresh, CallPhase.issued]

theorem IdInvariant.keep {count : ℕ} {s : WsRegistry Call} {call : Call}
    {phase : CallPhase Call} (hinv : IdInvariant count s)
    (hissued : phase.issued = (s.phase call).issued)
    (hloaded : ∀ wsid, phase ≠ .loaded wsid) (wsSessions : SessionMap Call) :
    IdInvariant count
      ({ s with wsSessions := wsSessions }.advance call phase) := by
  have hphase : ∀ other wsid,
      ({ s with wsSessions := wsSessions }.advance call phase).phase other =
        .loaded wsid → s.phase other = .loaded wsid := by
    intro other wsid hother
    by_cases heq : other = call
    · subst heq
      rw [advance_phase_self] at hother
      exact absurd hother (hloaded wsid)
    · rwa [advance_phase_of_ne _ _ heq] at hother
  have hsame : ∀ other,
      (({ s with wsSessions := wsSessions }.advance call phase).phase
        other).issued = (s.phase other).issued := by
    intro other
    by_cases heq : other = call
    · subst heq
      rw [advance_phase_self, hissued]
    · rw [advance_phase_of_ne _ _ heq]
  constructor
  · intro other wsid hother
    exact hinv.loading other wsid (hphase other wsid hother)
  · intro other another wsid wsid' hother hanother
    exact hinv.alone other another wsid wsid' (hphase other wsid hother)
      (hphase another wsid' hanother)
  · intro other wsid hother
    exact hinv.issued other wsid (by rwa [hsame] at hother)
  · intro other another wsid hother hanother
    rw [hsame] at hother hanother
    exact hinv.distinct other another wsid hother hanother
  · exact hinv.counted

theorem IdInvariant.load {count : ℕ} {s : WsRegistry Call} {call : Call}
    (hinv : IdInvariant count s)
    (halone : ∀ other wsid, s.phase other ≠ .loaded wsid)
    (hphase : s.phase call = .idle) :
    IdInvariant (count + 1) (s.advance call (.loaded s.nextWsId)) := by
  have hloaded : ∀ other wsid,
      (s.advance call (.loaded s.nextWsId)).phase other = .loaded wsid →
        other = call ∧ wsid = s.nextWsId := by
    intro other wsid hother
    by_cases heq : other = call
    · subst heq
      rw [advance_phase_self] at hother
      cases hother
      exact ⟨rfl, rfl⟩
    · rw [advance_phase_of_ne _ _ heq] at hother
      exact absurd hother (halone other wsid)
  have hissued : ∀ other,
      ((s.advance call (.loaded s.nextWsId)).phase other).issued =
        (s.phase other).issued := by
    intro other
    by_cases heq : other = call
    · subst heq
      rw [advance_phase_self, hphase]
      rfl
    · rw [advance_phase_of_ne _ _ heq]
  constructor
  · intro other wsid hother
    obtain ⟨_, rfl⟩ := hloaded other wsid hother
    exact ⟨rfl, hinv.counted⟩
  · intro other another wsid wsid' hother hanother
    rw [(hloaded other wsid hother).1, (hloaded another wsid' hanother).1]
  · intro other wsid hother
    rw [hissued] at hother
    exact hinv.issued other wsid hother
  · intro other another wsid hother hanother
    rw [hissued] at hother hanother
    exact hinv.distinct other another wsid hother hanother
  · have hcounted := hinv.counted
    show s.nextWsId.toNat ≤ count + 1 + 1
    omega

theorem toNat_succ_of_lt {wsid : TokenId} (hlt : wsid.toNat < 2 ^ 32 - 1) :
    (wsid + 1).toNat = wsid.toNat + 1 := by
  rw [UInt32.toNat_add]
  simp
  omega

theorem IdInvariant.store {count : ℕ} {s : WsRegistry Call} {call : Call}
    {wsid : TokenId} (hinv : IdInvariant count s) (hcount : count < 2 ^ 32 - 1)
    (hphase : s.phase call = .loaded wsid) :
    IdInvariant count
      ({ s with nextWsId := wsid + 1 }.advance call (.stored wsid)) := by
  obtain ⟨hnext, hbound⟩ := hinv.loading call wsid hphase
  have hsucc : (wsid + 1).toNat = wsid.toNat + 1 :=
    toNat_succ_of_lt (by omega)
  have hlater : ∀ other wsid', other ≠ call →
      (s.phase other).issued = some wsid' → wsid'.toNat < wsid.toNat := by
    intro other wsid' _ hother
    rw [← hnext]
    exact hinv.issued other wsid' hother
  have hnone : ∀ other wsid',
      ({ s with nextWsId := wsid + 1 }.advance call (.stored wsid)).phase
        other ≠ .loaded wsid' := by
    intro other wsid' hother
    by_cases heq : other = call
    · subst heq
      rw [advance_phase_self] at hother
      contradiction
    · rw [advance_phase_of_ne _ _ heq] at hother
      exact heq (hinv.alone other call wsid' wsid hother hphase)
  constructor
  · intro other wsid' hother
    exact absurd hother (hnone other wsid')
  · intro other another wsid' wsid'' hother hanother
    exact absurd hother (hnone other wsid')
  · intro other wsid' hother
    show wsid'.toNat < (wsid + 1).toNat
    by_cases heq : other = call
    · subst heq
      rw [advance_phase_self] at hother
      obtain rfl := Option.some.inj hother
      omega
    · rw [advance_phase_of_ne _ _ heq] at hother
      have hlt := hlater other wsid' heq hother
      omega
  · intro other another wsid' hother hanother
    by_cases heq : other = call
    · subst heq
      by_cases hne : another = other
      · exact hne.symm
      · rw [advance_phase_self] at hother
        rw [advance_phase_of_ne _ _ hne] at hanother
        obtain rfl := Option.some.inj hother
        have hlt := hlater another _ hne hanother
        omega
    · rw [advance_phase_of_ne _ _ heq] at hother
      by_cases hne : another = call
      · subst hne
        rw [advance_phase_self] at hanother
        obtain rfl := Option.some.inj hanother
        have hlt := hlater other _ heq hother
        omega
      · rw [advance_phase_of_ne _ _ hne] at hanother
        exact hinv.distinct other another wsid' hother hanother
  · show (wsid + 1).toNat ≤ count + 1
    omega

theorem IdInvariant.step {count : ℕ} {s next : WsRegistry Call}
    {access : WsAccess Call} (hinv : IdInvariant count s)
    (hcount : count < 2 ^ 32 - 1) (halone : s.LoadsAlone access)
    (hstep : s.step access = some next) :
    IdInvariant (count + loads [access]) next := by
  cases moves hstep with
  | loads phase => exact hinv.load (halone _ rfl) phase
  | stores phase => exact hinv.store hcount phase
  | assigns phase =>
      exact hinv.keep (by rw [phase]; rfl) (by simp) _
  | misses phase missing =>
      exact hinv.keep (by rw [phase]; rfl) (by simp) _
  | finds phase entry =>
      exact hinv.keep (by rw [phase]; rfl) (by simp) _
  | indexes phase =>
      exact hinv.keep (by rw [phase]; rfl) (by simp) _
  | closes phase =>
      exact hinv.keep (by rw [phase]; rfl) (by simp) _
  | erases phase =>
      exact hinv.keep (by rw [phase]; rfl) (by simp) _

/-! ## Where the sessions are -/

/-- Every session whose start has returned is found under its token. -/
def Registered (s : WsRegistry Call) : Prop :=
  ∀ call wsid, s.phase call = .returned wsid →
    s.wsSessions wsid = some (some call)

theorem Registered.keep {s : WsRegistry Call} {call : Call}
    {phase : CallPhase Call} {nextWsId : TokenId}
    {wsSessions : SessionMap Call} (hinv : s.Registered)
    (hphase : ∀ wsid, phase ≠ .returned wsid)
    (hentries : ∀ wsid pointer, s.wsSessions wsid = some pointer →
      wsSessions wsid = some pointer) :
    ({ s with
        nextWsId := nextWsId
        wsSessions := wsSessions }.advance call phase).Registered := by
  intro other wsid hother
  by_cases heq : other = call
  · subst heq
    rw [advance_phase_self] at hother
    exact absurd hother (hphase wsid)
  · rw [advance_phase_of_ne _ _ heq] at hother
    exact hentries wsid _ (hinv other wsid hother)

theorem Registered.assign {count : ℕ} {s : WsRegistry Call} {call : Call}
    {wsid : TokenId} (hinv : s.Registered) (hids : IdInvariant count s)
    (hphase : s.phase call = .stored wsid) :
    ({ s with wsSessions := s.wsSessions.assign wsid call }.advance call
      (.returned wsid)).Registered := by
  intro other wsid' hother
  show s.wsSessions.assign wsid call wsid' = some (some other)
  by_cases heq : other = call
  · subst heq
    rw [advance_phase_self] at hother
    cases hother
    exact SessionMap.assign_self _ _ _
  · rw [advance_phase_of_ne _ _ heq] at hother
    have hother' : s.phase other = .returned wsid' := hother
    have hne : wsid' ≠ wsid := by
      intro hsame
      apply heq
      apply hids.distinct other call wsid
      · rw [hother', hsame]
        rfl
      · rw [hphase]
        rfl
    rw [SessionMap.assign_of_ne _ hne]
    exact hinv other wsid' hother

theorem Registered.step {count : ℕ} {s next : WsRegistry Call}
    {access : WsAccess Call} (hinv : s.Registered) (hids : IdInvariant count s)
    (hkeeps : ∀ call, access ≠ .erase call)
    (hstep : s.step access = some next) : next.Registered := by
  cases moves hstep with
  | loads phase => exact hinv.keep (by simp) fun _ _ hentry => hentry
  | stores phase => exact hinv.keep (by simp) fun _ _ hentry => hentry
  | assigns phase => exact hinv.assign hids phase
  | misses phase missing => exact hinv.keep (by simp) fun _ _ hentry => hentry
  | finds phase entry => exact hinv.keep (by simp) fun _ _ hentry => hentry
  | indexes phase =>
      exact hinv.keep (by simp) fun _ _ hentry => SessionMap.index_of_entry hentry
  | closes phase =>
      exact hinv.keep (by simp) fun _ _ hentry => SessionMap.index_of_entry hentry
  | erases phase => exact absurd rfl (hkeeps _)

omit [DecidableEq Call] in
theorem fresh_registered : (fresh : WsRegistry Call).Registered := by
  intro call wsid hphase
  contradiction

omit [DecidableEq Call] in
theorem loads_snoc (accesses : List (WsAccess Call)) (access : WsAccess Call) :
    loads (accesses ++ [access]) = loads accesses + loads [access] := by
  simp [loads]

/-- Over every interleaving of fewer than 2^32 - 1 starts with any number of
stops and close completions. -/
theorem concurrent_starts_are_registered {accesses : List (WsAccess Call)}
    {t : WsRegistry Call} (hcount : loads accesses < 2 ^ 32 - 1)
    (halone : Meets WsRegistry.step LoadsAlone fresh accesses)
    (hrun : run WsRegistry.step fresh accesses = some t) :
    (∀ call other wsid, t.phase call = .returned wsid →
      t.phase other = .returned wsid → call = other) ∧
    ((∀ call, .erase call ∉ accesses) → t.Registered) := by
  have hinv := history_invariant_of_run
    (I := fun history s => loads history < 2 ^ 32 - 1 →
      IdInvariant (loads history) s ∧
        ((∀ call, .erase call ∉ history) → s.Registered))
    (h := []) (by
      intro history s access next hinv halone hstep hbound
      rw [loads_snoc] at hbound ⊢
      obtain ⟨hids, hregistered⟩ := hinv (by omega)
      refine ⟨hids.step (by omega) halone hstep, ?_⟩
      intro hkept
      have hbefore := hregistered fun call hmem =>
        hkept call (List.mem_append_left _ hmem)
      apply hbefore.step hids _ hstep
      rintro call rfl
      exact hkept call (by simp))
    (fun _ => ⟨fresh_idInvariant, fun _ => fresh_registered⟩) halone hrun
  obtain ⟨hids, hregistered⟩ := hinv hcount
  refine ⟨?_, hregistered⟩
  intro call other wsid hcall hother
  apply hids.distinct call other wsid
  · rw [hcall]
    rfl
  · rw [hother]
    rfl

theorem alternate_starts_are_registered :
    ∃ t, run WsRegistry.step (fresh : WsRegistry ℕ)
        [.load 0, .store 0, .load 1, .assign 0, .store 1, .assign 1] = some t ∧
      (∀ call other wsid, t.phase call = .returned wsid →
        t.phase other = .returned wsid → call = other) ∧ t.Registered := by
  have halone : Meets WsRegistry.step LoadsAlone (fresh : WsRegistry ℕ)
      [.load 0, .store 0, .load 1, .assign 0, .store 1, .assign 1] := by
    refine meets_cons_of_step ?_ rfl ?_
    · intro call _ other wsid hother
      contradiction
    refine meets_cons_of_step (.of_other rfl) rfl ?_
    refine meets_cons_of_step ?_ rfl ?_
    · intro call _ other wsid hother
      by_cases hzero : other = 0
      · subst hzero
        contradiction
      · simp [advance, fresh, hzero] at hother
    refine meets_cons_of_step (.of_other rfl) rfl ?_
    refine meets_cons_of_step (.of_other rfl) rfl ?_
    exact meets_cons_of_step (.of_other rfl) rfl meets_nil
  obtain ⟨hdistinct, hregistered⟩ :=
    concurrent_starts_are_registered (by decide) halone rfl
  exact ⟨_, rfl, hdistinct, hregistered (by simp)⟩

/-- Both calls load the counter before either stores it. -/
theorem overlapping_starts_share_token :
    ¬ ∀ (accesses : List (WsAccess ℕ)) (t : WsRegistry ℕ),
      loads accesses < 2 ^ 32 - 1 →
      run WsRegistry.step fresh accesses = some t →
      (∀ call other wsid, t.phase call = .returned wsid →
        t.phase other = .returned wsid → call = other) ∧
      ((∀ call, .erase call ∉ accesses) → t.Registered) := by
  intro hall
  obtain ⟨hdistinct, _⟩ := hall
    [.load 0, .load 1, .store 0, .store 1, .assign 0, .assign 1] _ (by decide)
    rfl
  exact absurd (hdistinct 0 1 1 rfl rfl) (by decide)

end WsRegistry

end Bblib
