import Bblib.Beast
import Bblib.LabelledRuns
import Mathlib.Tactic

/-!
# The io contexts under concurrent calls

`getRestIoContext` and `getWsIoContext` load an index, store the one that
follows it and use the one they loaded.  Each of the three is an atomic step
here, and any number of calls move in any order, so that a call may store and
use an index that others have long passed.

An index below the size of its vector is kept as long as the vector has an
element.  The clamp in `start` has 0 for its lower bound and lets an empty
vector through.
-/

namespace Bblib

open LabelledRuns

/-- The two vectors of contexts, each with its index and its getter. -/
inductive ContextKind where
  | rest
  | websocket
  deriving DecidableEq

/-- The argument of `start` that sets the size of the vector. -/
def ContextKind.argument (nRestIoContexts nWebsockIoContexts : ℕ) :
    ContextKind → ℕ
  | .rest => nRestIoContexts
  | .websocket => nWebsockIoContexts

namespace BinanceBeast

/-- The size of the vector. -/
def iocThreads (beast : BinanceBeast) : ContextKind → ℕ
  | .rest => beast.restIocThreads
  | .websocket => beast.wsIocThreads

def loadNext (beast : BinanceBeast) : ContextKind → ℕ
  | .rest => beast.nextRestIoContext
  | .websocket => beast.nextWsIoContext

def storeNext (beast : BinanceBeast) (kind : ContextKind) (next : ℕ) :
    BinanceBeast :=
  match kind with
  | .rest => { beast with nextRestIoContext := next }
  | .websocket => { beast with nextWsIoContext := next }

def getIoContext (beast : BinanceBeast) : ContextKind → ℕ × BinanceBeast
  | .rest => beast.getRestIoContext
  | .websocket => beast.getWsIoContext

@[simp] theorem iocThreads_storeNext (beast : BinanceBeast)
    (kind other : ContextKind) (next : ℕ) :
    (beast.storeNext kind next).iocThreads other = beast.iocThreads other := by
  cases kind <;> cases other <;> rfl

@[simp] theorem loadNext_storeNext_self (beast : BinanceBeast)
    (kind : ContextKind) (next : ℕ) :
    (beast.storeNext kind next).loadNext kind = next := by
  cases kind <;> rfl

theorem loadNext_storeNext_of_ne (beast : BinanceBeast)
    {kind other : ContextKind} (hne : other ≠ kind) (next : ℕ) :
    (beast.storeNext kind next).loadNext other = beast.loadNext other := by
  cases kind <;> cases other <;> first | rfl | contradiction

@[simp] theorem iocThreads_start (config : ConnectionConfig)
    (nRestIoContexts nWebsockIoContexts : ℕ) (kind : ContextKind) :
    (start config nRestIoContexts nWebsockIoContexts).iocThreads kind =
      min (kind.argument nRestIoContexts nWebsockIoContexts) 24 := by
  cases kind
  · exact Nat.zero_max _
  · exact Nat.zero_max _

@[simp] theorem loadNext_start (config : ConnectionConfig)
    (nRestIoContexts nWebsockIoContexts : ℕ) (kind : ContextKind) :
    (start config nRestIoContexts nWebsockIoContexts).loadNext kind = 0 := by
  cases kind <;> rfl

theorem getIoContext_eq (beast : BinanceBeast) (kind : ContextKind) :
    beast.getIoContext kind = (beast.loadNext kind, beast.storeNext kind
      (nextIoContext (beast.loadNext kind) (beast.iocThreads kind))) := by
  cases kind <;> rfl

end BinanceBeast

/-! ## The calls -/

/-- How far a call of a getter has come, and the index it holds. -/
inductive GetterPhase where
  | idle
  | loaded (curr : ℕ)
  | stored (curr : ℕ)
  | returned (curr : ℕ)

def GetterPhase.curr : GetterPhase → Option ℕ
  | .idle => none
  | .loaded curr => some curr
  | .stored curr => some curr
  | .returned curr => some curr

structure ContextCalls (Call : Type) where
  beast : BinanceBeast
  phase : Call → GetterPhase

inductive ContextAccess (Call : Type) where
  | load (call : Call)
  | store (call : Call)
  | use (call : Call)

namespace ContextCalls

variable {Call : Type} [DecidableEq Call]

def fresh (config : ConnectionConfig)
    (nRestIoContexts nWebsockIoContexts : ℕ) : ContextCalls Call where
  beast := .start config nRestIoContexts nWebsockIoContexts
  phase := fun _ => .idle

def advance (s : ContextCalls Call) (call : Call) (phase : GetterPhase) :
    ContextCalls Call :=
  { s with phase := Function.update s.phase call phase }

/-- The getter stores the index that follows the one it loaded. -/
def storeAfter (s : ContextCalls Call) (kind : ContextKind) (curr : ℕ) :
    ContextCalls Call :=
  let next := nextIoContext curr (s.beast.iocThreads kind)
  { s with beast := s.beast.storeNext kind next }

/-- `kind` says which of the two getters a call is of. -/
def step (kind : Call → ContextKind) (s : ContextCalls Call) :
    ContextAccess Call → Option (ContextCalls Call)
  | .load call =>
      match s.phase call with
      | .idle => some (s.advance call (.loaded (s.beast.loadNext (kind call))))
      | _ => none
  | .store call =>
      match s.phase call with
      | .loaded curr =>
          some ((s.storeAfter (kind call) curr).advance call (.stored curr))
      | _ => none
  | .use call =>
      match s.phase call with
      | .stored curr => some (s.advance call (.returned curr))
      | _ => none

@[simp] theorem advance_phase_self (s : ContextCalls Call) (call : Call)
    (phase : GetterPhase) : (s.advance call phase).phase call = phase :=
  Function.update_self ..

theorem advance_phase_of_ne (s : ContextCalls Call) {call other : Call}
    (phase : GetterPhase) (hne : other ≠ call) :
    (s.advance call phase).phase other = s.phase other :=
  Function.update_of_ne hne ..

/-- The index a call uses is smaller than the size of its vector. -/
def UsesInBounds (kind : Call → ContextKind) (s : ContextCalls Call)
    (access : ContextAccess Call) (_ : ContextCalls Call) : Prop :=
  ∀ call curr, access = .use call → s.phase call = .stored curr →
    curr < s.beast.iocThreads (kind call)

/-- Everything one access can do. -/
inductive Moves (kind : Call → ContextKind) (s : ContextCalls Call) :
    ContextAccess Call → ContextCalls Call → Prop where
  | loads {call : Call} (phase : s.phase call = .idle) :
      Moves kind s (.load call)
        (s.advance call (.loaded (s.beast.loadNext (kind call))))
  | stores {call : Call} {curr : ℕ} (phase : s.phase call = .loaded curr) :
      Moves kind s (.store call)
        ((s.storeAfter (kind call) curr).advance call (.stored curr))
  | uses {call : Call} {curr : ℕ} (phase : s.phase call = .stored curr) :
      Moves kind s (.use call) (s.advance call (.returned curr))

theorem moves {kind : Call → ContextKind} {s next : ContextCalls Call}
    {access : ContextAccess Call} (hstep : s.step kind access = some next) :
    Moves kind s access next := by
  cases access with
  | load call =>
      simp only [step] at hstep
      split at hstep
      · rename_i hphase
        obtain rfl := Option.some.inj hstep
        exact .loads hphase
      · contradiction
  | store call =>
      simp only [step] at hstep
      split at hstep
      · rename_i curr hphase
        obtain rfl := Option.some.inj hstep
        exact .stores hphase
      · contradiction
  | use call =>
      simp only [step] at hstep
      split at hstep
      · rename_i curr hphase
        obtain rfl := Option.some.inj hstep
        exact .uses hphase
      · contradiction

/-! ## Bounds -/

/-- The vectors keep their sizes, and every index in use or to be loaded is in
the vector, or 0 where the vector is empty. -/
structure IndexInvariant (kind : Call → ContextKind) (size : ContextKind → ℕ)
    (s : ContextCalls Call) : Prop where
  sizes : ∀ k, s.beast.iocThreads k = size k
  next : ∀ k, s.beast.loadNext k < max 1 (size k)
  held : ∀ call curr, (s.phase call).curr = some curr →
    curr < max 1 (size (kind call))

theorem nextIoContext_lt (curr size : ℕ) :
    nextIoContext curr size < max 1 size := by
  unfold nextIoContext
  split <;> omega

omit [DecidableEq Call] in
theorem fresh_indexInvariant (kind : Call → ContextKind)
    (config : ConnectionConfig) (nRestIoContexts nWebsockIoContexts : ℕ) :
    IndexInvariant kind
      (fun k => min (k.argument nRestIoContexts nWebsockIoContexts) 24)
      (fresh config nRestIoContexts nWebsockIoContexts) := by
  constructor
  · intro k
    exact BinanceBeast.iocThreads_start config _ _ k
  · intro k
    have hzero := BinanceBeast.loadNext_start config nRestIoContexts
      nWebsockIoContexts k
    simp only [fresh, hzero]
    omega
  · intro call curr hheld
    simp [fresh, GetterPhase.curr] at hheld

/-- Moving one call on keeps the bounds, if the index it then holds is in. -/
theorem IndexInvariant.advance {kind : Call → ContextKind}
    {size : ContextKind → ℕ} {s : ContextCalls Call}
    (hinv : IndexInvariant kind size s) {call : Call} {phase : GetterPhase}
    (hphase : ∀ curr, phase.curr = some curr →
      curr < max 1 (size (kind call))) :
    IndexInvariant kind size (s.advance call phase) := by
  refine ⟨hinv.sizes, hinv.next, ?_⟩
  intro other curr hheld
  by_cases heq : other = call
  · subst heq
    rw [advance_phase_self] at hheld
    exact hphase curr hheld
  · rw [advance_phase_of_ne _ _ heq] at hheld
    exact hinv.held other curr hheld

omit [DecidableEq Call] in
theorem IndexInvariant.storeAfter {kind : Call → ContextKind}
    {size : ContextKind → ℕ} {s : ContextCalls Call}
    (hinv : IndexInvariant kind size s) (k : ContextKind) (curr : ℕ) :
    IndexInvariant kind size (s.storeAfter k curr) := by
  constructor
  · intro other
    rw [← hinv.sizes other]
    exact BinanceBeast.iocThreads_storeNext _ k other _
  · intro other
    by_cases heq : other = k
    · subst heq
      have hnext := nextIoContext_lt curr (size other)
      rw [← hinv.sizes] at hnext ⊢
      simpa [ContextCalls.storeAfter] using hnext
    · have hsame := s.beast.loadNext_storeNext_of_ne heq
        (nextIoContext curr (s.beast.iocThreads k))
      exact hsame.trans_lt (hinv.next other)
  · exact hinv.held

theorem IndexInvariant.step {kind : Call → ContextKind}
    {size : ContextKind → ℕ} {s next : ContextCalls Call}
    {access : ContextAccess Call} (hinv : IndexInvariant kind size s)
    (hstep : s.step kind access = some next) :
    IndexInvariant kind size next := by
  cases moves hstep with
  | @loads call hphase =>
      apply hinv.advance
      rintro curr ⟨⟩
      exact hinv.next (kind call)
  | @stores call curr hphase =>
      apply (hinv.storeAfter (kind call) curr).advance
      rintro held ⟨⟩
      exact hinv.held call curr (by rw [hphase]; rfl)
  | @uses call curr hphase =>
      apply hinv.advance
      rintro held ⟨⟩
      exact hinv.held call curr (by rw [hphase]; rfl)

theorem indexInvariant_of_run {kind : Call → ContextKind}
    {size : ContextKind → ℕ} {s t : ContextCalls Call}
    {accesses : List (ContextAccess Call)} (hinv : IndexInvariant kind size s)
    (hrun : run (step kind) s accesses = some t) :
    IndexInvariant kind size t :=
  invariant_of_run (fun _ _ _ hs _ hstep => hs.step hstep) hinv
    (meets_true _ s accesses) hrun

/-- A call that nothing comes between is the getter as one function. -/
theorem run_call {kind : Call → ContextKind} {s : ContextCalls Call}
    {call : Call} (hidle : s.phase call = .idle) :
    run (step kind) s [.load call, .store call, .use call] =
      some (({ s with beast := (s.beast.getIoContext (kind call)).2 } :
        ContextCalls Call).advance call
          (.returned (s.beast.getIoContext (kind call)).1)) := by
  rw [BinanceBeast.getIoContext_eq]
  simp [step, hidle, advance, storeAfter]

theorem exists_stored_of_use {kind : Call → ContextKind}
    {s next : ContextCalls Call} {call : Call}
    (hstep : s.step kind (.use call) = some next) :
    ∃ curr, s.phase call = .stored curr := by
  cases moves hstep with
  | uses hphase => exact ⟨_, hphase⟩

/-- In every run: the calls use indices that are in bounds exactly if the
vectors they index were not asked to be empty. -/
theorem usesInBounds_iff (kind : Call → ContextKind)
    (config : ConnectionConfig) (nRestIoContexts nWebsockIoContexts : ℕ)
    {accesses : List (ContextAccess Call)} {last : ContextCalls Call}
    (hrun : run (step kind) (fresh config nRestIoContexts nWebsockIoContexts)
      accesses = some last) :
    EveryStep (step kind) (UsesInBounds kind)
        (fresh config nRestIoContexts nWebsockIoContexts) accesses ↔
      ∀ call, .use call ∈ accesses →
        (kind call).argument nRestIoContexts nWebsockIoContexts ≠ 0 := by
  have hfresh := fresh_indexInvariant kind config nRestIoContexts
    nWebsockIoContexts
  constructor
  · intro hevery call huse hzero
    obtain ⟨before, after, rfl⟩ := List.append_of_mem huse
    obtain ⟨m, hbefore, hafter⟩ := run_append_eq_some.mp hrun
    obtain ⟨next, hstep, -⟩ := run_cons_eq_some.mp hafter
    obtain ⟨curr, hstored⟩ := exists_stored_of_use hstep
    have hbound := hevery before _ after m next rfl hbefore hstep call curr rfl
      hstored
    rw [(indexInvariant_of_run hfresh hbefore).sizes, hzero] at hbound
    simp at hbound
  · intro hargument before access after m next hsplit hbefore hstep call curr
      huse hstored
    subst huse
    have hne := hargument call (by simp [hsplit])
    have hinv := indexInvariant_of_run hfresh hbefore
    have hheld := hinv.held call curr (by rw [hstored]; rfl)
    rw [hinv.sizes]
    omega

/-- Two calls load the same index, and both use it. -/
theorem usesInBounds_same_index :
    EveryStep (step fun _ => .websocket) (UsesInBounds fun _ => .websocket)
      (fresh sampleBeast.config 0 2)
      [.load true, .load false, .store true, .use true, .store false,
        .use false] :=
  (usesInBounds_iff (fun _ => .websocket) sampleBeast.config 0 2 rfl).mpr
    fun _ _ => by decide

/-- With no context for REST, the first request uses index 0 of an empty
vector. -/
theorem empty_contexts_are_indexed :
    ¬ ∀ (kind : Unit → ContextKind) (config : ConnectionConfig)
      (nRestIoContexts nWebsockIoContexts : ℕ)
      (accesses : List (ContextAccess Unit)) (last : ContextCalls Unit),
      run (step kind) (fresh config nRestIoContexts nWebsockIoContexts)
          accesses = some last →
        EveryStep (step kind) (UsesInBounds kind)
          (fresh config nRestIoContexts nWebsockIoContexts) accesses := by
  intro hall
  have hevery := hall (fun _ => .rest) sampleBeast.config 0 6
    [.load (), .store (), .use ()] _ rfl
  have hbound := hevery [.load (), .store ()] (.use ()) [] _ _ rfl rfl rfl ()
    0 rfl rfl
  exact absurd hbound (by decide)

end ContextCalls

end Bblib
