import Bblib.WsSessionReads
import Mathlib.Tactic

/-!
# The life of a websocket session

What a session is for, without its threads: resolve, connect, the TLS
handshake and the websocket handshake, one after the other, and then reads
until one fails.  `WsProtocol` takes one completion at a time and keeps which
operations were started and which responses the user is to get.

A run of it has a closed form.  All completions but the last succeeded, the
operations started are an initial part of one fixed sequence, one more than
the completions that succeeded, and the responses are those of the completions
in order.
-/

namespace Bblib

open LabelledRuns

/-! ## Completions -/

def WsCompletion.succeeded : WsCompletion → Bool
  | .resolve ec => !ec.failed
  | .connect ec _ sni => !ec.failed && sni.isNone
  | .sslHandshake ec => !ec.failed
  | .handshake ec => !ec.failed
  | .read ec _ => !ec.failed

/-- The failure a stage is reported with. -/
def stageFailure (boost : Boost) (what : String) (ec : ErrorCode) :
    WsResponse :=
  .ofReason (ascii what ++ ascii " " ++ boost.message ec)

/-- The responses the user gets for one completion. -/
def WsCompletion.responses (boost : Boost) :
    WsCompletion → List WsResponse
  | .resolve ec =>
      if ec.failed then [stageFailure boost "resolve" ec] else []
  | .connect ec _ sni =>
      if ec.failed then [stageFailure boost "connect" ec]
      else (sni.map (stageFailure boost "connect")).toList
  | .sslHandshake ec =>
      if ec.failed then [stageFailure boost "ssl handshake" ec] else []
  | .handshake ec =>
      if ec.failed then [stageFailure boost "handshake" ec] else []
  | .read ec data => ReadResult.responses boost ⟨ec, data⟩

/-! ## The stages -/

inductive WsStage where
  | resolving
  | connecting
  | securing (endpoint : ℕ)
  | upgrading (endpoint : ℕ)
  | reading (endpoint : ℕ)
  | ended

/-- The stage a completion leads to when it succeeded. -/
def WsStage.next : WsStage → WsCompletion → Option WsStage
  | .resolving, .resolve _ => some .connecting
  | .connecting, .connect _ endpoint _ => some (.securing endpoint)
  | .securing endpoint, .sslHandshake _ => some (.upgrading endpoint)
  | .upgrading endpoint, .handshake _ => some (.reading endpoint)
  | .reading endpoint, .read _ _ => some (.reading endpoint)
  | _, _ => none

theorem WsStage.ne_ended_of_next {stage following : WsStage} {c : WsCompletion}
    (hnext : stage.next c = some following) : following ≠ .ended := by
  cases stage <;> cases c <;>
    simp only [WsStage.next, Option.some.injEq, reduceCtorEq] at hnext
  all_goals
    subst hnext
    simp

/-- The name a session connects to, with the port it found. -/
def hostAndPort (host : Str) (endpoint : ℕ) : Str :=
  host ++ ascii ":" ++ decimal endpoint

/-- The operation under way in a stage. -/
def WsStage.op (host port path : Str) : WsStage → Option WsOp
  | .resolving => some (.resolve host port)
  | .connecting => some .connect
  | .securing _ => some .sslHandshake
  | .upgrading endpoint => some (.handshake (hostAndPort host endpoint) path)
  | .reading _ => some .read
  | .ended => none

structure WsProtocol where
  stage : WsStage
  started : List WsOp
  responses : List WsResponse

namespace WsProtocol

def start (host port path : Str) : WsProtocol where
  stage := .resolving
  started := (WsStage.op host port path .resolving).toList
  responses := []

def step (boost : Boost) (host port path : Str) (p : WsProtocol)
    (completion : WsCompletion) : Option WsProtocol :=
  (p.stage.next completion).map fun next =>
    let stage := if completion.succeeded then next else .ended
    { stage := stage
      started := p.started ++ (stage.op host port path).toList
      responses := p.responses ++ completion.responses boost }

end WsProtocol

/-! ## The closed form of a run -/

/-- The operation at a position of a session's life. -/
def WsOp.nth (host port path : Str) (endpoint : ℕ) : ℕ → WsOp
  | 0 => .resolve host port
  | 1 => .connect
  | 2 => .sslHandshake
  | 3 => .handshake (hostAndPort host endpoint) path
  | _ => .read

/-- The first operations of a session's life. -/
def WsOp.first (host port path : Str) (endpoint count : ℕ) : List WsOp :=
  (List.range count).map (WsOp.nth host port path endpoint)

theorem WsOp.first_succ (host port path : Str) (endpoint count : ℕ) :
    WsOp.first host port path endpoint (count + 1) =
      WsOp.first host port path endpoint count ++
        [WsOp.nth host port path endpoint count] := by
  simp [WsOp.first, List.range_succ]

theorem WsOp.first_of_le {count : ℕ} (hcount : count ≤ 3) (host port path : Str)
    (endpoint other : ℕ) :
    WsOp.first host port path endpoint count =
      WsOp.first host port path other count := by
  unfold WsOp.first
  apply List.map_congr_left
  intro index hindex
  have hsmall : index < 3 := by
    have hless := List.mem_range.mp hindex
    omega
  interval_cases index <;> rfl

def WsCompletion.endpoint? : WsCompletion → Option ℕ
  | .connect _ endpoint _ => some endpoint
  | _ => none

/-- The endpoint of the first connect among the completions. -/
def foundEndpoint (completions : List WsCompletion) : Option ℕ :=
  completions.findSome? WsCompletion.endpoint?

theorem foundEndpoint_snoc (completions : List WsCompletion)
    (c : WsCompletion) :
    foundEndpoint (completions ++ [c]) =
      (foundEndpoint completions).or c.endpoint? := by
  unfold foundEndpoint
  rw [List.findSome?_append]
  cases c <;> rfl

/-- What a stage says about the completions that led to it. -/
def WsStage.Position (completions : List WsCompletion) : WsStage → Prop
  | .resolving => completions = []
  | .connecting =>
      completions.length = 1 ∧ foundEndpoint completions = none
  | .securing endpoint =>
      completions.length = 2 ∧ foundEndpoint completions = some endpoint
  | .upgrading endpoint =>
      completions.length = 3 ∧ foundEndpoint completions = some endpoint
  | .reading endpoint =>
      4 ≤ completions.length ∧ foundEndpoint completions = some endpoint
  | .ended => completions ≠ []

/-- The sequence a session starts its operations in, with the endpoint the
completions name. -/
def WsOp.sequence (host port path : Str) (completions : List WsCompletion)
    (count : ℕ) : List WsOp :=
  WsOp.first host port path ((foundEndpoint completions).getD 0) count

theorem WsOp.nth_of_le {index : ℕ} (hindex : 4 ≤ index)
    (host port path : Str) (endpoint : ℕ) :
    WsOp.nth host port path endpoint index = .read := by
  obtain ⟨more, rfl⟩ := Nat.exists_eq_add_of_le' hindex
  rfl

section Position

variable {completions : List WsCompletion} {stage following : WsStage}
  {c : WsCompletion}

theorem WsStage.Position.next (hposition : stage.Position completions)
    (hnext : stage.next c = some following) :
    following.Position (completions ++ [c]) := by
  cases stage <;> cases c <;>
    simp only [WsStage.next, Option.some.injEq, reduceCtorEq] at hnext
  all_goals
    subst hnext
    simp only [WsStage.Position] at hposition
    simp [WsStage.Position, foundEndpoint_snoc, hposition,
      WsCompletion.endpoint?]
  · rfl
  · omega

/-- The next completion names no other endpoint for what has been started. -/
theorem WsStage.Position.sequence_snoc
    (hposition : stage.Position completions)
    (hnext : stage.next c = some following) (host port path : Str) :
    WsOp.sequence host port path (completions ++ [c])
        (completions.length + 1) =
      WsOp.sequence host port path completions (completions.length + 1) := by
  have hshort : completions.length + 1 ≤ 3 →
      WsOp.sequence host port path (completions ++ [c])
          (completions.length + 1) =
        WsOp.sequence host port path completions
          (completions.length + 1) :=
    fun hlength => WsOp.first_of_le hlength host port path _ _
  have hfound : ∀ endpoint, foundEndpoint completions = some endpoint →
      WsOp.sequence host port path (completions ++ [c])
          (completions.length + 1) =
        WsOp.sequence host port path completions
          (completions.length + 1) := by
    intro endpoint hendpoint
    unfold WsOp.sequence
    rw [foundEndpoint_snoc, hendpoint, Option.some_or]
  cases stage with
  | resolving => exact hshort (by simp [show completions = [] from hposition])
  | connecting => exact hshort (by rw [hposition.1]; omega)
  | securing endpoint => exact hfound endpoint hposition.2
  | upgrading endpoint => exact hfound endpoint hposition.2
  | reading endpoint => exact hfound endpoint hposition.2
  | ended => cases c <;> contradiction

/-- The operation of a stage is the one its completions have led to. -/
theorem WsStage.Position.op_eq (hposition : stage.Position completions)
    (hlive : stage ≠ .ended) (host port path : Str) :
    stage.op host port path =
      some (WsOp.nth host port path ((foundEndpoint completions).getD 0)
        completions.length) := by
  cases stage with
  | resolving =>
      obtain rfl : completions = [] := hposition
      rfl
  | connecting =>
      rw [hposition.1]
      rfl
  | securing endpoint =>
      rw [hposition.1]
      rfl
  | upgrading endpoint =>
      rw [hposition.1, hposition.2]
      rfl
  | reading endpoint =>
      rw [WsOp.nth_of_le hposition.1]
      rfl
  | ended => contradiction

theorem WsStage.Position.sequence_op (hposition : stage.Position completions)
    (hlive : stage ≠ .ended) (host port path : Str) :
    WsOp.sequence host port path completions completions.length ++
        (stage.op host port path).toList =
      WsOp.sequence host port path completions (completions.length + 1) := by
  unfold WsOp.sequence
  rw [WsOp.first_succ, hposition.op_eq hlive]
  rfl

end Position

namespace WsProtocol

/-- What a run of the protocol has done after some completions. -/
structure Follows (boost : Boost) (host port path : Str)
    (completions : List WsCompletion) (p : WsProtocol) : Prop where
  responses : p.responses =
    completions.flatMap (WsCompletion.responses boost)
  earlier : ∀ c ∈ completions.dropLast, c.succeeded = true
  started : p.started = WsOp.sequence host port path completions
    (completions.countP WsCompletion.succeeded + 1)
  position : p.stage.Position completions
  live : p.stage ≠ .ended → ∀ c ∈ completions, c.succeeded = true
  ended : p.stage = .ended → ∃ c ∈ completions, c.succeeded = false

theorem start_follows (boost : Boost) (host port path : Str) :
    Follows boost host port path [] (start host port path) where
  responses := rfl
  earlier := by simp
  started := rfl
  position := rfl
  live := by simp
  ended := by simp [start]

theorem step_eq_some {boost : Boost} {host port path : Str}
    {p next : WsProtocol} {c : WsCompletion}
    (hstep : p.step boost host port path c = some next) :
    ∃ stage, p.stage.next c = some stage ∧
      next.stage = (if c.succeeded then stage else .ended) ∧
      next.started =
        p.started ++ (next.stage.op host port path).toList ∧
      next.responses = p.responses ++ c.responses boost := by
  obtain ⟨stage, hstage, rfl⟩ := Option.map_eq_some_iff.mp hstep
  exact ⟨stage, hstage, rfl, rfl, rfl⟩

theorem Follows.step {boost : Boost} {host port path : Str}
    {completions : List WsCompletion} {p next : WsProtocol} {c : WsCompletion}
    (hfollows : Follows boost host port path completions p)
    (hstep : p.step boost host port path c = some next) :
    Follows boost host port path (completions ++ [c]) next := by
  obtain ⟨stage, hstage, hnext, hstarted, hresponses⟩ := step_eq_some hstep
  have hlive : p.stage ≠ .ended := by
    intro hended
    rw [hended] at hstage
    cases c <;> contradiction
  have hok := hfollows.live hlive
  have hcount : completions.countP WsCompletion.succeeded =
      completions.length := List.countP_eq_length.mpr hok
  have hposition := hfollows.position.next hstage
  have hbefore := hfollows.started
  rw [hcount, ← hfollows.position.sequence_snoc hstage] at hbefore
  have hearlier : ∀ d ∈ (completions ++ [c]).dropLast, d.succeeded = true := by
    rw [List.dropLast_concat]
    exact hok
  have hresponses' : next.responses =
      (completions ++ [c]).flatMap (WsCompletion.responses boost) := by
    rw [hresponses, hfollows.responses, List.flatMap_append,
      List.flatMap_singleton]
  cases hc : c.succeeded with
  | true =>
      rw [hc, if_pos rfl] at hnext
      have hnotEnded : next.stage ≠ .ended := by
        rw [hnext]
        exact WsStage.ne_ended_of_next hstage
      have hall : ∀ d ∈ completions ++ [c], d.succeeded = true := by
        intro d hd
        rcases List.mem_append.mp hd with hold | hnew
        · exact hok d hold
        · rw [List.mem_singleton.mp hnew, hc]
      have hcount' : (completions ++ [c]).countP WsCompletion.succeeded =
          (completions ++ [c]).length := List.countP_eq_length.mpr hall
      have hposition' : next.stage.Position (completions ++ [c]) := by
        rw [hnext]
        exact hposition
      have hop := hposition'.sequence_op hnotEnded host port path
      rw [List.length_append, List.length_singleton] at hop
      exact {
        responses := hresponses'
        earlier := hearlier
        started := by
          rw [hstarted, hbefore, hop, hcount', List.length_append,
            List.length_singleton]
        position := hposition'
        live := fun _ => hall
        ended := fun hended => absurd hended hnotEnded }
  | false =>
      rw [hc, if_neg Bool.false_ne_true] at hnext
      have hcount' : (completions ++ [c]).countP WsCompletion.succeeded =
          completions.length := by
        rw [List.countP_append, hcount]
        simp [hc]
      exact {
        responses := hresponses'
        earlier := hearlier
        started := by
          rw [hstarted, hnext, hbefore, hcount']
          simp [WsStage.op]
        position := by
          rw [hnext]
          simp [WsStage.Position]
        live := fun hlive' => absurd hnext hlive'
        ended := fun _ => ⟨c, by simp, hc⟩ }

theorem follows_of_run {boost : Boost} {host port path : Str}
    {completions : List WsCompletion} {p : WsProtocol}
    (hrun : run (step boost host port path) (start host port path)
      completions = some p) :
    Follows boost host port path completions p := by
  have hinv := history_invariant_of_run
    (I := fun history p => Follows boost host port path history p)
    (fun history s c next hs _ hstep => hs.step hstep)
    (start_follows boost host port path) (meets_true _ _ _) hrun
  simpa using hinv

end WsProtocol

end Bblib
