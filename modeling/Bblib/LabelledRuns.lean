import Mathlib.Data.List.Basic
import Mathlib.Tactic

/-!
# Runs of partial labelled machines

A machine is a partial step function: a label is enabled in a state when the
step is defined there.  Every choice of an environment (which thread moves,
what a completion reports) is a label, so a run is determined by its labels
and "for every interleaving" is a quantifier over label lists.

The predicates `Meets`, `Throughout` and `EveryStep` speak about the states
and the steps a run passes through.  The induction over runs is made here
once, with the history of labels available to the invariant.
-/

namespace LabelledRuns

variable {σ α : Type*}

/-- Follow the labels one by one; `none` when one of them is not enabled. -/
def run (step : σ → α → Option σ) : σ → List α → Option σ
  | s, [] => some s
  | s, a :: as => (step s a).bind fun next => run step next as

@[simp] theorem run_nil (step : σ → α → Option σ) (s : σ) :
    run step s [] = some s := rfl

@[simp] theorem run_cons (step : σ → α → Option σ) (s : σ) (a : α)
    (as : List α) :
    run step s (a :: as) = (step s a).bind fun next => run step next as := rfl

theorem run_cons_eq_some {step : σ → α → Option σ} {s t : σ} {a : α}
    {as : List α} :
    run step s (a :: as) = some t ↔
      ∃ next, step s a = some next ∧ run step next as = some t := by
  simp [Option.bind_eq_some_iff]

theorem run_append_eq_some {step : σ → α → Option σ} {s t : σ}
    {as bs : List α} :
    run step s (as ++ bs) = some t ↔
      ∃ m, run step s as = some m ∧ run step m bs = some t := by
  induction as generalizing s with
  | nil => simp
  | cons a as ih =>
      rw [List.cons_append, run_cons, run_cons]
      cases step s a with
      | none => simp
      | some next => exact ih

theorem run_snoc_eq_some {step : σ → α → Option σ} {s t : σ} {as : List α}
    {a : α} :
    run step s (as ++ [a]) = some t ↔
      ∃ m, run step s as = some m ∧ step m a = some t := by
  rw [run_append_eq_some]
  simp

/-- Where a list with one more entry is cut. -/
theorem snoc_eq_append_cons {α : Type*} {log before after : List α}
    {entry x : α} (hsplit : log ++ [entry] = before ++ x :: after) :
    (∃ rest, after = rest ++ [entry] ∧ log = before ++ x :: rest) ∨
      (after = [] ∧ log = before ∧ entry = x) := by
  rcases List.eq_nil_or_concat after with rfl | ⟨rest, last, rfl⟩
  · obtain ⟨hlog, hentry⟩ := List.append_inj' hsplit rfl
    exact .inr ⟨rfl, hlog, by simpa using hentry⟩
  · rw [List.concat_eq_append, ← List.cons_append, ← List.append_assoc] at hsplit
    obtain ⟨hlog, hentry⟩ := List.append_inj' hsplit rfl
    obtain rfl : entry = last := by simpa using hentry
    exact .inl ⟨rest, List.concat_eq_append, hlog⟩

/-! ## What a run passes through -/

/-- Every label of the run is taken in a state that allows it. -/
def Meets (step : σ → α → Option σ) (allowed : σ → α → Prop)
    (s : σ) (labels : List α) : Prop :=
  ∀ before a after m, labels = before ++ a :: after →
    run step s before = some m → allowed m a

/-- The property holds in every state the run passes, both ends included. -/
def Throughout (step : σ → α → Option σ) (P : σ → Prop)
    (s : σ) (labels : List α) : Prop :=
  ∀ before after m, labels = before ++ after →
    run step s before = some m → P m

/-- The property holds of every step the run takes. -/
def EveryStep (step : σ → α → Option σ) (P : σ → α → σ → Prop)
    (s : σ) (labels : List α) : Prop :=
  ∀ before a after m m', labels = before ++ a :: after →
    run step s before = some m → step m a = some m' → P m a m'

section Meets

variable {step : σ → α → Option σ} {allowed : σ → α → Prop}
  {s next : σ} {a : α} {as bs : List α}

@[simp] theorem meets_nil : Meets step allowed s [] := by
  intro before b after m hsplit
  simp at hsplit

theorem Meets.head (hmeets : Meets step allowed s (a :: as)) : allowed s a :=
  hmeets [] a as s rfl rfl

theorem Meets.tail (hmeets : Meets step allowed s (a :: as))
    (hstep : step s a = some next) : Meets step allowed next as := by
  intro before b after m hsplit hrun
  apply hmeets (a :: before) b after m
  · simp [hsplit]
  · simpa [hstep] using hrun

theorem Meets.of_append (hmeets : Meets step allowed s (as ++ bs)) :
    Meets step allowed s as := by
  intro before b after m hsplit hrun
  exact hmeets before b (after ++ bs) m (by simp [hsplit]) hrun

theorem Meets.and {allowed' : σ → α → Prop} (hleft : Meets step allowed s as)
    (hright : Meets step allowed' s as) :
    Meets step (fun m b => allowed m b ∧ allowed' m b) s as := by
  intro before b after m hsplit hrun
  exact ⟨hleft before b after m hsplit hrun, hright before b after m hsplit hrun⟩

theorem meets_cons_of_step (hallowed : allowed s a)
    (hstep : step s a = some next) (htail : Meets step allowed next as) :
    Meets step allowed s (a :: as) := by
  intro before b after m hsplit hrun
  cases before with
  | nil =>
      obtain ⟨rfl, rfl⟩ : a = b ∧ as = after := by simpa using hsplit
      obtain rfl : s = m := by simpa using hrun
      exact hallowed
  | cons c before =>
      obtain ⟨rfl, hrest⟩ : a = c ∧ as = before ++ b :: after := by
        simpa using hsplit
      have hrun' : run step next before = some m := by
        simpa [hstep] using hrun
      exact htail before b after m hrest hrun'

end Meets

/-! ## Invariants -/

/-- The induction over a run, for a property of the labels taken so far and
the state they lead to. -/
theorem history_invariant_of_run
    {step : σ → α → Option σ} {allowed : σ → α → Prop}
    {I : List α → σ → Prop}
    (hstep : ∀ history s a next, I history s → allowed s a →
      step s a = some next → I (history ++ [a]) next)
    {h : List α} {s t : σ} {as : List α}
    (hinv : I h s) (hmeets : Meets step allowed s as)
    (hrun : run step s as = some t) : I (h ++ as) t := by
  induction as generalizing h s with
  | nil =>
      obtain rfl : s = t := by simpa using hrun
      simpa using hinv
  | cons a as ih =>
      obtain ⟨next, hnext, hrest⟩ := run_cons_eq_some.mp hrun
      have hinv' := hstep h s a next hinv hmeets.head hnext
      simpa [List.append_assoc] using ih hinv' (hmeets.tail hnext) hrest

theorem invariant_of_run
    {step : σ → α → Option σ} {allowed : σ → α → Prop} {I : σ → Prop}
    (hstep : ∀ s a next, I s → allowed s a → step s a = some next → I next)
    {s t : σ} {as : List α}
    (hinv : I s) (hmeets : Meets step allowed s as)
    (hrun : run step s as = some t) : I t :=
  history_invariant_of_run (I := fun _ => I) (h := [])
    (fun _ => hstep) hinv hmeets hrun

theorem throughout_of_invariant
    {step : σ → α → Option σ} {allowed : σ → α → Prop} {I P : σ → Prop}
    (hstep : ∀ s a next, I s → allowed s a → step s a = some next → I next)
    (hP : ∀ s, I s → P s)
    {s : σ} {as : List α} (hinv : I s) (hmeets : Meets step allowed s as) :
    Throughout step P s as := by
  intro before after m hsplit hrun
  subst hsplit
  exact hP m (invariant_of_run hstep hinv hmeets.of_append hrun)

theorem everyStep_of_invariant
    {step : σ → α → Option σ} {allowed : σ → α → Prop} {I : σ → Prop}
    {P : σ → α → σ → Prop}
    (hstep : ∀ s a next, I s → allowed s a → step s a = some next → I next)
    (hP : ∀ s a next, I s → allowed s a → step s a = some next → P s a next)
    {s : σ} {as : List α} (hinv : I s) (hmeets : Meets step allowed s as) :
    EveryStep step P s as := by
  intro before a after m next hsplit hrun hnext
  have hallowed := hmeets before a after m hsplit hrun
  subst hsplit
  exact hP m a next (invariant_of_run hstep hinv hmeets.of_append hrun)
    hallowed hnext

theorem meets_true (step : σ → α → Option σ) (s : σ) (as : List α) :
    Meets step (fun _ _ => True) s as := by
  intro before a after m hsplit hrun
  trivial

/-! ## Reaching the end -/

/-- When every step from a state of the invariant lowers a measure, a run is
no longer than the measure it consumes. -/
theorem length_add_measure_le
    {step : σ → α → Option σ} {I : σ → Prop} (μ : σ → ℕ)
    (hinv : ∀ s a next, I s → step s a = some next → I next)
    (hdown : ∀ s a next, I s → step s a = some next → μ next < μ s)
    {s t : σ} {as : List α} (hs : I s) (hrun : run step s as = some t) :
    as.length + μ t ≤ μ s := by
  induction as generalizing s with
  | nil =>
      obtain rfl : s = t := by simpa using hrun
      simp
  | cons a as ih =>
      obtain ⟨next, hnext, hrest⟩ := run_cons_eq_some.mp hrun
      have hlower := hdown s a next hs hnext
      have hrec := ih (hinv s a next hs hnext) hrest
      simp only [List.length_cons]
      omega

/-- When moreover some label is enabled until the machine is quiet, every
state of the invariant has a run to a quiet one. -/
theorem exists_run_to_quiet
    {step : σ → α → Option σ} {I quiet : σ → Prop} (μ : σ → ℕ)
    (hinv : ∀ s a next, I s → step s a = some next → I next)
    (hdown : ∀ s a next, I s → step s a = some next → μ next < μ s)
    (hprogress : ∀ s, I s → ¬ quiet s → ∃ a next, step s a = some next)
    {s : σ} (hs : I s) :
    ∃ as t, run step s as = some t ∧ quiet t := by
  induction hμ : μ s using Nat.strongRecOn generalizing s with
  | ind k ih =>
      by_cases hquiet : quiet s
      · exact ⟨[], s, rfl, hquiet⟩
      · obtain ⟨a, next, hnext⟩ := hprogress s hs hquiet
        have hlower := hdown s a next hs hnext
        have hs' := hinv s a next hs hnext
        obtain ⟨as, t, hrun, ht⟩ := ih (μ next) (by omega) hs' rfl
        exact ⟨a :: as, t, run_cons_eq_some.mpr ⟨next, hnext, hrun⟩, ht⟩

/-! ## Simulation -/

/-- A machine that answers every step by a step of its own on a related label,
and goes from related states to related states, answers every run. -/
theorem run_simulated {τ β : Type*} {step : σ → α → Option σ}
    {step' : τ → β → Option τ} {S : σ → τ → Prop} {R : α → β → Prop}
    (hstep : ∀ s s' a b next, S s s' → R a b → step s a = some next →
      ∃ next', step' s' b = some next' ∧ S next next')
    {s t : σ} {s' : τ} {as : List α} {bs : List β} (hs : S s s')
    (hlabels : List.Forall₂ R as bs) (hrun : run step s as = some t) :
    ∃ t', run step' s' bs = some t' ∧ S t t' := by
  induction hlabels generalizing s s' with
  | nil =>
      obtain rfl : s = t := by simpa using hrun
      exact ⟨s', rfl, hs⟩
  | cons hhead _ ih =>
      obtain ⟨next, hnext, hrest⟩ := run_cons_eq_some.mp hrun
      obtain ⟨next', hnext', hrelated⟩ := hstep s s' _ _ next hs hhead hnext
      obtain ⟨t', ht', hend⟩ := ih hrelated hrest
      exact ⟨t', run_cons_eq_some.mpr ⟨next', hnext', ht'⟩, hend⟩

/-- When a translation of the states turns the steps of one machine into those
of another, label by label, it turns the runs into runs and adds none. -/
theorem run_translated {τ : Type*} {step : σ → α → Option σ}
    {step' : τ → α → Option τ} {I : σ → Prop} {P : α → Prop} (g : σ → τ)
    (hinv : ∀ s a next, I s → step s a = some next → I next)
    (hstep : ∀ s a, I s → P a → step' (g s) a = (step s a).map g)
    {s : σ} {as : List α} (hs : I s) (has : ∀ a ∈ as, P a) :
    run step' (g s) as = (run step s as).map g := by
  induction as generalizing s with
  | nil => rfl
  | cons a as ih =>
      rw [run_cons, run_cons, hstep s a hs (has a (by simp))]
      cases hnext : step s a with
      | none => rfl
      | some next =>
          exact ih (hinv s a next hs hnext)
            fun b hb => has b (by simp [hb])

end LabelledRuns
