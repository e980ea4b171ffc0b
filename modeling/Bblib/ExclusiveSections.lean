import Bblib.LabelledRuns
import Mathlib.Logic.Relation
import Mathlib.Tactic

/-!
# Threads with a section on a shared object

Any number of threads change one object, each step of a thread being atomic.
A thread has at most one section: before it the thread neither reads nor
changes the object, and with the section the thread ends.  When no thread
touches the object while another one is inside its section, an interleaving
leaves what the threads that have ended leave one after another, in the order
in which they ended.
-/

namespace ExclusiveSections

open LabelledRuns Relation

/-- Where each thread begins, what its next step makes of its own state and of
the object, and which of its states are inside its section. -/
structure Threads (ι σ ℓ : Type*) where
  begins : ι → ℓ
  act : ι → ℓ → σ → Option (ℓ × σ)
  inside : ι → ℓ → Prop

structure State (ι σ ℓ : Type*) where
  shared : σ
  own : ι → ℓ

namespace State

variable {ι σ ℓ : Type*} [DecidableEq ι]

/-- Thread `i` moves on to `l` and leaves the object as `x`. -/
def move (s : State ι σ ℓ) (i : ι) (l : ℓ) (x : σ) : State ι σ ℓ :=
  ⟨x, Function.update s.own i l⟩

@[simp] theorem move_shared (s : State ι σ ℓ) (i : ι) (l : ℓ) (x : σ) :
    (s.move i l x).shared = x := rfl

@[simp] theorem move_own_self (s : State ι σ ℓ) (i : ι) (l : ℓ) (x : σ) :
    (s.move i l x).own i = l := by
  simp [move]

theorem move_own_of_ne (s : State ι σ ℓ) {i j : ι} (l : ℓ) (x : σ)
    (hne : j ≠ i) : (s.move i l x).own j = s.own j := by
  simp [move, hne]

end State

namespace Threads

variable {ι σ ℓ : Type*} (p : Threads ι σ ℓ)

def Ended (i : ι) (l : ℓ) : Prop := ∀ x, p.act i l x = none

/-- The next step neither reads nor changes the object. -/
def Private (i : ι) (l : ℓ) : Prop := ∃ l', ∀ x, p.act i l x = some (l', x)

/-- One step of a thread that nobody interrupts. -/
def Alone (i : ι) (before after : ℓ × σ) : Prop :=
  p.act i before.1 before.2 = some after

/-- What a thread alone makes of its own state and of the object. -/
def Reaches (i : ι) (x : σ) (l : ℓ) (y : σ) : Prop :=
  ReflTransGen (p.Alone i) (p.begins i, x) (l, y)

/-- The threads of the list, one after another, each alone and to its end. -/
inductive Serial (own : ι → ℓ) (x : σ) : List ι → σ → Prop where
  | nil : Serial own x [] x
  | snoc {order : List ι} {y z : σ} {i : ι} (before : Serial own x order y)
      (reaches : p.Reaches i y (own i) z) (ended : p.Ended i (own i)) :
      Serial own x (order ++ [i]) z

/-- The threads keep to their sections. -/
structure Sectioned : Prop where
  begins : ∀ i, ¬ p.inside i (p.begins i) ∧ ¬ p.Ended i (p.begins i)
  ended : ∀ i l, p.Ended i l → ¬ p.inside i l
  enters : ∀ i l x l' y, p.act i l x = some (l', y) → ¬ p.inside i l →
    p.inside i l' → ¬ p.Private i l
  outside : ∀ i l x l' y, p.act i l x = some (l', y) → ¬ p.inside i l →
    ¬ p.inside i l' → ¬ p.Ended i l' → p.Private i l
  leaves : ∀ i l x l' y, p.act i l x = some (l', y) → p.inside i l →
    ¬ p.inside i l' → p.Ended i l'

def start (x : σ) : State ι σ ℓ := ⟨x, p.begins⟩

variable {p}

theorem Private.act_eq {i : ι} {l l' : ℓ} {x y : σ}
    (hprivate : p.Private i l) (hact : p.act i l x = some (l', y)) :
    y = x ∧ ∀ z, p.act i l z = some (l', z) := by
  obtain ⟨next, hnext⟩ := hprivate
  have hsame := hnext x
  rw [hact, Option.some.injEq, Prod.mk.injEq] at hsame
  obtain ⟨rfl, rfl⟩ := hsame
  exact ⟨rfl, hnext⟩

theorem Ended.not_act {i : ι} {l : ℓ} {x : σ} {next : ℓ × σ}
    (hended : p.Ended i l) : p.act i l x ≠ some next := by
  rw [hended x]
  nofun

theorem Reaches.step {i : ι} {x y z : σ} {l l' : ℓ}
    (hreaches : p.Reaches i x l y) (hact : p.act i l y = some (l', z)) :
    p.Reaches i x l' z :=
  ReflTransGen.tail hreaches hact

theorem Reaches.invariant {P : ℓ → σ → Prop} {i : ι} {x y : σ} {l : ℓ}
    (hbegins : P (p.begins i) x)
    (hact : ∀ l y l' z, P l y → p.act i l y = some (l', z) → P l' z)
    (hreaches : p.Reaches i x l y) : P l y := by
  unfold Reaches at hreaches
  generalize hend : (l, y) = reached at hreaches
  induction hreaches generalizing l y with
  | refl =>
      obtain ⟨rfl, rfl⟩ := Prod.mk.inj hend
      exact hbegins
  | @tail before after _ hstep ih =>
      subst hend
      exact hact before.1 before.2 l y (ih rfl) hstep

theorem Serial.congr {own own' : ι → ℓ} {x y : σ} {order : List ι}
    (hserial : p.Serial own x order y)
    (hsame : ∀ i ∈ order, own' i = own i) : p.Serial own' x order y := by
  induction hserial with
  | nil => exact .nil
  | @snoc order y z i before reaches ended ih =>
      have hi : own' i = own i := hsame i (by simp)
      refine .snoc (ih fun j hj => hsame j (by simp [hj])) ?_ ?_
      · rwa [hi]
      · rwa [hi]

/-! ## The serial order -/

/-- The threads that have ended leave the object as `y`, one after another; it
is `y` still, or as the thread inside its section has made it. -/
structure Serialised (x : σ) (s : State ι σ ℓ) (order : List ι) (y : σ) :
    Prop where
  nodup : order.Nodup
  mem_order : ∀ i, i ∈ order ↔ p.Ended i (s.own i)
  serial : p.Serial s.own x order y
  outside : ∀ i, ¬ p.Ended i (s.own i) → ¬ p.inside i (s.own i) →
    ∀ z, p.Reaches i z (s.own i) z
  shared : (∀ i, ¬ p.inside i (s.own i)) → s.shared = y
  within : ∀ i, p.inside i (s.own i) →
    p.Reaches i y (s.own i) s.shared ∧ ∀ j, j ≠ i → ¬ p.inside j (s.own j)

theorem Sectioned.serialised_start (hsections : p.Sectioned) (x : σ) :
    p.Serialised x (p.start x) [] x where
  nodup := List.nodup_nil
  mem_order i := by
    constructor
    · intro hmem
      exact absurd hmem List.not_mem_nil
    · intro hended
      exact absurd hended (hsections.begins i).2
  serial := .nil
  outside _ _ _ _ := ReflTransGen.refl
  shared _ := rfl
  within i hinside := absurd hinside (hsections.begins i).1

variable (p)

variable [DecidableEq ι]

def step (s : State ι σ ℓ) (i : ι) : Option (State ι σ ℓ) :=
  (p.act i (s.own i) s.shared).map fun next => s.move i next.1 next.2

/-- A step that touches the object finds no other thread in its section. -/
def Exclusive (s : State ι σ ℓ) (i : ι) : Prop :=
  ¬ p.Private i (s.own i) → ∀ j, j ≠ i → ¬ p.inside j (s.own j)

variable {p}

theorem step_eq_some {s next : State ι σ ℓ} {i : ι} :
    p.step s i = some next ↔
      ∃ l y, p.act i (s.own i) s.shared = some (l, y) ∧
        next = s.move i l y := by
  simp only [step, Option.map_eq_some_iff, Prod.exists]
  constructor
  · rintro ⟨l, y, hact, rfl⟩
    exact ⟨l, y, hact, rfl⟩
  · rintro ⟨l, y, hact, rfl⟩
    exact ⟨l, y, hact, rfl⟩

namespace Serialised

variable {x y : σ} {s : State ι σ ℓ} {order : List ι}

/-- What a thread has reached when no other is inside its section. -/
theorem reaches (hs : p.Serialised x s order y) {i : ι}
    (hended : ¬ p.Ended i (s.own i))
    (hothers : ∀ j, j ≠ i → ¬ p.inside j (s.own j)) :
    p.Reaches i y (s.own i) s.shared := by
  by_cases hinside : p.inside i (s.own i)
  · exact (hs.within i hinside).1
  · have hshared : s.shared = y := by
      apply hs.shared
      intro j
      by_cases hj : j = i
      · rwa [hj]
      · exact hothers j hj
    rw [hshared]
    exact hs.outside i hended hinside y

/-- The step after which a thread has ended, with what it leaves. -/
theorem ends (hs : p.Serialised x s order y) (hsections : p.Sectioned)
    {i : ι} {l : ℓ} {x' y' : σ} (hrunning : ¬ p.Ended i (s.own i))
    (hreaches : p.Reaches i y l y') (hended : p.Ended i l)
    (hshared : (∀ j, j ≠ i → ¬ p.inside j (s.own j)) → x' = y')
    (hwithin : ∀ j, j ≠ i → p.inside j (s.own j) →
      p.Reaches j y' (s.own j) x' ∧ ∀ k, k ≠ j → ¬ p.inside k (s.own k)) :
    p.Serialised x (s.move i l x') (order ++ [i]) y' := by
  have hnew : i ∉ order := fun hmem => hrunning ((hs.mem_order i).mp hmem)
  have hown : ∀ j, j ≠ i → (s.move i l x').own j = s.own j :=
    fun j hj => s.move_own_of_ne l x' hj
  have hi : (s.move i l x').own i = l := s.move_own_self i l x'
  have houtside : ¬ p.inside i l := hsections.ended i l hended
  constructor
  · exact List.nodup_append.mpr ⟨hs.nodup, List.nodup_singleton i, by
      rintro j hj _ hk rfl
      obtain rfl := List.mem_singleton.mp hk
      exact hnew hj⟩
  · intro j
    by_cases hj : j = i
    · subst hj
      simpa [hi] using hended
    · simp only [hown j hj, List.mem_append, List.mem_singleton, hj, or_false]
      exact hs.mem_order j
  · refine .snoc (hs.serial.congr ?_) ?_ ?_
    · intro j hj
      apply hown
      rintro rfl
      exact hnew hj
    · rwa [hi]
    · rwa [hi]
  · intro j hj hjoutside
    by_cases hji : j = i
    · subst hji
      rw [hi] at hj
      exact absurd hended hj
    · simp only [hown j hji] at hj hjoutside ⊢
      exact hs.outside j hj hjoutside
  · intro hnone
    apply hshared
    intro j hj
    have hjoutside := hnone j
    simpa only [hown j hj] using hjoutside
  · intro j hj
    by_cases hji : j = i
    · subst hji
      simp only [hi] at hj
      exact absurd hj houtside
    · simp only [hown j hji] at hj ⊢
      obtain ⟨hjreaches, hjothers⟩ := hwithin j hji hj
      refine ⟨hjreaches, ?_⟩
      intro k hk
      by_cases hki : k = i
      · subst hki
        rwa [hi]
      · rw [hown k hki]
        exact hjothers k hk

/-- A step after which its thread has not ended. -/
theorem goes_on (hs : p.Serialised x s order y) {i : ι} {l : ℓ} {x' : σ}
    (hrunning : ¬ p.Ended i (s.own i)) (hended : ¬ p.Ended i l)
    (houtside : ¬ p.inside i l → ∀ z, p.Reaches i z l z)
    (hshared : ¬ p.inside i l → x' = s.shared ∧ ¬ p.inside i (s.own i))
    (hinside : p.inside i l → p.Reaches i y l x' ∧
      ∀ j, j ≠ i → ¬ p.inside j (s.own j)) :
    p.Serialised x (s.move i l x') order y := by
  have hnew : i ∉ order := fun hmem => hrunning ((hs.mem_order i).mp hmem)
  have hown : ∀ j, j ≠ i → (s.move i l x').own j = s.own j :=
    fun j hj => s.move_own_of_ne l x' hj
  have hi : (s.move i l x').own i = l := s.move_own_self i l x'
  constructor
  · exact hs.nodup
  · intro j
    by_cases hj : j = i
    · subst hj
      simp [hended, hnew]
    · rw [hown j hj]
      exact hs.mem_order j
  · apply hs.serial.congr
    intro j hj
    apply hown
    rintro rfl
    exact hnew hj
  · intro j hj hjoutside
    by_cases hji : j = i
    · subst hji
      simp only [hi] at hjoutside ⊢
      exact houtside hjoutside
    · simp only [hown j hji] at hj hjoutside ⊢
      exact hs.outside j hj hjoutside
  · intro hnone
    have hil := hnone i
    rw [hi] at hil
    obtain ⟨rfl, hbefore⟩ := hshared hil
    apply hs.shared
    intro j
    by_cases hj : j = i
    · rwa [hj]
    · have hjoutside := hnone j
      rwa [hown j hj] at hjoutside
  · intro j hj
    by_cases hji : j = i
    · subst hji
      simp only [hi] at hj ⊢
      obtain ⟨hreaches, hothers⟩ := hinside hj
      refine ⟨hreaches, ?_⟩
      intro k hk
      rw [hown k hk]
      exact hothers k hk
    · simp only [hown j hji] at hj ⊢
      have hil : ¬ p.inside i l :=
        fun hin => (hinside hin).2 j hji hj
      obtain ⟨rfl, hbefore⟩ := hshared hil
      obtain ⟨hjreaches, hjothers⟩ := hs.within j hj
      refine ⟨hjreaches, ?_⟩
      intro k hk
      by_cases hki : k = i
      · subst hki
        rwa [hi]
      · rw [hown k hki]
        exact hjothers k hk

theorem step (hs : p.Serialised x s order y) (hsections : p.Sectioned)
    {i : ι} {next : State ι σ ℓ} (hexclusive : p.Exclusive s i)
    (hstep : p.step s i = some next) :
    ∃ order' y', p.Serialised x next order' y' := by
  obtain ⟨l, x', hact, rfl⟩ := step_eq_some.mp hstep
  have hrunning : ¬ p.Ended i (s.own i) := fun hended => hended.not_act hact
  by_cases hended : p.Ended i l
  · by_cases hothers : ∀ j, j ≠ i → ¬ p.inside j (s.own j)
    · have hreaches := (hs.reaches hrunning hothers).step hact
      refine ⟨order ++ [i], x', hs.ends hsections hrunning hreaches hended
        (fun _ => rfl) ?_⟩
      intro j hj hinside
      exact absurd hinside (hothers j hj)
    · -- a thread that ends beside another one's section leaves no trace
      have hprivate : p.Private i (s.own i) := by
        by_contra htouches
        exact hothers (hexclusive htouches)
      obtain ⟨rfl, hsame⟩ := hprivate.act_eq hact
      push Not at hothers
      obtain ⟨j, hji, hj⟩ := hothers
      have hi : ¬ p.inside i (s.own i) := (hs.within j hj).2 i (Ne.symm hji)
      have hreaches := (hs.outside i hrunning hi y).step (hsame y)
      refine ⟨order ++ [i], y, hs.ends hsections hrunning hreaches hended ?_
        (fun k _ hk => hs.within k hk)⟩
      intro hnone
      exact absurd hj (hnone j hji)
  · refine ⟨order, y, hs.goes_on hrunning hended ?_ ?_ ?_⟩
    · intro hl z
      have hi : ¬ p.inside i (s.own i) :=
        fun hinside => hended (hsections.leaves i _ _ _ _ hact hinside hl)
      have hprivate := hsections.outside i _ _ _ _ hact hi hl hended
      exact (hs.outside i hrunning hi z).step ((hprivate.act_eq hact).2 z)
    · intro hl
      have hi : ¬ p.inside i (s.own i) :=
        fun hinside => hended (hsections.leaves i _ _ _ _ hact hinside hl)
      have hprivate := hsections.outside i _ _ _ _ hact hi hl hended
      exact ⟨(hprivate.act_eq hact).1, hi⟩
    · intro hl
      have hothers : ∀ j, j ≠ i → ¬ p.inside j (s.own j) := by
        by_cases hi : p.inside i (s.own i)
        · exact (hs.within i hi).2
        · exact hexclusive (hsections.enters i _ _ _ _ hact hi hl)
      exact ⟨(hs.reaches hrunning hothers).step hact, hothers⟩

end Serialised

/-- Runs whose steps on the object are exclusive are serial. -/
theorem Sectioned.serialised_of_run (hsections : p.Sectioned) {x : σ}
    {schedule : List ι} {t : State ι σ ℓ}
    (hexclusive : Meets p.step p.Exclusive (p.start x) schedule)
    (hrun : run p.step (p.start x) schedule = some t) :
    ∃ order y, p.Serialised x t order y := by
  apply invariant_of_run (I := fun s => ∃ order y, p.Serialised x s order y)
    ?_ ⟨[], x, hsections.serialised_start x⟩ hexclusive hrun
  rintro s i next ⟨order, y, hs⟩ hallowed hstep
  exact hs.step hsections hallowed hstep

/-! ## Going on to the end -/

section Completion

variable (μ : ι → ℓ → ℕ)

/-- Nothing blocks a thread, and it has finitely many steps. -/
structure Finite (p : Threads ι σ ℓ) (μ : ι → ℓ → ℕ) : Prop where
  enabled : ∀ i l x, p.act i l x = none → p.Ended i l
  lowers : ∀ i l x l' y, p.act i l x = some (l', y) → μ i l' < μ i l

variable {μ}

theorem Finite.run_one (hfinite : p.Finite μ) {s : State ι σ ℓ} (i : ι)
    (hothers : ∀ j, j ≠ i → ¬ p.inside j (s.own j)) :
    ∃ n t, Meets p.step p.Exclusive s (List.replicate n i) ∧
      run p.step s (List.replicate n i) = some t ∧ p.Ended i (t.own i) ∧
      ∀ j, j ≠ i → t.own j = s.own j := by
  induction hμ : μ i (s.own i) using Nat.strongRecOn generalizing s with
  | ind m ih =>
      cases hact : p.act i (s.own i) s.shared with
      | none =>
          exact ⟨0, s, meets_nil, rfl, hfinite.enabled i _ _ hact,
            fun _ _ => rfl⟩
      | some next =>
          obtain ⟨l, y⟩ := next
          have hlower := hfinite.lowers i _ _ _ _ hact
          have hstep : p.step s i = some (s.move i l y) :=
            step_eq_some.mpr ⟨l, y, hact, rfl⟩
          have hown : ∀ j, j ≠ i → (s.move i l y).own j = s.own j :=
            fun j hj => s.move_own_of_ne l y hj
          have hothers' : ∀ j, j ≠ i → ¬ p.inside j ((s.move i l y).own j) := by
            intro j hj
            rw [hown j hj]
            exact hothers j hj
          have hrank : μ i ((s.move i l y).own i) < m := by
            rw [State.move_own_self, ← hμ]
            exact hlower
          obtain ⟨n, t, hmeets, hrun, hended, hsame⟩ := ih _ hrank hothers' rfl
          refine ⟨n + 1, t, ?_, ?_, hended, ?_⟩
          · exact meets_cons_of_step (fun _ => hothers) hstep hmeets
          · exact run_cons_eq_some.mpr ⟨_, hstep, hrun⟩
          · intro j hj
            rw [hsame j hj, hown j hj]

theorem meets_append {s m : State ι σ ℓ} {first rest : List ι}
    (hfirst : Meets p.step p.Exclusive s first)
    (hrun : run p.step s first = some m)
    (hrest : Meets p.step p.Exclusive m rest) :
    Meets p.step p.Exclusive s (first ++ rest) := by
  induction first generalizing s with
  | nil =>
      obtain rfl : s = m := by simpa using hrun
      exact hrest
  | cons i first ih =>
      obtain ⟨next, hstep, hnext⟩ := run_cons_eq_some.mp hrun
      exact meets_cons_of_step hfirst.head hstep
        (ih (hfirst.tail hstep) hnext)

theorem Finite.run_all (hfinite : p.Finite μ) (hsections : p.Sectioned)
    {s : State ι σ ℓ} (hnone : ∀ i, ¬ p.inside i (s.own i))
    (pending : List ι) :
    ∃ schedule t, Meets p.step p.Exclusive s schedule ∧
      run p.step s schedule = some t ∧
      (∀ i, ¬ p.inside i (t.own i)) ∧
      (∀ i, p.Ended i (s.own i) → p.Ended i (t.own i)) ∧
      ∀ i ∈ pending, p.Ended i (t.own i) := by
  induction pending generalizing s with
  | nil => exact ⟨[], s, meets_nil, rfl, hnone, fun _ h => h, by simp⟩
  | cons i pending ih =>
      obtain ⟨n, m, hmeets, hrun, hended, hsame⟩ :=
        hfinite.run_one i fun j _ => hnone j
      have hkeeps : ∀ j, p.Ended j (s.own j) → p.Ended j (m.own j) := by
        intro j hj
        by_cases hji : j = i
        · subst hji
          exact hended
        · rwa [hsame j hji]
      have hnone' : ∀ j, ¬ p.inside j (m.own j) := by
        intro j
        by_cases hji : j = i
        · subst hji
          exact hsections.ended j _ hended
        · rw [hsame j hji]
          exact hnone j
      obtain ⟨schedule, t, hmeets', hrun', hnonet, hkeeps', hall⟩ := ih hnone'
      refine ⟨List.replicate n i ++ schedule, t, ?_, ?_, hnonet, ?_, ?_⟩
      · exact meets_append hmeets hrun hmeets'
      · exact run_append_eq_some.mpr ⟨m, hrun, hrun'⟩
      · exact fun j hj => hkeeps' j (hkeeps j hj)
      · intro j hj
        rcases List.mem_cons.mp hj with rfl | hj
        · exact hkeeps' j hended
        · exact hall j hj

/-- From every state a serial run leads to, the threads of a list can all end,
by steps that are exclusive. -/
theorem Serialised.exists_completion {x y : σ} {s : State ι σ ℓ}
    {order : List ι} (hs : p.Serialised x s order y)
    (hfinite : p.Finite μ) (hsections : p.Sectioned) (pending : List ι) :
    ∃ schedule t, Meets p.step p.Exclusive s schedule ∧
      run p.step s schedule = some t ∧
      (∀ i, ¬ p.inside i (t.own i)) ∧
      ∀ i ∈ pending, p.Ended i (t.own i) := by
  by_cases hholder : ∃ i, p.inside i (s.own i)
  · obtain ⟨i, hi⟩ := hholder
    have hothers := (hs.within i hi).2
    obtain ⟨n, m, hmeets, hrun, hended, hsame⟩ := hfinite.run_one i hothers
    have hnone : ∀ j, ¬ p.inside j (m.own j) := by
      intro j
      by_cases hji : j = i
      · subst hji
        exact hsections.ended j _ hended
      · rw [hsame j hji]
        exact hothers j hji
    obtain ⟨schedule, t, hmeets', hrun', hnonet, _, hall⟩ :=
      hfinite.run_all hsections hnone pending
    exact ⟨List.replicate n i ++ schedule, t,
      meets_append hmeets hrun hmeets',
      run_append_eq_some.mpr ⟨m, hrun, hrun'⟩, hnonet, hall⟩
  · have hnone : ∀ i, ¬ p.inside i (s.own i) :=
      fun i hi => hholder ⟨i, hi⟩
    obtain ⟨schedule, t, hmeets, hrun, hnonet, _, hall⟩ :=
      hfinite.run_all hsections hnone pending
    exact ⟨schedule, t, hmeets, hrun, hnonet, hall⟩

end Completion

end Threads

end ExclusiveSections
