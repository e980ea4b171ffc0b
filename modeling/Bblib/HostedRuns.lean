import Bblib.LabelledRuns
import Mathlib.Tactic

/-!
# Machines hosted by a machine

A host keeps a list of member machines.  Each of its steps opens a new
member, moves one member by a step of its own, or leaves the list as it is.  A
member keeps what it was opened with, its birth, which may decide how it
moves.

What is proved about one member alone then holds of every member in every run
of the host, and what each member can reach alone the host can reach for all
of them together.

Some of what a member does can be read off the labels of the host: `observe`
says what is to be seen of a label of the member, and `report` what a label of
the host shows of the member at an index.  Where each step shows just what it
does, the labels of a run of the host show all there is to be seen of each
member.
-/

namespace HostedRuns

open LabelledRuns

structure Member (ι κ : Type*) where
  birth : ι
  state : κ

section Reaching

variable {ι κ β γ σ α : Type*} {cstep : ι → κ → β → Option κ}
  {Init : ι → κ → Prop} {observe : β → Option γ}

/-- What one step of the host does to its members, and what it shows of
each. -/
inductive Moves (cstep : ι → κ → β → Option κ) (Init : ι → κ → Prop)
    (observe : β → Option γ) (shown : ℕ → Option γ)
    (old new : List (Member ι κ)) : Prop where
  | keeps (same : new = old) (nothing : ∀ index, shown index = none)
  | opens (born : Member ι κ) (init : Init born.birth born.state)
      (opened : new = old ++ [born]) (nothing : ∀ index, shown index = none)
  | moves (index : ℕ) (moving : Member ι κ) (label : β) (next : κ)
      (found : old[index]? = some moving)
      (stepped : cstep moving.birth moving.state label = some next)
      (moved : new = old.set index ⟨moving.birth, next⟩)
      (seen : shown index = observe label)
      (others : ∀ other ≠ index, shown other = none)

/-- The member has come to its state by steps of its own, of which this was to
be seen. -/
def Member.Reached (cstep : ι → κ → β → Option κ) (Init : ι → κ → Prop)
    (observe : β → Option γ) (member : Member ι κ) (seen : List γ) : Prop :=
  ∃ start labels, Init member.birth start ∧
    run (cstep member.birth) start labels = some member.state ∧
    labels.filterMap observe = seen

theorem Member.Reached.of_init {member : Member ι κ}
    (hinit : Init member.birth member.state) :
    member.Reached cstep Init observe [] :=
  ⟨member.state, [], hinit, rfl, rfl⟩

theorem Member.Reached.step {member : Member ι κ} {seen : List γ} {label : β}
    {next : κ} (hreached : member.Reached cstep Init observe seen)
    (hstep : cstep member.birth member.state label = some next) :
    Member.Reached cstep Init observe ⟨member.birth, next⟩
      (seen ++ (observe label).toList) := by
  obtain ⟨start, labels, hinit, hrun, hseen⟩ := hreached
  refine ⟨start, labels ++ [label], hinit,
    run_snoc_eq_some.mpr ⟨member.state, hrun, hstep⟩, ?_⟩
  rw [List.filterMap_append, hseen]
  cases hlabel : observe label <;> simp [hlabel]

/-- Every member was reached by what the labels so far show of it, and they
show nothing of a member that is not there. -/
structure Shown (cstep : ι → κ → β → Option κ) (Init : ι → κ → Prop)
    (observe : β → Option γ) (seen : ℕ → List γ)
    (members : List (Member ι κ)) : Prop where
  reached : ∀ index (member : Member ι κ), members[index]? = some member →
    member.Reached cstep Init observe (seen index)
  absent : ∀ index, members.length ≤ index → seen index = []

theorem Moves.shown {old new : List (Member ι κ)} {shown : ℕ → Option γ}
    {seen : ℕ → List γ} (hmoves : Moves cstep Init observe shown old new)
    (hold : Shown cstep Init observe seen old) :
    Shown cstep Init observe (fun index => seen index ++ (shown index).toList)
      new := by
  cases hmoves with
  | keeps same nothing =>
      subst same
      simpa [nothing] using hold
  | opens born init opened nothing =>
      subst opened
      constructor
      · intro index member hmember
        rw [nothing index, Option.toList_none, List.append_nil]
        by_cases hless : index < old.length
        · rw [List.getElem?_append_left hless] at hmember
          exact hold.reached index member hmember
        · have hlength := (List.getElem?_eq_some_iff.mp hmember).1
          rw [List.length_append, List.length_singleton] at hlength
          obtain rfl : index = old.length := by omega
          rw [List.getElem?_concat_length] at hmember
          obtain rfl := Option.some.inj hmember
          rw [hold.absent old.length le_rfl]
          exact .of_init init
      · intro index hindex
        rw [List.length_append, List.length_singleton] at hindex
        rw [nothing index, hold.absent index (by omega)]
        rfl
  | moves moved moving label next found stepped set observed others =>
      subst set
      have hmoved := (List.getElem?_eq_some_iff.mp found).1
      constructor
      · intro index member hmember
        by_cases hindex : index = moved
        · subst hindex
          rw [List.getElem?_set_self hmoved] at hmember
          obtain rfl := Option.some.inj hmember
          rw [observed]
          exact (hold.reached index moving found).step stepped
        · rw [List.getElem?_set_ne (Ne.symm hindex)] at hmember
          rw [others index hindex, Option.toList_none, List.append_nil]
          exact hold.reached index member hmember
      · intro index hindex
        rw [List.length_set] at hindex
        rw [others index (by omega), hold.absent index hindex]
        rfl

/-- In every run of the host from one without members, every member has come
to its state by steps of its own, of which the labels show what is to be
seen. -/
theorem reached_of_run {step : σ → α → Option σ} {I : σ → Prop}
    {report : α → ℕ → Option γ} (members : σ → List (Member ι κ))
    (hstep : ∀ s a next, I s → step s a = some next → I next)
    (hmoves : ∀ s a next, I s → step s a = some next →
      Moves cstep Init observe (report a) (members s) (members next))
    {s t : σ} {labels : List α} (hs : I s) (hnone : members s = [])
    (hrun : run step s labels = some t) :
    I t ∧ ∀ index (member : Member ι κ), (members t)[index]? = some member →
      member.Reached cstep Init observe
        (labels.filterMap fun label => report label index) := by
  have hstart : Shown cstep Init observe
      (fun index => ([] : List α).filterMap fun label => report label index)
      (members s) := by
    rw [hnone]
    exact ⟨by simp, by simp⟩
  have hinv := history_invariant_of_run
    (I := fun history s => I s ∧ Shown cstep Init observe
      (fun index => history.filterMap fun label => report label index)
      (members s))
    (fun history s a next hinv _ hnext => by
      refine ⟨hstep s a next hinv.1 hnext, ?_⟩
      have hshown := (hmoves s a next hinv.1 hnext).shown hinv.2
      simp only [List.filterMap_append]
      convert hshown using 3 with index
      cases hreport : report a index <;> simp [hreport])
    (h := []) ⟨hs, hstart⟩ (meets_true step s labels) hrun
  exact ⟨hinv.1, hinv.2.reached⟩

end Reaching

/-! ## Driving the members -/

section Driving

variable {ι κ β σ α : Type*} {cstep : ι → κ → β → Option κ}
  {members : σ → List (Member ι κ)} {step : σ → α → Option σ}
  {I : σ → Prop} {own : α → Prop}

theorem set_self_of_getElem? {γ : Type*} {list : List γ} {index : ℕ} {x : γ}
    (hfound : list[index]? = some x) : list.set index x = list := by
  obtain ⟨hindex, rfl⟩ := List.getElem?_eq_some_iff.mp hfound
  exact List.set_getElem_self hindex

/-- From the invariant, the host can make every step any member can make, by a
label of its own for such steps, and that step moves no other member. -/
def Drives (step : σ → α → Option σ) (own : α → Prop) (I : σ → Prop)
    (cstep : ι → κ → β → Option κ) (members : σ → List (Member ι κ)) :
    Prop :=
  ∀ s index member label next, I s →
    (members s)[index]? = some member →
    cstep member.birth member.state label = some next →
    ∃ a after, own a ∧ step s a = some after ∧ I after ∧
      members after = (members s).set index ⟨member.birth, next⟩

/-- A run of one member is a run of the host. -/
theorem Drives.run_member (hdrives : Drives step own I cstep members)
    {s : σ} {index : ℕ} {birth : ι} {state goal : κ} {labels : List β}
    (hs : I s) (hfound : (members s)[index]? = some ⟨birth, state⟩)
    (hrun : run (cstep birth) state labels = some goal) :
    ∃ as t, (∀ a ∈ as, own a) ∧ run step s as = some t ∧ I t ∧
      members t = (members s).set index ⟨birth, goal⟩ := by
  induction labels generalizing s state with
  | nil =>
      obtain rfl : state = goal := by simpa using hrun
      refine ⟨[], s, by simp, rfl, hs, ?_⟩
      exact (set_self_of_getElem? hfound).symm
  | cons label labels ih =>
      obtain ⟨next, hnext, hrest⟩ := run_cons_eq_some.mp hrun
      obtain ⟨a, after, hown, hstep, hafter, hmembers⟩ :=
        hdrives s index ⟨birth, state⟩ label next hs hfound hnext
      have hindex : index < (members s).length :=
        (List.getElem?_eq_some_iff.mp hfound).1
      have hfound' : (members after)[index]? = some ⟨birth, next⟩ := by
        rw [hmembers, List.getElem?_set_self hindex]
      obtain ⟨as, t, howns, hruns, ht, hset⟩ := ih hafter hfound' hrest
      refine ⟨a :: as, t, ?_, run_cons_eq_some.mpr ⟨after, hstep, hruns⟩, ht,
        ?_⟩
      · simpa [hown] using howns
      · rw [hset, hmembers, List.set_set]

/-- When every member alone can come to a goal, the host can bring all of
them there, one after the other.  The goal may speak of the index of a member
and of the state it comes from. -/
theorem Drives.exists_run_each (hdrives : Drives step own I cstep members)
    (goal : ℕ → Member ι κ → κ → Prop) {s : σ} (hs : I s)
    (hgoal : ∀ index (member : Member ι κ),
      (members s)[index]? = some member → ∃ labels state,
        run (cstep member.birth) member.state labels = some state ∧
          goal index member state) :
    ∃ as t, (∀ a ∈ as, own a) ∧ run step s as = some t ∧ I t ∧
      (members t).length = (members s).length ∧
      ∀ index old new, (members s)[index]? = some old →
        (members t)[index]? = some new →
        new.birth = old.birth ∧ goal index old new.state := by
  -- The induction is on how many members, from the front, are done.
  have hprefix : ∀ done, done ≤ (members s).length →
      ∃ as t, (∀ a ∈ as, own a) ∧ run step s as = some t ∧ I t ∧
        (members t).length = (members s).length ∧
        (∀ index, done ≤ index → (members t)[index]? = (members s)[index]?) ∧
        ∀ index < done, ∀ old new, (members s)[index]? = some old →
          (members t)[index]? = some new →
          new.birth = old.birth ∧ goal index old new.state := by
    intro done hdone
    induction done with
    | zero => exact ⟨[], s, by simp, rfl, hs, rfl, fun _ _ => rfl, by simp⟩
    | succ done ih =>
        obtain ⟨as, m, hown, hrun, hm, hlength, hrest, hdone'⟩ := ih (by omega)
        obtain ⟨moving, hfound⟩ : ∃ moving, (members m)[done]? = some moving :=
          ⟨_, List.getElem?_eq_getElem (by omega)⟩
        have hold : (members s)[done]? = some moving :=
          (hrest done le_rfl).symm.trans hfound
        obtain ⟨labels, state, hreach, hstate⟩ := hgoal done moving hold
        obtain ⟨bs, t, hmine, hmore, ht, hset⟩ :=
          hdrives.run_member hm hfound hreach
        refine ⟨as ++ bs, t, ?_, run_append_eq_some.mpr ⟨m, hrun, hmore⟩, ht,
          ?_, ?_, ?_⟩
        · intro a ha
          exact (List.mem_append.mp ha).elim (hown a) (hmine a)
        · rw [hset, List.length_set, hlength]
        · intro index hindex
          rw [hset, List.getElem?_set_ne (by omega)]
          exact hrest index (by omega)
        · intro index hindex old new hfrom hto
          rw [hset] at hto
          by_cases hlast : index = done
          · subst hlast
            rw [List.getElem?_set_self (by omega)] at hto
            obtain rfl := Option.some.inj hto
            obtain rfl := Option.some.inj (hold.symm.trans hfrom)
            exact ⟨rfl, hstate⟩
          · rw [List.getElem?_set_ne (by omega)] at hto
            exact hdone' index (by omega) old new hfrom hto
  obtain ⟨as, t, hown, hrun, ht, hlength, _, hall⟩ :=
    hprefix (members s).length le_rfl
  refine ⟨as, t, hown, hrun, ht, hlength, ?_⟩
  intro index old new hfrom hto
  exact hall index (List.getElem?_eq_some_iff.mp hfrom).1 old new hfrom hto

/-- The same for a goal that is the same at every index. -/
theorem Drives.exists_run_all (hdrives : Drives step own I cstep members)
    {goal : Member ι κ → κ → Prop} {s : σ} (hs : I s)
    (hgoal : ∀ member ∈ members s, ∃ labels state,
      run (cstep member.birth) member.state labels = some state ∧
        goal member state) :
    ∃ as t, (∀ a ∈ as, own a) ∧ run step s as = some t ∧ I t ∧
      List.Forall₂ (fun old new => new.birth = old.birth ∧ goal old new.state)
        (members s) (members t) := by
  obtain ⟨as, t, hown, hrun, ht, hlength, hall⟩ :=
    hdrives.exists_run_each (fun _ => goal) hs
      fun index member hfound => hgoal member (List.mem_of_getElem? hfound)
  refine ⟨as, t, hown, hrun, ht, ?_⟩
  rw [List.forall₂_iff_get]
  refine ⟨hlength.symm, ?_⟩
  intro index hfrom hto
  exact hall index _ _ (List.getElem?_eq_getElem hfrom)
    (List.getElem?_eq_getElem hto)

end Driving

end HostedRuns
