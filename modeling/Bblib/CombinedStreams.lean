import Bblib.WsSessions
import Bblib.SeparatedText
import Mathlib.Data.List.Sort
import Mathlib.Tactic

/-!
# The targets of combined streams

Both loops put a `/` behind each stream name.  Splitting at `/` gives a vector
back as it was passed, order and repetitions included; a set passes the same
target whatever order and repetitions it was built from.
-/

namespace Bblib

/-- Every call passes `target` to `createWsSession`, whatever the handler. -/
def PassesTarget (start : Callback → Api WsToken) (target : Str) : Prop :=
  ∀ handler s, (start handler).outcome s =
    (createWsSession s.beast.config.wsApiUri target handler).outcome s

/-- The names can be told apart in a target. -/
def StreamNames (streams : List Str) : Prop :=
  ∀ name ∈ streams, slash ∉ name ∧ name ≠ []

/-! ## Sorted names without repetitions -/

theorem pairwise_lt_of_nodup {names : List Str}
    (hsorted : names.Pairwise (· ≤ ·)) (hnodup : names.Nodup) :
    names.Pairwise (· < ·) := by
  have hboth := hsorted.and hnodup
  exact hboth.imp fun hpair => Std.lt_of_le_of_ne hpair.1 hpair.2

theorem nodup_of_pairwise_lt {names : List Str}
    (hsorted : names.Pairwise (· < ·)) : names.Nodup :=
  hsorted.imp fun hlt => Std.ne_of_lt hlt

theorem pairwise_orderedInsert {names : List Str} {name : Str}
    (hsorted : names.Pairwise (· < ·)) (hname : name ∉ names) :
    (names.orderedInsert (· ≤ ·) name).Pairwise (· < ·) := by
  have hle : names.Pairwise (· ≤ ·) := hsorted.imp Std.le_of_lt
  have hperm := names.perm_orderedInsert (· ≤ ·) name
  have hnodup : (name :: names).Nodup :=
    List.nodup_cons.mpr ⟨hname, nodup_of_pairwise_lt hsorted⟩
  exact pairwise_lt_of_nodup (hle.orderedInsert name names)
    (hperm.nodup_iff.mpr hnodup)

def sortedNames (streams : List Str) : List Str :=
  streams.dedup.mergeSort fun a b => decide (a ≤ b)

theorem mem_sortedNames (streams : List Str) (name : Str) :
    name ∈ sortedNames streams ↔ name ∈ streams := by
  unfold sortedNames
  rw [List.mem_mergeSort, List.mem_dedup]

theorem sortedNames_pairwise (streams : List Str) :
    (sortedNames streams).Pairwise (· < ·) := by
  have hperm := List.mergeSort_perm streams.dedup fun a b => decide (a ≤ b)
  exact pairwise_lt_of_nodup (List.pairwise_mergeSort' (· ≤ ·) _)
    (hperm.nodup_iff.mpr streams.nodup_dedup)

/-! ## Building a set -/

namespace StringSet

def empty : StringSet := ⟨[], .nil⟩

/-- An equal element stays as it is. -/
def insert (set : StringSet) (name : Str) : StringSet :=
  if hname : name ∈ set.elements then set
  else ⟨set.elements.orderedInsert (· ≤ ·) name,
    pairwise_orderedInsert set.sorted hname⟩

def ofList (streams : List Str) : StringSet :=
  streams.foldl insert empty

theorem mem_insert (set : StringSet) (name other : Str) :
    other ∈ (set.insert name).elements ↔
      other ∈ set.elements ∨ other = name := by
  unfold insert
  split
  next hname =>
    constructor
    · exact Or.inl
    · rintro (hmem | rfl)
      · exact hmem
      · exact hname
  next hname =>
    rw [List.mem_orderedInsert]
    exact Or.comm

theorem mem_foldl_insert (streams : List Str) (set : StringSet) (name : Str) :
    name ∈ (streams.foldl insert set).elements ↔
      name ∈ set.elements ∨ name ∈ streams := by
  induction streams generalizing set with
  | nil => simp
  | cons stream streams ih =>
      rw [List.foldl_cons, ih, mem_insert, List.mem_cons, or_assoc]

theorem mem_ofList (streams : List Str) (name : Str) :
    name ∈ (ofList streams).elements ↔ name ∈ streams := by
  unfold ofList
  rw [mem_foldl_insert]
  simp [empty]

/-- Only the set of the names matters. -/
theorem elements_ofList {streams others : List Str}
    (hsame : ∀ name, name ∈ streams ↔ name ∈ others) :
    (ofList others).elements = sortedNames streams := by
  apply (ofList others).sorted.eq_of_mem_iff (sortedNames_pairwise streams)
  intro name
  rw [mem_ofList, mem_sortedNames, hsame]

end StringSet

/-! ## Targets -/

theorem writeStreams_eq_terminated (streams : List Str) :
    writeStreams streams = SeparatedText.terminated slash streams := by
  unfold writeStreams SeparatedText.terminated
  rw [List.flatMap_eq_foldl, ascii_slash]

theorem startWebSocketVector_passesTarget (streams : List Str) :
    PassesTarget (startWebSocketVector · streams)
      (ascii "/stream?streams=" ++ writeStreams streams) :=
  fun _ s => Api.outcome_get_bind _ s

theorem startWebSocketSet_passesTarget (streams : StringSet) :
    PassesTarget (startWebSocketSet · streams)
      (ascii "/stream?streams=" ++ writeStreams streams.elements) :=
  fun _ s => Api.outcome_get_bind _ s

theorem pieces_writeStreams {streams : List Str}
    (hstreams : StreamNames streams) :
    SeparatedText.pieces slash (writeStreams streams) = streams := by
  rw [writeStreams_eq_terminated]
  exact SeparatedText.pieces_terminated hstreams

theorem writeStreams_injective {streams others : List Str}
    (hstreams : StreamNames streams) (hothers : StreamNames others)
    (htext : writeStreams streams = writeStreams others) :
    streams = others := by
  calc
    streams = SeparatedText.pieces slash (writeStreams streams) :=
      (pieces_writeStreams hstreams).symm
    _ = SeparatedText.pieces slash (writeStreams others) := by rw [htext]
    _ = others := pieces_writeStreams hothers

theorem createWsSession_paths (host path : Str) (f : ℕ) (s : ApiState) :
    ((createWsSession host path (some f)).outcome s).2.sessions.map
        (fun started => started.session.path) =
      s.sessions.map (fun started => started.session.path) ++ [path] := by
  have hsessions : ∃ started : StartedWsSession,
      ((createWsSession host path (some f)).outcome s).2.sessions =
        s.sessions ++ [started] ∧ started.session.path = path :=
    ⟨_, rfl, rfl⟩
  obtain ⟨started, hsessions, hpath⟩ := hsessions
  rw [hsessions, List.map_append, List.map_singleton, hpath]

/-- A session a call starts keeps the target, so there is only one. -/
theorem PassesTarget.unique {start : Callback → Api WsToken}
    {target other : Str} (htarget : PassesTarget start target)
    (hother : PassesTarget start other) : target = other := by
  have config := ConnectionConfig.make "" "" true ⟨[], []⟩ "443"
  have s : ApiState := ⟨.start config 1 1, [], []⟩
  have hsame := (htarget (some 0) s).symm.trans (hother (some 0) s)
  have hpaths := congrArg
    (fun ended => ended.2.sessions.map fun started => started.session.path)
    hsame
  simp only [createWsSession_paths] at hpaths
  simpa using hpaths

/-- The vector's target reads back as the vector, so different vectors have
different targets; the set's target depends on the set of names only and is
the vector's for the sorted names. -/
theorem combined_targets :
    (∀ streams, StreamNames streams → ∃ text,
      PassesTarget (startWebSocketVector · streams)
          (ascii "/stream?streams=" ++ text) ∧
        SeparatedText.pieces slash text = streams) ∧
    (∀ streams others target,
      StreamNames streams → StreamNames others → streams ≠ others →
      PassesTarget (startWebSocketVector · streams) target →
        ¬ PassesTarget (startWebSocketVector · others) target) ∧
    (∀ streams others, (∀ name, name ∈ streams ↔ name ∈ others) → ∃ target,
      PassesTarget (startWebSocketSet · (.ofList streams)) target ∧
        PassesTarget (startWebSocketSet · (.ofList others)) target ∧
        PassesTarget (startWebSocketVector · (sortedNames streams)) target) := by
  refine ⟨?_, ?_, ?_⟩
  · intro streams hstreams
    exact ⟨writeStreams streams, startWebSocketVector_passesTarget streams,
      pieces_writeStreams hstreams⟩
  · intro streams others target hstreams hothers hne htarget hother
    have htext : ascii "/stream?streams=" ++ writeStreams streams =
        ascii "/stream?streams=" ++ writeStreams others :=
      ((startWebSocketVector_passesTarget streams).unique htarget).trans
        (hother.unique (startWebSocketVector_passesTarget others))
    exact hne (writeStreams_injective hstreams hothers
      (List.append_cancel_left htext))
  · intro streams others hsame
    have hstreams := StringSet.elements_ofList
      fun name => Iff.refl (name ∈ streams)
    have hothers := StringSet.elements_ofList hsame
    refine ⟨_, ?_, ?_, startWebSocketVector_passesTarget _⟩
    · rw [← hstreams]
      exact startWebSocketSet_passesTarget _
    · rw [← hothers]
      exact startWebSocketSet_passesTarget _

def tradeStreams : List Str :=
  [ascii "btcusdt@trade", ascii "ethusdt@trade"]

/-- Two names in either order are two vectors and one set. -/
theorem trade_streams_in_either_order :
    (∃ text, PassesTarget (startWebSocketVector · tradeStreams)
          (ascii "/stream?streams=" ++ text) ∧
        SeparatedText.pieces slash text = tradeStreams) ∧
    (∀ target, PassesTarget (startWebSocketVector · tradeStreams) target →
      ¬ PassesTarget (startWebSocketVector · tradeStreams.reverse) target) ∧
    ∃ target,
      PassesTarget (startWebSocketSet · (.ofList tradeStreams)) target ∧
        PassesTarget (startWebSocketSet · (.ofList tradeStreams.reverse))
          target := by
  obtain ⟨hreads, hdiffer, hset⟩ := combined_targets
  have hnames : StreamNames tradeStreams := by
    unfold StreamNames
    decide
  have hreversed : StreamNames tradeStreams.reverse :=
    fun name hname => hnames name (List.mem_reverse.mp hname)
  refine ⟨hreads _ hnames, ?_, ?_⟩
  · intro target htarget
    exact hdiffer _ _ target hnames hreversed (by decide) htarget
  · obtain ⟨target, hone, hother, _⟩ :=
      hset tradeStreams tradeStreams.reverse fun _ => List.mem_reverse.symm
    exact ⟨target, hone, hother⟩

end Bblib
