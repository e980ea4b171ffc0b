import Bblib.ClientRequests
import Bblib.CombinedStreams
import Bblib.FailureResponses
import Bblib.RestCallerThreads
import Mathlib.Tactic

/-!
# The threads of a market scanner

`MarketScanner` of the example for several markets.  `start` sends a request
for the symbols and waits on a condition variable until the callback notifies
it; then it starts a thread that waits for the end.  The destructor asks the
thread to end and joins it.

Neither wait can be relied on.  The callback notifies whether or not somebody
waits already, so `start` never returns when the callback is the faster one.
The thread waits until `running()` is true, which it is until the destructor
changes it: a thread that has looked before that goes on to its end, and one
that first looks after it never does, and the destructor neither.
-/

namespace Bblib

open LabelledRuns

/-! ## The symbols -/

/-- The classes derived from `MarketScanner`. -/
inductive Scanner where
  | usdm
  | coinm
  | spot

def Scanner.allSymbolsStreamName : Scanner → Str
  | .usdm => ascii "/fapi/v1/ticker/price"
  | .coinm => ascii "/dapi/v1/ticker/price "
  | .spot => ascii "/api/v3/ticker/price "

/-- The request of `getAllSymbols`.  An unsigned one reads no clock and joins
no text. -/
def Scanner.allSymbols (scanner : Scanner) (outcomes : StageOutcomes) :
    RestCall where
  moved := true
  handler := some 0
  path := scanner.allSymbolsStreamName
  sign := .unsigned
  params := ⟨.empty⟩
  type := .get
  now := 0
  plus := .appendRight
  firstOperand := .left
  outcomes := outcomes

def Json.asArray : Json → Option (List Json)
  | .array elements => some elements
  | _ => none

/-- The symbols a callback inserts, or `none` when it throws. -/
def collectSymbols (boost : Boost) (result : RestResponse) :
    Option (List Str) :=
  let (error, result) := result.hasErrorCode boost false
  if error then some []
  else
    match result.json.asArray with
    | none => none
    | some entries => entries.mapM fun entry =>
        match entry.asObject with
        | none => none
        | some object => (object.index (ascii "symbol")).1.valueToString

/-! ## The threads -/

/-- Where the thread that owns the scanner is: about to wait in
`getAllSymbols`, waiting there, back from there, back from `start`, and in the
destructor before `notify_all`, before `join` and after it. -/
inductive MainThread where
  | requested
  | waiting
  | subscribing
  | idle
  | stopping
  | joining
  | stopped
  deriving DecidableEq

/-- The variables of `getAllSymbols` are there. -/
def MainThread.awaits : MainThread → Bool
  | .requested => true
  | .waiting => true
  | _ => false

def MainThread.destroying : MainThread → Bool
  | .stopping => true
  | .joining => true
  | .stopped => true
  | _ => false

/-- Where the scanner's own thread is: before the call of `run`, before it
looks at `running()`, before it blocks, blocked, on its way out of the wait and
at its end. -/
inductive RunThread where
  | unstarted
  | spawned
  | checking
  | blocking
  | waiting
  | leaving
  | finished
  deriving DecidableEq

/-- The thread has found `running()` true. -/
def RunThread.sawRunning : RunThread → Bool
  | .leaving => true
  | .finished => true
  | _ => false

def RunThread.notifyAll : RunThread → RunThread
  | .waiting => .checking
  | thread => thread

structure MarketScanner where
  main : MainThread
  thread : RunThread
  running : Bool
  request : RestRun
  syms : StringSet
  notified : Bool
  symbolsToScan : StringSet

inductive ScannerEvent where
  | main
  | thread
  | request (event : RestEvent)
  | mainWakes
  | threadWakes
  deriving DecidableEq

namespace MarketScanner

/-- The scanner when `sendRestRequest` has returned. -/
def launch (boost : Boost) (hmac : Hmac) (beast : BinanceBeast)
    (scanner : Scanner) (outcomes : StageOutcomes) : MarketScanner where
  main := .requested
  thread := .unstarted
  running := true
  request := (scanner.allSymbols outcomes).launched boost hmac beast
  syms := .empty
  notified := false
  symbolsToScan := .empty

/-- The callback of `getAllSymbols`.  Its exceptions end the process, and so
does a write to variables that are gone. -/
def onSymbols (boost : Boost) (s : MarketScanner) (result : RestResponse) :
    Option MarketScanner :=
  if s.main.awaits then
    (collectSymbols boost result).map fun symbols => { s with
      syms := symbols.foldl StringSet.insert s.syms
      notified := s.notified || s.main == .waiting }
  else none

def stepMain (s : MarketScanner) : Option MarketScanner :=
  match s.main with
  | .requested => some { s with main := .waiting }
  | .waiting =>
      if s.notified then
        some { s with main := .subscribing, symbolsToScan := s.syms }
      else none
  | .subscribing => some { s with main := .idle, thread := .spawned }
  | .idle => some { s with main := .stopping, running := false }
  | .stopping =>
      some { s with main := .joining, thread := s.thread.notifyAll }
  | .joining =>
      if s.thread = .finished then some { s with main := .stopped } else none
  | .stopped => none

/-- `run` is a pure virtual function again once the destructor is running. -/
def stepThread (s : MarketScanner) : Option MarketScanner :=
  match s.thread with
  | .spawned =>
      if s.main.destroying then none else some { s with thread := .checking }
  | .checking =>
      some { s with thread := if s.running then .leaving else .blocking }
  | .blocking => some { s with thread := .waiting }
  | .leaving => some { s with thread := .finished }
  | _ => none

/-- The last two events are spurious: a wait ends though nobody has notified
it. -/
def step (boost : Boost) (outcomes : StageOutcomes) (s : MarketScanner) :
    ScannerEvent → Option MarketScanner
  | .main => s.stepMain
  | .thread => s.stepThread
  | .request event =>
      match s.request.step boost outcomes event with
      | none => none
      | some next =>
          (next.calls.drop s.request.calls.length).foldlM
            (fun s call => s.onSymbols boost call.2.2)
            { s with request := next }
  | .mainWakes =>
      if s.main = .waiting then
        some { s with main := .subscribing, symbolsToScan := s.syms }
      else none
  | .threadWakes =>
      if s.thread = .waiting then some { s with thread := .checking }
      else none

/-! ## What a step can do -/

/-- Everything one step can do while the request is one that is called back
once. -/
inductive Moves (boost : Boost) (o : StageOutcomes) (s : MarketScanner) :
    ScannerEvent → MarketScanner → Prop where
  | waits (main : s.main = .requested) :
      Moves boost o s .main { s with main := .waiting }
  | returns (main : s.main = .waiting) (notified : s.notified = true) :
      Moves boost o s .main
        { s with main := .subscribing, symbolsToScan := s.syms }
  | spawns (main : s.main = .subscribing) :
      Moves boost o s .main { s with main := .idle, thread := .spawned }
  | destroys (main : s.main = .idle) :
      Moves boost o s .main { s with main := .stopping, running := false }
  | notifies (main : s.main = .stopping) :
      Moves boost o s .main
        { s with main := .joining, thread := s.thread.notifyAll }
  | joins (main : s.main = .joining) (thread : s.thread = .finished) :
      Moves boost o s .main { s with main := .stopped }
  | enters (thread : s.thread = .spawned) (main : s.main.destroying = false) :
      Moves boost o s .thread { s with thread := .checking }
  | checks (thread : s.thread = .checking) :
      Moves boost o s .thread
        { s with thread := if s.running then .leaving else .blocking }
  | blocks (thread : s.thread = .blocking) :
      Moves boost o s .thread { s with thread := .waiting }
  | leaves (thread : s.thread = .leaving) :
      Moves boost o s .thread { s with thread := .finished }
  | requests {event : RestEvent} {next : RestRun}
      (stepped : s.request.step boost o event = some next)
      (calls : next.calls = [] ∧ s.request.calls = []) :
      Moves boost o s (.request event) { s with request := next }
  | collects {event : RestEvent} {next : RestRun} {thread : CallerThread}
      {r : RestResponse} {symbols : List Str}
      (stepped : s.request.step boost o event = some next)
      (before : s.request.calls = [])
      (calls : next.calls = [(thread, some 0, r)])
      (reports : o.Reports boost r) (awaits : s.main.awaits = true)
      (collected : collectSymbols boost r = some symbols) :
      Moves boost o s (.request event) { s with
        request := next
        syms := symbols.foldl StringSet.insert s.syms
        notified := s.notified || s.main == .waiting }
  | mainWakes (main : s.main = .waiting) :
      Moves boost o s .mainWakes
        { s with main := .subscribing, symbolsToScan := s.syms }
  | threadWakes (thread : s.thread = .waiting) :
      Moves boost o s .threadWakes { s with thread := .checking }

section Moves

variable {boost : Boost} {o : StageOutcomes} {host port : Str}
  {s next : MarketScanner} {event : ScannerEvent}

/-- The first step that calls back is the last step of the request. -/
theorem request_calls {event : RestEvent} {after : RestRun}
    (hinv : s.request.Invariant boost o 0 host port)
    (hstep : s.request.step boost o event = some after) :
    s.request.calls = [] ∧ (after.calls = [] ∨ ∃ thread r,
      after.calls = [(thread, some 0, r)] ∧ o.Reports boost r) := by
  cases hinv.moves hstep with
  | starts op following pending ok chained next_eq =>
      have hcalls := (hinv.waiting op pending).2.1
      subst next_eq
      exact ⟨hcalls, .inl hcalls⟩
  | posts op r pending reports next_eq =>
      have hcalls := (hinv.waiting op pending).2.1
      subst next_eq
      exact ⟨hcalls, .inl hcalls⟩
  | calls op r pending reports next_eq =>
      subst next_eq
      exact ⟨(hinv.waiting op pending).2.1, .inr ⟨_, r, rfl, reports⟩⟩
  | runs r pending reports jobs next_eq =>
      subst next_eq
      refine ⟨?_, .inr ⟨_, r, rfl, reports⟩⟩
      obtain ⟨_, _, ⟨_, hcalls⟩ | ⟨_, hjobs, _⟩⟩ := hinv.reported pending
      · exact hcalls
      · rw [jobs] at hjobs
        contradiction

theorem moves_main (hstep : s.stepMain = some next) :
    Moves boost o s .main next := by
  unfold stepMain at hstep
  split at hstep
  case h_1 hmain =>
    obtain rfl := Option.some.inj hstep
    exact .waits hmain
  case h_2 hmain =>
    split at hstep
    · rename_i hnotified
      obtain rfl := Option.some.inj hstep
      exact .returns hmain hnotified
    · contradiction
  case h_3 hmain =>
    obtain rfl := Option.some.inj hstep
    exact .spawns hmain
  case h_4 hmain =>
    obtain rfl := Option.some.inj hstep
    exact .destroys hmain
  case h_5 hmain =>
    obtain rfl := Option.some.inj hstep
    exact .notifies hmain
  case h_6 hmain =>
    split at hstep
    · rename_i hthread
      obtain rfl := Option.some.inj hstep
      exact .joins hmain hthread
    · contradiction
  case h_7 => contradiction

theorem moves_thread (hstep : s.stepThread = some next) :
    Moves boost o s .thread next := by
  unfold stepThread at hstep
  split at hstep
  case h_1 hthread =>
    split at hstep
    · contradiction
    · rename_i hmain
      obtain rfl := Option.some.inj hstep
      exact .enters hthread (by simpa using hmain)
  case h_2 hthread =>
    obtain rfl := Option.some.inj hstep
    exact .checks hthread
  case h_3 hthread =>
    obtain rfl := Option.some.inj hstep
    exact .blocks hthread
  case h_4 hthread =>
    obtain rfl := Option.some.inj hstep
    exact .leaves hthread
  case h_5 => contradiction

theorem moves (hinv : s.request.Invariant boost o 0 host port)
    (hstep : s.step boost o event = some next) :
    Moves boost o s event next := by
  cases event with
  | main => exact moves_main hstep
  | thread => exact moves_thread hstep
  | mainWakes =>
      simp only [step] at hstep
      split at hstep
      · rename_i hmain
        obtain rfl := Option.some.inj hstep
        exact .mainWakes hmain
      · contradiction
  | threadWakes =>
      simp only [step] at hstep
      split at hstep
      · rename_i hthread
        obtain rfl := Option.some.inj hstep
        exact .threadWakes hthread
      · contradiction
  | request event =>
      simp only [step] at hstep
      split at hstep
      · contradiction
      · rename_i after hafter
        obtain ⟨hbefore, hcalls⟩ := request_calls hinv hafter
        rw [hbefore, List.length_nil, List.drop_zero] at hstep
        rcases hcalls with hcalls | ⟨thread, r, hcalls, hreports⟩
        · rw [hcalls] at hstep
          obtain rfl := Option.some.inj hstep
          exact .requests hafter ⟨hcalls, hbefore⟩
        · rw [hcalls, List.foldlM_cons] at hstep
          have hcallback : onSymbols boost { s with request := after } r =
              some next := by
            simpa using hstep
          unfold onSymbols at hcallback
          split at hcallback
          · rename_i hawaits
            obtain ⟨symbols, hsymbols, rfl⟩ :=
              Option.map_eq_some_iff.mp hcallback
            exact .collects hafter hbefore hcalls hreports hawaits hsymbols
          · contradiction

end Moves

/-! ## Invariants -/

/-- What holds however the waits end. -/
structure Threads (boost : Boost) (o : StageOutcomes) (host port : Str)
    (s : MarketScanner) : Prop where
  request : s.request.Invariant boost o 0 host port
  reasoned : s.request.Reasoned
  running : s.running = !s.main.destroying
  started : s.thread = .unstarted →
    s.main.awaits = true ∨ s.main = .subscribing
  blocked : s.thread = .blocking ∨ s.thread = .waiting →
    s.main.destroying = true
  stopped : s.main = .stopped → s.thread = .finished

/-- The callback has run, and this is the set of the symbols it found. -/
def Collected (boost : Boost) (o : StageOutcomes) (s : MarketScanner)
    (set : StringSet) : Prop :=
  ∃ thread r symbols, s.request.calls = [(thread, some 0, r)] ∧
    o.Reports boost r ∧ collectSymbols boost r = some symbols ∧
    set = StringSet.ofList symbols

/-- What holds when no wait of the first thread ends by itself. -/
structure Starting (boost : Boost) (o : StageOutcomes)
    (s : MarketScanner) : Prop where
  syms : (s.request.calls = [] ∧ s.syms = .empty) ∨ Collected boost o s s.syms
  notified : s.notified = true → s.request.calls ≠ []
  requested : s.main = .requested → s.notified = false
  scanned : s.main.awaits = false → Collected boost o s s.symbolsToScan

section Invariants

variable {boost : Boost} {hmac : Hmac} {beast : BinanceBeast}
  {scanner : Scanner} {o : StageOutcomes} {host port : Str}
  {s next : MarketScanner} {event : ScannerEvent}

theorem launch_threads : (launch boost hmac beast scanner o).Threads boost o
    beast.config.restApiUri beast.config.restPort where
  request := RestRun.launch_invariant boost o rfl _ _ _ _ _
  reasoned := RestRun.launch_reasoned boost _ _ _ _ _ _ _
  running := rfl
  started := fun _ => .inl rfl
  blocked := nofun
  stopped := nofun

theorem Threads.not_stopped (hthreads : s.Threads boost o host port)
    (hthread : s.thread ≠ .finished) : s.main ≠ .stopped :=
  fun hmain => hthread (hthreads.stopped hmain)

theorem Threads.not_unstarted (hthreads : s.Threads boost o host port)
    (hawaits : s.main.awaits = false) (hmain : s.main ≠ .subscribing) :
    s.thread ≠ .unstarted := by
  intro hthread
  rcases hthreads.started hthread with hearly | hearly
  · rw [hawaits] at hearly
    contradiction
  · exact hmain hearly

/-- The first thread goes on, and the other one stays where it is. -/
theorem Threads.of_main (hthreads : s.Threads boost o host port)
    {main : MainThread} {set : StringSet}
    (hsame : main.destroying = s.main.destroying)
    (hstarted : s.thread = .unstarted →
      main.awaits = true ∨ main = .subscribing)
    (hstopped : main = .stopped → s.thread = .finished) :
    Threads boost o host port
      { s with main := main, symbolsToScan := set } where
  request := hthreads.request
  reasoned := hthreads.reasoned
  running := by rw [hthreads.running, hsame]
  started := hstarted
  blocked := fun hwaits => hsame.trans (hthreads.blocked hwaits)
  stopped := hstopped

/-- The other thread goes on to a place where it is not blocked, or is blocked
after the destructor has begun. -/
theorem Threads.of_thread (hthreads : s.Threads boost o host port)
    {thread : RunThread} (hbefore : s.thread ≠ .finished)
    (hafter : thread ≠ .unstarted)
    (hblocked : thread = .blocking ∨ thread = .waiting →
      s.main.destroying = true) :
    Threads boost o host port { s with thread := thread } where
  request := hthreads.request
  reasoned := hthreads.reasoned
  running := hthreads.running
  started := fun hthread => absurd hthread hafter
  blocked := hblocked
  stopped := fun hmain => absurd hmain (hthreads.not_stopped hbefore)

theorem Threads.step (hthreads : s.Threads boost o host port)
    (hstep : s.step boost o event = some next) :
    next.Threads boost o host port := by
  cases moves hthreads.request hstep with
  | waits main =>
      exact hthreads.of_main (by rw [main]; rfl) (fun _ => .inl rfl) nofun
  | returns main notified =>
      exact hthreads.of_main (by rw [main]; rfl) (fun _ => .inr rfl) nofun
  | mainWakes main =>
      exact hthreads.of_main (by rw [main]; rfl) (fun _ => .inr rfl) nofun
  | joins main thread =>
      refine hthreads.of_main (by rw [main]; rfl) ?_ (fun _ => thread)
      exact fun hthread => absurd hthread (by simp [thread])
  | spawns main =>
      refine ⟨hthreads.request, hthreads.reasoned, ?_, nofun, by simp, nofun⟩
      rw [hthreads.running, main]
      rfl
  | destroys main =>
      have hstarted := hthreads.not_unstarted (by rw [main]; rfl) (by simp [main])
      refine ⟨hthreads.request, hthreads.reasoned, rfl, ?_, fun _ => rfl, nofun⟩
      exact fun hthread => absurd hthread hstarted
  | notifies main =>
      have hstarted := hthreads.not_unstarted (by rw [main]; rfl) (by simp [main])
      refine ⟨hthreads.request, hthreads.reasoned, ?_, ?_, fun _ => rfl, nofun⟩
      · rw [hthreads.running, main]
        rfl
      · intro hthread
        cases hcase : s.thread <;> simp [hcase, RunThread.notifyAll] at hthread hstarted
  | enters thread main =>
      exact hthreads.of_thread (by simp [thread]) (by simp) (by simp)
  | checks thread =>
      have hrunning := hthreads.running
      refine hthreads.of_thread (by simp [thread]) ?_ ?_
      · split <;> simp
      · intro hwaits
        split at hwaits
        · simp at hwaits
        · rename_i hfalse
          rw [Bool.not_eq_true] at hfalse
          rw [hfalse] at hrunning
          simpa using hrunning.symm
  | blocks thread =>
      exact hthreads.of_thread (by simp [thread]) (by simp)
        (fun _ => hthreads.blocked (.inl thread))
  | leaves thread =>
      exact hthreads.of_thread (by simp [thread]) (by simp) (by simp)
  | threadWakes thread =>
      exact hthreads.of_thread (by simp [thread]) (by simp) (by simp)
  | requests stepped calls =>
      exact ⟨hthreads.request.step stepped, hthreads.reasoned.step stepped,
        hthreads.running, hthreads.started, hthreads.blocked, hthreads.stopped⟩
  | collects stepped before calls reports awaits collected =>
      exact ⟨hthreads.request.step stepped, hthreads.reasoned.step stepped,
        hthreads.running, hthreads.started, hthreads.blocked, hthreads.stopped⟩

theorem launch_starting :
    (launch boost hmac beast scanner o).Starting boost o where
  syms := by
    refine .inl ⟨?_, rfl⟩
    exact RestRun.launch_calls boost _ _ _ _ _ _ _
  notified := nofun
  requested := fun _ => rfl
  scanned := nofun

theorem Starting.step (hstarting : s.Starting boost o)
    (hrequest : s.request.Invariant boost o 0 host port)
    (hevent : event ≠ .mainWakes)
    (hstep : s.step boost o event = some next) : next.Starting boost o := by
  obtain ⟨hsyms, hnotified, hrequested, hscanned⟩ := hstarting
  cases moves hrequest hstep with
  | waits main => exact ⟨hsyms, hnotified, nofun, nofun⟩
  | returns main notified =>
      refine ⟨hsyms, hnotified, nofun, fun _ => ?_⟩
      exact hsyms.resolve_left fun hempty => hnotified notified hempty.1
  | spawns main =>
      exact ⟨hsyms, hnotified, nofun, fun _ => hscanned (by rw [main]; rfl)⟩
  | destroys main =>
      exact ⟨hsyms, hnotified, nofun, fun _ => hscanned (by rw [main]; rfl)⟩
  | notifies main =>
      exact ⟨hsyms, hnotified, nofun, fun _ => hscanned (by rw [main]; rfl)⟩
  | joins main thread =>
      exact ⟨hsyms, hnotified, nofun, fun _ => hscanned (by rw [main]; rfl)⟩
  | enters thread main => exact ⟨hsyms, hnotified, hrequested, hscanned⟩
  | checks thread => exact ⟨hsyms, hnotified, hrequested, hscanned⟩
  | blocks thread => exact ⟨hsyms, hnotified, hrequested, hscanned⟩
  | leaves thread => exact ⟨hsyms, hnotified, hrequested, hscanned⟩
  | threadWakes thread => exact ⟨hsyms, hnotified, hrequested, hscanned⟩
  | mainWakes main => exact absurd rfl hevent
  | requests stepped calls =>
      obtain ⟨hafter, hbefore⟩ := calls
      have hnone : ∀ set, ¬ Collected boost o s set := by
        rintro set ⟨thread, r, symbols, hcalls, _⟩
        rw [hbefore] at hcalls
        contradiction
      have hempty := hsyms.resolve_right (hnone s.syms)
      refine ⟨.inl ⟨hafter, hempty.2⟩, ?_, hrequested, ?_⟩
      · exact fun htrue => absurd hbefore (hnotified htrue)
      · exact fun hawaits => absurd (hscanned hawaits) (hnone _)
  | @collects event after thread r symbols stepped before calls reports awaits
      collected =>
      have hnone : ¬ Collected boost o s s.syms := by
        rintro ⟨thread, r, symbols, hcalls, _⟩
        rw [before] at hcalls
        contradiction
      have hempty := (hsyms.resolve_right hnone).2
      have hfalse : s.notified = false := by
        cases hcase : s.notified with
        | true => exact absurd before (hnotified hcase)
        | false => rfl
      refine ⟨.inr ⟨thread, r, symbols, calls, reports, collected, ?_⟩, ?_,
        ?_, ?_⟩
      · rw [hempty]
        rfl
      · intro _
        rw [calls]
        simp
      · intro hmain
        have hstill : s.main = .requested := hmain
        simp [hfalse, hstill]
      · intro hawaits
        rw [awaits] at hawaits
        contradiction

end Invariants

/-! ## The first wait -/

/-- The callback throws on nothing the exchange hands to it. -/
def Legible (boost : Boost) (o : StageOutcomes) : Prop :=
  ∀ value, o.Delivers boost value →
    (collectSymbols boost (.ofJson value)).isSome = true

theorem collectSymbols_congr (boost : Boost) {r r' : RestResponse}
    (hjson : r.json = r'.json) :
    collectSymbols boost r = collectSymbols boost r' := by
  unfold collectSymbols
  rw [RestResponse.hasErrorCode_eq, RestResponse.hasErrorCode_eq, hjson]

/-- A failure has no symbols, and whatever else is reported is what the
exchange delivers. -/
theorem legible_iff_collects {boost : Boost} {o : StageOutcomes}
    {r : RestResponse} (hreports : o.Reports boost r)
    (hfails : r.FailsWithoutJson) :
    Legible boost o ↔ (collectSymbols boost r).isSome = true := by
  have hjson : collectSymbols boost r =
      collectSymbols boost (.ofJson r.json) := collectSymbols_congr boost rfl
  constructor
  · intro hlegible
    cases hstate : r.state with
    | fail =>
        rw [hjson, hfails hstate]
        rfl
    | success =>
        rw [hjson]
        exact hlegible _ ((hreports.success_iff _).mp ⟨hstate, rfl⟩)
  · intro hsome value hdelivers
    obtain ⟨_, rfl⟩ := (hreports.success_iff value).mpr hdelivers
    rw [← hjson]
    exact hsome

/-- The wait has been missed, or nobody can end it. -/
structure Missed (boost : Boost) (o : StageOutcomes) (s : MarketScanner) :
    Prop where
  awaits : s.main.awaits = true
  notified : s.notified = false
  calls : s.request.calls = [] → ¬ Legible boost o

/-- The scanner waits for its request, and is notified when it is answered. -/
structure Waiting (boost : Boost) (o : StageOutcomes) (host port : Str)
    (r : RestRun) (s : MarketScanner) : Prop where
  request : s.request = r
  threads : s.Threads boost o host port
  main : s.main = .waiting
  notified : r.calls ≠ [] → s.notified = true

section Waits

variable {boost : Boost} {o : StageOutcomes} {host port : Str}
  {s t next : MarketScanner} {event : ScannerEvent}

theorem meets_undisturbed {events : List ScannerEvent}
    (hevents : .mainWakes ∉ events) :
    Meets (step boost o) (fun _ event => event ≠ .mainWakes) s events := by
  rintro before event after m rfl _ rfl
  exact hevents (by simp)

theorem Missed.step (hmissed : s.Missed boost o)
    (hthreads : s.Threads boost o host port) (hevent : event ≠ .mainWakes)
    (hstep : s.step boost o event = some next) : next.Missed boost o := by
  have hnever : ∀ main : MainThread, main.awaits = false → s.main ≠ main := by
    intro main hmain heq
    rw [← heq, hmissed.awaits] at hmain
    contradiction
  cases moves hthreads.request hstep with
  | waits main => exact ⟨rfl, hmissed.notified, hmissed.calls⟩
  | returns main notified =>
      rw [hmissed.notified] at notified
      contradiction
  | spawns main => exact absurd main (hnever _ rfl)
  | destroys main => exact absurd main (hnever _ rfl)
  | notifies main => exact absurd main (hnever _ rfl)
  | joins main thread => exact absurd main (hnever _ rfl)
  | enters thread main => exact ⟨hmissed.awaits, hmissed.notified, hmissed.calls⟩
  | checks thread => exact ⟨hmissed.awaits, hmissed.notified, hmissed.calls⟩
  | blocks thread => exact ⟨hmissed.awaits, hmissed.notified, hmissed.calls⟩
  | leaves thread => exact ⟨hmissed.awaits, hmissed.notified, hmissed.calls⟩
  | threadWakes thread =>
      exact ⟨hmissed.awaits, hmissed.notified, hmissed.calls⟩
  | mainWakes main => exact absurd rfl hevent
  | requests stepped calls =>
      exact ⟨hmissed.awaits, hmissed.notified, fun _ => hmissed.calls calls.2⟩
  | @collects event after thread r symbols stepped before calls reports awaits
      collected =>
      have hfails := (hthreads.reasoned.step stepped).calls (thread, some 0, r)
        (by rw [calls]; exact List.mem_cons_self)
      have hlegible := (legible_iff_collects reports hfails).mpr
        (by rw [collected]; rfl)
      exact absurd hlegible (hmissed.calls before)

/-- The waiting scanner can make every step of its request, up to the one that
notifies it. -/
theorem Waiting.simulates (hlegible : Legible boost o) {r after : RestRun}
    {event : RestEvent} (hs : Waiting boost o host port r s)
    (hstep : r.step boost o event = some after) :
    ∃ next, s.step boost o (.request event) = some next ∧
      Waiting boost o host port after next := by
  obtain ⟨rfl, hthreads, hmain, hnotified⟩ := hs
  have hreasoned := hthreads.reasoned.step hstep
  obtain ⟨hbefore, hcalls⟩ := request_calls hthreads.request hstep
  have hnext : ∃ next, s.step boost o (.request event) = some next ∧
      next.request = after ∧ next.main = .waiting ∧
        (after.calls ≠ [] → next.notified = true) := by
    simp only [MarketScanner.step, hstep, hbefore, List.length_nil,
      List.drop_zero]
    rcases hcalls with hcalls | ⟨thread, r, hcalls, hreports⟩
    · rw [hcalls]
      exact ⟨_, rfl, rfl, hmain, fun hne => absurd rfl hne⟩
    · have hfails := hreasoned.calls (thread, some 0, r)
        (by rw [hcalls]; exact List.mem_cons_self)
      obtain ⟨symbols, hsymbols⟩ := Option.isSome_iff_exists.mp
        ((legible_iff_collects hreports hfails).mp hlegible)
      rw [hcalls]
      simp only [List.foldlM_cons, List.foldlM_nil, onSymbols, hmain,
        MainThread.awaits, if_true, hsymbols, Option.map_some]
      exact ⟨_, rfl, rfl, rfl, fun _ => by simp⟩
  obtain ⟨next, hnext, hrequest, hwaits, hsome⟩ := hnext
  exact ⟨next, hnext, hrequest, hthreads.step hnext, hwaits, hsome⟩

theorem exists_wait_ends (hlegible : Legible boost o)
    (hthreads : s.Threads boost o host port) (hmain : s.main = .waiting)
    (hcalls : s.request.calls = []) :
    ∃ more u, .mainWakes ∉ more ∧ run (step boost o) s more = some u ∧
      u.main = .waiting ∧ u.notified = true := by
  obtain ⟨events, r, hrun, hquiet⟩ := hthreads.request.exists_run_to_quiet
  have hlabels : List.Forall₂ (fun event event' => event' = .request event)
      events (events.map ScannerEvent.request) := by
    rw [List.forall₂_map_right_iff]
    exact List.forall₂_same.mpr fun _ _ => rfl
  have hsimulates : ∀ r s event event' after,
      Waiting boost o host port r s → event' = .request event →
      RestRun.step boost o r event = some after →
      ∃ next, s.step boost o event' = some next ∧
        Waiting boost o host port after next := by
    rintro r s event _ after hs rfl hstep
    exact hs.simulates hlegible hstep
  obtain ⟨u, hmore, hrequest, hafter, hwaits, hnotified⟩ :=
    run_simulated hsimulates
      ⟨rfl, hthreads, hmain, fun hne => absurd hcalls hne⟩ hlabels hrun
  refine ⟨_, u, ?_, hmore, hwaits, hnotified ?_⟩
  · simp
  · obtain ⟨thread, response, hcalled, _⟩ :=
      (hrequest ▸ hafter.request).calls_of_quiet hquiet
    rw [hcalled]
    simp

theorem exists_start_returns (hmain : s.main = .waiting)
    (hnotified : s.notified = true) :
    ∃ u, run (step boost o) s [.main, .main] = some u ∧ u.main = .idle := by
  simp [run_cons, step, stepMain, hmain, hnotified]

/-- `start` returns when the notification has come to a waiting thread, or is
still to come and the callback can read what it gets. -/
theorem start_returns_iff (hthreads : s.Threads boost o host port)
    (hawaits : s.main.awaits = true) :
    (∃ more u, .mainWakes ∉ more ∧ run (step boost o) s more = some u ∧
        u.main = .idle) ↔
      s.notified = true ∨ (s.request.calls = [] ∧ Legible boost o) := by
  constructor
  · rintro ⟨more, u, hmore, hrun, hidle⟩
    by_contra hnot
    rw [not_or, not_and, Bool.not_eq_true] at hnot
    have hmissed := invariant_of_run
      (I := fun s : MarketScanner =>
        s.Threads boost o host port ∧ s.Missed boost o)
      (fun s event next hs hevent hstep =>
        ⟨hs.1.step hstep, hs.2.step hs.1 hevent hstep⟩)
      ⟨hthreads, hawaits, hnot.1, hnot.2⟩ (meets_undisturbed hmore) hrun
    have hwaits := hmissed.2.awaits
    rw [hidle] at hwaits
    contradiction
  · have hwaiting : ∀ s : MarketScanner, s.Threads boost o host port →
        s.main = .waiting →
        s.notified = true ∨ (s.request.calls = [] ∧ Legible boost o) →
        ∃ more u, .mainWakes ∉ more ∧ run (step boost o) s more = some u ∧
          u.main = .idle := by
      rintro s hthreads hmain (hnotified | ⟨hcalls, hlegible⟩)
      · obtain ⟨u, hrun, hidle⟩ := exists_start_returns hmain hnotified
        exact ⟨_, u, by simp, hrun, hidle⟩
      · obtain ⟨more, m, hmore, hrun, hwaits, hnotified⟩ :=
          exists_wait_ends hlegible hthreads hmain hcalls
        obtain ⟨u, hrest, hidle⟩ := exists_start_returns hwaits hnotified
        refine ⟨more ++ [.main, .main], u, by simp [hmore], ?_, hidle⟩
        exact run_append_eq_some.mpr ⟨m, hrun, hrest⟩
    intro hends
    cases hmain : s.main with
    | waiting => exact hwaiting s hthreads hmain hends
    | requested =>
        have hstep : s.step boost o .main =
            some { s with main := .waiting } := by
          simp [step, stepMain, hmain]
        obtain ⟨more, u, hmore, hrun, hidle⟩ :=
          hwaiting _ (hthreads.step hstep) rfl hends
        refine ⟨.main :: more, u, by simp [hmore], ?_, hidle⟩
        rw [run_cons, hstep]
        exact hrun
    | _ => rw [hmain] at hawaits; contradiction

/-! ## The second wait -/

/-- The destructor has stored false, and whether the thread had looked at
`running()` before is decided. -/
structure Decided (saw : Bool) (s : MarketScanner) : Prop where
  main : s.main.destroying = true
  thread : s.thread.sawRunning = saw

theorem Decided.step {saw : Bool} (hdecided : s.Decided saw)
    (hthreads : s.Threads boost o host port)
    (hstep : s.step boost o event = some next) : next.Decided saw := by
  obtain ⟨hmain, hthread⟩ := hdecided
  have hnever : ∀ main : MainThread, main.destroying = false →
      s.main ≠ main := by
    rintro main hfalse rfl
    rw [hmain] at hfalse
    contradiction
  cases moves hthreads.request hstep with
  | waits main => exact absurd main (hnever _ rfl)
  | returns main notified => exact absurd main (hnever _ rfl)
  | spawns main => exact absurd main (hnever _ rfl)
  | destroys main => exact absurd main (hnever _ rfl)
  | mainWakes main => exact absurd main (hnever _ rfl)
  | notifies main =>
      refine ⟨rfl, ?_⟩
      rw [← hthread]
      cases s.thread <;> rfl
  | joins main thread => exact ⟨rfl, hthread⟩
  | enters thread main =>
      rw [hmain] at main
      contradiction
  | checks thread =>
      have hfalse : s.running = false := by
        rw [hthreads.running, hmain]
        rfl
      rw [thread] at hthread
      refine ⟨hmain, ?_⟩
      rw [← hthread, hfalse]
      rfl
  | blocks thread =>
      rw [thread] at hthread
      exact ⟨hmain, hthread⟩
  | leaves thread =>
      rw [thread] at hthread
      exact ⟨hmain, hthread⟩
  | threadWakes thread =>
      rw [thread] at hthread
      exact ⟨hmain, hthread⟩
  | requests stepped calls => exact ⟨hmain, hthread⟩
  | collects stepped before calls reports awaits collected =>
      exact ⟨hmain, hthread⟩

theorem Decided.run {saw : Bool} (hdecided : s.Decided saw)
    (hthreads : s.Threads boost o host port) {events : List ScannerEvent}
    (hrun : LabelledRuns.run (MarketScanner.step boost o) s events = some t) :
    t.Threads boost o host port ∧ t.Decided saw :=
  invariant_of_run
    (I := fun s : MarketScanner =>
      s.Threads boost o host port ∧ s.Decided saw)
    (fun _ _ _ hs _ hstep => ⟨hs.1.step hstep, hs.2.step hs.1 hstep⟩)
    ⟨hthreads, hdecided⟩ (meets_true _ _ _) hrun

theorem destroying_of_stop (hmain : s.main = .stopping ∨ s.main = .joining) :
    s.main.destroying = true := by
  rcases hmain with hmain | hmain <;> rw [hmain] <;> rfl

/-- The destructor returns when the thread had looked before it began. -/
theorem stop_returns_iff (hthreads : s.Threads boost o host port)
    (hmain : s.main = .stopping ∨ s.main = .joining) :
    (∃ more u, run (step boost o) s more = some u ∧ u.main = .stopped) ↔
      s.thread.sawRunning = true := by
  constructor
  · rintro ⟨more, u, hrun, hstopped⟩
    have hdecided : s.Decided s.thread.sawRunning :=
      ⟨destroying_of_stop hmain, rfl⟩
    obtain ⟨hlast, _, hsaw⟩ := hdecided.run hthreads hrun
    rw [← hsaw, hlast.stopped hstopped]
    rfl
  · intro hsaw
    have hfinishes : ∀ s : MarketScanner, s.thread = .finished →
        (s.main = .stopping ∨ s.main = .joining) →
        ∃ more u, run (step boost o) s more = some u ∧ u.main = .stopped := by
      rintro s hthread (hmain | hmain)
      · refine ⟨[.main, .main], ?_⟩
        simp [run_cons, step, stepMain, hmain, hthread, RunThread.notifyAll]
      · refine ⟨[.main], ?_⟩
        simp [run_cons, step, stepMain, hmain, hthread]
    cases hthread : s.thread with
    | finished => exact hfinishes s hthread hmain
    | leaving =>
        have hstep : s.step boost o .thread =
            some { s with thread := .finished } := by
          simp [step, stepThread, hthread]
        obtain ⟨more, u, hrun, hstopped⟩ :=
          hfinishes { s with thread := .finished } rfl hmain
        refine ⟨.thread :: more, u, ?_, hstopped⟩
        rw [run_cons, hstep]
        exact hrun
    | _ => rw [hthread] at hsaw; contradiction

end Waits

/-- In every run of a scanner in which no wait of the first thread ends by
itself, `start` has returned with the symbols of the response and nothing
else; and as long as it has not, it can return exactly when the callback has
notified it while it was waiting, or has not run and can read what the exchange
delivers.  The destructor, in every run, can return exactly when the thread had
found `running()` true before false was stored, which nothing that follows can
change. -/
theorem waits_end_iff {boost : Boost} {hmac : Hmac} {beast : BinanceBeast}
    {scanner : Scanner} {o : StageOutcomes} {events : List ScannerEvent}
    {t : MarketScanner}
    (hrun : run (step boost o) (launch boost hmac beast scanner o) events =
      some t) :
    (.mainWakes ∉ events →
      (t.main.awaits = false → Collected boost o t t.symbolsToScan) ∧
      (t.main.awaits = true →
        ((∃ more u, .mainWakes ∉ more ∧ run (step boost o) t more = some u ∧
            u.main = .idle) ↔
          t.notified = true ∨ (t.request.calls = [] ∧ Legible boost o)))) ∧
      (t.main = .stopping ∨ t.main = .joining →
        ((∃ more u, run (step boost o) t more = some u ∧
            u.main = .stopped) ↔ t.thread.sawRunning = true) ∧
        ∀ more u, run (step boost o) t more = some u →
          u.thread.sawRunning = t.thread.sawRunning) := by
  have hthreads := invariant_of_run
    (fun _ _ _ hs _ hstep => Threads.step hs hstep)
    (launch_threads : (launch boost hmac beast scanner o).Threads boost o _ _)
    (meets_true _ _ _) hrun
  refine ⟨?_, ?_⟩
  · intro hevents
    have hstarting := invariant_of_run
      (I := fun s : MarketScanner => s.Threads boost o beast.config.restApiUri
        beast.config.restPort ∧ s.Starting boost o)
      (fun s event next hs hevent hstep =>
        ⟨hs.1.step hstep, hs.2.step hs.1.request hevent hstep⟩)
      ⟨launch_threads, launch_starting⟩ (meets_undisturbed hevents) hrun
    exact ⟨hstarting.2.scanned, start_returns_iff hthreads⟩
  · intro hmain
    refine ⟨stop_returns_iff hthreads hmain, ?_⟩
    intro more u hmore
    have hdecided : t.Decided t.thread.sawRunning :=
      ⟨destroying_of_stop hmain, rfl⟩
    exact (hdecided.run hthreads hmore).2.thread

/-- The SNI name cannot be set, and the pool is told at once. -/
def unnamedOutcomes : StageOutcomes :=
  { sampleOutcomes with sni := some ⟨ascii "ssl", 1⟩ }

def sampleScanner : MarketScanner :=
  launch sampleBoost sampleEnvironment.hmac sampleBeast .usdm unnamedOutcomes

/-- The callback comes before the wait; the thread looks after the end has
begun; and the thread looks before it and ends after it. -/
theorem hasty_threads_wait_forever :
    (∃ t, run (step sampleBoost unnamedOutcomes) sampleScanner
        [.request (.runJob 0)] = some t ∧
      ¬ ∃ more u, .mainWakes ∉ more ∧
        run (step sampleBoost unnamedOutcomes) t more = some u ∧
          u.main = .idle) ∧
      (∃ t, run (step sampleBoost unnamedOutcomes) sampleScanner
          [.main, .request (.runJob 0), .main, .main, .main] = some t ∧
        ¬ ∃ more u, run (step sampleBoost unnamedOutcomes) t more = some u ∧
          u.main = .stopped) ∧
      ∃ t, run (step sampleBoost unnamedOutcomes) sampleScanner
          [.main, .request (.runJob 0), .main, .main, .thread, .thread,
            .main] = some t ∧ t.thread = .leaving ∧
        ∃ more u, run (step sampleBoost unnamedOutcomes) t more = some u ∧
          u.main = .stopped := by
  have hmissed : ∃ t, run (step sampleBoost unnamedOutcomes) sampleScanner
      [.request (.runJob 0)] = some t ∧ t.main.awaits = true ∧
        t.notified = false ∧ t.request.calls ≠ [] :=
    ⟨_, rfl, rfl, rfl, List.cons_ne_nil _ _⟩
  have hlate : ∃ t, run (step sampleBoost unnamedOutcomes) sampleScanner
      [.main, .request (.runJob 0), .main, .main, .main] = some t ∧
        t.main = .stopping ∧ t.thread = .spawned := ⟨_, rfl, rfl, rfl⟩
  have hearly : ∃ t, run (step sampleBoost unnamedOutcomes) sampleScanner
      [.main, .request (.runJob 0), .main, .main, .thread, .thread,
        .main] = some t ∧ t.main = .stopping ∧ t.thread = .leaving :=
    ⟨_, rfl, rfl, rfl⟩
  refine ⟨?_, ?_, ?_⟩
  · obtain ⟨t, hrun, hawaits, hnotified, hcalls⟩ := hmissed
    refine ⟨t, hrun, ?_⟩
    rw [((waits_end_iff hrun).1 (by simp)).2 hawaits, hnotified]
    simp [hcalls]
  · obtain ⟨t, hrun, hmain, hthread⟩ := hlate
    refine ⟨t, hrun, ?_⟩
    rw [((waits_end_iff hrun).2 (.inl hmain)).1, hthread]
    simp [RunThread.sawRunning]
  · obtain ⟨t, hrun, hmain, hthread⟩ := hearly
    refine ⟨t, hrun, hthread, ?_⟩
    rw [((waits_end_iff hrun).2 (.inl hmain)).1, hthread]
    rfl

end MarketScanner

end Bblib
