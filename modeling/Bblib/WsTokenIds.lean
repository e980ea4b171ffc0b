import Bblib.WsLifecycle
import Mathlib.Tactic

/-!
# Ids of returned tokens

`createWsSession` takes the next value of a 32-bit counter without looking at
the registry and without leaving out 0, which `isValidId` takes for no id.
Every id is fresh up to the last value of the counter; the start after it
returns a token that is not valid.
-/

namespace Bblib

open LabelledRuns

/-- The tokens a start returns are valid and none of the registered ids. -/
def WsLife.FreshToken (life : WsLife) (event : LifeEvent) (_ : WsLife) :
    Prop :=
  ∀ handler call token, event = .start handler call →
    ((call.run handler).outcome life.api).1 = .ok token →
    token.isValidId = true ∧ life.wsSessions token.id = none

/-! ## The counter -/

/-- After a number of starts: where the counter stands, and that the
registered ids are among those it has passed. -/
structure WsLife.CountInvariant (starts : ℕ) (life : WsLife) : Prop where
  nextId : life.api.beast.nextWsId = UInt32.ofNat (starts + 1)
  keys : starts < 2 ^ 32 → ∀ id, life.wsSessions id ≠ none →
    id.toNat ≤ starts

theorem toNat_ofNat_of_lt {n : ℕ} (hn : n < 2 ^ 32) :
    (UInt32.ofNat n).toNat = n := by
  rw [UInt32.toNat_ofNat']
  exact Nat.mod_eq_of_lt hn

namespace WsLife

theorem fresh_countInvariant (config : ConnectionConfig)
    (nRestIoContexts nWebsockIoContexts : ℕ) :
    (fresh config nRestIoContexts nWebsockIoContexts).CountInvariant 0 where
  nextId := rfl
  keys := by
    intro _ id hkey
    exact absurd rfl hkey

theorem CountInvariant.step {starts : ℕ} {life next : WsLife}
    {event : LifeEvent} (hinv : life.CountInvariant starts)
    (hstep : life.step event = some next) :
    next.CountInvariant (starts + if event.starts then 1 else 0) := by
  cases moves hstep with
  | @starts f call started ioContext _ _ =>
      show CountInvariant (starts + 1) _
      constructor
      · show life.api.beast.nextWsId + 1 = _
        rw [hinv.nextId, ← UInt32.ofNat_one, ← UInt32.ofNat_add]
      · intro hlt id hkey
        by_cases hid : id = life.api.beast.nextWsId
        · rw [hid, hinv.nextId, toNat_ofNat_of_lt hlt]
        · have hkept := life.wsSessions.assign_of_ne hid
            life.api.sessions.length
          have hold : life.wsSessions id ≠ none := by
            rw [← hkept]
            exact hkey
          have hbelow := hinv.keys (by omega) id hold
          omega
  | throws _ => exact hinv
  | misses _ => exact hinv
  | stops _ => exact ⟨hinv.nextId, hinv.keys⟩
  | @closes index close cb _ _ =>
      have hbeast := invoke_beast cb (.ofState .disconnect)
        (life.withSessions (life.wsSessions.erase close.token.id))
      constructor
      · show BinanceBeast.nextWsId _ = _
        rw [hbeast]
        exact hinv.nextId
      · intro hlt id hkey
        have hold : life.wsSessions id ≠ none := by
          intro hnone
          apply hkey
          show BinanceBeast.wsSessions _ id = none
          rw [hbeast]
          by_cases hid : id = close.token.id
          · rw [hid]
            exact life.wsSessions.erase_self _
          · exact (life.wsSessions.erase_of_ne hid).trans hnone
        exact hinv.keys hlt id hold

theorem CountInvariant.run {starts : ℕ} {life t : WsLife}
    {events : List LifeEvent} (hinv : life.CountInvariant starts)
    (hrun : LabelledRuns.run WsLife.step life events = some t) :
    t.CountInvariant (starts + events.countP LifeEvent.starts) := by
  induction events generalizing starts life with
  | nil =>
      obtain rfl : life = t := by simpa using hrun
      exact hinv
  | cons event events ih =>
      obtain ⟨next, hnext, hrest⟩ := run_cons_eq_some.mp hrun
      have hcount := ih (hinv.step hnext) hrest
      rw [List.countP_cons]
      have hsum : starts + (events.countP LifeEvent.starts +
          if event.starts then 1 else 0) =
          starts + (if event.starts then 1 else 0) +
            events.countP LifeEvent.starts := by omega
      rw [hsum]
      exact hcount

/-! ## Fresh tokens -/

theorem CountInvariant.fresh {starts : ℕ} {life next : WsLife}
    {event : LifeEvent} (hinv : life.CountInvariant starts)
    (hroom : starts + (if event.starts then 1 else 0) < 2 ^ 32)
    (hstep : life.step event = some next) : life.FreshToken event next := by
  rintro handler call token rfl hreturns
  cases moves hstep with
  | starts _ howner =>
      rw [howner] at hreturns
      obtain rfl := Except.ok.inj hreturns
      have hlt : starts + 1 < 2 ^ 32 := hroom
      have hid : life.api.beast.nextWsId.toNat = starts + 1 := by
        rw [hinv.nextId, toNat_ofNat_of_lt hlt]
      constructor
      · have hne : life.api.beast.nextWsId ≠ 0 := by
          intro hzero
          rw [hzero] at hid
          simp at hid
        simpa [WsToken.isValidId] using hne
      · by_contra hkey
        have hbelow : life.api.beast.nextWsId.toNat ≤ starts :=
          hinv.keys (by omega) _ hkey
        omega
  | throws hthrows =>
      obtain ⟨e, hthrows⟩ := hthrows
      rw [hthrows] at hreturns
      contradiction

theorem CountInvariant.not_fresh {life next : WsLife} {event : LifeEvent}
    (hinv : life.CountInvariant (2 ^ 32 - 1)) (hevent : event.starts = true)
    (hstep : life.step event = some next) : ¬ life.FreshToken event next := by
  intro hfresh
  cases moves hstep with
  | starts _ hreturns =>
      obtain ⟨hvalid, _⟩ := hfresh _ _ _ rfl hreturns
      have hzero : life.api.beast.nextWsId = 0 := by
        rw [hinv.nextId]
        rfl
      rw [hzero] at hvalid
      contradiction
  | throws _ => simp [LifeEvent.starts] at hevent
  | misses _ => simp [LifeEvent.starts] at hevent
  | stops _ => simp [LifeEvent.starts] at hevent
  | closes _ _ => simp [LifeEvent.starts] at hevent

end WsLife

/-! ## Every run -/

theorem exists_split_of_lt_countP {α : Type*} {p : α → Bool} {list : List α}
    {n : ℕ} (hcount : n < list.countP p) :
    ∃ before a after, list = before ++ a :: after ∧ p a = true ∧
      before.countP p = n := by
  induction list generalizing n with
  | nil => simp at hcount
  | cons a list ih =>
      rw [List.countP_cons] at hcount
      cases hp : p a with
      | false =>
          have htail : n < list.countP p := by simpa [hp] using hcount
          obtain ⟨before, b, after, rfl, hb, hbefore⟩ := ih htail
          exact ⟨a :: before, b, after, rfl, hb, by simp [hp, hbefore]⟩
      | true =>
          cases n with
          | zero => exact ⟨[], a, list, rfl, hp, rfl⟩
          | succ n =>
              have htail : n < list.countP p := by
                rw [hp, if_pos rfl] at hcount
                omega
              obtain ⟨before, b, after, rfl, hb, hbefore⟩ := ih htail
              exact ⟨a :: before, b, after, rfl, hb, by simp [hp, hbefore]⟩

theorem everyStep_freshToken {config : ConnectionConfig}
    {nRestIoContexts nWebsockIoContexts : ℕ} {events : List LifeEvent}
    (hstarts : events.countP LifeEvent.starts < 2 ^ 32) :
    EveryStep WsLife.step WsLife.FreshToken
      (WsLife.fresh config nRestIoContexts nWebsockIoContexts) events := by
  intro before event after m next hsplit hrun hstep
  have hinv := (WsLife.fresh_countInvariant config nRestIoContexts
    nWebsockIoContexts).run hrun
  rw [hsplit, List.countP_append, List.countP_cons] at hstarts
  exact hinv.fresh (by omega) hstep

theorem not_everyStep_freshToken {config : ConnectionConfig}
    {nRestIoContexts nWebsockIoContexts : ℕ} {events : List LifeEvent}
    {t : WsLife}
    (hrun : run WsLife.step
      (WsLife.fresh config nRestIoContexts nWebsockIoContexts) events = some t)
    (hstarts : 2 ^ 32 ≤ events.countP LifeEvent.starts) :
    ¬ EveryStep WsLife.step WsLife.FreshToken
      (WsLife.fresh config nRestIoContexts nWebsockIoContexts) events := by
  intro hevery
  have hlast : 2 ^ 32 - 1 < events.countP LifeEvent.starts := by omega
  obtain ⟨before, event, after, hsplit, hevent, hcount⟩ :=
    exists_split_of_lt_countP hlast
  rw [hsplit] at hrun
  obtain ⟨m, hbefore, hrest⟩ := run_append_eq_some.mp hrun
  obtain ⟨next, hstep, _⟩ := run_cons_eq_some.mp hrest
  have hinv := (WsLife.fresh_countInvariant config nRestIoContexts
    nWebsockIoContexts).run hbefore
  rw [hcount, Nat.zero_add] at hinv
  exact hinv.not_fresh hevent hstep
    (hevery before event after m next hsplit hbefore hstep)

/-- Over every run of a fresh object: each token is valid and none of the
registered ids exactly as long as there are fewer starts than the counter has
values. -/
theorem tokens_are_fresh_iff {config : ConnectionConfig}
    {nRestIoContexts nWebsockIoContexts : ℕ} {events : List LifeEvent}
    {t : WsLife}
    (hrun : run WsLife.step
      (WsLife.fresh config nRestIoContexts nWebsockIoContexts) events =
        some t) :
    EveryStep WsLife.step WsLife.FreshToken
        (WsLife.fresh config nRestIoContexts nWebsockIoContexts) events ↔
      events.countP LifeEvent.starts < 2 ^ 32 := by
  constructor
  · intro hevery
    by_contra hmany
    exact not_everyStep_freshToken hrun (by omega) hevery
  · exact everyStep_freshToken

theorem two_tokens_are_fresh :
    EveryStep WsLife.step WsLife.FreshToken
        (WsLife.fresh sampleBeast.config 4 6)
        [.start (some 0) (.name (ascii "btcusdt@trade")), .stop ⟨1⟩ none,
          .start (some 1) (.name (ascii "ethusdt@trade"))] ↔
      List.countP LifeEvent.starts
        [.start (some 0) (.name (ascii "btcusdt@trade")), .stop ⟨1⟩ none,
          .start (some 1) (.name (ascii "ethusdt@trade"))] < 2 ^ 32 := by
  apply tokens_are_fresh_iff
  rfl

theorem exists_run_of_starts (handler : Callback) (call : StartCall) (n : ℕ)
    (life : WsLife) :
    ∃ t, run WsLife.step life (List.replicate n (.start handler call)) =
      some t := by
  induction n generalizing life with
  | zero => exact ⟨life, rfl⟩
  | succ n ih =>
      rw [List.replicate_succ, run_cons]
      exact ih _

/-- The counter wraps: the start after the last id returns a token that is not
valid. -/
theorem wrapped_token_is_invalid :
    ¬ ∀ (config : ConnectionConfig) (nRestIoContexts nWebsockIoContexts : ℕ)
      (events : List LifeEvent) (t : WsLife),
      run WsLife.step (WsLife.fresh config nRestIoContexts nWebsockIoContexts)
        events = some t →
      EveryStep WsLife.step WsLife.FreshToken
        (WsLife.fresh config nRestIoContexts nWebsockIoContexts) events := by
  intro hall
  let start : LifeEvent := .start (some 0) (.name (ascii "btcusdt@trade"))
  obtain ⟨t, hrun⟩ := exists_run_of_starts (some 0)
    (.name (ascii "btcusdt@trade")) (2 ^ 32)
    (WsLife.fresh sampleBeast.config 4 6)
  have hcount : (List.replicate (2 ^ 32) start).countP LifeEvent.starts =
      2 ^ 32 := by
    rw [List.countP_replicate]
    exact if_pos rfl
  have hfresh := hall sampleBeast.config 4 6 _ t hrun
  exact not_everyStep_freshToken hrun hcount.ge hfresh

end Bblib
