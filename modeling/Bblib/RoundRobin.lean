import Mathlib.Data.Int.CardIntervalMod
import Mathlib.Tactic

/-!
# Serving in turn

Visitors come to servers that are numbered from zero: the first to the first
server, each to the next one, and after the last server the first again.  The
server of a visitor is then its number modulo the number of servers, and no
server gets two visitors more than another.
-/

namespace RoundRobin

/-- The servers of the first visitors, in their order. -/
def turns (servers visitors : ℕ) : List ℕ :=
  (List.range visitors).map fun visitor => visitor % servers

section Turns

variable {servers : ℕ}

theorem turns_succ (servers visitors : ℕ) :
    turns servers (visitors + 1) =
      turns servers visitors ++ [visitors % servers] := by
  simp [turns, List.range_succ]

theorem next_turn (hservers : 0 < servers) (visitor : ℕ) :
    (if visitor % servers + 1 < servers then visitor % servers + 1 else 0) =
      (visitor + 1) % servers := by
  have hlt := Nat.mod_lt visitor hservers
  have hmod := Nat.mod_add_mod visitor servers 1
  split
  · rename_i hnext
    rw [← hmod, Nat.mod_eq_of_lt hnext]
  · rename_i hlast
    have heq : visitor % servers + 1 = servers := by omega
    rw [← hmod, heq, Nat.mod_self]

theorem count_turns {server : ℕ} (hserver : server < servers)
    (visitors : ℕ) :
    (turns servers visitors).count server =
      visitors / servers + if server < visitors % servers then 1 else 0 := by
  have hcount : (turns servers visitors).count server =
      visitors.count (· ≡ server [MOD servers]) := by
    induction visitors with
    | zero => rfl
    | succ visitors ih =>
        rw [turns_succ, List.count_append, Nat.count_succ, ih,
          List.count_singleton]
        have hiff : (visitors % servers == server) = true ↔
            visitors ≡ server [MOD servers] := by
          rw [beq_iff_eq, Nat.ModEq, Nat.mod_eq_of_lt hserver]
        simp only [hiff]
  rw [hcount, Nat.count_modEq_card visitors (by omega),
    Nat.mod_eq_of_lt hserver]

/-- No server is ahead of another by two visitors. -/
theorem count_turns_le_succ {first second : ℕ} (hfirst : first < servers)
    (hsecond : second < servers) (visitors : ℕ) :
    (turns servers visitors).count first ≤
      (turns servers visitors).count second + 1 := by
  rw [count_turns hfirst, count_turns hsecond]
  split <;> split <;> omega

end Turns

end RoundRobin
