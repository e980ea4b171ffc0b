import Mathlib.Data.List.Basic
import Mathlib.Tactic

/-!
# Hexadecimal text of byte lists

Bytes are written as two digits, high half first.  The decoder reads both
letter cases, so one decoder serves lower-case and upper-case writers; it is
a left inverse of the lower-case writer, which is therefore injective.
-/

namespace HexText

/-- The digit of a value below sixteen, the letters counted from `letterA`. -/
def digit (letterA : ℕ) (value : ℕ) : UInt8 :=
  UInt8.ofNat (if value < 10 then 48 + value else letterA + (value - 10))

def lowerDigit : ℕ → UInt8 := digit 97

def digitValue (c : UInt8) : Option ℕ :=
  if 48 ≤ c.toNat ∧ c.toNat ≤ 57 then some (c.toNat - 48)
  else if 97 ≤ c.toNat ∧ c.toNat ≤ 102 then some (c.toNat - 87)
  else if 65 ≤ c.toNat ∧ c.toNat ≤ 70 then some (c.toNat - 55)
  else none

def lowerByte (byte : UInt8) : List UInt8 :=
  [lowerDigit (byte.toNat / 16), lowerDigit (byte.toNat % 16)]

def lower (bytes : List UInt8) : List UInt8 :=
  bytes.flatMap lowerByte

def decode : List UInt8 → Option (List UInt8)
  | [] => some []
  | [_] => none
  | high :: low :: rest =>
      match digitValue high, digitValue low, decode rest with
      | some h, some l, some bytes => some (UInt8.ofNat (16 * h + l) :: bytes)
      | _, _, _ => none

theorem digitValue_lowerDigit {value : ℕ} (hvalue : value < 16) :
    digitValue (lowerDigit value) = some value := by
  interval_cases value <;> rfl

theorem lowerDigit_mem {value : ℕ} (hvalue : value < 16) :
    (48 ≤ (lowerDigit value).toNat ∧ (lowerDigit value).toNat ≤ 57) ∨
      (97 ≤ (lowerDigit value).toNat ∧ (lowerDigit value).toNat ≤ 102) := by
  interval_cases value <;> decide

theorem digitValue_lt {c : UInt8} {value : ℕ}
    (hvalue : digitValue c = some value) : value < 16 := by
  unfold digitValue at hvalue
  grind

theorem ofNat_halves (byte : UInt8) :
    UInt8.ofNat (16 * (byte.toNat / 16) + byte.toNat % 16) = byte := by
  rw [Nat.div_add_mod, UInt8.ofNat_toNat]

@[simp] theorem lower_nil : lower [] = [] := rfl

@[simp] theorem lower_cons (byte : UInt8) (bytes : List UInt8) :
    lower (byte :: bytes) =
      lowerDigit (byte.toNat / 16) :: lowerDigit (byte.toNat % 16) :: lower bytes :=
  rfl

theorem length_lower (bytes : List UInt8) :
    (lower bytes).length = 2 * bytes.length := by
  induction bytes with
  | nil => rfl
  | cons byte bytes ih =>
      simp only [lower_cons, List.length_cons, ih]
      omega

/-- Only the digits and the letters from `a` to `f` are written. -/
theorem mem_lower {c : UInt8} {bytes : List UInt8} (hc : c ∈ lower bytes) :
    (48 ≤ c.toNat ∧ c.toNat ≤ 57) ∨ (97 ≤ c.toNat ∧ c.toNat ≤ 102) := by
  induction bytes with
  | nil => simp at hc
  | cons byte bytes ih =>
      have hbyte : byte.toNat < 256 := byte.toNat_lt
      have hhigh := lowerDigit_mem (show byte.toNat / 16 < 16 by omega)
      have hlow := lowerDigit_mem (show byte.toNat % 16 < 16 by omega)
      rw [lower_cons, List.mem_cons, List.mem_cons] at hc
      rcases hc with rfl | rfl | htail
      · exact hhigh
      · exact hlow
      · exact ih htail

theorem decode_lower (bytes : List UInt8) : decode (lower bytes) = some bytes := by
  induction bytes with
  | nil => rfl
  | cons byte bytes ih =>
      have hbyte : byte.toNat < 256 := byte.toNat_lt
      have hhigh : byte.toNat / 16 < 16 := by omega
      have hlow : byte.toNat % 16 < 16 := by omega
      simp only [lower_cons, decode, digitValue_lowerDigit hhigh,
        digitValue_lowerDigit hlow, ih, ofNat_halves]

theorem lower_injective : Function.Injective lower := by
  intro left right heq
  have hdecoded : some left = some right := by
    rw [← decode_lower left, heq, decode_lower right]
  exact Option.some.inj hdecoded

end HexText
