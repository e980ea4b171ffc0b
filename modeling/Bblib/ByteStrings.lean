import Mathlib.Data.List.Basic
import Mathlib.Tactic

/-!
# Byte strings

`std::string` and `std::string_view` are finite sequences of bytes.  Texts the
source writes as ASCII literals enter the model through `ascii`.
-/

namespace Bblib

abbrev Str := List UInt8

/-- An ASCII literal of the source, one byte for each character. -/
def ascii (literal : String) : Str :=
  literal.toList.map fun c => UInt8.ofNat c.toNat

/-- What `operator<<` and `std::to_string` write for an integer. -/
def decimal (n : ℤ) : Str := ascii (toString n)

def ampersand : UInt8 := 38

def questionMark : UInt8 := 63

def equalsSign : UInt8 := 61

def numberSign : UInt8 := 35

def slash : UInt8 := 47

@[simp] theorem ascii_ampersand : ascii "&" = [ampersand] := rfl

@[simp] theorem ascii_questionMark : ascii "?" = [questionMark] := rfl

@[simp] theorem ascii_equalsSign : ascii "=" = [equalsSign] := rfl

@[simp] theorem ascii_slash : ascii "/" = [slash] := rfl

@[simp] theorem ascii_eq_nil (literal : String) :
    ascii literal = [] ↔ literal = "" := by
  simp [ascii]

theorem forall_byte {p : UInt8 → Prop} (hall : ∀ n : Fin 256, p (UInt8.ofNat n))
    (byte : UInt8) : p byte := by
  have hbyte := hall ⟨byte.toNat, byte.toNat_lt⟩
  rw [UInt8.ofNat_toNat] at hbyte
  exact hbyte

theorem mem_ascii_repr {m : ℕ} {c : UInt8} (hc : c ∈ ascii (Nat.repr m)) :
    48 ≤ c.toNat ∧ c.toNat ≤ 57 := by
  unfold ascii at hc
  obtain ⟨d, hmem, rfl⟩ := List.mem_map.mp hc
  have hdigits : d ∈ Nat.toDigits 10 m := by simpa using hmem
  have hdigit := Nat.isDigit_of_mem_toDigits (by decide) (by decide) hdigits
  simp only [Char.isDigit, Bool.and_eq_true, decide_eq_true_eq] at hdigit
  have hlower := UInt32.le_iff_toNat_le.mp hdigit.1
  have hupper := UInt32.le_iff_toNat_le.mp hdigit.2
  have hvalue : d.toNat = d.val.toNat := rfl
  simp at hlower hupper ⊢
  omega

theorem mem_decimal {n : ℤ} {c : UInt8} (hc : c ∈ decimal n) :
    c = 45 ∨ 48 ≤ c.toNat ∧ c.toNat ≤ 57 := by
  cases n with
  | ofNat m => exact .inr (mem_ascii_repr hc)
  | negSucc m =>
      have htext : decimal (Int.negSucc m) =
          45 :: ascii (Nat.repr (m + 1)) := by
        have hrepr : toString (Int.negSucc m) = "-" ++ Nat.repr (m + 1) := rfl
        simp [decimal, ascii, hrepr]
      rw [htext] at hc
      rcases List.mem_cons.mp hc with hsign | hdigit
      · exact .inl hsign
      · exact .inr (mem_ascii_repr hdigit)

theorem ampersand_not_mem_decimal (n : ℤ) : ampersand ∉ decimal n := by
  intro hmem
  have hdigit := mem_decimal hmem
  revert hdigit
  decide

end Bblib
