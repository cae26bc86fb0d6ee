import AlternatorClient.Foundation.Bytes
import Mathlib.Algebra.Ring.Nat
import Mathlib.Data.Nat.Log

/-! Decimal numerals as bytes: what they consist of, the digit they begin with,
and the number a run of digits stands for. -/
namespace Foundation

def isDigit (c : UInt8) : Bool := 48 ≤ c && c ≤ 57

def digitsValue (value : Nat) (digits : Bytes) : Nat :=
  digits.foldl (fun value c => 10 * value + (c.toNat - 48)) value

/-- The first digit of the decimal numeral of a positive number. -/
def leadingDigit (n : Nat) : Nat := n / 10 ^ Nat.log 10 n

theorem digitByte_toNat {d : Nat} (small : d < 10) : (d.digitChar.toNat.toUInt8).toNat = 48 + d := by
  have all : ∀ d < 10, (d.digitChar.toNat.toUInt8).toNat = 48 + d := by decide
  exact all d small

theorem isDigit_digitByte {d : Nat} (small : d < 10) : isDigit d.digitChar.toNat.toUInt8 := by
  have all : ∀ d < 10, isDigit d.digitChar.toNat.toUInt8 := by decide
  exact all d small

theorem decimal_of_lt {n : Nat} (small : n < 10) : decimal n = [n.digitChar.toNat.toUInt8] := by
  rw [decimal, Nat.toDigits_of_lt_base small, List.map_singleton]

theorem decimal_of_le {n : Nat} (large : 10 ≤ n) :
    decimal n = decimal (n / 10) ++ [(n % 10).digitChar.toNat.toUInt8] := by
  rw [decimal, Nat.toDigits_of_base_le (by decide) large, List.map_append, List.map_singleton]
  rfl

/-- Induction over the numeral: one digit, or a shorter numeral and a last digit. -/
theorem decimal_induction {motive : Nat → Prop} (single : ∀ n < 10, motive n)
    (longer : ∀ n, 10 ≤ n → motive (n / 10) → motive n) (n : Nat) : motive n := by
  induction n using Nat.strong_induction_on with
  | _ n ih =>
    by_cases small : n < 10
    · exact single n small
    · exact longer n (by omega) (ih (n / 10) (by omega))

theorem isDigit_of_mem_decimal {n : Nat} {c : UInt8} (member : c ∈ decimal n) : isDigit c := by
  induction n using decimal_induction with
  | single n small =>
    rw [decimal_of_lt small, List.mem_singleton] at member
    exact member ▸ isDigit_digitByte small
  | longer n large ih =>
    rw [decimal_of_le large, List.mem_append, List.mem_singleton] at member
    rcases member with member | rfl
    · exact ih member
    · exact isDigit_digitByte (Nat.mod_lt n (by decide))

theorem digitsValue_decimal (n : Nat) : digitsValue 0 (decimal n) = n := by
  induction n using decimal_induction with
  | single n small =>
    simp only [decimal_of_lt small, digitsValue, List.foldl_cons, List.foldl_nil,
      digitByte_toNat small]
    omega
  | longer n large ih =>
    simp only [digitsValue] at ih
    simp only [decimal_of_le large, digitsValue, List.foldl_append, ih, List.foldl_cons,
      List.foldl_nil, digitByte_toNat (Nat.mod_lt n (by decide : 0 < 10))]
    omega

theorem leadingDigit_of_lt {n : Nat} (small : n < 10) : leadingDigit n = n := by
  rw [leadingDigit, Nat.log_of_lt small, Nat.pow_zero, Nat.div_one]

theorem leadingDigit_of_le {n : Nat} (large : 10 ≤ n) : leadingDigit n = leadingDigit (n / 10) := by
  have positive : 0 < Nat.log 10 n := Nat.log_pos (by decide) large
  rw [leadingDigit, leadingDigit, Nat.log_div_base, Nat.div_div_eq_div_mul, ← Nat.pow_succ',
    Nat.succ_eq_add_one, Nat.sub_add_cancel positive]

theorem decimal_head (n : Nat) :
    ∃ rest, decimal n = (leadingDigit n).digitChar.toNat.toUInt8 :: rest := by
  induction n using decimal_induction with
  | single n small => exact ⟨[], by rw [decimal_of_lt small, leadingDigit_of_lt small]⟩
  | longer n large ih =>
    obtain ⟨rest, front⟩ := ih
    rw [decimal_of_le large, leadingDigit_of_le large, front]
    exact ⟨_, List.cons_append⟩

theorem leadingDigit_lt (n : Nat) : leadingDigit n < 10 := by
  induction n using decimal_induction with
  | single n small => rwa [leadingDigit_of_lt small]
  | longer n large ih => rwa [leadingDigit_of_le large]

end Foundation
