import Mathlib.Order.Lex
import Mathlib.Data.List.Lex
import Mathlib.Data.List.TakeWhile
import Mathlib.Order.Basic

/-! Byte strings with the order of `std::string`: lexicographic, every byte
compared as an unsigned char. -/
namespace Foundation

instance uint8LinearOrder : LinearOrder UInt8 where
  le_refl := UInt8.le_refl
  le_trans _ _ _ := UInt8.le_trans
  le_antisymm _ _ := UInt8.le_antisymm
  le_total := UInt8.le_total
  lt_iff_le_not_ge a b := by
    simp only [UInt8.lt_iff_toNat_lt, UInt8.le_iff_toNat_le]
    omega
  toDecidableLE := inferInstance

abbrev Bytes := List UInt8

def bytes (literal : String) : Bytes := literal.toUTF8.data.toList

def byte (literal : Char) : UInt8 := literal.toNat.toUInt8

/-- `std::string(text.c_str())`, which ends at the first zero byte. -/
def cStr (text : Bytes) : Bytes := text.takeWhile fun c => c ≠ 0

/-- An unsigned number as an output stream prints it. -/
def decimal (n : Nat) : Bytes := (Nat.toDigits 10 n).map fun digit => digit.toNat.toUInt8

/-- `std::isspace` in the C locale. -/
def isSpace (byte : UInt8) : Bool := byte = 32 || (9 ≤ byte && byte ≤ 13)

theorem forall_byte {P : UInt8 → Prop} (all : ∀ n < 256, P (UInt8.ofNat n)) (c : UInt8) : P c := by
  have byte := all c.toNat c.toNat_lt
  rwa [UInt8.ofNat_toNat] at byte

theorem cStr_eq_self_iff (text : Bytes) : cStr text = text ↔ 0 ∉ text := by
  rw [cStr, List.takeWhile_eq_self_iff]
  constructor
  · intro nonzero zero
    simpa using nonzero 0 zero
  · intro free c member
    rw [decide_eq_true_eq]
    rintro rfl
    exact free member

theorem not_mem_cStr (text : Bytes) : 0 ∉ cStr text := by
  intro zero
  simpa using List.mem_takeWhile_imp zero

@[simp] theorem cStr_cStr (text : Bytes) : cStr (cStr text) = cStr text :=
  (cStr_eq_self_iff _).mpr (not_mem_cStr text)

end Foundation
