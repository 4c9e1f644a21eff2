import Mathlib.Order.BooleanAlgebra.Set
import Mathlib.Data.Nat.Bitwise

/-!
# A machine word as a set of bits

`bits a` holds the positions of the ones of `a`.  The bitwise operations are those of sets,
so a test such as `a & ~b == 0` is an inclusion.

    bits (a ||| b) = bits a ∪ bits b,  bits (a &&& b) = bits a ∩ bits b,
    bits (a &&& ~~~b) = bits a \ bits b
    a &&& ~~~b = 0 ↔ bits a ⊆ bits b                      (and_not_eq_zero_iff)
    bits (1 <<< n) = {n},  bits ((1 <<< n) - 1) = {i | i < n} (bits_one_shiftLeft, bits_below)
-/

namespace BitSet

variable {w : Nat} {a b : BitVec w}

def bits (a : BitVec w) : Set Nat := {i | a.getLsbD i = true}

@[simp] theorem mem_bits {i : Nat} : i ∈ bits a ↔ a.getLsbD i = true := Iff.rfl

@[simp] theorem bits_or (a b : BitVec w) : bits (a ||| b) = bits a ∪ bits b := by
  ext i
  simp [BitVec.getLsbD_or]

@[simp] theorem bits_and (a b : BitVec w) : bits (a &&& b) = bits a ∩ bits b := by
  ext i
  simp [BitVec.getLsbD_and]

@[simp] theorem bits_and_not (a b : BitVec w) : bits (a &&& ~~~b) = bits a \ bits b := by
  ext i
  rw [mem_bits, BitVec.getLsbD_and, Bool.and_eq_true, BitVec.getLsbD_not, Bool.and_eq_true,
    decide_eq_true_eq, Bool.not_eq_true', Set.mem_sdiff, mem_bits, mem_bits, Bool.not_eq_true]
  constructor
  · rintro ⟨ha, -, hb⟩
    exact ⟨ha, hb⟩
  · rintro ⟨ha, hb⟩
    exact ⟨ha, BitVec.lt_of_getLsbD ha, hb⟩

@[simp] theorem bits_zero : bits (0 : BitVec w) = ∅ := by
  ext i
  simp

theorem bits_lt {i : Nat} (h : i ∈ bits a) : i < w := BitVec.lt_of_getLsbD h

theorem bits_shiftRight (a : BitVec w) (n : Nat) : bits (a >>> n) = {i | n + i ∈ bits a} := by
  ext i
  simp [BitVec.getLsbD_ushiftRight]

theorem bits_shiftLeft (a : BitVec w) (n : Nat) : bits (a <<< n) = {i | i < w ∧ n ≤ i ∧ i - n ∈ bits a} := by
  ext i
  simp [BitVec.getLsbD_shiftLeft, and_assoc]

/-- One bit. -/
theorem bits_one_shiftLeft {n : Nat} (h : n < w) : bits (1#w <<< n) = {n} := by
  ext i
  rw [bits_shiftLeft]
  simp only [Set.mem_ofPred_eq, mem_bits, BitVec.getLsbD_one, Set.mem_singleton_iff]
  simp
  omega

/-- All bits below one. -/
theorem bits_below {n : Nat} (h : n < w) : bits (1#w <<< n - 1#w) = {i | i < n} := by
  have hpow : 2 ^ n < 2 ^ w := Nat.pow_lt_pow_right (by omega) h
  have hnat : (1#w <<< n - 1#w).toNat = 2 ^ n - 1 := by
    have hone : (1#w).toNat = 1 := by
      rw [BitVec.toNat_ofNat]
      exact Nat.mod_eq_of_lt (Nat.one_lt_two_pow (by omega))
    have hshift : (1#w <<< n).toNat = 2 ^ n := by
      rw [BitVec.toNat_shiftLeft, hone, Nat.one_shiftLeft, Nat.mod_eq_of_lt hpow]
    have hpos := Nat.two_pow_pos n
    rw [BitVec.toNat_sub, hone, hshift, show 2 ^ w - 1 + 2 ^ n = 2 ^ n - 1 + 2 ^ w by omega,
      Nat.add_mod_right, Nat.mod_eq_of_lt (by omega)]
  ext i
  rw [mem_bits, ← BitVec.testBit_toNat, hnat, Nat.testBit_two_pow_sub_one]
  simp
theorem bits_injective : Function.Injective (bits (w := w)) := by
  intro a b h
  apply BitVec.eq_of_getLsbD_eq
  intro i _
  have hi : i ∈ bits a ↔ i ∈ bits b := by rw [h]
  rw [mem_bits, mem_bits] at hi
  exact Bool.eq_iff_iff.mpr hi

theorem eq_zero_iff : a = 0 ↔ bits a = ∅ := by
  rw [← bits_injective.eq_iff, bits_zero]

/-- **The test of inclusion.** -/
theorem and_not_eq_zero_iff : a &&& ~~~b = 0 ↔ bits a ⊆ bits b := by
  rw [eq_zero_iff, bits_and_not, Set.sdiff_eq_empty]

end BitSet
