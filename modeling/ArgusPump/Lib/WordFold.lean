import Mathlib.Tactic.Common
import Mathlib.Data.Nat.Bitwise

/-!
# The words of a number, folded into one

`fold w k n` is the exclusive or of the `k` lowest words of `n`, of `w` bits each.  Numbers near
each other fold apart as long as no bit above the second word's second highest changes between
them, and to 0 and 1 only as neighbours.

    near numbers of one block fold apart                                 (fold_ne)
    and not both to 0 or 1, except an even number and the next           (fold_le_one)
-/

namespace Interact

namespace WordFold

def fold (w : Nat) : Nat → Nat → Nat
  | 0, _ => 0
  | k + 1, n => n % 2 ^ w ^^^ fold w k (n / 2 ^ w)

variable {w k s t : Nat}

/-- Numbers that differ in the lowest word alone. -/
theorem fold_xor_fold (hsame : s / 2 ^ w = t / 2 ^ w) :
    fold w (k + 1) s ^^^ fold w (k + 1) t = s % 2 ^ w ^^^ t % 2 ^ w := by
  rw [fold, fold, hsame, Nat.xor_comm (t % 2 ^ w), ← Nat.xor_assoc, Nat.xor_xor_cancel_right]

/-- The highest bit of the words above the lowest. -/
theorem fold_testBit_last (hw : 0 < w) (hsame : s / 2 ^ (w - 1) = t / 2 ^ (w - 1)) :
    (fold w k s).testBit (w - 1) = (fold w k t).testBit (w - 1) := by
  cases k with
  | zero => rfl
  | succ k =>
    have hbit (n : Nat) : (n % 2 ^ w).testBit (w - 1) = (n / 2 ^ (w - 1)).testBit 0 := by
      rw [Nat.testBit_mod_two_pow, Nat.testBit_div_two_pow, Nat.zero_add]
      simp [Nat.sub_lt hw]
    have hrest : s / 2 ^ w = t / 2 ^ w := by
      have hsplit (n : Nat) : n / 2 ^ w = n / 2 ^ (w - 1) / 2 := by
        rw [Nat.div_div_eq_div_mul, ← Nat.pow_succ, Nat.succ_eq_add_one, Nat.sub_add_cancel hw]
      rw [hsplit, hsplit, hsame]
    rw [fold, fold, Nat.testBit_xor, Nat.testBit_xor, hbit, hbit, hsame, hrest]

/-- Past the end of a word, its highest bit falls. -/
theorem mod_of_cross {m : Nat} (hlt : s < t) (hnear : t ≤ s + m) (hcross : s / (2 * m) ≠ t / (2 * m)) :
    m ≤ s % (2 * m) ∧ t % (2 * m) < m := by
  have hm : 0 < 2 * m := by omega
  have hle : s / (2 * m) ≤ t / (2 * m) := Nat.div_le_div_right (Nat.le_of_lt hlt)
  have hnext : t / (2 * m) ≤ s / (2 * m) + 1 := by
    rw [← Nat.add_div_right s hm]
    exact Nat.div_le_div_right (by omega)
  have hquot : t / (2 * m) = s / (2 * m) + 1 := by omega
  have hs := Nat.div_add_mod s (2 * m)
  have ht := Nat.div_add_mod t (2 * m)
  have hslt := Nat.mod_lt s hm
  rw [hquot, Nat.mul_succ] at ht
  omega

theorem fold_testBit_ne (hw : 0 < w) (hlt : s < t) (hnear : t ≤ s + 2 ^ (w - 1))
    (hcross : s / 2 ^ w ≠ t / 2 ^ w) (hblock : s / 2 ^ (w + (w - 1)) = t / 2 ^ (w + (w - 1))) :
    (fold w (k + 1) s).testBit (w - 1) ≠ (fold w (k + 1) t).testBit (w - 1) := by
  have hdouble : 2 ^ w = 2 * 2 ^ (w - 1) := by
    rw [← Nat.pow_succ', Nat.succ_eq_add_one, Nat.sub_add_cancel hw]
  have hrest : (fold w k (s / 2 ^ w)).testBit (w - 1) = (fold w k (t / 2 ^ w)).testBit (w - 1) := by
    refine fold_testBit_last hw ?_
    rw [Nat.div_div_eq_div_mul, Nat.div_div_eq_div_mul, ← Nat.pow_add]
    exact hblock
  obtain ⟨hs, ht⟩ := mod_of_cross hlt hnear (hdouble ▸ hcross)
  rw [← hdouble] at hs ht
  have hset : (s % 2 ^ w).testBit (w - 1) = true := by
    have hmod := Nat.mod_lt s (Nat.two_pow_pos w)
    have hone : s % 2 ^ w / 2 ^ (w - 1) = 1 := Nat.div_eq_of_lt_le (by omega) (by omega)
    rw [Nat.testBit_eq_decide_div_mod_eq, hone]
    rfl
  have hclear : (t % 2 ^ w).testBit (w - 1) = false := Nat.testBit_lt_two_pow ht
  rw [fold, fold, Nat.testBit_xor, Nat.testBit_xor, hset, hclear, hrest]
  simp

theorem xor_eq_one {a b : Nat} (h : a ^^^ b = 1) (hlt : a < b) : b = a + 1 ∧ b % 2 = 1 := by
  have hhalf : a / 2 = b / 2 := by
    have hzero : a / 2 ^^^ b / 2 = a / 2 ^^^ a / 2 := by
      rw [← Nat.xor_div_two, h, Nat.xor_self]
    exact (Nat.xor_right_inj.mp hzero).symm
  omega

/-- **Near numbers fold apart.** -/
theorem fold_ne (hw : 0 < w) (hlt : s < t) (hnear : t ≤ s + 2 ^ (w - 1))
    (hblock : s / 2 ^ (w + (w - 1)) = t / 2 ^ (w + (w - 1))) : fold w (k + 1) s ≠ fold w (k + 1) t := by
  intro heq
  by_cases hsame : s / 2 ^ w = t / 2 ^ w
  · have hxor := fold_xor_fold (k := k) hsame
    rw [heq, Nat.xor_self] at hxor
    have hmod : s % 2 ^ w = t % 2 ^ w := by
      have hself : s % 2 ^ w ^^^ t % 2 ^ w = s % 2 ^ w ^^^ s % 2 ^ w := by rw [← hxor, Nat.xor_self]
      exact (Nat.xor_right_inj.mp hself).symm
    have hs := Nat.div_add_mod s (2 ^ w)
    have ht := Nat.div_add_mod t (2 ^ w)
    rw [hsame, hmod, ht] at hs
    omega
  · exact fold_testBit_ne hw hlt hnear hsame hblock (congrArg (Nat.testBit · (w - 1)) heq)

/-- Both fold to 0 or 1 only as an even number and the next. -/
theorem fold_le_one (hw : 1 < w) (hlt : s < t) (hnear : t ≤ s + 2 ^ (w - 1))
    (hblock : s / 2 ^ (w + (w - 1)) = t / 2 ^ (w + (w - 1))) (hs : fold w (k + 1) s ≤ 1)
    (ht : fold w (k + 1) t ≤ 1) : t = s + 1 ∧ t % 2 = 1 := by
  have hne : fold w (k + 1) s ≠ fold w (k + 1) t := fold_ne (by omega) hlt hnear hblock
  by_cases hsame : s / 2 ^ w = t / 2 ^ w
  · have hxor := fold_xor_fold (k := k) hsame
    have hone : fold w (k + 1) s ^^^ fold w (k + 1) t = 1 := by
      have hcases : (fold w (k + 1) s = 0 ∧ fold w (k + 1) t = 1) ∨
          (fold w (k + 1) s = 1 ∧ fold w (k + 1) t = 0) := by omega
      rcases hcases with ⟨h₀, h₁⟩ | ⟨h₁, h₀⟩
      · rw [h₀, h₁]
        rfl
      · rw [h₀, h₁]
        rfl
    rw [hone] at hxor
    have hdivS := Nat.div_add_mod s (2 ^ w)
    have hdivT := Nat.div_add_mod t (2 ^ w)
    rw [hsame] at hdivS
    obtain ⟨hnext, hodd⟩ := xor_eq_one hxor.symm (by omega)
    have htwo : 2 ∣ 2 ^ w := Dvd.intro_left (2 ^ (w - 1)) (by rw [← Nat.pow_succ]; congr 1; omega)
    rw [Nat.mod_mod_of_dvd t htwo] at hodd
    exact ⟨by omega, hodd⟩
  · have hbig : 1 < 2 ^ (w - 1) := Nat.one_lt_two_pow (by omega)
    refine absurd ?_ (fold_testBit_ne (k := k) (by omega) hlt hnear hsame hblock)
    rw [Nat.testBit_lt_two_pow (Nat.lt_of_le_of_lt hs hbig), Nat.testBit_lt_two_pow (Nat.lt_of_le_of_lt ht hbig)]

/-- An odd number and its even neighbour fold to neighbours. -/
theorem fold_pred_odd (hw : 0 < w) (hodd : (s + 1) % 2 = 1) :
    fold w (k + 1) s = fold w (k + 1) (s + 1) ^^^ 1 := by
  have hnext : s + 1 = s ^^^ 1 := (Nat.xor_one_of_even (Nat.even_iff.mpr (by omega))).symm
  have hsmall : 1 < 2 ^ w := Nat.one_lt_two_pow (by omega)
  have hsame : s / 2 ^ w = (s + 1) / 2 ^ w := by
    rw [hnext, Nat.xor_div_two_pow, Nat.div_eq_of_lt hsmall, Nat.xor_zero]
  have hxor : fold w (k + 1) s ^^^ fold w (k + 1) (s + 1) = 1 := by
    rw [fold_xor_fold hsame, hnext, Nat.xor_mod_two_pow, Nat.mod_eq_of_lt hsmall, ← Nat.xor_assoc,
      Nat.xor_self, Nat.zero_xor]
  have hcancel := Nat.xor_xor_cancel_right (fold w (k + 1) s) (fold w (k + 1) (s + 1))
  rw [hxor, Nat.xor_comm] at hcancel
  exact hcancel.symm

end WordFold

end Interact
