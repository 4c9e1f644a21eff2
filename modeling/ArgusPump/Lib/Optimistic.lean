import Mathlib.Logic.Function.Iterate
import Mathlib.Data.Nat.ModEq

/-!
# Optimistic updates

A value with a stamp is copied, edited and put back if the stamp is still the one of the
copy; each update moves the stamp on by `next`.  Stamps come round again, so what the check
promises depends on how many updates there have been.

    `n` updates since the stamp was `g`, stamps apart up to `n`, a copy with the
      current stamp → the copy is the current value                    (Seen.eq_current)
    counters that skip 0 are apart up to their period - 1              (skipZero_apart)
-/

namespace Optimistic

variable {α γ : Type} {stamp : α → γ} {next : γ → γ} {g : γ} {n : Nat} {current copy : α}

/-- `copy` was the value after `i` of the `n` updates since the stamp was `g`; if that is all
of them it is the current one. -/
def Seen (stamp : α → γ) (next : γ → γ) (g : γ) (n : Nat) (current copy : α) : Prop :=
  ∃ i ≤ n, stamp copy = next^[i] g ∧ (i = n → copy = current)

/-- The first `n` updates of a stamp `g` all lead to another stamp. -/
def Apart (next : γ → γ) (g : γ) (n : Nat) : Prop :=
  ∀ i j, i < j → j ≤ n → next^[i] g ≠ next^[j] g

theorem Seen.now (h : stamp current = next^[n] g) : Seen stamp next g n current current :=
  ⟨n, le_rfl, h, fun _ => rfl⟩

/-- An update makes every copy an old one. -/
theorem Seen.update {current' : α} (h : Seen stamp next g n current copy) :
    Seen stamp next g (n + 1) current' copy := by
  obtain ⟨i, hi, hcopy, -⟩ := h
  exact ⟨i, by omega, hcopy, fun heq => by omega⟩

/-- **The check.** -/
theorem Seen.eq_current (h : Seen stamp next g n current copy) (hn : stamp current = next^[n] g)
    (hapart : Apart next g n) (heq : stamp copy = stamp current) : copy = current := by
  obtain ⟨i, hi, hcopy, hcurrent⟩ := h
  by_contra hne
  have hlt : i < n := by
    by_contra hge
    exact hne (hcurrent (by omega))
  apply hapart i n hlt le_rfl
  rw [← hcopy, heq, hn]

/-! ## Counters that skip 0 -/

/-- The next of the stamps `1, ..., period`. -/
def skipZero (period v : Nat) : Nat := if v = period then 1 else v + 1

theorem skipZero_iterate {period : Nat} (n v : Nat) (h0 : 0 < v) (hv : v ≤ period) :
    (skipZero period)^[n] v = (v - 1 + n) % period + 1 := by
  induction n with
  | zero =>
    rw [Function.iterate_zero_apply, Nat.add_zero, Nat.mod_eq_of_lt (by omega)]
    omega
  | succ n ih =>
    rw [Function.iterate_succ_apply', ih]
    have hlt := Nat.mod_lt (v - 1 + n) (show 0 < period by omega)
    have hstep : (v - 1 + (n + 1)) % period = ((v - 1 + n) % period + 1) % period := by
      rw [Nat.mod_add_mod, Nat.add_assoc]
    unfold skipZero
    rw [hstep]
    split
    · next hwrap => rw [hwrap, Nat.mod_self]
    · next hwrap => rw [Nat.mod_eq_of_lt (by omega : (v - 1 + n) % period + 1 < period)]

/-- Stamps come round after `period` updates and no sooner. -/
theorem skipZero_apart {period v n : Nat} (h0 : 0 < v) (hv : v ≤ period) (hn : n < period) :
    Apart (skipZero period) v n := by
  intro i j hij hj heq
  rw [skipZero_iterate i v h0 hv, skipZero_iterate j v h0 hv] at heq
  have hmod : i ≡ j [MOD period] := Nat.ModEq.add_left_cancel' (v - 1) (Nat.succ_injective heq)
  have hi := Nat.mod_eq_of_lt (show i < period by omega)
  have hj' := Nat.mod_eq_of_lt (show j < period by omega)
  have : i = j := by
    rw [← hi, ← hj']
    exact hmod
  omega

end Optimistic
