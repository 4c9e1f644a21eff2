import Mathlib.Tactic.Common
import Mathlib.Data.List.Basic
import Mathlib.Data.Nat.ModEq

/-!
# A ring with a spare slot

`n` slots hold at most `n - 1` values, read from the oldest on; the slot after the newest is
spare.  A value is written to the spare slot first and counted afterwards, by moving the
cursor, so that between the two steps the ring still holds what it held.

    the cells differ in the spare slot only → they hold the same log     (SpareRing.Holds.overwrite)
    a is in the spare slot → the cursor moved on holds log ++ [a]        (SpareRing.Holds.push)
    the cells hold log → read from the oldest, its last n - 1 values     (SpareRing.Holds.toList)
-/

namespace Interact

namespace SpareRing

variable {α : Type} {n : Nat}

structure Cursor where
  oldest : Nat
  count : Nat

/-- The slot after the newest value. -/
def Cursor.spare (n : Nat) (c : Cursor) : Nat := (c.oldest + c.count) % n

/-- The cursor after the spare slot is counted. -/
def Cursor.advance (n : Nat) (c : Cursor) : Cursor :=
  if c.count < n - 1 then ⟨c.oldest, c.count + 1⟩ else ⟨(c.oldest + 1) % n, c.count⟩

/-- Read from the oldest, the cells are the last `n - 1` values of `log`. -/
structure Holds (n : Nat) (cells : Nat → α) (c : Cursor) (log : List α) : Prop where
  oldest : c.oldest < n
  count : c.count = min log.length (n - 1)
  read : ∀ i < c.count, log[log.length - c.count + i]? = some (cells ((c.oldest + i) % n))

theorem holds_nil (h : 0 < n) (cells : Nat → α) : Holds n cells ⟨0, 0⟩ [] :=
  ⟨h, (Nat.zero_min _).symm, fun _ hi => absurd hi (Nat.not_lt_zero _)⟩

/-- The spare slot of the cursor moved on: the next one, or the one the oldest value had. -/
theorem Cursor.spare_advance {c : Cursor} (holdest : c.oldest < n) (hcount : c.count ≤ n - 1) :
    (c.advance n).spare n = if c.count < n - 1 then (c.spare n + 1) % n else c.oldest := by
  unfold advance spare
  split
  · dsimp only
    rw [Nat.mod_add_mod, Nat.add_assoc]
  · dsimp only
    rw [Nat.mod_add_mod, show c.oldest + 1 + c.count = c.oldest + n by omega, Nat.add_mod_right,
      Nat.mod_eq_of_lt holdest]

/-- The values, from the oldest on. -/
def live (n : Nat) (cells : Nat → α) (c : Cursor) : List α :=
  (List.range c.count).map fun i => cells ((c.oldest + i) % n)

theorem mod_ne {a i j : Nat} (hij : i < j) (hj : j < n) : (a + i) % n ≠ (a + j) % n := fun h => by
  have hmod : i % n = j % n := Nat.ModEq.add_left_cancel' a h
  rw [Nat.mod_eq_of_lt (Nat.lt_trans hij hj), Nat.mod_eq_of_lt hj] at hmod
  omega

theorem live_overwrite {cells cells' : Nat → α} {c : Cursor} (hn : 0 < n) (hcount : c.count < n)
    (hsame : ∀ j < n, j ≠ c.spare n → cells' j = cells j) : live n cells' c = live n cells c := by
  unfold live
  apply List.map_congr_left
  intro i hi
  exact hsame _ (Nat.mod_lt _ hn) (mod_ne (List.mem_range.mp hi) hcount)

/-- The cursor moved on: the value of the spare slot is the newest, and a full ring has lost
its oldest. -/
theorem live_advance (cells : Nat → α) {c : Cursor} (hn : 1 < n) (hcount : c.count ≤ n - 1) :
    live n cells (c.advance n) =
      (if c.count < n - 1 then live n cells c else (live n cells c).tail) ++ [cells (c.spare n)] := by
  unfold live Cursor.advance
  split
  · dsimp only
    rw [List.range_succ, List.map_append]
    rfl
  · obtain ⟨k, hk⟩ : ∃ k, c.count = k + 1 := ⟨c.count - 1, by omega⟩
    have hlast : cells (c.spare n) = cells (((c.oldest + 1) % n + k) % n) := by
      unfold Cursor.spare
      rw [hk, Nat.mod_add_mod, Nat.add_right_comm, Nat.add_assoc c.oldest]
    have hshift (i : Nat) : ((c.oldest + 1) % n + i) % n = (c.oldest + (i + 1)) % n := by
      rw [Nat.mod_add_mod, Nat.add_right_comm, Nat.add_assoc c.oldest]
    have hnewest : (List.range (k + 1)).map (fun i => cells (((c.oldest + 1) % n + i) % n)) =
        (List.range k).map (fun i => cells (((c.oldest + 1) % n + i) % n)) ++ [cells (c.spare n)] := by
      rw [List.range_succ, List.map_append, List.map_singleton, hlast]
    dsimp only
    rw [hk, hnewest, List.range_succ_eq_map, List.map_cons, List.tail_cons, List.map_map]
    refine congrArg (· ++ _) (List.map_congr_left fun i _ => ?_)
    rw [hshift]
    rfl

namespace Holds

variable {cells cells' : Nat → α} {c : Cursor} {log : List α}

theorem count_lt (h : Holds n cells c log) : c.count < n := by
  have holdest := h.oldest
  have hcount := h.count
  omega

/-- No value is read from the spare slot. -/
theorem ne_spare (h : Holds n cells c log) {i : Nat} (hi : i < c.count) :
    (c.oldest + i) % n ≠ c.spare n := mod_ne hi h.count_lt

/-- **The spare slot may be overwritten.** -/
theorem overwrite (h : Holds n cells c log) (hsame : ∀ j < n, j ≠ c.spare n → cells' j = cells j) :
    Holds n cells' c log := by
  refine ⟨h.oldest, h.count, fun i hi => ?_⟩
  have hpos : 0 < n := Nat.lt_of_le_of_lt (Nat.zero_le _) h.oldest
  rw [hsame _ (Nat.mod_lt _ hpos) (h.ne_spare hi)]
  exact h.read i hi

/-- **The value in the spare slot is counted.** -/
theorem push (h : Holds n cells c log) {a : α} (ha : cells (c.spare n) = a) :
    Holds n cells (c.advance n) (log ++ [a]) := by
  have holdest := h.oldest
  have hcount := h.count
  unfold Cursor.advance
  by_cases hroom : c.count < n - 1
  · rw [if_pos hroom]
    refine ⟨holdest, ?_, fun i hi => ?_⟩
    · dsimp only
      rw [List.length_append, List.length_singleton]
      omega
    · dsimp only at hi ⊢
      rw [List.length_append, List.length_singleton]
      have hindex : log.length + 1 - (c.count + 1) + i = log.length - c.count + i := by omega
      rw [hindex]
      by_cases hlast : i = c.count
      · rw [hlast, show log.length - c.count + c.count = log.length by omega, List.getElem?_concat_length,
          ← ha]
        rfl
      · rw [List.getElem?_append_left (by omega)]
        exact h.read i (by omega)
  · rw [if_neg hroom]
    refine ⟨Nat.mod_lt _ (by omega), ?_, fun i hi => ?_⟩
    · dsimp only
      rw [List.length_append, List.length_singleton]
      omega
    · dsimp only at hi ⊢
      rw [List.length_append, List.length_singleton, Nat.mod_add_mod,
        show c.oldest + 1 + i = c.oldest + (i + 1) by omega,
        show log.length + 1 - c.count + i = log.length - c.count + (i + 1) by omega]
      by_cases hlast : i + 1 = c.count
      · rw [hlast, show log.length - c.count + c.count = log.length by omega, List.getElem?_concat_length,
          ← ha]
        rfl
      · rw [List.getElem?_append_left (by omega)]
        exact h.read (i + 1) (by omega)

/-- **What is read.** -/
theorem toList (h : Holds n cells c log) :
    live n cells c = log.drop (log.length - (n - 1)) := by
  have hcount := h.count
  unfold live
  refine List.ext_getElem? fun i => ?_
  rw [List.getElem?_map, List.getElem?_drop, show log.length - (n - 1) = log.length - c.count by omega]
  by_cases hi : i < c.count
  · rw [h.read i hi, List.getElem?_range hi]
    rfl
  · rw [List.getElem?_eq_none (by rw [List.length_range]; omega), List.getElem?_eq_none (by omega)]
    rfl

end Holds

end SpareRing

end Interact
