import Mathlib.Tactic.Common
import Mathlib.Algebra.GroupWithZero.Nat
import Mathlib.Data.List.Rotate
import Mathlib.Data.List.ReduceOption

/-!
# A ring of slots with a moving cursor

`push` writes the slot under the cursor and moves on.  Read from the cursor, the slots
are in the order they were written, so the ring holds the last `n` values pushed:

    r holds the history h → r.push a holds h ++ [a]                   (Ring.Holds.push)
    r holds h → its values, oldest first, are the last n of h         (Ring.Holds.toList)
-/

namespace Interact

structure Ring (α : Type) (n : Nat) where
  slots : Vector (Option α) n
  next : Fin n

namespace Ring

variable {α : Type} {n : Nat}

def empty [NeZero n] : Ring α n := ⟨.replicate n none, 0⟩

def push [NeZero n] (r : Ring α n) (a : α) : Ring α n :=
  ⟨r.slots.set r.next (some a), r.next + 1⟩

/-- The slots read from the cursor. -/
def oldestFirst (r : Ring α n) : List (Option α) := r.slots.toList.rotate r.next

/-- The values in the ring, oldest first. -/
def toList (r : Ring α n) : List α := r.oldestFirst.reduceOption

theorem mem_toList {r : Ring α n} {a : α} : a ∈ r.toList ↔ some a ∈ r.slots.toList := by
  unfold toList oldestFirst
  rw [List.reduceOption_mem_iff, List.mem_rotate]

/-- Writing the element under the cursor and moving on, on lists. -/
theorem rotate_set_succ {β : Type} {l : List β} {i : Nat} (h : i < l.length) (b : β) :
    (l.set i b).rotate (i + 1) = (l.rotate i).tail ++ [b] := by
  have htake : (l.set i b).take (i + 1) = l.take i ++ [b] := by
    rw [List.take_add_one, List.take_set_of_le (Nat.le_refl i), List.getElem?_set_self h]
    rfl
  rw [List.rotate_eq_drop_append_take (by rw [List.length_set]; omega),
    List.rotate_eq_drop_append_take (by omega), List.drop_set_of_lt (by omega), htake,
    List.tail_append_of_ne_nil (List.drop_eq_nil_iff.not.mpr (by omega)), List.tail_drop,
    List.append_assoc]

theorem oldestFirst_push [NeZero n] (r : Ring α n) (a : α) :
    (r.push a).oldestFirst = r.oldestFirst.tail ++ [some a] := by
  have hlen : r.slots.toList.length = n := Vector.length_toList
  have hstep : (r.push a).oldestFirst = (r.slots.toList.set r.next (some a)).rotate (r.next + 1) := by
    unfold oldestFirst push
    rw [Vector.toList_set, ← List.rotate_mod _ (r.next.val + 1), List.length_set, hlen]
    congr 1
    rw [Fin.val_add]
    exact Nat.add_mod_mod _ 1 n
  rw [hstep, rotate_set_succ (by rw [hlen]; exact r.next.isLt)]
  rfl

theorem toList_push [NeZero n] (r : Ring α n) (a : α) :
    (r.push a).toList = r.oldestFirst.tail.reduceOption ++ [a] := by
  unfold toList
  rw [oldestFirst_push, List.reduceOption_append]
  rfl

/-- `push` adds one value at the end and may drop others. -/
theorem toList_push_sublist [NeZero n] (r : Ring α n) (a : α) :
    (r.push a).toList.Sublist (r.toList ++ [a]) := by
  rw [toList_push]
  refine List.Sublist.append ?_ (List.Sublist.refl _)
  exact (List.tail_sublist _).filterMap id

/-- The ring holds the last `n` values of `h`, in the order of `h`. -/
def Holds (r : Ring α n) (h : List α) : Prop :=
  r.oldestFirst = List.replicate (n - h.length) none ++ (h.drop (h.length - n)).map some

theorem holds_empty [NeZero n] : (empty : Ring α n).Holds [] := by
  simp [Holds, oldestFirst, empty]

theorem Holds.push [NeZero n] {r : Ring α n} {h : List α} (hr : r.Holds h) (a : α) :
    (r.push a).Holds (h ++ [a]) := by
  have hn : 0 < n := Nat.pos_of_ne_zero (NeZero.ne n)
  unfold Holds at hr ⊢
  rw [oldestFirst_push, hr, List.length_append, List.length_singleton]
  by_cases hroom : h.length < n
  · -- a slot is free
    obtain ⟨k, hk⟩ : ∃ k, n - h.length = k + 1 := ⟨n - h.length - 1, by omega⟩
    rw [hk, show n - (h.length + 1) = k by omega, show h.length - n = 0 by omega,
      show h.length + 1 - n = 0 by omega, List.replicate_succ]
    simp
  · -- the oldest value goes
    rw [show n - h.length = 0 by omega, show n - (h.length + 1) = 0 by omega,
      show h.length + 1 - n = (h.length - n) + 1 by omega,
      List.drop_append_of_le_length (by omega), ← List.tail_drop]
    simp

theorem Holds.toList {r : Ring α n} {h : List α} (hr : r.Holds h) :
    r.toList = h.drop (h.length - n) := by
  unfold Ring.toList
  rw [hr, List.reduceOption_append]
  simp [List.reduceOption]

end Ring

end Interact
