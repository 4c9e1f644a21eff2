import Mathlib.Tactic.Common
import Mathlib.Data.List.Count

/-!
# Windows

A limiter that counts in fixed windows, against the bound over every interval.  `stamp` is
when an event counts, if it does.

    no event of an earlier window is younger than the width when a window opens, and a
      window counts at most n → every interval of the width holds at most n  (Sliding.snoc)
-/

namespace Interact

namespace Window

variable {α : Type} (stamp : α → Option Nat) (width : Nat)

/-- The event counts, in the interval from `a`. -/
def within (a : Nat) (x : α) : Bool := (stamp x).any fun t => a ≤ t && t < a + width

/-- Every interval holds at most `n` events. -/
def Sliding (n : Nat) (l : List α) : Prop := ∀ a, l.countP (within stamp width a) ≤ n

/-- The window from `start` on holds at most `n` events, and no older one reaches into it. -/
def Fixed (start n : Nat) (l : List α) : Prop :=
  ∃ old recent, l = old ++ recent ∧ (∀ x ∈ old, ∀ t, stamp x = some t → t + width ≤ start) ∧
    (∀ x ∈ recent, ∀ t, stamp x = some t → start ≤ t) ∧
    recent.countP (fun x => (stamp x).isSome) ≤ n

variable {stamp width} {l : List α} {x : α} {start n t : Nat}

theorem Sliding.nil : Sliding stamp width n [] := fun _ => Nat.zero_le _

theorem Fixed.nil : Fixed stamp width start n [] :=
  ⟨[], [], rfl, fun _ h => absurd h List.not_mem_nil, fun _ h => absurd h List.not_mem_nil, Nat.zero_le _⟩

theorem Fixed.mono (h : Fixed stamp width start n l) {m : Nat} (hle : n ≤ m) :
    Fixed stamp width start m l := by
  obtain ⟨old, recent, hl, hold, hrecent, hcount⟩ := h
  exact ⟨old, recent, hl, hold, hrecent, Nat.le_trans hcount hle⟩

/-- A window opens when nothing that counts is younger than the width. -/
theorem Fixed.open (h : ∀ x ∈ l, ∀ t, stamp x = some t → t + width ≤ start) :
    Fixed stamp width start n l :=
  ⟨l, [], (List.append_nil l).symm, h, fun _ h => absurd h List.not_mem_nil, Nat.zero_le _⟩

theorem Fixed.snoc_none (h : Fixed stamp width start n l) (hx : stamp x = none) :
    Fixed stamp width start n (l ++ [x]) := by
  obtain ⟨old, recent, rfl, hold, hrecent, hcount⟩ := h
  refine ⟨old, recent ++ [x], List.append_assoc .., hold, fun y hy t ht => ?_, ?_⟩
  · rcases List.mem_append.mp hy with hy | hy
    · exact hrecent y hy t ht
    · cases List.mem_singleton.mp hy
      rw [hx] at ht
      cases ht
  · rw [List.countP_append, List.countP_singleton, hx]
    exact hcount

theorem Fixed.snoc (h : Fixed stamp width start n l) (hx : stamp x = some t) (hle : start ≤ t) :
    Fixed stamp width start (n + 1) (l ++ [x]) := by
  obtain ⟨old, recent, rfl, hold, hrecent, hcount⟩ := h
  refine ⟨old, recent ++ [x], List.append_assoc .., hold, fun y hy u hu => ?_, ?_⟩
  · rcases List.mem_append.mp hy with hy | hy
    · exact hrecent y hy u hu
    · cases List.mem_singleton.mp hy
      cases hx.symm.trans hu
      exact hle
  · rw [List.countP_append, List.countP_singleton, hx]
    exact Nat.succ_le_succ hcount

theorem Sliding.snoc_none (h : Sliding stamp width n l) (hx : stamp x = none) :
    Sliding stamp width n (l ++ [x]) := by
  intro a
  rw [List.countP_append, List.countP_singleton, within, hx]
  exact h a

/-- One more event of a window that has room for it. -/
theorem Sliding.snoc (h : Sliding stamp width n l) (hfixed : Fixed stamp width start n (l ++ [x]))
    (hx : stamp x = some t) (hle : start ≤ t) : Sliding stamp width n (l ++ [x]) := by
  intro a
  by_cases hin : within stamp width a x = true
  · obtain ⟨old, recent, hl, hold, -, hcount⟩ := hfixed
    have hnone : old.countP (within stamp width a) = 0 := by
      rw [List.countP_eq_zero]
      intro y hy hyin
      unfold within at hin hyin
      rw [hx, Option.any_some, Bool.and_eq_true, decide_eq_true_eq, decide_eq_true_eq] at hin
      rw [Option.any_eq_true] at hyin
      obtain ⟨u, hu, hyin⟩ := hyin
      rw [Bool.and_eq_true, decide_eq_true_eq, decide_eq_true_eq] at hyin
      have := hold y hy u hu
      omega
    have hsome : recent.countP (within stamp width a) ≤
        recent.countP fun x => (stamp x).isSome := by
      refine List.countP_mono_left fun y _ hy => ?_
      obtain ⟨u, hu, -⟩ := (Option.any_eq_true _ _).mp hy
      rw [hu]
      rfl
    rw [hl, List.countP_append, hnone]
    omega
  · rw [List.countP_append, List.countP_singleton, if_neg hin]
    exact h a

end Window

end Interact
