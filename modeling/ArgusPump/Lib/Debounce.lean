import Mathlib.Tactic.Common

/-!
# A debounced level

A level is sampled, each sample with the time it stands for; a history lists the samples
newest first.  The debounced level is the last one that was held for `n`.

    the samples since the debounced level last became `a`                (sinceBecame_iff)
    what it was before then                                              (was_drop_span)
    a level is none that was never held                                  (not_was_of_neverHeld)
-/

namespace Interact

namespace Debounce

structure Sample (α : Type) where
  level : α
  time : Nat

variable {α : Type} [DecidableEq α]

/-- How long the newest level has been held. -/
def held : List (Sample α) → Nat
  | [] => 0
  | s :: h => s.time + if h.head?.map Sample.level = some s.level then held h else 0

variable (n : Nat)

/-- The debounced level; none until a level was held for `n`. -/
def settled : List (Sample α) → Option α
  | [] => none
  | s :: h => if n ≤ held (s :: h) then some s.level else settled h

/-- The debounced level was `a` at some sample. -/
def Was (a : α) (h : List (Sample α)) : Prop := ∃ t ∈ h.tails, settled n t = some a

/-- The debounced level last became `a` at the oldest of the newest `k` samples. -/
def SinceBecame (a : α) (h : List (Sample α)) (k : Nat) : Prop :=
  settled n (h.drop k) ≠ some a ∧ ∀ i < k, settled n (h.drop i) = some a

/-- That `k`, by recursion. -/
def span (a : α) : List (Sample α) → Nat
  | [] => 0
  | s :: h => if settled n (s :: h) = some a then span a h + 1 else 0

/-- The time of those of the newest `k` samples at which `a` had been held for `n`. -/
def timeAt (a : α) : Nat → List (Sample α) → Nat
  | 0, _ => 0
  | _, [] => 0
  | k + 1, s :: h => (if s.level = a ∧ n ≤ held (s :: h) then s.time else 0) + timeAt a k h

/-- `a` was never held for `n`. -/
def NeverHeld (a : α) (h : List (Sample α)) : Prop :=
  ∀ t ∈ h.tails, t.head?.map Sample.level = some a → held t < n

def total : List (Sample α) → Nat
  | [] => 0
  | s :: h => s.time + total h

variable {n} {a b : α} {s : Sample α} {h : List (Sample α)}

instance : Decidable (Was n a h) := inferInstanceAs (Decidable (∃ t ∈ h.tails, settled n t = some a))

theorem settled_of_held (hn : n ≤ held (s :: h)) : settled n (s :: h) = some s.level := if_pos hn

theorem settled_of_bounce (hn : held (s :: h) < n) : settled n (s :: h) = settled n h :=
  if_neg (Nat.not_le.mpr hn)

theorem was_nil : ¬ Was n a [] := by
  rintro ⟨t, ht, hsettled⟩
  rw [List.tails, List.mem_singleton] at ht
  rw [ht] at hsettled
  cases hsettled

theorem was_cons : Was n a (s :: h) ↔ settled n (s :: h) = some a ∨ Was n a h := by
  unfold Was
  simp only [List.tails, List.mem_cons, exists_eq_or_imp]

/-- The debounced level is none before it is known, so known by a sample of its level. -/
theorem was_of_settled (hs : settled n h = some a) : Was n a h := by
  cases h with
  | nil => cases hs
  | cons s h => exact was_cons.mpr (.inl hs)

theorem span_of_ne (hne : settled n h ≠ some a) : span n a h = 0 := by
  cases h with
  | nil => rfl
  | cons s h => exact if_neg hne

theorem span_of_eq (hs : settled n (s :: h) = some a) : span n a (s :: h) = span n a h + 1 := if_pos hs

theorem sinceBecame_iff {k : Nat} : SinceBecame n a h k ↔ k = span n a h := by
  induction h generalizing k with
  | nil =>
    unfold SinceBecame
    constructor
    · intro hk
      by_contra hne
      have hfirst := hk.2 0 (Nat.pos_of_ne_zero hne)
      cases hfirst
    · rintro rfl
      exact ⟨by simp [settled], by simp [span]⟩
  | cons s h ih =>
    by_cases hs : settled n (s :: h) = some a
    · rw [span_of_eq hs]
      cases k with
      | zero => exact ⟨fun hk => absurd hs hk.1, fun hk => by cases hk⟩
      | succ k =>
        have hstep : SinceBecame n a (s :: h) (k + 1) ↔ SinceBecame n a h k := by
          refine and_congr_right fun _ => ⟨fun hall i hi => hall (i + 1) (Nat.succ_lt_succ hi), ?_⟩
          intro hall i hi
          cases i with
          | zero => exact hs
          | succ i => exact hall i (Nat.lt_of_succ_lt_succ hi)
        rw [hstep, ih, Nat.succ_inj]
    · rw [span_of_ne hs]
      constructor
      · intro hk
        by_contra hne
        exact hs (hk.2 0 (Nat.pos_of_ne_zero hne))
      · rintro rfl
        exact ⟨hs, fun i hi => absurd hi (Nat.not_lt_zero i)⟩

/-- Another level is one of before the span. -/
theorem was_drop_span (hne : b ≠ a) : Was n b (h.drop (span n a h)) ↔ Was n b h := by
  induction h with
  | nil => exact Iff.rfl
  | cons s h ih =>
    by_cases hs : settled n (s :: h) = some a
    · rw [span_of_eq hs, List.drop_succ_cons, ih, was_cons, hs]
      simp [hne.symm]
    · rw [span_of_ne hs, List.drop_zero]

theorem timeAt_cons_of_held (hn : n ≤ held (s :: h)) (hs : s.level = a) (k : Nat) :
    timeAt n a (k + 1) (s :: h) = s.time + timeAt n a k h := by
  rw [timeAt, if_pos ⟨hs, hn⟩]

theorem timeAt_cons_of_bounce (hn : held (s :: h) < n) (k : Nat) :
    timeAt n a (k + 1) (s :: h) = timeAt n a k h := by
  rw [timeAt, if_neg fun hs => Nat.not_le.mpr hn hs.2, Nat.zero_add]

theorem neverHeld_cons :
    NeverHeld n a (s :: h) ↔ (s.level = a → held (s :: h) < n) ∧ NeverHeld n a h := by
  unfold NeverHeld
  simp only [List.tails, List.mem_cons, forall_eq_or_imp, List.head?_cons, Option.map_some, Option.some.injEq]

theorem not_was_of_neverHeld (hnever : NeverHeld n a h) : ¬ Was n a h := by
  induction h with
  | nil => exact was_nil
  | cons s h ih =>
    obtain ⟨hfirst, hrest⟩ := neverHeld_cons.mp hnever
    rw [was_cons]
    rintro (hnow | hwas)
    · by_cases hn : n ≤ held (s :: h)
      · have hlevel := Option.some.inj ((settled_of_held hn).symm.trans hnow)
        exact absurd (hfirst hlevel) (Nat.not_lt.mpr hn)
      · rw [settled_of_bounce (Nat.lt_of_not_le hn)] at hnow
        exact ih hrest (was_of_settled hnow)
    · exact ih hrest hwas

/-- A span reaches back no further than another level. -/
theorem span_le {k : Nat} (hne : settled n (h.drop k) ≠ some a) : span n a h ≤ k := by
  induction h generalizing k with
  | nil => exact Nat.zero_le k
  | cons s h ih =>
    cases k with
    | zero => exact Nat.le_of_eq (span_of_ne hne)
    | succ k =>
      have hle := ih hne
      unfold span
      split
      · omega
      · omega

theorem timeAt_le_total {j k : Nat} (hjk : j ≤ k) : timeAt n a j h ≤ total (h.take k) := by
  induction h generalizing j k with
  | nil => cases j <;> exact Nat.zero_le _
  | cons s h ih =>
    cases j with
    | zero => exact Nat.zero_le _
    | succ j =>
      obtain ⟨k, rfl⟩ := Nat.exists_eq_add_of_lt hjk
      have hle := ih (Nat.le_add_right j k)
      rw [timeAt, List.take_succ_cons, total]
      split
      · omega
      · omega

end Debounce

end Interact
