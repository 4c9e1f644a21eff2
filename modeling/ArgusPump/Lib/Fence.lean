import ArgusPump.Lib.Run
import Mathlib.Data.Nat.ModEq

/-!
# Owners fenced by an epoch

`next m` counts below `m` and skips 0 when it wraps, so it comes back after
`m - 1` advances.  In a fenced system every step keeps the owner and the epoch or
advances the epoch; then

    the owner differs between two states → the epoch advanced in between     (Fenced.exists_advance)
    the same epoch, fewer than m - 1 advances in between → none at all        (Fenced.no_advance)
-/

namespace Interact

namespace Epoch

def next (m e : Nat) : Nat := if e + 1 = m then 1 else e + 1

theorem next_pos (m e : Nat) : 0 < next m e := by
  unfold next
  split <;> omega

theorem iterate_pos {m e n : Nat} (hn : 0 < n) : 0 < (next m)^[n] e := by
  obtain ⟨k, rfl⟩ := Nat.exists_eq_succ_of_ne_zero (by omega : n ≠ 0)
  rw [Function.iterate_succ_apply']
  exact next_pos _ _

/-- From 0 the counter counts the advances. -/
theorem iterate_zero {m n : Nat} (hn : n < m) : (next m)^[n] 0 = n := by
  induction n with
  | zero => rfl
  | succ n ih =>
    rw [Function.iterate_succ_apply', ih (by omega)]
    unfold next
    rw [if_neg (by omega)]

/-- Away from 0 the counter is addition modulo `m - 1`. -/
theorem iterate_eq {m e : Nat} (h0 : 0 < e) (he : e < m) (n : Nat) :
    (next m)^[n] e = (e - 1 + n) % (m - 1) + 1 := by
  induction n with
  | zero =>
    rw [Nat.add_zero, Nat.mod_eq_of_lt (by omega)]
    show e = e - 1 + 1
    omega
  | succ n ih =>
    rw [Function.iterate_succ_apply', ih, ← Nat.add_assoc, Nat.add_mod (e - 1 + n) 1]
    have hlt : (e - 1 + n) % (m - 1) < m - 1 := Nat.mod_lt _ (by omega)
    generalize (e - 1 + n) % (m - 1) = r at hlt ⊢
    unfold next
    by_cases hm : m - 1 = 1
    · rw [hm, Nat.mod_one]
      split <;> omega
    · rw [Nat.mod_eq_of_lt (a := 1) (by omega)]
      split
      · rw [show r + 1 = m - 1 by omega, Nat.mod_self]
      · rw [Nat.mod_eq_of_lt (by omega)]

/-- **No epoch comes back early.** -/
theorem iterate_ne {m e n : Nat} (he : e < m) (h0 : 0 < n) (hn : n < m - 1) :
    (next m)^[n] e ≠ e := by
  by_cases hz : e = 0
  · have := iterate_pos (m := m) (e := e) h0
    omega
  · rw [iterate_eq (by omega) he]
    intro h
    have hk : (e - 1 + n) % (m - 1) = e - 1 := by omega
    by_cases hlt : e - 1 + n < m - 1
    · rw [Nat.mod_eq_of_lt hlt] at hk
      omega
    · rw [Nat.mod_eq_sub_mod (by omega), Nat.mod_eq_of_lt (by omega)] at hk
      omega

end Epoch

variable {σ ε Ω : Type} {step : σ → ε → σ → Prop}

/-- Every step advances the epoch or keeps it and the owner; `adv` tells which. -/
structure Fenced (step : σ → ε → σ → Prop) (m : Nat) (epoch : σ → Nat) (owner : σ → Ω)
    (adv : Move σ ε → Bool) : Prop where
  lt : ∀ s, epoch s < m
  epoch_post : ∀ v : Move σ ε, step v.pre v.ev v.post →
    epoch v.post = if adv v then Epoch.next m (epoch v.pre) else epoch v.pre
  owner_post : ∀ v : Move σ ε, step v.pre v.ev v.post → adv v = false →
    owner v.post = owner v.pre

namespace Fenced

variable {m : Nat} {epoch : σ → Nat} {owner : σ → Ω} {adv : Move σ ε → Bool}

theorem epoch_final (f : Fenced step m epoch owner adv) {s : σ} {ms : List (Move σ ε)}
    (h : IsRun step s ms) : epoch (final s ms) = (Epoch.next m)^[ms.countP adv] (epoch s) :=
  h.iterate epoch (Epoch.next m) adv fun v hv => f.epoch_post v (h.step_of_mem v hv)

/-- Once nonzero, always nonzero. -/
theorem epoch_pos (f : Fenced step m epoch owner adv) {s : σ} {ms : List (Move σ ε)}
    (h : IsRun step s ms) (h0 : 0 < epoch s) : 0 < epoch (final s ms) := by
  rw [f.epoch_final h]
  by_cases hn : ms.countP adv = 0
  · rw [hn]
    exact h0
  · exact Epoch.iterate_pos (by omega)

theorem exists_advance (f : Fenced step m epoch owner adv) {s : σ} {ms : List (Move σ ε)}
    (h : IsRun step s ms) (hne : owner (final s ms) ≠ owner s) : ∃ v ∈ ms, adv v = true := by
  obtain ⟨v, hv, hch⟩ := h.exists_change owner hne
  refine ⟨v, hv, ?_⟩
  by_contra hadv
  exact hch (f.owner_post v (h.step_of_mem v hv) (Bool.not_eq_true _ ▸ hadv))

/-- **Fencing.** -/
theorem no_advance (f : Fenced step m epoch owner adv) {s : σ} {ms : List (Move σ ε)}
    (h : IsRun step s ms) (heq : epoch (final s ms) = epoch s) (hn : ms.countP adv < m - 1) :
    ∀ v ∈ ms, adv v = false := by
  rw [f.epoch_final h] at heq
  have hz : ms.countP adv = 0 := by
    by_contra hz
    exact Epoch.iterate_ne (f.lt s) (by omega) hn heq
  intro v hv
  have := List.countP_eq_zero.mp hz v hv
  simpa using this

/-- Without an advance the owner and the epoch stay what they are. -/
theorem kept (f : Fenced step m epoch owner adv) {s : σ} {ms : List (Move σ ε)}
    (h : IsRun step s ms) (hno : ∀ v ∈ ms, adv v = false) :
    (∀ v ∈ ms, owner v.post = owner s ∧ epoch v.post = epoch s) ∧
      owner (final s ms) = owner s ∧ epoch (final s ms) = epoch s := by
  have hinv := h.inv_of (I := fun t => owner t = owner s ∧ epoch t = epoch s)
    (K := fun v => adv v = false) ⟨rfl, rfl⟩ hno fun v hi hs hk => by
      have he := f.epoch_post v hs
      rw [hk] at he
      exact ⟨(f.owner_post v hs hk).trans hi.1, he.trans hi.2⟩
  exact ⟨fun v hv => (hinv.1 v hv).2, hinv.2⟩

end Fenced

end Interact
