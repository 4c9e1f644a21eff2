import Mathlib.Tactic.Common
import Mathlib.Logic.Function.Basic

/-!
# Updating one of two records

A store keeps two records (`none`: cannot be read back) and a rule picks the one
in use.  An update that writes the other record may be cut off anywhere, losing
what that record held, and may change the hint the rule goes by.

    r.pick s h = some i → Leaves s (!i) v t → r picks in t what i held, or v   (Rule.pick_leaves)
-/

namespace DualSlot

open Function

variable {V H : Type}

abbrev Slots (V : Type) := Bool → Option V

/-- A rule that picks a valid record, whatever the hint, as long as there is one. -/
structure Rule (V H : Type) where
  pick : Slots V → H → Option Bool
  valid : ∀ {s h i}, pick s h = some i → (s i).isSome
  total : ∀ {s h i}, (s i).isSome → (pick s h).isSome

/-- What writing `v` over the record `j` leaves, done or torn. -/
def Leaves (s : Slots V) (j : Bool) (v : V) (t : Slots V) : Prop :=
  t = update s j none ∨ t = update s j (some v)

theorem Leaves.other {s t : Slots V} {j : Bool} {v : V} (h : Leaves s (!j) v t) : t j = s j := by
  rcases h with rfl | rfl <;> exact update_of_ne (by simp) _ _

theorem Leaves.written {s t : Slots V} {j : Bool} {v w : V} (h : Leaves s j v t)
    (hw : t j = some w) : w = v := by
  rcases h with rfl | rfl
  · simp at hw
  · simpa [eq_comm] using hw

/-- **An update of the record not in use is safe at every point.** -/
theorem Rule.pick_leaves (r : Rule V H) {s t : Slots V} {h : H} {i : Bool} {v : V}
    (hi : r.pick s h = some i) (ht : Leaves s (!i) v t) (h' : H) :
    ∃ k, r.pick t h' = some k ∧ (k = i ∨ k = !i ∧ t k = some v) := by
  have hsome : (t i).isSome := by
    rw [ht.other]
    exact r.valid hi
  have hpick : (r.pick t h').isSome := r.total hsome
  obtain ⟨k, hk⟩ := Option.isSome_iff_exists.mp hpick
  refine ⟨k, hk, ?_⟩
  by_cases hki : k = i
  · exact .inl hki
  · have hne : k = !i := by
      revert hki
      cases k <;> cases i <;> decide
    subst hne
    obtain ⟨w, hw⟩ := Option.isSome_iff_exists.mp (r.valid hk)
    exact .inr ⟨rfl, by rw [hw, ht.written hw]⟩

end DualSlot
