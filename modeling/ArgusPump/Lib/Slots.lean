import Mathlib.Tactic.Common
import Mathlib.Data.Fintype.Card
import Mathlib.Data.Fintype.Option
import Mathlib.Algebra.BigOperators.Group.Finset.Basic
import Mathlib.Algebra.BigOperators.Group.Finset.Piecewise

/-!
# Arrays of slots

A pool is a fixed array of slots; `count p f` is how many of them hold a value with `p`.

    one slot is rewritten → the count changes by that slot        (Slots.count_update)
    fewer in use than slots → there is a first free one           (Slots.exists_firstFree)
    each owner has a resource of its own → there are no more owners than
      resources                                                   (Slots.count_le_of_owner)
    a free slot takes an occupant → the occupants are one more    (Slots.occupants_take)
    no two slots hold one key → the slots are a map of their keys (Slots.get_eq_some)
      … → as many slots are in use as there are keys             (Slots.card_keys)
-/

namespace Interact

namespace Slots

variable {α : Type} {n m : Nat}

def count (p : α → Bool) (f : Fin n → α) : Nat :=
  (Finset.univ.filter fun i => p (f i) = true).card

def firstFree (used : α → Bool) (f : Fin n → α) : Option (Fin n) :=
  (List.finRange n).find? fun i => !used (f i)

theorem count_eq_sum (p : α → Bool) (f : Fin n → α) :
    count p f = ∑ i, if p (f i) = true then 1 else 0 :=
  Finset.card_filter _ _

theorem count_eq_countP (p : α → Bool) (f : Fin n → α) :
    count p f = (List.finRange n).countP fun i => p (f i) := by
  have hfilter : (Finset.univ.filter fun i => p (f i) = true).val =
      ((List.finRange n).filter fun i => p (f i) : Multiset (Fin n)) := by
    simp [Finset.filter_val, Finset.val_univ_fin]
  unfold count
  rw [Finset.card_def, hfilter, Multiset.coe_card, List.countP_eq_length_filter]

/-- What is taken from slots with `p` is no more than there are of them. -/
theorem length_filterMap_le {β : Type} {p : α → Bool} {f : Fin n → α} {g : Fin n → Option β}
    (h : ∀ i, (g i).isSome = true → p (f i) = true) :
    ((List.finRange n).filterMap g).length ≤ count p f := by
  rw [count_eq_countP, List.length_filterMap_eq_countP]
  exact List.countP_mono_left fun i _ hi => h i hi

/-- Rewriting one slot. -/
theorem count_update (p : α → Bool) (f : Fin n → α) (i : Fin n) (a : α) :
    count p (Function.update f i a) + (if p (f i) = true then 1 else 0) =
      count p f + (if p a = true then 1 else 0) := by
  have hnew := Finset.add_sum_erase Finset.univ
    (fun j => if p (Function.update f i a j) = true then 1 else 0) (Finset.mem_univ i)
  have hold := Finset.add_sum_erase Finset.univ (fun j => if p (f j) = true then 1 else 0)
    (Finset.mem_univ i)
  have hrest : ∑ j ∈ Finset.univ.erase i, (if p (Function.update f i a j) = true then 1 else 0) =
      ∑ j ∈ Finset.univ.erase i, (if p (f j) = true then 1 else 0) := by
    refine Finset.sum_congr rfl fun j hj => ?_
    rw [Function.update_of_ne (Finset.ne_of_mem_erase hj)]
  simp only [Function.update_self] at hnew
  rw [count_eq_sum, count_eq_sum]
  omega

/-- A slot that had `p`, or does not get it, makes the count no larger. -/
theorem count_update_le {p : α → Bool} {f : Fin n → α} {i : Fin n} {a : α}
    (h : p a = true → p (f i) = true) : count p (Function.update f i a) ≤ count p f := by
  have hupdate := count_update p f i a
  split_ifs at hupdate with hold hnew hnew
  · omega
  · omega
  · exact absurd (h hnew) hold
  · omega

theorem count_update_le_succ (p : α → Bool) (f : Fin n → α) (i : Fin n) (a : α) :
    count p (Function.update f i a) ≤ count p f + 1 := by
  have hupdate := count_update p f i a
  split_ifs at hupdate <;> omega

theorem count_le_count {p q : α → Bool} (h : ∀ a, p a = true → q a = true) (f : Fin n → α) :
    count p f ≤ count q f :=
  Finset.card_le_card (Finset.monotone_filter_right _ fun i _ => h (f i))

theorem count_eq_zero {p : α → Bool} {f : Fin n → α} :
    count p f = 0 ↔ ∀ i, p (f i) = false := by
  unfold count
  rw [Finset.card_eq_zero, Finset.filter_eq_empty_iff]
  simp

/-- The slots with `p` are those without and those with `q`. -/
theorem count_split (p q : α → Bool) (f : Fin n → α) :
    count p f = count (fun a => p a && !q a) f + count (fun a => p a && q a) f := by
  rw [count_eq_sum, count_eq_sum, count_eq_sum, ← Finset.sum_add_distrib]
  refine Finset.sum_congr rfl fun i _ => ?_
  cases p (f i) <;> cases q (f i) <;> rfl

/-- A scan stops at the first index of its kind. -/
theorem find_spec {p : Fin n → Bool} {i : Fin n} (h : (List.finRange n).find? p = some i) :
    p i = true ∧ ∀ j < i, p j = false := by
  obtain ⟨hp, k, hk, hki, hbefore⟩ := List.find?_eq_some_iff_getElem.mp h
  rw [List.getElem_finRange] at hki
  refine ⟨hp, fun j hj => ?_⟩
  have hjk : j.val < k := by
    rw [← hki] at hj
    exact hj
  have hbj := hbefore j.val hjk
  rw [List.getElem_finRange] at hbj
  simpa using hbj

theorem firstFree_spec {used : α → Bool} {f : Fin n → α} {i : Fin n}
    (h : firstFree used f = some i) : used (f i) = false := by
  have := List.find?_some h
  simpa using this

theorem exists_firstFree {used : α → Bool} {f : Fin n → α} (h : count used f < n) :
    ∃ i, firstFree used f = some i := by
  rw [← Option.isSome_iff_exists]
  unfold firstFree
  rw [List.find?_isSome]
  by_contra hno
  push Not at hno
  have hall : Finset.univ.filter (fun i => used (f i) = true) = Finset.univ := by
    rw [Finset.filter_eq_self]
    intro i _
    simpa using hno i (List.mem_finRange i)
  unfold count at h
  rw [hall, Finset.card_univ, Fintype.card_fin] at h
  exact Nat.lt_irrefl n h

theorem count_le_of_owner {p : α → Bool} {f : Fin n → α} (own : α → Option (Fin m))
    (hown : ∀ i, p (f i) = true → ∃ k, own (f i) = some k)
    (hone : ∀ i j k, own (f i) = some k → own (f j) = some k → i = j) : count p f ≤ m := by
  have hcard : count p f ≤ ((Finset.univ : Finset (Option (Fin m))).erase none).card := by
    refine Finset.card_le_card_of_injOn (fun i => own (f i)) (fun i hi => ?_) fun i hi j hj heq => ?_
    · obtain ⟨k, hk⟩ := hown i (Finset.mem_filter.mp hi).2
      rw [Finset.mem_coe, Finset.mem_erase]
      refine ⟨?_, Finset.mem_univ _⟩
      show own (f i) ≠ none
      rw [hk]
      exact Option.some_ne_none k
    · obtain ⟨k, hk⟩ := hown i (Finset.mem_filter.mp hi).2
      exact hone i j k hk (heq.symm.trans hk)
  rw [Finset.card_erase_of_mem (Finset.mem_univ _), Finset.card_univ, Fintype.card_option,
    Fintype.card_fin] at hcard
  exact hcard

theorem firstFree_eq_none {used : α → Bool} {f : Fin n → α} (h : firstFree used f = none) (i : Fin n) :
    used (f i) = true := by
  have hall := List.find?_eq_none.mp h i (List.mem_finRange i)
  simpa using hall

/-- The scan finds nothing exactly in a full array. -/
theorem firstFree_eq_none_iff {used : α → Bool} {f : Fin n → α} :
    firstFree used f = none ↔ count used f = n := by
  constructor
  · intro h
    have hall : Finset.univ.filter (fun i => used (f i) = true) = Finset.univ :=
      Finset.filter_true_of_mem fun i _ => firstFree_eq_none h i
    unfold count
    rw [hall, Finset.card_univ, Fintype.card_fin]
  · intro h
    by_contra hno
    obtain ⟨i, hi⟩ := Option.ne_none_iff_exists'.mp hno
    have hfree : count used f < Fintype.card (Fin n) := by
      refine Finset.card_lt_univ_of_notMem (x := i) ?_
      rw [Finset.mem_filter, firstFree_spec hi]
      simp
    rw [Fintype.card_fin] at hfree
    omega

theorem count_map_le {p : α → Bool} {g : α → α} (h : ∀ a, p (g a) = true → p a = true)
    (f : Fin n → α) : count p (fun i => g (f i)) ≤ count p f :=
  Finset.card_le_card (Finset.monotone_filter_right _ fun i _ => h (f i))

/-! ## Occupants -/

section Occupants

variable {f : Fin n → Option α} {i : Fin n} {a : α}

/-- What the slots hold, in their order. -/
def occupants (f : Fin n → Option α) : List α := (List.finRange n).filterMap f

theorem mem_occupants : a ∈ occupants f ↔ ∃ i, f i = some a := by
  unfold occupants
  rw [List.mem_filterMap]
  exact ⟨fun ⟨i, _, h⟩ => ⟨i, h⟩, fun ⟨i, h⟩ => ⟨i, List.mem_finRange i, h⟩⟩

/-- A slot that is freed gives its occupant back. -/
theorem occupants_free (h : f i = some a) :
    (occupants f).Perm (a :: occupants (Function.update f i none)) := by
  have hperm := List.perm_cons_erase (List.mem_finRange i)
  have hrest : ((List.finRange n).erase i).filterMap (Function.update f i none) =
      ((List.finRange n).erase i).filterMap f := by
    refine List.filterMap_congr fun j hj => Function.update_of_ne (fun hji => ?_) _ _
    rw [hji] at hj
    exact (List.nodup_finRange n).not_mem_erase hj
  have hleft := hperm.filterMap f
  have hright := hperm.filterMap (Function.update f i none)
  rw [List.filterMap_cons_some h, ← hrest] at hleft
  rw [List.filterMap_cons_none (Function.update_self ..)] at hright
  exact hleft.trans (hright.symm.cons a)

/-- A free slot takes an occupant. -/
theorem occupants_take (h : f i = none) (a : α) :
    (occupants (Function.update f i (some a))).Perm (a :: occupants f) := by
  have hperm := occupants_free (f := Function.update f i (some a)) (Function.update_self i (some a) f)
  rw [Function.update_idem, ← h, Function.update_eq_self] at hperm
  exact hperm

theorem exists_free (h : (occupants f).length < n) : ∃ i, f i = none := by
  by_contra hno
  have hall : ∀ i ∈ List.finRange n, (f i).isSome = true := fun i _ => by
    rw [Option.isSome_iff_ne_none]
    exact fun hi => hno ⟨i, hi⟩
  unfold occupants at h
  rw [List.length_filterMap_eq_countP, List.countP_eq_length.mpr hall, List.length_finRange] at h
  exact Nat.lt_irrefl n h

end Occupants

/-! ## Keys -/

section Keyed

variable {κ : Type} {key : α → Option κ} {f : Fin n → α}

/-- No two slots hold one key. -/
def Keyed (key : α → Option κ) (f : Fin n → α) : Prop :=
  ∀ i j k, key (f i) = some k → key (f j) = some k → i = j

theorem keyed_of_free (h : ∀ i, key (f i) = none) : Keyed key f := by
  intro i j k hi _
  rw [h i] at hi
  cases hi

/-- A slot gets a key that no other slot holds, or none. -/
theorem Keyed.update (h : Keyed key f) {i : Fin n} {a : α}
    (hnew : ∀ j k, key a = some k → key (f j) = some k → j = i) :
    Keyed key (Function.update f i a) := by
  intro j j' k hj hj'
  by_cases hji : j = i
  · by_cases hji' : j' = i
    · exact hji.trans hji'.symm
    · rw [hji, Function.update_self] at hj
      rw [Function.update_of_ne hji'] at hj'
      exact absurd (hnew j' k hj hj') hji'
  · rw [Function.update_of_ne hji] at hj
    by_cases hji' : j' = i
    · rw [hji', Function.update_self] at hj'
      exact absurd (hnew j k hj' hj) hji
    · rw [Function.update_of_ne hji'] at hj'
      exact h j j' k hj hj'

/-- The slots as a map: what the slot of a key holds. -/
def get [DecidableEq κ] (key : α → Option κ) (f : Fin n → α) (k : κ) : Option α :=
  ((List.finRange n).find? fun i => key (f i) = some k).map f

variable [DecidableEq κ] {k : κ} {a : α} {i : Fin n}

theorem get_eq_none : get key f k = none ↔ ∀ i, key (f i) ≠ some k := by
  unfold get
  rw [Option.map_eq_none_iff, List.find?_eq_none]
  constructor
  · exact fun h i hi => h i (List.mem_finRange i) (decide_eq_true hi)
  · exact fun h i _ hi => h i (of_decide_eq_true hi)

theorem exists_of_get (h : get key f k = some a) : ∃ i, f i = a ∧ key a = some k := by
  obtain ⟨i, hi, rfl⟩ := Option.map_eq_some_iff.mp h
  have hfound := List.find?_some hi
  exact ⟨i, rfl, of_decide_eq_true hfound⟩

theorem get_eq_some (h : Keyed key f) : get key f k = some a ↔ ∃ i, f i = a ∧ key a = some k := by
  refine ⟨exists_of_get, ?_⟩
  rintro ⟨i, rfl, hk⟩
  cases hget : get key f k with
  | none => exact absurd hk (get_eq_none.mp hget i)
  | some b =>
    obtain ⟨j, rfl, hj⟩ := exists_of_get hget
    rw [h j i k hj hk]

/-- The slot that has the key, or a free one when none has it, gets it. -/
theorem get_update_self (h : Keyed key f) (hi : ∀ j, key (f j) = some k → j = i)
    (ha : key a = some k) : get key (Function.update f i a) k = some a := by
  have hkeyed : Keyed key (Function.update f i a) := h.update fun j k' hk' hj => by
    cases ha.symm.trans hk'
    exact hi j hj
  rw [get_eq_some hkeyed]
  exact ⟨i, Function.update_self .., ha⟩

theorem get_update_none (hi : ∀ j, key (f j) = some k → j = i) (ha : key a ≠ some k) :
    get key (Function.update f i a) k = none := by
  rw [get_eq_none]
  intro j hj
  by_cases hji : j = i
  · rw [hji, Function.update_self] at hj
    exact ha hj
  · rw [Function.update_of_ne hji] at hj
    exact hji (hi j hj)

/-- A slot that neither had nor gets another key leaves the map as it is there. -/
theorem get_update_of_ne {k' : κ} (hi : key (f i) ≠ some k') (ha : key a ≠ some k') :
    get key (Function.update f i a) k' = get key f k' := by
  have hiff (j : Fin n) : key (Function.update f i a j) = some k' ↔ key (f j) = some k' := by
    by_cases hji : j = i
    · rw [hji, Function.update_self]
      exact ⟨fun h => absurd h ha, fun h => absurd h hi⟩
    · rw [Function.update_of_ne hji]
  unfold get
  have hfind : (List.finRange n).find? (fun j => key (Function.update f i a j) = some k') =
      (List.finRange n).find? fun j => key (f j) = some k' := by
    congr 1
    funext j
    exact decide_eq_decide.mpr (hiff j)
  rw [hfind]
  cases hfound : (List.finRange n).find? fun j => key (f j) = some k' with
  | none => rfl
  | some j =>
    have hj := List.find?_some hfound
    have hji : j ≠ i := by
      rintro rfl
      exact hi (of_decide_eq_true hj)
    rw [Option.map_some, Option.map_some, Function.update_of_ne hji]

/-- A key that still has a slot when another key has got one has what it had. -/
theorem get_update_kept (h : Keyed key f) (ha : key a = some k) {k' : κ} (hne : k' ≠ k)
    (hkept : (get key f k').isSome = true → (get key (Function.update f i a) k').isSome = true) :
    get key (Function.update f i a) k' = get key f k' := by
  have hak : key a ≠ some k' := fun hak => hne (Option.some.inj (hak.symm.trans ha))
  refine get_update_of_ne (fun hik => ?_) hak
  have hgone : get key (Function.update f i a) k' = none :=
    get_update_none (fun j hj => h j i k' hj hik) hak
  rw [hgone, (get_eq_some h).mpr ⟨i, rfl, hik⟩] at hkept
  exact Bool.noConfusion (hkept rfl)

/-- As many slots as there are keys leave one free for a key that has none. -/
theorem exists_unkeyed (h : Keyed key f) {keys : List κ} (hlen : keys.length ≤ n) (hk : k ∈ keys)
    (hknown : ∀ i k', key (f i) = some k' → k' ∈ keys) (hnone : ∀ i, key (f i) ≠ some k) :
    ∃ i, key (f i) = none := by
  by_contra hno
  have hkey (i : Fin n) : ∃ k', key (f i) = some k' := by
    cases hi : key (f i) with
    | none => exact absurd ⟨i, hi⟩ hno
    | some k' => exact ⟨k', rfl⟩
  choose g hg using hkey
  have hcard : Fintype.card (Fin n) ≤ (keys.toFinset.erase k).card := by
    refine Finset.card_le_card_of_injOn g (fun i _ => ?_) fun i _ j _ heq => ?_
    · rw [Finset.mem_coe, Finset.mem_erase, List.mem_toFinset]
      refine ⟨fun heq => hnone i ?_, hknown i (g i) (hg i)⟩
      rw [hg i, heq]
    · exact h i j (g i) (hg i) (heq ▸ hg j)
  have herase := Finset.card_erase_lt_of_mem (List.mem_toFinset.mpr hk)
  have hle := List.toFinset_card_le keys
  rw [Fintype.card_fin] at hcard
  omega

/-- The keys that are held. -/
def keys (key : α → Option κ) (f : Fin n → α) : Finset κ :=
  Finset.univ.biUnion fun i => (key (f i)).toFinset

theorem mem_keys : k ∈ keys key f ↔ ∃ i, key (f i) = some k := by
  unfold keys
  rw [Finset.mem_biUnion]
  simp [Option.mem_toFinset]

/-- Each key takes one slot. -/
theorem card_keys (h : Keyed key f) :
    (keys key f).card = count (fun a => (key a).isSome) f := by
  unfold keys
  rw [Finset.card_biUnion, count_eq_sum]
  · refine Finset.sum_congr rfl fun i _ => ?_
    cases key (f i) <;> rfl
  · intro i _ j _ hij
    show Disjoint (key (f i)).toFinset (key (f j)).toFinset
    rw [Finset.disjoint_left]
    intro k hi hj
    rw [Option.mem_toFinset] at hi hj
    exact hij (h i j k hi hj)

end Keyed

end Slots

end Interact
