import Mathlib.Data.List.Nodup
import Mathlib.Data.List.Perm.Basic

/-!
# A packed array as a finite map

The first `count` places of an array are in use (`entries`) and the rest are zeroed
(`ZeroTail`).  Entries are found by a key no two share (`get?`).  An entry is added at the
end, changed in place, or removed by moving the last entry or all later entries.

    the loop that checks every place                      (check_iff)
    push, set and the two erasures on the entries         (entries_push, entries_set,
                                                            eraseSwap_perm, entries_eraseShift)
    an erasure takes one entry and leaves the others      (mem_eraseIdx_iff)
    get? = some x ↔ x is an entry with that key           (get?_eq_some)
    push, set, erase and change all on the map            (get?_push, get?_set, get?_of_perm,
                                                            get?_mapEntries)
-/

namespace Packed

variable {α κ : Type} {n : Nat}

def entries (a : Vector α n) (count : Nat) : List α := a.toList.take count

/-- The places after the entries hold `zero`. -/
def ZeroTail (zero : α) (a : Vector α n) (count : Nat) : Prop := ∀ i : Fin n, count ≤ i.val → a[i] = zero

/-- The first place in use with `p`. -/
def find? (a : Vector α n) (count : Nat) (p : α → Bool) : Option (Fin n) :=
  (List.finRange n).find? fun i => i.val < count && p a[i]

/-- The last entry takes the place of entry `i`. -/
def eraseSwap (zero : α) (a : Vector α n) (count : Nat) (i : Fin n) : Vector α n :=
  match a[count - 1]? with
  | some last =>
    if i.val ≠ count - 1 then (a.set i last).setIfInBounds (count - 1) zero else a.set i zero
  | none => a.set i zero

/-- The entries after `i` move down by one. -/
def eraseShift (zero : α) (a : Vector α n) (count : Nat) (i : Fin n) : Vector α n :=
  Vector.ofFn fun j =>
    if j.val < i.val then a[j]
    else if h : j.val + 1 < count ∧ j.val + 1 < n then a[j.val + 1]
    else if j.val = count - 1 then zero
    else a[j]

/-- Every entry changed. -/
def mapEntries (f : α → α) (a : Vector α n) (count : Nat) : Vector α n :=
  Vector.ofFn fun i => if i.val < count then f a[i] else a[i]

/-- The loop over an array that checks the entries, each against the earlier ones, and the
rest for zeros. -/
def check [DecidableEq α] (good : α → Bool) (clash : α → α → Bool) (zero : α) (a : Vector α n)
    (count : Nat) : Bool :=
  (List.finRange n).all fun i =>
    if i.val < count then
      good a[i] && (List.finRange n).all fun j => ¬ (j < i ∧ clash a[i] a[j] = true)
    else a[i] = zero

/-! ## The entries -/

variable {a : Vector α n} {count : Nat}

theorem length_entries (h : count ≤ n) : (entries a count).length = count := by
  simp [entries, h]

theorem getElem?_entries (i : Nat) :
    (entries a count)[i]? = if i < count then a[i]? else none := by
  simp [entries, List.getElem?_take]

theorem getElem_entries {i : Fin n} (h : i.val < count) :
    (entries a count)[i.val]? = some a[i] := by
  rw [getElem?_entries, if_pos h]
  simp

theorem mem_entries {x : α} : x ∈ entries a count ↔ ∃ i : Fin n, i.val < count ∧ a[i] = x := by
  rw [List.mem_iff_getElem?]
  constructor
  · rintro ⟨i, hi⟩
    rw [getElem?_entries] at hi
    split at hi
    · next hlt =>
      obtain ⟨hn, hx⟩ := Vector.getElem?_eq_some_iff.mp hi
      exact ⟨⟨i, hn⟩, hlt, hx⟩
    · cases hi
  · rintro ⟨i, hlt, rfl⟩
    exact ⟨i.val, getElem_entries hlt⟩

theorem find?_eq_some {p : α → Bool} {i : Fin n} (h : find? a count p = some i) :
    i.val < count ∧ p a[i] = true := by
  have hp := List.find?_some h
  rwa [Bool.and_eq_true, decide_eq_true_eq] at hp

theorem find?_eq_none {p : α → Bool} :
    find? a count p = none ↔ ∀ x ∈ entries a count, p x = false := by
  unfold find?
  rw [List.find?_eq_none]
  constructor
  · intro h x hx
    obtain ⟨i, hlt, rfl⟩ := mem_entries.mp hx
    have hi := h i (List.mem_finRange i)
    simpa [hlt] using hi
  · intro h i _
    rw [Bool.and_eq_true, decide_eq_true_eq]
    rintro ⟨hlt, hp⟩
    have hno := h a[i] (mem_entries.mpr ⟨i, hlt, rfl⟩)
    rw [hp] at hno
    cases hno

/-- What the checking loop accepts. -/
theorem check_iff [DecidableEq α] {good : α → Bool} {clash : α → α → Bool} {zero : α}
    (hn : count ≤ n) :
    check good clash zero a count = true ↔ (∀ x ∈ entries a count, good x = true) ∧
      (entries a count).Pairwise (fun x y => clash y x = false) ∧ ZeroTail zero a count := by
  unfold check
  rw [List.all_eq_true]
  constructor
  · intro h
    refine ⟨fun x hx => ?_, ?_, fun i hi => ?_⟩
    · obtain ⟨i, hi, rfl⟩ := mem_entries.mp hx
      have hgood := h i (List.mem_finRange i)
      rw [if_pos hi, Bool.and_eq_true] at hgood
      exact hgood.1
    · rw [List.pairwise_iff_getElem]
      intro j i hj hi hlt
      rw [length_entries hn] at hj hi
      have hgood := h ⟨i, by omega⟩ (List.mem_finRange _)
      rw [if_pos hi, Bool.and_eq_true, List.all_eq_true] at hgood
      have hno := hgood.2 ⟨j, by omega⟩ (List.mem_finRange _)
      rw [decide_eq_true_eq, not_and, Bool.not_eq_true] at hno
      simpa [entries] using hno hlt
    · have htail := h i (List.mem_finRange i)
      rwa [if_neg (by omega), decide_eq_true_eq] at htail
  · rintro ⟨hgood, hpair, htail⟩ i -
    split
    · next hi =>
      rw [Bool.and_eq_true, List.all_eq_true]
      refine ⟨hgood _ (mem_entries.mpr ⟨i, hi, rfl⟩), fun j _ => ?_⟩
      rw [decide_eq_true_eq, not_and, Bool.not_eq_true]
      intro hlt
      have hjc : j.val < count := Nat.lt_trans hlt hi
      have hno := List.pairwise_iff_getElem.mp hpair j.val i.val
        (by rw [length_entries hn]; exact hjc) (by rw [length_entries hn]; exact hi) hlt
      simpa [entries] using hno
    · next hi => exact decide_eq_true (htail i (by omega))

theorem entries_push (h : count < n) (x : α) :
    entries (a.set count x) (count + 1) = entries a count ++ [x] := by
  apply List.ext_getElem?
  intro i
  rw [getElem?_entries, List.getElem?_append, length_entries (Nat.le_of_lt h), getElem?_entries]
  rcases Nat.lt_trichotomy i count with hlt | rfl | hlt
  · rw [if_pos (by omega), if_pos hlt, if_pos hlt, Vector.getElem?_set_ne]
    omega
  · rw [if_pos (by omega), if_neg (by omega), Vector.getElem?_set_self]
    simp
  · rw [if_neg (by omega), if_neg (by omega), eq_comm, List.getElem?_eq_none]
    simp
    omega

theorem entries_set {i : Fin n} (x : α) :
    entries (a.set i x) count = (entries a count).set i.val x := by
  unfold entries
  rw [Vector.toList_set, List.take_set]

theorem entries_eraseShift {zero : α} {i : Fin n} (hi : i.val < count) (hn : count ≤ n) :
    entries (eraseShift zero a count i) (count - 1) = (entries a count).eraseIdx i.val := by
  apply List.ext_getElem?
  intro j
  rw [getElem?_entries, List.getElem?_eraseIdx, getElem?_entries, getElem?_entries]
  by_cases hj : j < count - 1
  · have hjn : j < n := by omega
    rw [if_pos hj, if_pos (by omega : j < count), if_pos (by omega : j + 1 < count)]
    unfold eraseShift
    rw [Vector.getElem?_ofFn, dif_pos hjn]
    by_cases hlt : j < i.val
    · rw [if_pos hlt, if_pos hlt]
      simp [hjn]
    · have hnext : j + 1 < count := by omega
      have hstep : j + 1 < n := by omega
      rw [if_neg hlt, if_neg hlt, dif_pos ⟨hnext, hstep⟩]
      simp [hstep]
  · rw [if_neg hj]
    split
    · rw [if_neg (by omega)]
    · rw [if_neg (by omega)]

theorem zeroTail_eraseShift {zero : α} {i : Fin n} (h : ZeroTail zero a count) (hi : i.val < count) :
    ZeroTail zero (eraseShift zero a count i) (count - 1) := by
  intro j hj
  unfold eraseShift
  rw [Fin.getElem_fin, Vector.getElem_ofFn]
  dsimp only
  by_cases hlast : j.val = count - 1
  · rw [if_neg (by omega), dif_neg (by omega), if_pos hlast]
  · rw [if_neg (by omega), dif_neg (by omega), if_neg hlast]
    exact h j (by omega)

theorem entries_eraseSwap {zero : α} {i : Fin n} (hi : i.val < count) (hn : count ≤ n) :
    ∃ last, (entries a count)[count - 1]? = some last ∧
      entries (eraseSwap zero a count i) (count - 1) = ((entries a count).set i.val last).take (count - 1) := by
  have hlt : count - 1 < n := by omega
  refine ⟨a[count - 1], getElem_entries (i := ⟨count - 1, hlt⟩) (by show count - 1 < count; omega), ?_⟩
  have hlast : a[count - 1]? = some a[count - 1] := by simp [hlt]
  unfold eraseSwap
  rw [hlast]
  dsimp only
  apply List.ext_getElem?
  intro j
  rw [getElem?_entries, List.getElem?_take, List.getElem?_set, length_entries hn, getElem?_entries]
  by_cases hj : j < count - 1
  · rw [if_pos hj, if_pos hj]
    split
    · rw [Vector.getElem?_setIfInBounds, if_neg (by omega), Vector.getElem?_set]
      by_cases hij : i.val = j
      · rw [if_pos hij, if_pos hij]
      · rw [if_neg hij, if_neg hij, if_pos (by omega)]
    · next heq =>
      rw [not_not] at heq
      rw [Vector.getElem?_set, if_neg (by omega), if_neg (by omega), if_pos (by omega)]
  · rw [if_neg hj, if_neg hj]

theorem getElem_mapEntries {f : α → α} (i : Fin n) :
    (mapEntries f a count)[i] = if i.val < count then f a[i] else a[i] := by
  unfold mapEntries
  rw [Fin.getElem_fin, Vector.getElem_ofFn]

theorem entries_mapEntries {f : α → α} (hn : count ≤ n) :
    entries (mapEntries f a count) count = (entries a count).map f := by
  apply List.ext_getElem?
  intro j
  rw [getElem?_entries, List.getElem?_map, getElem?_entries]
  by_cases hj : j < count
  · have hjn : j < n := by omega
    rw [if_pos hj, if_pos hj]
    unfold mapEntries
    rw [Vector.getElem?_ofFn, dif_pos hjn, if_pos hj]
    simp [hjn]
  · rw [if_neg hj, if_neg hj, Option.map_none]

theorem zeroTail_mapEntries {f : α → α} {zero : α} (h : ZeroTail zero a count) :
    ZeroTail zero (mapEntries f a count) count := by
  intro i hi
  rw [getElem_mapEntries, if_neg (by omega)]
  exact h i hi

/-- The last element over element `i`, and the last place dropped. -/
theorem set_last_perm (init : List α) (last : α) {i : Nat} (h : i ≤ init.length) :
    (((init ++ [last]).set i last).take init.length).Perm ((init ++ [last]).eraseIdx i) := by
  rcases Nat.lt_or_eq_of_le h with hlt | rfl
  · rw [List.set_append_left _ _ hlt, List.take_left' (List.length_set ..),
      List.eraseIdx_append_of_lt_length hlt]
    exact (List.set_perm_cons_eraseIdx hlt last).trans (List.perm_append_singleton last _).symm
  · rw [List.set_append_right _ _ (Nat.le_refl _), List.take_left' rfl,
      List.eraseIdx_append_of_length_le (Nat.le_refl _)]
    simp

/-- Moving the last entry into the gap removes one entry, up to order. -/
theorem eraseSwap_perm {zero : α} {i : Fin n} (hi : i.val < count) (hn : count ≤ n) :
    (entries (eraseSwap zero a count i) (count - 1)).Perm ((entries a count).eraseIdx i.val) := by
  obtain ⟨last, hlast, heq⟩ := @entries_eraseSwap α n a count zero i hi hn
  have hlen := length_entries (a := a) hn
  obtain ⟨hlt, hget⟩ := List.getElem?_eq_some_iff.mp hlast
  have hsplit : (entries a count).take (count - 1) ++ [last] = entries a count := by
    rw [← hget, List.take_append_getElem, Nat.sub_add_cancel (by omega), List.take_of_length_le (Nat.le_of_eq hlen)]
  have hinit : ((entries a count).take (count - 1)).length = count - 1 := by simp; omega
  rw [heq]
  have hperm := set_last_perm ((entries a count).take (count - 1)) last (i := i.val) (by omega)
  rwa [hsplit, hinit] at hperm

/-- The entry that goes, and the others. -/
theorem perm_cons_eraseSwap (zero : α) {i : Fin n} (hi : i.val < count) (hn : count ≤ n) :
    (entries a count).Perm (a[i] :: entries (eraseSwap zero a count i) (count - 1)) := by
  have hlen : i.val < (entries a count).length := by rwa [length_entries hn]
  have hget : (entries a count)[i.val] = a[i] := by
    apply Option.some.inj
    rw [← List.getElem?_eq_getElem hlen, getElem_entries hi]
  have hperm := List.getElem_cons_eraseIdx_perm hlen
  rw [hget] at hperm
  exact hperm.symm.trans ((eraseSwap_perm hi hn).symm.cons a[i])

/-- What an erasure leaves of entries no two of which are the same. -/
theorem mem_eraseIdx_iff {l : List α} (h : l.Nodup) {i : Nat} {y : α} (hy : l[i]? = some y) {x : α} :
    x ∈ l.eraseIdx i ↔ x ∈ l ∧ x ≠ y := by
  classical
  obtain ⟨hlt, rfl⟩ := List.getElem?_eq_some_iff.mp hy
  rw [← h.erase_getElem i hlt, h.mem_erase_iff, and_comm]

/-- What an erasure leaves of entries no two of which share a key. -/
theorem eraseIdx_eq_filter [DecidableEq κ] {key : α → κ} {l : List α} (h : (l.map key).Nodup) {i : Nat}
    {y : α} (hy : l[i]? = some y) : l.eraseIdx i = l.filter fun x => key x ≠ key y := by
  induction l generalizing i with
  | nil => cases hy
  | cons head tail ih =>
    rw [List.map_cons, List.nodup_cons] at h
    cases i with
    | zero =>
      obtain rfl : head = y := by simpa using hy
      have hothers : ∀ x ∈ tail, key x ≠ key head := by
        intro x hx heq
        exact h.1 (heq ▸ List.mem_map_of_mem hx)
      rw [List.eraseIdx_cons_zero, List.filter_cons_of_neg (by simp), eq_comm, List.filter_eq_self]
      intro x hx
      exact decide_eq_true (hothers x hx)
    | succ i =>
      rw [List.getElem?_cons_succ] at hy
      have hhead : key head ≠ key y := by
        intro heq
        exact h.1 (heq ▸ List.mem_map_of_mem (List.mem_of_getElem? hy))
      rw [List.eraseIdx_cons_succ, List.filter_cons_of_pos (by simpa using hhead), ih h.2 hy]

theorem mem_set_iff {l : List α} (h : l.Nodup) {i : Nat} {y z : α} (hy : l[i]? = some y) {x : α} :
    x ∈ l.set i z ↔ x = z ∨ x ∈ l ∧ x ≠ y := by
  obtain ⟨hlt, -⟩ := List.getElem?_eq_some_iff.mp hy
  rw [(List.set_perm_cons_eraseIdx hlt z).mem_iff, List.mem_cons, mem_eraseIdx_iff h hy]

/-! ## The map -/

variable [DecidableEq κ] {key : α → κ}

/-- The entry with a key. -/
def get? (key : α → κ) (a : Vector α n) (count : Nat) (k : κ) : Option α :=
  (find? a count fun x => key x = k).map fun i => a[i]

/-- No two entries share a key. -/
def Keyed (key : α → κ) (a : Vector α n) (count : Nat) : Prop := ((entries a count).map key).Nodup

omit [DecidableEq κ] in
theorem keyed_iff_pairwise :
    Keyed key a count ↔ (entries a count).Pairwise fun x y => key y ≠ key x := by
  unfold Keyed
  rw [List.nodup_iff_pairwise_ne, List.pairwise_map]
  simp only [ne_comm]

/-- A loop that compares keys leaves no two entries with one key. -/
theorem keyed_iff :
    Keyed key a count ↔
      (entries a count).Pairwise fun x y => (decide (key y = key x) : Bool) = false := by
  simp only [keyed_iff_pairwise, decide_eq_false_iff_not, ne_eq]

omit [DecidableEq κ] in
theorem Keyed.nodup (h : Keyed key a count) : (entries a count).Nodup := List.Nodup.of_map _ h

omit [DecidableEq κ] in
theorem Keyed.eq_of_key (h : Keyed key a count) {x y : α} (hx : x ∈ entries a count)
    (hy : y ∈ entries a count) (hk : key x = key y) : x = y := List.inj_on_of_nodup_map h hx hy hk

omit [DecidableEq κ] in
theorem Keyed.eraseShift {zero : α} (h : Keyed key a count) {i : Fin n} (hi : i.val < count)
    (hn : count ≤ n) : Keyed key (eraseShift zero a count i) (count - 1) := by
  unfold Keyed
  rw [entries_eraseShift hi hn]
  exact h.sublist ((List.eraseIdx_sublist _ _).map key)

omit [DecidableEq κ] in
theorem Keyed.mapEntries {f : α → α} (h : Keyed key a count) (hn : count ≤ n)
    (hf : ∀ x, key (f x) = key x) : Keyed key (mapEntries f a count) count := by
  unfold Keyed
  rw [entries_mapEntries hn, List.map_map]
  have hkey : key ∘ f = key := funext hf
  rw [hkey]
  exact h

/-- An entry is found under its key. -/
theorem find?_key (h : Keyed key a count) {i : Fin n} (hi : i.val < count) :
    find? a count (fun x => key x = key a[i]) = some i := by
  cases hf : find? a count fun x => key x = key a[i] with
  | none =>
    have hno := find?_eq_none.mp hf a[i] (mem_entries.mpr ⟨i, hi, rfl⟩)
    simp at hno
  | some j =>
    obtain ⟨hj, hk⟩ := find?_eq_some hf
    rw [decide_eq_true_eq] at hk
    have hsame : a[j] = a[i] :=
      h.eq_of_key (mem_entries.mpr ⟨j, hj, rfl⟩) (mem_entries.mpr ⟨i, hi, rfl⟩) hk
    have hget : (entries a count)[j.val]? = (entries a count)[i.val]? := by
      rw [getElem_entries hj, getElem_entries hi, hsame]
    obtain ⟨hlt, -⟩ := List.getElem?_eq_some_iff.mp (getElem_entries hj)
    rw [Fin.ext ((List.getElem?_inj hlt h.nodup).mp hget)]

theorem get?_of_find? {k : κ} {i : Fin n} (h : find? a count (fun x => key x = k) = some i) :
    get? key a count k = some a[i] := by
  unfold get?
  rw [h]
  rfl

theorem get?_eq_none {k : κ} : get? key a count k = none ↔ ∀ x ∈ entries a count, key x ≠ k := by
  unfold get?
  rw [Option.map_eq_none_iff, find?_eq_none]
  simp

theorem get?_eq_some (h : Keyed key a count) {k : κ} {x : α} :
    get? key a count k = some x ↔ x ∈ entries a count ∧ key x = k := by
  cases hf : find? a count fun x => key x = k with
  | none =>
    have hno := find?_eq_none.mp hf
    unfold get?
    rw [hf]
    constructor
    · exact nofun
    · rintro ⟨hx, rfl⟩
      simpa using hno x hx
  | some i =>
    obtain ⟨hlt, hk⟩ := find?_eq_some hf
    rw [decide_eq_true_eq] at hk
    rw [get?_of_find? hf, Option.some.injEq]
    constructor
    · rintro rfl
      exact ⟨mem_entries.mpr ⟨i, hlt, rfl⟩, hk⟩
    · rintro ⟨hx, hxk⟩
      exact h.eq_of_key (mem_entries.mpr ⟨i, hlt, rfl⟩) hx (hk.trans hxk.symm)

theorem get?_of_mem (h : Keyed key a count) {x : α} (hx : x ∈ entries a count) :
    get? key a count (key x) = some x := (get?_eq_some h).mpr ⟨hx, rfl⟩

/-- A new entry. -/
theorem get?_push (h : Keyed key a count) (hn : count < n) {x : α}
    (hnew : Keyed key (a.set count x) (count + 1)) (k : κ) :
    get? key (a.set count x) (count + 1) k = if k = key x then some x else get? key a count k := by
  ext y
  rw [get?_eq_some hnew, entries_push hn, List.mem_append, List.mem_singleton]
  split
  · next hk =>
    subst hk
    rw [Option.some.injEq]
    constructor
    · rintro ⟨hy | rfl, hkey⟩
      · refine hnew.eq_of_key ?_ ?_ hkey.symm
        all_goals rw [entries_push hn]
        · simp
        · simp [hy]
      · rfl
    · rintro rfl
      exact ⟨.inr rfl, rfl⟩
  · next hk =>
    rw [get?_eq_some h]
    constructor
    · rintro ⟨hy | rfl, rfl⟩
      · exact ⟨hy, rfl⟩
      · exact absurd rfl hk
    · rintro ⟨hy, hkey⟩
      exact ⟨.inl hy, hkey⟩

/-- An entry changed in place, its key kept. -/
theorem get?_set (h : Keyed key a count) {i : Fin n} (hi : i.val < count) {x : α}
    (hx : key x = key a[i]) (hnew : Keyed key (a.set i x) count) (k : κ) :
    get? key (a.set i x) count k = if k = key x then some x else get? key a count k := by
  ext y
  rw [get?_eq_some hnew, entries_set, mem_set_iff h.nodup (getElem_entries hi)]
  split
  · next hk =>
    subst hk
    rw [Option.some.injEq]
    constructor
    · rintro ⟨rfl | ⟨hy, hne⟩, hkey⟩
      · rfl
      · exact absurd (h.eq_of_key hy (mem_entries.mpr ⟨i, hi, rfl⟩) (hkey.trans hx)) hne
    · rintro rfl
      exact ⟨.inl rfl, rfl⟩
  · next hk =>
    rw [get?_eq_some h]
    constructor
    · rintro ⟨rfl | ⟨hy, -⟩, rfl⟩
      · exact absurd rfl hk
      · exact ⟨hy, rfl⟩
    · rintro ⟨hy, rfl⟩
      refine ⟨.inr ⟨hy, ?_⟩, rfl⟩
      rintro rfl
      exact hk hx.symm

/-- An entry removed: the others are there in whatever order. -/
theorem get?_of_perm {b : Vector α n} {count' : Nat} (h : Keyed key a count) {i : Fin n}
    (hi : i.val < count) (hperm : (entries b count').Perm ((entries a count).eraseIdx i.val))
    (hnew : Keyed key b count') (k : κ) :
    get? key b count' k = if k = key a[i] then none else get? key a count k := by
  have hmem (y : α) : y ∈ entries b count' ↔ y ∈ entries a count ∧ y ≠ a[i] := by
    rw [hperm.mem_iff, mem_eraseIdx_iff h.nodup (getElem_entries hi)]
  ext y
  rw [get?_eq_some hnew, hmem]
  split
  · next hk =>
    subst hk
    constructor
    · rintro ⟨⟨hy, hne⟩, hkey⟩
      exact absurd (h.eq_of_key hy (mem_entries.mpr ⟨i, hi, rfl⟩) hkey) hne
    · exact nofun
  · next hk =>
    rw [get?_eq_some h]
    constructor
    · rintro ⟨⟨hy, -⟩, hkey⟩
      exact ⟨hy, hkey⟩
    · rintro ⟨hy, rfl⟩
      refine ⟨⟨hy, ?_⟩, rfl⟩
      rintro rfl
      exact hk rfl

theorem get?_eraseSwap {zero : α} (h : Keyed key a count) {i : Fin n} (hi : i.val < count)
    (hn : count ≤ n) (hnew : Keyed key (eraseSwap zero a count i) (count - 1)) (k : κ) :
    get? key (eraseSwap zero a count i) (count - 1) k =
      if k = key a[i] then none else get? key a count k :=
  get?_of_perm h hi (eraseSwap_perm hi hn) hnew k

theorem get?_eraseShift {zero : α} (h : Keyed key a count) {i : Fin n} (hi : i.val < count)
    (hn : count ≤ n) (hnew : Keyed key (eraseShift zero a count i) (count - 1)) (k : κ) :
    get? key (eraseShift zero a count i) (count - 1) k =
      if k = key a[i] then none else get? key a count k :=
  get?_of_perm h hi (List.Perm.of_eq (entries_eraseShift hi hn)) hnew k

/-- All entries changed in place, their keys kept. -/
theorem get?_mapEntries {f : α → α} (hf : ∀ x, key (f x) = key x) (k : κ) :
    get? key (mapEntries f a count) count k = (get? key a count k).map f := by
  have hfind : (find? (mapEntries f a count) count fun x => key x = k) =
      find? a count fun x => key x = k := by
    unfold find?
    congr 1
    funext i
    by_cases hi : i.val < count
    · rw [getElem_mapEntries, if_pos hi]
      dsimp only
      rw [hf]
    · simp [hi]
  unfold get?
  rw [hfind]
  cases hf' : find? a count fun x => key x = k with
  | none => rfl
  | some i =>
    rw [Option.map_some, Option.map_some, Option.map_some, getElem_mapEntries,
      if_pos (find?_eq_some hf').1]

end Packed
