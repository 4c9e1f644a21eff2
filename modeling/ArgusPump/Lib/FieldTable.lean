import Mathlib.Tactic.Common

/-!
# Fields read into a record by key

Entries of a key and a datum are read one after another.  A table says for each known key
its bits in the mask of the fields read so far, and what an accepted datum does to the
record; an entry whose bits are marked already is refused.

    the order of the entries does not matter                             (read_perm)
    the entries have just the keys marked at the end, each once          (read_keys)
-/

namespace Interact

structure FieldTable (κ δ α : Type) where
  bits : κ → Option UInt8
  set : κ → δ → Option (α → α)

namespace FieldTable

variable {κ δ α : Type} {t : FieldTable κ δ α}

def read (t : FieldTable κ δ α) : List (κ × δ) → UInt8 → α → Option (UInt8 × α)
  | [], marks, r => some (marks, r)
  | (key, x) :: es, marks, r =>
    match t.bits key, t.set key x with
    | some b, some u => if marks &&& b ≠ 0 then none else t.read es (marks ||| b) (u r)
    | _, _ => none

/-- Two keys share no bit, and change the record apart from each other. -/
structure Lawful (t : FieldTable κ δ α) : Prop where
  bits : ∀ key key' b b', t.bits key = some b → t.bits key' = some b' → (b &&& b' = 0 ↔ key ≠ key')
  apart : ∀ key key' x x' u u', t.set key x = some u → t.set key' x' = some u' → key ≠ key' →
    ∀ r, u (u' r) = u' (u r)

variable {marks marks' : UInt8} {r r' : α}

theorem read_cons {key : κ} {x : δ} {es : List (κ × δ)} {res : UInt8 × α} :
    t.read ((key, x) :: es) marks r = some res ↔
      ∃ b u, t.bits key = some b ∧ t.set key x = some u ∧ marks &&& b = 0 ∧
        t.read es (marks ||| b) (u r) = some res := by
  rw [read]
  constructor
  · intro h
    split at h
    · next b u hb hu =>
      split at h
      · cases h
      · next hfree => exact ⟨b, u, hb, hu, Decidable.not_not.mp hfree, h⟩
    · cases h
  · rintro ⟨b, u, hb, hu, hfree, h⟩
    rw [hb, hu]
    dsimp only
    rwa [if_neg (by simp [hfree])]

/-- The first entry, when the bits of its key are known. -/
theorem read_first {key : κ} {b : UInt8} (hb : t.bits key = some b) {x : δ} {es : List (κ × δ)}
    {res : UInt8 × α} :
    t.read ((key, x) :: es) marks r = some res ↔
      marks &&& b = 0 ∧ ∃ u, t.set key x = some u ∧ t.read es (marks ||| b) (u r) = some res := by
  rw [read_cons]
  constructor
  · rintro ⟨b', u, hb', hu, hfree, h⟩
    obtain rfl := Option.some.inj (hb.symm.trans hb')
    exact ⟨hfree, u, hu, h⟩
  · rintro ⟨hfree, u, hu, h⟩
    exact ⟨b, u, hb, hu, hfree, h⟩

theorem or_and_eq_zero {a b c : UInt8} : (a ||| b) &&& c = 0 ↔ a &&& c = 0 ∧ b &&& c = 0 := by
  have hdistrib : (a ||| b) &&& c = (a &&& c) ||| (b &&& c) := by
    rw [← UInt8.toBitVec_inj]
    exact BitVec.and_or_distrib_right
  rw [hdistrib, UInt8.or_eq_zero_iff]

/-- A mark stays. -/
theorem read_mono {es : List (κ × δ)} (h : t.read es marks r = some (marks', r')) {b : UInt8}
    (hfree : marks' &&& b = 0) : marks &&& b = 0 := by
  induction es generalizing marks r with
  | nil =>
    cases h
    exact hfree
  | cons e es ih =>
    obtain ⟨b', u, -, -, -, h⟩ := read_cons.mp h
    exact (or_and_eq_zero.mp (ih h)).1

section
variable (hlaw : t.Lawful)

include hlaw

theorem read_swap {e e' : κ × δ} {es : List (κ × δ)} {res : UInt8 × α}
    (h : t.read (e :: e' :: es) marks r = some res) : t.read (e' :: e :: es) marks r = some res := by
  obtain ⟨b, u, hb, hu, hfree, h⟩ := read_cons.mp h
  obtain ⟨b', u', hb', hu', hfree', h⟩ := read_cons.mp h
  obtain ⟨hfree', hapart⟩ := or_and_eq_zero.mp hfree'
  have hne := (hlaw.bits _ _ b b' hb hb').mp hapart
  refine read_cons.mpr ⟨b', u', hb', hu', hfree', read_cons.mpr ⟨b, u, hb, hu, ?_, ?_⟩⟩
  · exact or_and_eq_zero.mpr ⟨hfree, (hlaw.bits _ _ b' b hb' hb).mpr hne.symm⟩
  · rw [UInt8.or_assoc, UInt8.or_comm b', ← UInt8.or_assoc, hlaw.apart _ _ _ _ u u' hu hu' hne]
    exact h

theorem read_perm {es es' : List (κ × δ)} (hperm : es.Perm es') {res : UInt8 × α}
    (h : t.read es marks r = some res) : t.read es' marks r = some res := by
  induction hperm generalizing marks r with
  | nil => exact h
  | cons e _ ih =>
    obtain ⟨b, u, hb, hu, hfree, h⟩ := read_cons.mp h
    exact read_cons.mpr ⟨b, u, hb, hu, hfree, ih h⟩
  | swap e e' es => exact read_swap hlaw h
  | trans _ _ ih ih' => exact ih' (ih h)

/-- A key marked at the end and not at the start has an entry, which may stand first. -/
theorem read_front {es : List (κ × δ)} (h : t.read es marks r = some (marks', r')) {key : κ} {b : UInt8}
    (hb : t.bits key = some b) (hfree : marks &&& b = 0) (hmarked : marks' &&& b ≠ 0) :
    ∃ x u es', es.Perm ((key, x) :: es') ∧ t.set key x = some u ∧
      t.read es' (marks ||| b) (u r) = some (marks', r') := by
  have hmem : ∃ x, (key, x) ∈ es := by
    induction es generalizing marks r with
    | nil =>
      cases h
      exact absurd hfree hmarked
    | cons e es ih =>
      obtain ⟨b', u, hb', -, -, h⟩ := read_cons.mp h
      by_cases hkey : e.1 = key
      · exact ⟨e.2, by rw [← hkey]; exact List.mem_cons_self⟩
      · have hfree' : (marks ||| b') &&& b = 0 :=
          or_and_eq_zero.mpr ⟨hfree, (hlaw.bits _ _ b' b hb' hb).mpr hkey⟩
        obtain ⟨x, hx⟩ := ih h hfree'
        exact ⟨x, List.mem_cons_of_mem _ hx⟩
  obtain ⟨x, hx⟩ := hmem
  obtain ⟨before, after, rfl⟩ := List.append_of_mem hx
  have hperm : (before ++ (key, x) :: after).Perm ((key, x) :: (before ++ after)) := List.perm_middle
  obtain ⟨-, u, hu, hrest⟩ := (read_first hb).mp (read_perm hlaw hperm h)
  exact ⟨x, u, before ++ after, hperm, hu, hrest⟩

/-- With every key marked already or not marked at the end, there is no entry. -/
theorem read_nil {es : List (κ × δ)} (h : t.read es marks r = some (marks', r'))
    (hno : ∀ key b, t.bits key = some b → marks &&& b = 0 → marks' &&& b = 0) : es = [] := by
  cases es with
  | nil => rfl
  | cons e es =>
    obtain ⟨b, u, hb, hu, hfree, h⟩ := read_cons.mp h
    have hself := (or_and_eq_zero.mp (read_mono h (hno _ b hb hfree))).2
    exact absurd rfl ((hlaw.bits _ _ b b hb hb).mp hself)

theorem read_keys {keys : List κ} (hnodup : keys.Nodup) {es : List (κ × δ)}
    (h : t.read es marks r = some (marks', r'))
    (hin : ∀ key ∈ keys, ∃ b, t.bits key = some b ∧ marks &&& b = 0 ∧ marks' &&& b ≠ 0)
    (hout : ∀ key b, t.bits key = some b → key ∉ keys → marks &&& b = 0 → marks' &&& b = 0) :
    ∃ es', es.Perm es' ∧ es'.map Prod.fst = keys ∧ t.read es' marks r = some (marks', r') := by
  induction keys generalizing es marks r with
  | nil =>
    obtain rfl := read_nil hlaw h fun key b hb => hout key b hb List.not_mem_nil
    exact ⟨[], .refl _, rfl, h⟩
  | cons key keys ih =>
    obtain ⟨b, hb, hfree, hmarked⟩ := hin key List.mem_cons_self
    obtain ⟨x, u, rest, hperm, hu, hrest⟩ := read_front hlaw h hb hfree hmarked
    rw [List.nodup_cons] at hnodup
    obtain ⟨es', hperm', hkeys, hread⟩ := ih hnodup.2 hrest
      (fun key' hkey' => by
        obtain ⟨b', hb', hfree', hmarked'⟩ := hin key' (List.mem_cons_of_mem _ hkey')
        refine ⟨b', hb', or_and_eq_zero.mpr ⟨hfree', (hlaw.bits _ _ b b' hb hb').mpr ?_⟩, hmarked'⟩
        rintro rfl
        exact hnodup.1 hkey')
      (fun key' b' hb' hnot hfree' => by
        obtain ⟨hfree', hapart⟩ := or_and_eq_zero.mp hfree'
        refine hout key' b' hb' ?_ hfree'
        rw [List.mem_cons, not_or]
        exact ⟨((hlaw.bits _ _ b b' hb hb').mp hapart).symm, hnot⟩)
    exact ⟨(key, x) :: es', hperm.trans (hperm'.cons _), by rw [List.map_cons, hkeys],
      read_cons.mpr ⟨b, u, hb, hu, hfree, hread⟩⟩

end

end FieldTable

end Interact
