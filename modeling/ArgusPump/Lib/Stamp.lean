import ArgusPump.Lib.Optimistic
import ArgusPump.Lib.Run

/-!
# Stamps

An entry that is edited, deleted and made again carries a stamp.  An edit raises the stamp, a
new entry is stamped past the clock, and the clock is never behind the stamp: then no two
versions of the entry share a stamp, and who keeps a copy can tell whether it is current.

    the copy's stamp is the entry's ↔ no edit since the copy was taken  (current_iff)
    a counter that skips 0, and has not come round → it counts          (counts_of_isRun)
      and it is where it was ↔ no move has raised it                    (same_iff_of_isRun)
-/

namespace Stamp

open Interact Optimistic

variable {σ ε ρ : Type}

/-- What a step from `pre` to `post` does to an entry; `touches` says whether it edits it. -/
structure Stamps (clock : σ → Nat) (entry : σ → Option ρ) (stamp : ρ → Nat) (touches : Prop)
    (pre post : σ) : Prop where
  mono : clock pre ≤ clock post
  bound : ∀ r, entry post = some r → stamp r ≤ clock post
  created : ∀ r, entry pre = none → entry post = some r → clock pre < stamp r
  touched : touches → ∀ r r', entry pre = some r → entry post = some r' → stamp r < stamp r'
  kept : ¬ touches → ∀ r, entry pre = some r → entry post = some r

variable {clock : σ → Nat} {entry : σ → Option ρ} {stamp : ρ → Nat} {touches : Prop} {pre post : σ}
  {n : Nat}

/-- A step that leaves the entry as it is. -/
theorem Stamps.of_same (hbound : ∀ r, entry pre = some r → stamp r ≤ clock pre)
    (hclock : clock pre ≤ clock post) (hsame : entry post = entry pre) (hnone : ¬ touches) :
    Stamps clock entry stamp touches pre post where
  mono := hclock
  bound r hr := (hbound r (hsame.symm.trans hr)).trans hclock
  created r hpre hpost := by rw [hsame, hpre] at hpost; cases hpost
  touched ht := absurd ht hnone
  kept _ r hr := hsame.trans hr

/-- The entry is `n` or younger. -/
def From (clock : σ → Nat) (entry : σ → Option ρ) (stamp : ρ → Nat) (n : Nat) (s : σ) : Prop :=
  n ≤ clock s + 1 ∧ ∀ r, entry s = some r → n ≤ stamp r

theorem Stamps.le (h : Stamps clock entry stamp touches pre post) {r r' : ρ}
    (hpre : entry pre = some r) (hpost : entry post = some r') : stamp r ≤ stamp r' := by
  by_cases ht : touches
  · exact (h.touched ht r r' hpre hpost).le
  · have hkept := h.kept ht r hpre
    rw [hpost] at hkept
    rw [Option.some.inj hkept]

theorem Stamps.from (h : Stamps clock entry stamp touches pre post)
    (hn : From clock entry stamp n pre) : From clock entry stamp n post := by
  constructor
  · have := h.mono
    have := hn.1
    omega
  · intro r' hr'
    cases hpre : entry pre with
    | none =>
      have := h.created r' hpre hr'
      have := hn.1
      omega
    | some r => exact (hn.2 r hpre).trans (h.le hpre hr')

/-- An edit leaves no entry as old as the one before. -/
theorem Stamps.from_succ (h : Stamps clock entry stamp touches pre post) (ht : touches)
    (hn : From clock entry stamp n pre) (hclock : n ≤ clock pre) :
    From clock entry stamp (n + 1) post := by
  constructor
  · have := h.mono
    omega
  · intro r' hr'
    cases hpre : entry pre with
    | none =>
      have := h.created r' hpre hr'
      omega
    | some r =>
      have := hn.2 r hpre
      have := h.touched ht r r' hpre hr'
      omega

variable {step : σ → ε → σ → Prop} {s : σ} {l k ms : List (Move σ ε)} {touch : Move σ ε → Prop}
  {r : ρ}

/-- The clock is never behind the stamp, so what steps do from such states they do in the run. -/
theorem stamps_of_isRun (h : IsRun step s ms) (h0 : ∀ r, entry s = some r → stamp r ≤ clock s)
    (hstep : ∀ m ∈ ms, (∀ r, entry m.pre = some r → stamp r ≤ clock m.pre) →
      Stamps clock entry stamp (touch m) m.pre m.post) :
    ∀ m ∈ ms, Stamps clock entry stamp (touch m) m.pre m.post := by
  have hinv := h.inv_of (I := fun t => ∀ r, entry t = some r → stamp r ≤ clock t)
    (K := fun m => (∀ r, entry m.pre = some r → stamp r ≤ clock m.pre) →
      Stamps clock entry stamp (touch m) m.pre m.post) h0 hstep fun m hpre _ hm => (hm hpre).bound
  exact fun m hm => hstep m hm (hinv.1 m hm).1

/-- An entry nobody edits stays. -/
theorem entry_of_untouched (h : IsRun step s k)
    (hk : ∀ m ∈ k, Stamps clock entry stamp (touch m) m.pre m.post) (hr : entry s = some r)
    (hnone : ∀ m ∈ k, ¬ touch m) : entry (final s k) = some r := by
  have hinv := h.inv_of (I := fun t => entry t = some r)
    (K := fun m => Stamps clock entry stamp (touch m) m.pre m.post ∧ ¬ touch m) hr
    (fun m hm => ⟨hk m hm, hnone m hm⟩) ?_
  · exact hinv.2
  · rintro m hpre - ⟨hm, ht⟩
    exact hm.kept ht r hpre

theorem bound_of_isRun (h : IsRun step s l)
    (hl : ∀ m ∈ l, Stamps clock entry stamp (touch m) m.pre m.post)
    (h0 : ∀ r, entry s = some r → stamp r ≤ clock s) :
    ∀ r, entry (final s l) = some r → stamp r ≤ clock (final s l) := by
  have hinv := h.inv_of (I := fun t => ∀ r, entry t = some r → stamp r ≤ clock t)
    (K := fun m => Stamps clock entry stamp (touch m) m.pre m.post) h0 hl fun m _ _ hm => hm.bound
  exact hinv.2

/-- After an edit the entry is younger than what was there when it was `n` or older. -/
theorem from_succ_of_touched (h : IsRun step s k)
    (hk : ∀ m ∈ k, Stamps clock entry stamp (touch m) m.pre m.post)
    (hn : From clock entry stamp n s) (hclock : n ≤ clock s) (htouch : ∃ m ∈ k, touch m) :
    From clock entry stamp (n + 1) (final s k) := by
  induction k generalizing s with
  | nil =>
    obtain ⟨m, hm, -⟩ := htouch
    cases hm
  | cons v k ih =>
    obtain ⟨rfl, -, hrun⟩ := h
    have hv := hk v List.mem_cons_self
    have hrest := fun m hm => hk m (List.mem_cons_of_mem _ hm)
    by_cases ht : touch v
    · have hinv := hrun.inv_of (I := From clock entry stamp (n + 1))
        (K := fun m => Stamps clock entry stamp (touch m) m.pre m.post)
        (hv.from_succ ht hn hclock) hrest fun m hi _ hm => hm.from hi
      exact hinv.2
    · refine ih hrun hrest (hv.from hn) (hclock.trans hv.mono) ?_
      obtain ⟨m, hm, htm⟩ := htouch
      rcases List.mem_cons.mp hm with rfl | hm
      · exact absurd htm ht
      · exact ⟨m, hm, htm⟩

/-- **Currency.**  A copy taken after `l` has the entry's stamp after `l ++ k` exactly if
no move of `k` has edited the entry. -/
theorem current_iff (h : IsRun step s (l ++ k))
    (hstamps : ∀ m ∈ l ++ k, Stamps clock entry stamp (touch m) m.pre m.post)
    (h0 : ∀ r, entry s = some r → stamp r ≤ clock s) (hr : entry (final s l) = some r) :
    (∃ r', entry (final s (l ++ k)) = some r' ∧ stamp r' = stamp r) ↔ ∀ m ∈ k, ¬ touch m := by
  obtain ⟨hl, hk⟩ := (isRun_append s l k).mp h
  have hkstamps := fun m hm => hstamps m (List.mem_append_right l hm)
  have hbound := bound_of_isRun hl (fun m hm => hstamps m (List.mem_append_left k hm)) h0 r hr
  rw [final_append]
  constructor
  · rintro ⟨r', hr', heq⟩ m hm ht
    have hfrom : From clock entry stamp (stamp r) (final s l) := by
      refine ⟨by omega, fun r'' hr'' => ?_⟩
      rw [hr] at hr''
      rw [Option.some.inj hr'']
    have hlater := from_succ_of_touched hk hkstamps hfrom hbound ⟨m, hm, ht⟩
    have := hlater.2 r' hr'
    omega
  · intro hnone
    exact ⟨r, entry_of_untouched hk hkstamps hr hnone, rfl⟩

/-! ## Counting -/

/-- A counter that skips 0 and does not come round counts the moves that raise it. -/
theorem counts_of_isRun {period : Nat} (f : σ → Nat) (b : Move σ ε → Bool)
    (h : IsRun step s ms)
    (hstep : ∀ m ∈ ms, f m.post = if b m then skipZero period (f m.pre) else f m.pre)
    (hlt : f s + ms.countP b ≤ period) : ∀ m ∈ ms, b m → f m.post = f m.pre + 1 := by
  induction ms generalizing s with
  | nil => simp
  | cons v ms ih =>
    obtain ⟨rfl, -, hrun⟩ := h
    have hv := hstep v List.mem_cons_self
    have hrest := fun m hm => hstep m (List.mem_cons_of_mem _ hm)
    rw [List.countP_cons] at hlt
    have hpost : f v.post + ms.countP b ≤ period ∧ (b v → f v.post = f v.pre + 1) := by
      cases hb : b v with
      | false =>
        simp only [hb, Bool.false_eq_true, if_false] at hlt hv
        rw [hv]
        exact ⟨by omega, nofun⟩
      | true =>
        simp only [hb, if_true] at hlt hv
        rw [hv, skipZero, if_neg (by omega)]
        exact ⟨by omega, fun _ => rfl⟩
    intro m hm hb
    rcases List.mem_cons.mp hm with rfl | hm
    · exact hpost.2 hb
    · exact ih hrun hrest hpost.1 m hm hb

/-- A counter that skips 0 and does not come round is where it was if no move raises it. -/
theorem same_iff_of_isRun {period : Nat} (f : σ → Nat) (b : Move σ ε → Bool)
    (h : IsRun step s ms)
    (hstep : ∀ m ∈ ms, f m.post = if b m then skipZero period (f m.pre) else f m.pre)
    (hpos : 0 < f s) (hle : f s ≤ period) (hlt : ms.countP b < period) :
    f (final s ms) = f s ↔ ∀ m ∈ ms, b m = false := by
  rw [h.iterate f (skipZero period) b hstep]
  constructor
  · intro heq m hm
    by_contra hb
    rw [Bool.not_eq_false] at hb
    have hcount : 0 < ms.countP b := List.countP_pos_iff.mpr ⟨m, hm, hb⟩
    refine skipZero_apart hpos hle hlt 0 _ hcount le_rfl ?_
    rw [Function.iterate_zero_apply, heq]
  · intro hnone
    have hcount : ms.countP b = 0 := List.countP_eq_zero.mpr fun m hm => by simp [hnone m hm]
    rw [hcount, Function.iterate_zero_apply]

end Stamp
