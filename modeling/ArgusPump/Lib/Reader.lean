import Mathlib.Tactic.Common
import Mathlib.Data.List.Basic

/-!
# Reading from a source that arrives in pieces

A `Reader` asks for its input so many elements at a time and either returns a value or
fails.  A list gives it what is at the front; any other source of which the elements still to
come are a list gives the same, unless it is lost on the way.

    a source that gives what it holds, p.run read s = ok (a, t) →
      p.run fromList (held s) = ok (a, held t)                       (Faithful.run_ok)
    p.run read s = error e → the source was lost ∨ p.run fromList (held s) = error e
                                                                     (Faithful.run_error)
-/

namespace Interact

inductive Reader (β ε α : Type) : Type
  | done (a : α)
  | fail (e : ε)
  | take (n : Nat) (k : List β → Reader β ε α)

namespace Reader

variable {β ε α γ σ : Type}

def bind : Reader β ε α → (α → Reader β ε γ) → Reader β ε γ
  | .done a, f => f a
  | .fail e, _ => .fail e
  | .take n k, f => .take n fun bs => (k bs).bind f

instance : Monad (Reader β ε) where
  pure := .done
  bind := bind

/-- Run against a source, `read s n` being the answer of `s` to a request for `n` elements. -/
def run (read : σ → Nat → Except ε (List β × σ)) : Reader β ε α → σ → Except ε (α × σ)
  | .done a, s => .ok (a, s)
  | .fail e, _ => .error e
  | .take n k, s =>
    match read s n with
    | .ok (bs, t) => (k bs).run read t
    | .error e => .error e

/-- A list as a source; `short` is the failure of one that has too little left. -/
def fromList (short : ε) (bs : List β) (n : Nat) : Except ε (List β × List β) :=
  if n ≤ bs.length then .ok (bs.take n, bs.drop n) else .error short

variable {read : σ → Nat → Except ε (List β × σ)}

theorem run_take (n : Nat) (k : List β → Reader β ε α) (s : σ) :
    (Reader.take n k).run read s =
      match read s n with
      | .ok (bs, t) => (k bs).run read t
      | .error e => .error e := by
  rw [run]

theorem run_bind (p : Reader β ε α) (f : α → Reader β ε γ) (s : σ) :
    (p >>= f).run read s =
      match p.run read s with
      | .ok (a, t) => (f a).run read t
      | .error e => .error e := by
  induction p generalizing s with
  | done a => rfl
  | fail e => rfl
  | take n k ih =>
    change (Reader.take n fun bs => k bs >>= f).run read s = _
    rw [run_take, run_take]
    cases read s n with
    | ok r => exact ih r.1 r.2
    | error e => rfl

/-- What every request keeps, every run keeps. -/
theorem run_rel {R : σ → σ → Prop} (hrefl : ∀ s, R s s) (htrans : ∀ {s t u}, R s t → R t u → R s u)
    (hread : ∀ {s n bs t}, read s n = .ok (bs, t) → R s t) {p : Reader β ε α} {s t : σ} {a : α}
    (h : p.run read s = .ok (a, t)) : R s t := by
  induction p generalizing s with
  | done b =>
    cases h
    exact hrefl _
  | fail e => cases h
  | take n k ih =>
    rw [run_take] at h
    cases hr : read s n with
    | ok r =>
      rw [hr] at h
      exact htrans (hread hr) (ih r.1 h)
    | error e =>
      rw [hr] at h
      cases h

/-- The failures of a program's own. -/
def MayFail (e : ε) : Reader β ε α → Prop
  | .done _ => False
  | .fail e' => e' = e
  | .take _ k => ∃ bs, (k bs).MayFail e

theorem mayFail_bind (e : ε) (p : Reader β ε α) (f : α → Reader β ε γ) (h : (p >>= f).MayFail e) :
    p.MayFail e ∨ ∃ a, (f a).MayFail e := by
  induction p with
  | done a => exact .inr ⟨a, h⟩
  | fail e' => exact .inl h
  | take n k ih =>
    obtain ⟨bs, hbs⟩ := h
    exact (ih bs hbs).imp_left fun hk => ⟨bs, hk⟩

/-- A run fails because the program does, or where the source refuses a request. -/
theorem run_refused {R : σ → σ → Prop} (hrefl : ∀ s, R s s)
    (htrans : ∀ {s t u}, R s t → R t u → R s u)
    (hread : ∀ {s n bs t}, read s n = .ok (bs, t) → R s t) {p : Reader β ε α} {s : σ} {e : ε}
    (h : p.run read s = .error e) : p.MayFail e ∨ ∃ t n, R s t ∧ read t n = .error e := by
  induction p generalizing s with
  | done b => cases h
  | fail e' =>
    cases h
    exact .inl rfl
  | take n k ih =>
    rw [run_take] at h
    cases hr : read s n with
    | ok r =>
      rw [hr] at h
      refine (ih r.1 h).imp (fun hk => ⟨r.1, hk⟩) ?_
      rintro ⟨t, m, hR, ht⟩
      exact ⟨t, m, htrans (hread hr) hR, ht⟩
    | error e' =>
      rw [hr] at h
      cases h
      exact .inr ⟨s, n, hrefl s, hr⟩

theorem run_fromList_cons (short : ε) (k : List β → Reader β ε α) (b : β) (bs : List β) :
    (Reader.take 1 k).run (fromList short) (b :: bs) = (k [b]).run (fromList short) bs := by
  rw [run_take]
  rfl

theorem run_fromList_take (short : ε) (k : List β → Reader β ε α) (bs rest : List β) :
    (Reader.take bs.length k).run (fromList short) (bs ++ rest) =
      (k bs).run (fromList short) rest := by
  rw [run_take]
  unfold fromList
  rw [List.length_append, if_pos (Nat.le_add_right _ _), List.take_left, List.drop_left]

/-- The source gives the elements it holds, in order; it fails where it holds too few, or where
it is lost. -/
structure Faithful (read : σ → Nat → Except ε (List β × σ)) (held : σ → List β) (short : ε)
    (Lost : ε → Prop) : Prop where
  ok : ∀ {s n bs t}, read s n = .ok (bs, t) → bs.length = n ∧ held s = bs ++ held t
  error : ∀ {s n e}, read s n = .error e → Lost e ∨ e = short ∧ (held s).length < n

namespace Faithful

variable {held : σ → List β} {short : ε} {Lost : ε → Prop}

theorem fromList_eq (h : Faithful read held short Lost) {s t : σ} {n : Nat} {bs : List β}
    (hread : read s n = .ok (bs, t)) : fromList short (held s) n = .ok (bs, held t) := by
  obtain ⟨rfl, hheld⟩ := h.ok hread
  unfold fromList
  rw [hheld, List.length_append, if_pos (Nat.le_add_right _ _), List.take_left, List.drop_left]

theorem run_ok (h : Faithful read held short Lost) {p : Reader β ε α} {s t : σ} {a : α}
    (hrun : p.run read s = .ok (a, t)) : p.run (fromList short) (held s) = .ok (a, held t) := by
  induction p generalizing s with
  | done b =>
    cases hrun
    rfl
  | fail e => cases hrun
  | take n k ih =>
    rw [run_take] at hrun ⊢
    cases hread : read s n with
    | ok r =>
      rw [hread] at hrun
      rw [h.fromList_eq hread]
      exact ih r.1 hrun
    | error e =>
      rw [hread] at hrun
      cases hrun

theorem run_error (h : Faithful read held short Lost) {p : Reader β ε α} {s : σ} {e : ε}
    (hrun : p.run read s = .error e) :
    Lost e ∨ p.run (fromList short) (held s) = .error e := by
  induction p generalizing s with
  | done b => cases hrun
  | fail e' =>
    cases hrun
    exact .inr rfl
  | take n k ih =>
    rw [run_take] at hrun ⊢
    cases hread : read s n with
    | ok r =>
      rw [hread] at hrun
      rw [h.fromList_eq hread]
      exact ih r.1 hrun
    | error e' =>
      rw [hread] at hrun
      cases hrun
      refine (h.error hread).imp_right ?_
      rintro ⟨rfl, hshort⟩
      unfold fromList
      rw [if_neg (Nat.not_le.mpr hshort)]

end Faithful

end Reader

end Interact
