import Mathlib.Tactic.Common

/-!
# Programs that call out to an environment

A `Prog Q R α` either returns a value or asks its environment `q` and goes on
with the answer.  One run is a transcript of questions and answers
(`Runs ok p tr a`), where `ok q r` says which answers the environment may give.

    p.wp ok pre post → Runs ok p tr a → post a ∧ every question of tr meets pre   (Runs.of_wp)

`wpT` is the same for programs in `StateT`, with one rule for each of its operations.

For an environment with a state `σ`, `Exec H p s tr a t` runs `p` to its end from
`s`, `Crash H T p s t` stops it at any point (`T` is what a crash inside one
call may leave behind), and `p.wpS H I post s` bounds both.
-/

namespace Interact

inductive Prog (Q : Type) (R : Q → Type) (α : Type) : Type
  | ret (a : α)
  | ask (q : Q) (k : R q → Prog Q R α)

namespace Prog

variable {Q : Type} {R : Q → Type} {α β : Type}

def bind : Prog Q R α → (α → Prog Q R β) → Prog Q R β
  | .ret a, f => f a
  | .ask q k, f => .ask q fun r => (k r).bind f

instance : Monad (Prog Q R) where
  pure := .ret
  bind := bind

@[simp] theorem ask_bind (q : Q) (k : R q → Prog Q R α) (f : α → Prog Q R β) :
    ((.ask q k : Prog Q R α) >>= f) = .ask q fun r => k r >>= f := rfl

/-! ## Runs against answers -/

/-- `p` returns `a` after the questions and answers of `tr`, each answer allowed by `ok`. -/
inductive Runs (ok : (q : Q) → R q → Prop) : Prog Q R α → List (Σ q, R q) → α → Prop
  | ret (a : α) : Runs ok (.ret a) [] a
  | ask {q : Q} {k : R q → Prog Q R α} {r : R q} {tr : List (Σ q, R q)} {a : α} :
      ok q r → Runs ok (k r) tr a → Runs ok (.ask q k) (⟨q, r⟩ :: tr) a

variable {ok : (q : Q) → R q → Prop}

@[simp] theorem runs_ret_iff (a b : α) (tr : List (Σ q, R q)) :
    Runs ok (.ret a) tr b ↔ tr = [] ∧ b = a := by
  constructor
  · intro h
    cases h
    exact ⟨rfl, rfl⟩
  · rintro ⟨rfl, rfl⟩
    exact .ret _

@[simp] theorem runs_ask_iff (q : Q) (k : R q → Prog Q R α) (tr : List (Σ q, R q)) (a : α) :
    Runs ok (.ask q k) tr a ↔ ∃ r tr', tr = ⟨q, r⟩ :: tr' ∧ ok q r ∧ Runs ok (k r) tr' a := by
  constructor
  · intro h
    cases h with
    | ask hr hk => exact ⟨_, _, rfl, hr, hk⟩
  · rintro ⟨r, tr', rfl, hr, hk⟩
    exact .ask hr hk

/-- Every question meets `pre` and every result meets `post`, whatever allowed
answers come back. -/
def wp (ok : (q : Q) → R q → Prop) (pre : Q → Prop) (post : α → Prop) : Prog Q R α → Prop
  | .ret a => post a
  | .ask q k => pre q ∧ ∀ r, ok q r → (k r).wp ok pre post

@[simp] theorem wp_ret (pre : Q → Prop) (post : α → Prop) (a : α) :
    (.ret a : Prog Q R α).wp ok pre post ↔ post a := Iff.rfl

@[simp] theorem wp_ask (pre : Q → Prop) (post : α → Prop) (q : Q) (k : R q → Prog Q R α) :
    (.ask q k : Prog Q R α).wp ok pre post ↔ pre q ∧ ∀ r, ok q r → (k r).wp ok pre post := Iff.rfl

theorem wp_mono {ok' : (q : Q) → R q → Prop} {pre pre' : Q → Prop} {post post' : α → Prop}
    (hok : ∀ q r, ok' q r → ok q r) (hpre : ∀ q, pre q → pre' q) (hpost : ∀ a, post a → post' a)
    (p : Prog Q R α) (h : p.wp ok pre post) : p.wp ok' pre' post' := by
  induction p with
  | ret a => exact hpost a h
  | ask q k ih => exact ⟨hpre q h.1, fun r hr => ih r (h.2 r (hok q r hr))⟩

/-- **Soundness of `wp`.** -/
theorem Runs.of_wp {pre : Q → Prop} {post : α → Prop} {p : Prog Q R α} {tr : List (Σ q, R q)}
    {a : α} (hr : Runs ok p tr a) (h : p.wp ok pre post) : post a ∧ ∀ x ∈ tr, pre x.1 := by
  induction hr with
  | ret a => exact ⟨h, by simp⟩
  | ask hok _ ih =>
    obtain ⟨hp, hall⟩ := ih (h.2 _ hok)
    refine ⟨hp, fun x hx => ?_⟩
    rcases List.mem_cons.mp hx with rfl | hx
    · exact h.1
    · exact hall x hx

/-- Fewer answers, fewer runs. -/
theorem Runs.mono {ok' : (q : Q) → R q → Prop} (h : ∀ q r, ok q r → ok' q r) {p : Prog Q R α}
    {tr : List (Σ q, R q)} {a : α} (hr : Runs ok p tr a) : Runs ok' p tr a := by
  induction hr with
  | ret a => exact .ret a
  | ask hok _ ih => exact .ask (h _ _ hok) ih

/-- The rule of composition. -/
theorem wp_bind (pre : Q → Prop) (post : β → Prop) (p : Prog Q R α) (f : α → Prog Q R β) :
    (p >>= f).wp ok pre post ↔ p.wp ok pre fun a => (f a).wp ok pre post := by
  induction p with
  | ret a => exact Iff.rfl
  | ask q k ih =>
    simp only [ask_bind, wp_ask]
    exact and_congr_right fun _ => forall₂_congr fun r _ => ih r

/-- Run `p` with every question `q` answered `env q`. -/
def play (env : (q : Q) → R q) : Prog Q R α → List (Σ q, R q) × α
  | .ret a => ([], a)
  | .ask q k => (⟨q, env q⟩ :: ((k (env q)).play env).1, ((k (env q)).play env).2)

theorem play_runs {env : (q : Q) → R q} (h : ∀ q, ok q (env q)) (p : Prog Q R α) :
    Runs ok p (p.play env).1 (p.play env).2 := by
  induction p with
  | ret a => exact .ret a
  | ask q k ih => exact .ask (h q) (ih (env q))

/-! ## Programs with a state of their own -/

section StateT

variable {σ : Type}

/-- `wp` of a program over a state `s`. -/
def wpT (ok : (q : Q) → R q → Prop) (pre : Q → Prop) (m : StateT σ (Prog Q R) α)
    (post : α × σ → Prop) (s : σ) : Prop :=
  (m s).wp ok pre post

variable {pre : Q → Prop}

@[simp] theorem wpT_pure (post : α × σ → Prop) (a : α) (s : σ) :
    wpT ok pre (pure a) post s ↔ post (a, s) := Iff.rfl

@[simp] theorem wpT_bind (post : β × σ → Prop) (m : StateT σ (Prog Q R) α)
    (f : α → StateT σ (Prog Q R) β) (s : σ) :
    wpT ok pre (m >>= f) post s ↔ wpT ok pre m (fun a => wpT ok pre (f a.1) post a.2) s :=
  wp_bind pre post (m s) fun a => f a.1 a.2

@[simp] theorem wpT_get (post : σ × σ → Prop) (s : σ) :
    wpT ok pre (get : StateT σ (Prog Q R) σ) post s ↔ post (s, s) := Iff.rfl

@[simp] theorem wpT_modify (post : Unit × σ → Prop) (f : σ → σ) (s : σ) :
    wpT ok pre (modify f : StateT σ (Prog Q R) Unit) post s ↔ post ((), f s) := Iff.rfl

@[simp] theorem wpT_ite (c : Prop) [Decidable c] (post : α × σ → Prop)
    (m n : StateT σ (Prog Q R) α) (s : σ) :
    wpT ok pre (if c then m else n) post s ↔
      if c then wpT ok pre m post s else wpT ok pre n post s := by
  split <;> rfl

end StateT

/-! ## Runs against a state -/

section State

variable {σ : Type} {H : (q : Q) → σ → R q → σ → Prop} {T : Q → σ → σ → Prop}

/-- `p` returns `a` after the questions and answers of `tr`, taking the environment
from `s` to `t`. -/
inductive Exec (H : (q : Q) → σ → R q → σ → Prop) :
    Prog Q R α → σ → List (Σ q, R q) → α → σ → Prop
  | ret (a : α) (s : σ) : Exec H (.ret a) s [] a s
  | ask {q : Q} {k : R q → Prog Q R α} {r : R q} {s s' t : σ} {tr : List (Σ q, R q)} {a : α} :
      H q s r s' → Exec H (k r) s' tr a t → Exec H (.ask q k) s (⟨q, r⟩ :: tr) a t

/-- Run `p` from `s` with the question `q` asked in `s` answered by `f q s`. -/
def playS (f : (q : Q) → σ → R q × σ) : Prog Q R α → σ → List (Σ q, R q) × α × σ
  | .ret a, s => ([], a, s)
  | .ask q k, s =>
      let r := f q s
      let out := (k r.1).playS f r.2
      (⟨q, r.1⟩ :: out.1, out.2)

theorem playS_exec {f : (q : Q) → σ → R q × σ} (h : ∀ q s, H q s (f q s).1 (f q s).2)
    (p : Prog Q R α) (s : σ) :
    Exec H p s (p.playS f s).1 (p.playS f s).2.1 (p.playS f s).2.2 := by
  induction p generalizing s with
  | ret a => exact .ret a s
  | ask q k ih => exact .ask (h q s) (ih (f q s).1 (f q s).2)

/-- The run of `p` from `s` is cut off and leaves `t`: between two calls, or
inside one. -/
inductive Crash (H : (q : Q) → σ → R q → σ → Prop) (T : Q → σ → σ → Prop) :
    Prog Q R α → σ → σ → Prop
  | here (p : Prog Q R α) (s : σ) : Crash H T p s s
  | inside {q : Q} {k : R q → Prog Q R α} {s t : σ} : T q s t → Crash H T (.ask q k) s t
  | later {q : Q} {k : R q → Prog Q R α} {r : R q} {s s' t : σ} :
      H q s r s' → Crash H T (k r) s' t → Crash H T (.ask q k) s t

/-- `I q s` where `q` is asked in `s`, `post a s` where `a` is returned in `s`. -/
def wpS (H : (q : Q) → σ → R q → σ → Prop) (I : Q → σ → Prop) (post : α → σ → Prop) :
    Prog Q R α → σ → Prop
  | .ret a, s => post a s
  | .ask q k, s => I q s ∧ ∀ r s', H q s r s' → (k r).wpS H I post s'

@[simp] theorem wpS_ret (I : Q → σ → Prop) (post : α → σ → Prop) (a : α) (s : σ) :
    (.ret a : Prog Q R α).wpS H I post s ↔ post a s := Iff.rfl

@[simp] theorem wpS_ask (I : Q → σ → Prop) (post : α → σ → Prop) (q : Q)
    (k : R q → Prog Q R α) (s : σ) :
    (.ask q k : Prog Q R α).wpS H I post s ↔
      I q s ∧ ∀ r s', H q s r s' → (k r).wpS H I post s' := Iff.rfl

/-- Forgetting the environment's state leaves a run. -/
theorem Exec.runs {p : Prog Q R α} {s t : σ} {tr : List (Σ q, R q)} {a : α}
    (h : Exec H p s tr a t) : Runs (fun _ _ => True) p tr a := by
  induction h with
  | ret a s => exact .ret a
  | ask _ _ ih => exact .ask trivial ih

theorem Exec.of_wpS {I : Q → σ → Prop} {post : α → σ → Prop} {p : Prog Q R α} {s t : σ}
    {tr : List (Σ q, R q)} {a : α} (hr : Exec H p s tr a t) (h : p.wpS H I post s) : post a t := by
  induction hr with
  | ret a s => exact h
  | ask hH _ ih => exact ih (h.2 _ _ hH)

/-- One run after another. -/
theorem Exec.bind {p : Prog Q R α} {f : α → Prog Q R β} {s t u : σ} {tr tr' : List (Σ q, R q)} {a : α}
    {b : β} (h : Exec H p s tr a t) (hf : Exec H (f a) t tr' b u) :
    Exec H (p >>= f) s (tr ++ tr') b u := by
  induction h with
  | ret a s => exact hf
  | ask hH _ ih => exact .ask hH (ih hf)

/-- A run of one program and then another falls in two. -/
theorem Exec.of_bind {p : Prog Q R α} {f : α → Prog Q R β} {s u : σ} {tr : List (Σ q, R q)} {b : β}
    (h : Exec H (p >>= f) s tr b u) :
    ∃ tr₁ tr₂ a t, tr = tr₁ ++ tr₂ ∧ Exec H p s tr₁ a t ∧ Exec H (f a) t tr₂ b u := by
  induction p generalizing s tr with
  | ret a => exact ⟨[], tr, a, s, rfl, .ret a s, h⟩
  | ask q k ih =>
    cases h with
    | ask hH hk =>
      obtain ⟨tr₁, tr₂, a, t, rfl, hp, hf⟩ := ih _ hk
      exact ⟨_ :: tr₁, tr₂, a, t, rfl, .ask hH hp, hf⟩

/-- A run, in an environment that answers alike. -/
theorem Exec.sim {τ : Type} {H' : (q : Q) → τ → R q → τ → Prop} {S : τ → σ → Prop}
    (hS : ∀ q s r t s', H q s r t → S s' s → ∃ t', H' q s' r t' ∧ S t' t) {p : Prog Q R α} {s t : σ}
    {tr : List (Σ q, R q)} {a : α} (h : Exec H p s tr a t) {s' : τ} (hs : S s' s) :
    ∃ t', Exec H' p s' tr a t' ∧ S t' t := by
  induction h generalizing s' with
  | ret a s => exact ⟨s', .ret a s', hs⟩
  | ask hH _ ih =>
    obtain ⟨u', hask, hu⟩ := hS _ _ _ _ _ hH hs
    obtain ⟨t', hexec, ht⟩ := ih hu
    exact ⟨t', .ask hask hexec, ht⟩

theorem Crash.sim {τ : Type} {H' : (q : Q) → τ → R q → τ → Prop} {T' : Q → τ → τ → Prop} {S : τ → σ → Prop}
    (hS : ∀ q s r t s', H q s r t → S s' s → ∃ t', H' q s' r t' ∧ S t' t)
    (hT : ∀ q s t s', T q s t → S s' s → ∃ t', T' q s' t' ∧ S t' t) {p : Prog Q R α} {s t : σ}
    (h : Crash H T p s t) {s' : τ} (hs : S s' s) : ∃ t', Crash H' T' p s' t' ∧ S t' t := by
  induction h generalizing s' with
  | here p s => exact ⟨s', .here p s', hs⟩
  | inside hcut =>
    obtain ⟨t', ht', ht⟩ := hT _ _ _ _ hcut hs
    exact ⟨t', .inside ht', ht⟩
  | later hH _ ih =>
    obtain ⟨u', hask, hu⟩ := hS _ _ _ _ _ hH hs
    obtain ⟨t', hcrash, ht⟩ := ih hu
    exact ⟨t', .later hask hcrash, ht⟩

/-- The run of an environment that is a function, from what holds of all its runs. -/
theorem playS_of_wpS {f : (q : Q) → σ → R q × σ} {post : α → σ → Prop} {p : Prog Q R α} {s : σ}
    (h : p.wpS (fun q s r t => f q s = (r, t)) (fun _ _ => True) post s) :
    post (p.playS f s).2.1 (p.playS f s).2.2 :=
  (playS_exec (fun _ _ => rfl) p s).of_wpS h

/-- Every call of a run was asked in a state that allows it. -/
theorem Exec.asked_of_wpS {I : Q → σ → Prop} {post : α → σ → Prop} {p : Prog Q R α} {s t : σ}
    {tr : List (Σ q, R q)} {a : α} (hr : Exec H p s tr a t) (h : p.wpS H I post s) :
    ∀ x ∈ tr, ∃ u, I x.1 u := by
  induction hr with
  | ret a s => simp
  | ask hH _ ih =>
    intro x hx
    rcases List.mem_cons.mp hx with rfl | hx
    · exact ⟨_, h.1⟩
    · exact ih (h.2 _ _ hH) x hx

theorem wpS_mono {I I' : Q → σ → Prop} {post post' : α → σ → Prop}
    (hI : ∀ q s, I q s → I' q s) (hpost : ∀ a s, post a s → post' a s) (p : Prog Q R α) (s : σ)
    (h : p.wpS H I post s) : p.wpS H I' post' s := by
  induction p generalizing s with
  | ret a => exact hpost a s h
  | ask q k ih => exact ⟨hI q s h.1, fun r t hH => ih r t (h.2 r t hH)⟩

/-- Fewer answers. -/
theorem wpS_answers {H' : (q : Q) → σ → R q → σ → Prop} (hsub : ∀ q s r t, H' q s r t → H q s r t)
    {I : Q → σ → Prop} {post : α → σ → Prop} (p : Prog Q R α) (s : σ) (h : p.wpS H I post s) :
    p.wpS H' I post s := by
  induction p generalizing s with
  | ret a => exact h
  | ask q k ih => exact ⟨h.1, fun r t hr => ih r t (h.2 r t (hsub q s r t hr))⟩

/-- An invariant of the state under the calls that meet `pre` holds all through a
program that asks no others. -/
theorem wpS_of_wp {W : σ → Prop} (pre : Q → Prop) (post : α → Prop)
    (hW : ∀ q s r t, pre q → W s → H q s r t → W t) (p : Prog Q R α)
    (hp : p.wp (fun _ _ => True) pre post) {s : σ} (hs : W s) :
    p.wpS H (fun q s => pre q ∧ W s) (fun a s => post a ∧ W s) s := by
  induction p generalizing s with
  | ret a => exact ⟨hp, hs⟩
  | ask q k ih => exact ⟨⟨hp.1, hs⟩, fun r t hH => ih r (hp.2 r trivial) (hW q s r t hp.1 hs hH)⟩

theorem wpS_bind (I : Q → σ → Prop) (post : β → σ → Prop) (p : Prog Q R α) (f : α → Prog Q R β)
    (s : σ) : (p >>= f).wpS H I post s ↔ p.wpS H I (fun a t => (f a).wpS H I post t) s := by
  induction p generalizing s with
  | ret a => exact Iff.rfl
  | ask q k ih =>
    simp only [ask_bind, wpS_ask]
    exact and_congr_right fun _ => forall₂_congr fun r t => imp_congr_right fun _ => ih r t

section StateT

variable {μ : Type} {I : Q → σ → Prop}

/-- `wpS` of a program over a state `m` of its own. -/
def wpTS (H : (q : Q) → σ → R q → σ → Prop) (I : Q → σ → Prop) (p : StateT μ (Prog Q R) α)
    (post : α × μ → σ → Prop) (m : μ) (s : σ) : Prop :=
  (p m).wpS H I post s

@[simp] theorem wpTS_pure (post : α × μ → σ → Prop) (a : α) (m : μ) (s : σ) :
    wpTS H I (pure a) post m s ↔ post (a, m) s := Iff.rfl

@[simp] theorem wpTS_bind (post : β × μ → σ → Prop) (p : StateT μ (Prog Q R) α)
    (f : α → StateT μ (Prog Q R) β) (m : μ) (s : σ) :
    wpTS H I (p >>= f) post m s ↔
      wpTS H I p (fun a t => wpTS H I (f a.1) post a.2 t) m s :=
  wpS_bind I post (p m) (fun a => f a.1 a.2) s

@[simp] theorem wpTS_get (post : μ × μ → σ → Prop) (m : μ) (s : σ) :
    wpTS H I (get : StateT μ (Prog Q R) μ) post m s ↔ post (m, m) s := Iff.rfl

@[simp] theorem wpTS_set (post : PUnit × μ → σ → Prop) (n m : μ) (s : σ) :
    wpTS H I (set n : StateT μ (Prog Q R) PUnit) post m s ↔ post (⟨⟩, n) s := Iff.rfl

@[simp] theorem wpTS_modify (post : Unit × μ → σ → Prop) (f : μ → μ) (m : μ) (s : σ) :
    wpTS H I (modify f : StateT μ (Prog Q R) Unit) post m s ↔ post ((), f m) s := Iff.rfl

@[simp] theorem wpTS_ite (c : Prop) [Decidable c] (post : α × μ → σ → Prop)
    (p q : StateT μ (Prog Q R) α) (m : μ) (s : σ) :
    wpTS H I (if c then p else q) post m s ↔
      if c then wpTS H I p post m s else wpTS H I q post m s := by
  split <;> rfl

theorem wpTS_map {post : β × μ → σ → Prop} {f : α → β} {p : StateT μ (Prog Q R) α} {m : μ} {s : σ} :
    wpTS H I (f <$> p) post m s ↔ wpTS H I p (fun a t => post (f a.1, a.2) t) m s :=
  wpS_bind I post (p m) (fun a => .ret (f a.1, a.2)) s

theorem wpTS_mono {post post' : α × μ → σ → Prop} (hpost : ∀ a s, post a s → post' a s)
    {p : StateT μ (Prog Q R) α} {m : μ} {s : σ} (h : wpTS H I p post m s) :
    wpTS H I p post' m s :=
  wpS_mono (fun _ _ h => h) hpost _ _ h

end StateT

/-- A run of `p` from `s` comes to ask `q` in state `u`, after the transcript `tr`. -/
inductive Asks (H : (q : Q) → σ → R q → σ → Prop) :
    Prog Q R α → σ → List (Σ q, R q) → Q → σ → Prop
  | here {q : Q} {k : R q → Prog Q R α} {s : σ} : Asks H (.ask q k) s [] q s
  | later {q q' : Q} {k : R q → Prog Q R α} {r : R q} {s s' u : σ} {tr : List (Σ q, R q)} :
      H q s r s' → Asks H (k r) s' tr q' u → Asks H (.ask q k) s (⟨q, r⟩ :: tr) q' u

theorem Asks.of_bind {p : Prog Q R α} {f : α → Prog Q R β} {s u : σ} {tr : List (Σ q, R q)} {q : Q}
    (h : Asks H (p >>= f) s tr q u) :
    Asks H p s tr q u ∨
      ∃ tr₁ tr₂ a t, tr = tr₁ ++ tr₂ ∧ Exec H p s tr₁ a t ∧ Asks H (f a) t tr₂ q u := by
  induction p generalizing s tr with
  | ret a => exact .inr ⟨[], tr, a, s, rfl, .ret a s, h⟩
  | ask q' k ih =>
    cases h with
    | here => exact .inl .here
    | later hH hk =>
      rcases ih _ hk with hk | ⟨tr₁, tr₂, a, t, rfl, hr, hk⟩
      · exact .inl (.later hH hk)
      · exact .inr ⟨_ :: tr₁, tr₂, a, t, rfl, .ask hH hr, hk⟩

theorem Asks.after {q q' : Q} {k : R q → Prog Q R α} {r : R q} {s s' u : σ} (hH : H q s r s')
    (h : ∃ tr, Asks H (k r) s' tr q' u) : ∃ tr, Asks H (.ask q k) s tr q' u := by
  obtain ⟨tr, h⟩ := h
  exact ⟨⟨q, r⟩ :: tr, .later hH h⟩

/-- **Soundness of `wpS` at the calls.** -/
theorem Asks.of_wpS {I : Q → σ → Prop} {post : α → σ → Prop} {p : Prog Q R α} {s u : σ}
    {tr : List (Σ q, R q)} {q : Q} (h : Asks H p s tr q u) (hp : p.wpS H I post s) : I q u := by
  induction h with
  | here => exact hp.1
  | later hH _ ih => exact ih (hp.2 _ _ hH)

/-- The transcript as the state. -/
def Logs (q : Q) (log : List (Σ q, R q)) (r : R q) (log' : List (Σ q, R q)) : Prop :=
  log' = log ++ [⟨q, r⟩]

/-- The transcript only grows. -/
theorem wpS_logs {I : Q → List (Σ q, R q) → Prop} {post : α → List (Σ q, R q) → Prop}
    {p : Prog Q R α} {log : List (Σ q, R q)} (h : p.wpS Logs I post log) :
    p.wpS Logs (fun q log' => I q log' ∧ log <+: log') (fun a log' => post a log' ∧ log <+: log')
      log := by
  induction p generalizing log with
  | ret a => exact ⟨h, List.prefix_rfl⟩
  | ask q k ih =>
    refine ⟨⟨h.1, List.prefix_rfl⟩, ?_⟩
    rintro r _ rfl
    have hle : log <+: log ++ [⟨q, r⟩] := List.prefix_append log _
    exact wpS_mono (fun q log' hI => ⟨hI.1, hle.trans hI.2⟩) (fun a log' hp => ⟨hp.1, hle.trans hp.2⟩)
      _ _ (ih r (h.2 r _ rfl))

/-- After the questions and answers of `tr`, what is left of `p` is `p'`. -/
inductive Leads : Prog Q R α → List (Σ q, R q) → Prog Q R α → Prop
  | refl (p : Prog Q R α) : Leads p [] p
  | ask {q : Q} {k : R q → Prog Q R α} {r : R q} {tr : List (Σ q, R q)} {p : Prog Q R α} :
      Leads (k r) tr p → Leads (.ask q k) (⟨q, r⟩ :: tr) p

theorem Leads.snoc {p : Prog Q R α} {tr : List (Σ q, R q)} {q : Q} {k : R q → Prog Q R α}
    (h : Leads p tr (.ask q k)) (r : R q) : Leads p (tr ++ [⟨q, r⟩]) (k r) := by
  generalize hp : Prog.ask q k = p' at h
  induction h with
  | refl p =>
    subst hp
    exact .ask (.refl (k r))
  | ask _ ih => exact .ask (ih hp)

theorem Leads.of_wpS {I : Q → List (Σ q, R q) → Prop} {post : α → List (Σ q, R q) → Prop}
    {p p' : Prog Q R α} {tr log : List (Σ q, R q)} (h : Leads p tr p')
    (hp : p.wpS Logs I post log) : p'.wpS Logs I post (log ++ tr) := by
  induction h generalizing log with
  | refl p =>
    rw [List.append_nil]
    exact hp
  | ask _ ih =>
    rw [List.append_cons]
    exact ih (hp.2 _ _ rfl)

/-- A run's transcript, from what holds of the program with the transcript as its state: the
result meets `post`, and each question was asked after a transcript that allows it. -/
theorem Runs.logged {ok : (q : Q) → R q → Prop} {I : Q → List (Σ q, R q) → Prop}
    {post : α → List (Σ q, R q) → Prop} {p : Prog Q R α} {tr log : List (Σ q, R q)} {a : α}
    (h : Runs ok p tr a) (hp : p.wpS Logs I post log) :
    post a (log ++ tr) ∧ ∀ l x r, tr = l ++ x :: r → I x.1 (log ++ l) := by
  induction h generalizing log with
  | ret a =>
    rw [List.append_nil]
    exact ⟨hp, fun l x r hl => absurd hl (by simp)⟩
  | @ask q k v tr a _ _ ih =>
    obtain ⟨hpost, hasked⟩ := ih (hp.2 v _ rfl)
    rw [List.append_assoc] at hpost
    refine ⟨hpost, fun l x r hl => ?_⟩
    cases l with
    | nil =>
      obtain ⟨rfl, -⟩ := List.cons.inj hl
      rw [List.append_nil]
      exact hp.1
    | cons y l =>
      obtain ⟨rfl, htl⟩ := List.cons.inj hl
      rw [List.append_cons]
      exact hasked l x r htl

/-- A program cut off leaves what one that goes on would. -/
theorem Crash.bind {p : Prog Q R α} {f : α → Prog Q R β} {s t : σ} (hc : Crash H T p s t) :
    Crash H T (p >>= f) s t := by
  induction hc with
  | here p s => exact .here _ s
  | inside hT => exact .inside hT
  | later hH _ ih => exact .later hH ih

/-- **Crash safety.**  If `C` holds wherever `p` asks or returns, and survives
a crash inside each call asked, it holds of whatever a crash leaves. -/
theorem Crash.of_wpS {C : σ → Prop} {p : Prog Q R α} {s t : σ} (hc : Crash H T p s t)
    (h : p.wpS H (fun q s => C s ∧ ∀ u, T q s u → C u) (fun _ s => C s) s) : C t := by
  induction hc with
  | here p s =>
    cases p with
    | ret a => exact h
    | ask q k => exact h.1.1
  | inside hT => exact h.1.2 _ hT
  | later hH _ ih => exact ih (h.2 _ _ hH)

/-- `C` where a call is made, and after a crash inside it. -/
def Guard (T : Q → σ → σ → Prop) (C : σ → Prop) (q : Q) (s : σ) : Prop := C s ∧ ∀ t, T q s t → C t

/-- The rule of a call after which `C` holds, whether or not the program goes on. -/
theorem wpS_guard {C : σ → Prop} {post : α → σ → Prop} {q : Q} {k : R q → Prog Q R α} {s : σ}
    (hT : ∀ t, T q s t → ∃ r, H q s r t) (hs : C s)
    (hk : ∀ r t, H q s r t → C t ∧ (k r).wpS H (Guard T C) post t) :
    (Prog.ask q k).wpS H (Guard T C) post s := by
  refine ⟨⟨hs, fun t ht => ?_⟩, fun r t ht => (hk r t ht).2⟩
  obtain ⟨r, hr⟩ := hT t ht
  exact (hk r t hr).1

end State

/-! ## Programs over a larger set of calls -/

section Embed

variable {Q' : Type} {R' : Q' → Type} {σ σ' : Type}

/-- `p` as a program whose calls are `f q`. -/
def embed (f : Q → Q') (g : (q : Q) → R' (f q) → R q) : Prog Q R α → Prog Q' R' α
  | .ret a => .ret a
  | .ask q k => .ask (f q) fun r => (k (g q r)).embed f g

/-- What holds of `p` over the part `view s` of the state holds of it embedded, along
with any `W` that the calls keep. -/
theorem wpS_embed {f : Q → Q'} {g : (q : Q) → R' (f q) → R q} {view : σ' → σ} {W : σ' → Prop}
    {H : (q : Q) → σ → R q → σ → Prop} {H' : (q : Q') → σ' → R' q → σ' → Prop}
    (hH : ∀ q s r t, W s → H' (f q) s r t → H q (view s) (g q r) (view t) ∧ W t)
    {I : Q → σ → Prop} {post : α → σ → Prop} (p : Prog Q R α) {s : σ'} (hs : W s)
    (h : p.wpS H I post (view s)) :
    (p.embed f g).wpS H' (fun q' s => W s ∧ ∃ q, q' = f q ∧ I q (view s))
      (fun a s => W s ∧ post a (view s)) s := by
  induction p generalizing s with
  | ret a => exact ⟨hs, h⟩
  | ask q k ih =>
    refine ⟨⟨hs, q, rfl, h.1⟩, fun r t ht => ?_⟩
    obtain ⟨hv, ht'⟩ := hH q s r t hs ht
    exact ih (g q r) ht' (h.2 _ _ hv)

/-- A run of `p` embedded is a run of `p` over the part `view s` of the state. -/
theorem Exec.of_embed {f : Q → Q'} {g : (q : Q) → R' (f q) → R q} {view : σ' → σ}
    {H : (q : Q) → σ → R q → σ → Prop} {H' : (q : Q') → σ' → R' q → σ' → Prop}
    (hH : ∀ q s r t, H' (f q) s r t → H q (view s) (g q r) (view t)) {p : Prog Q R α} {s t : σ'}
    {tr : List (Σ q, R' q)} {a : α} (h : Exec H' (p.embed f g) s tr a t) :
    ∃ tr', Exec H p (view s) tr' a (view t) := by
  induction p generalizing s tr with
  | ret a =>
    cases h
    exact ⟨[], .ret a _⟩
  | ask q k ih =>
    cases h with
    | ask hask hk =>
      obtain ⟨tr', hexec⟩ := ih _ hk
      exact ⟨_ :: tr', .ask (hH _ _ _ _ hask) hexec⟩

theorem Asks.of_embed {f : Q → Q'} {g : (q : Q) → R' (f q) → R q}
    {H' : (q : Q') → σ' → R' q → σ' → Prop} {p : Prog Q R α} {s u : σ'} {tr : List (Σ q, R' q)}
    {q' : Q'} (h : Asks H' (p.embed f g) s tr q' u) : ∃ q, q' = f q := by
  induction p generalizing s tr with
  | ret a => cases h
  | ask q k ih =>
    cases h with
    | here => exact ⟨q, rfl⟩
    | later _ hk => exact ih _ hk

end Embed

end Prog

end Interact
