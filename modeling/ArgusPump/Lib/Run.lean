import Mathlib.Tactic.Common
import Mathlib.Data.List.Basic
import Mathlib.Data.List.Induction
import Mathlib.Data.List.Forall2
import Mathlib.Logic.Function.Iterate

/-!
# Runs of a labelled transition system

A run is the list of its moves, each with the state before, the label and the
state after; `IsRun step s ms` says the moves are steps and chain from `s`,
`final s ms` is where they end.

    I s → (every step keeps I) → I everywhere in the run              (IsRun.inv)
    ¬ P s → P (final s ms) → some move of ms enters P                 (IsRun.exists_enter)
    every step keeps f or applies g → f (final s ms) = g^[n] (f s),   (IsRun.iterate)
      n the number of moves that apply g
-/

namespace Interact

structure Move (σ ε : Type) where
  pre : σ
  ev : ε
  post : σ

variable {σ ε : Type} {step : σ → ε → σ → Prop}

def IsRun (step : σ → ε → σ → Prop) : σ → List (Move σ ε) → Prop
  | _, [] => True
  | s, m :: ms => m.pre = s ∧ step m.pre m.ev m.post ∧ IsRun step m.post ms

/-- The state a run from `s` ends in. -/
def final : σ → List (Move σ ε) → σ
  | s, [] => s
  | _, m :: ms => final m.post ms

@[simp] theorem isRun_nil (s : σ) : IsRun step s [] := trivial

@[simp] theorem isRun_cons (s : σ) (m : Move σ ε) (ms : List (Move σ ε)) :
    IsRun step s (m :: ms) ↔ m.pre = s ∧ step m.pre m.ev m.post ∧ IsRun step m.post ms := Iff.rfl

@[simp] theorem final_nil (s : σ) : final s ([] : List (Move σ ε)) = s := rfl

@[simp] theorem final_cons (s : σ) (m : Move σ ε) (ms : List (Move σ ε)) :
    final s (m :: ms) = final m.post ms := rfl

theorem final_append (s : σ) (ms ns : List (Move σ ε)) :
    final s (ms ++ ns) = final (final s ms) ns := by
  induction ms generalizing s with
  | nil => rfl
  | cons m ms ih => exact ih m.post

theorem isRun_append (s : σ) (ms ns : List (Move σ ε)) :
    IsRun step s (ms ++ ns) ↔ IsRun step s ms ∧ IsRun step (final s ms) ns := by
  induction ms generalizing s with
  | nil => simp
  | cons m ms ih => simp only [List.cons_append, isRun_cons, final_cons, ih, and_assoc]

theorem IsRun.step_of_mem {s : σ} {ms : List (Move σ ε)} (h : IsRun step s ms) :
    ∀ m ∈ ms, step m.pre m.ev m.post := by
  induction ms generalizing s with
  | nil => simp
  | cons n ms ih =>
    intro m hm
    rcases List.mem_cons.mp hm with rfl | hm
    · exact h.2.1
    · exact ih h.2.2 m hm

/-- A move of a run splits it: what came before ends in the state the move starts from. -/
theorem IsRun.split_of_mem {s : σ} {ms : List (Move σ ε)} (h : IsRun step s ms) {m : Move σ ε}
    (hm : m ∈ ms) :
    ∃ l r, ms = l ++ m :: r ∧ IsRun step s l ∧ final s l = m.pre ∧ IsRun step m.post r := by
  obtain ⟨l, r, rfl⟩ := List.append_of_mem hm
  rw [isRun_append, isRun_cons] at h
  exact ⟨l, r, rfl, h.1, h.2.1.symm, h.2.2.2⟩

/-- What holds of every element and those before it, element by element. -/
theorem forall_split_cons {α : Type} {P : List α → α → Prop} {a : α} {as : List α} :
    (∀ l v r, a :: as = l ++ v :: r → P l v) ↔
      P [] a ∧ ∀ l v r, as = l ++ v :: r → P (a :: l) v := by
  constructor
  · intro h
    refine ⟨h [] a as rfl, fun l v r heq => h (a :: l) v r ?_⟩
    rw [heq, List.cons_append]
  · rintro ⟨ha, has⟩ l v r heq
    cases l with
    | nil =>
      obtain ⟨rfl, -⟩ := List.cons.inj heq
      exact ha
    | cons b l =>
      obtain ⟨rfl, htail⟩ := List.cons.inj heq
      exact has l v r htail

theorem forall_split_nil {α : Type} {P : List α → α → Prop} :
    ∀ l v r, ([] : List α) = l ++ v :: r → P l v := by
  simp

/-- What holds all along one list and then along another. -/
theorem forall_split_append {α : Type} {P : List α → α → Prop} {as bs : List α} :
    (∀ l v r, as ++ bs = l ++ v :: r → P l v) ↔
      (∀ l v r, as = l ++ v :: r → P l v) ∧ ∀ l v r, bs = l ++ v :: r → P (as ++ l) v := by
  induction as generalizing P with
  | nil => exact ⟨fun h => ⟨forall_split_nil, h⟩, fun h => h.2⟩
  | cons a as ih =>
    rw [List.cons_append, forall_split_cons, forall_split_cons, ih]
    exact and_assoc.symm

/-- The same, by index. -/
theorem forall_split_iff {α : Type} {P : List α → α → Prop} {as : List α} :
    (∀ l v r, as = l ++ v :: r → P l v) ↔ ∀ i (h : i < as.length), P (as.take i) as[i] := by
  constructor
  · intro h i hi
    refine h (as.take i) as[i] (as.drop (i + 1)) ?_
    rw [← List.drop_eq_getElem_cons hi, List.take_append_drop]
  · rintro h l v r rfl
    have hl := h l.length (by simp)
    rw [List.take_left, List.getElem_append_right (Nat.le_refl _)] at hl
    simpa using hl

/-- The same of every stretch and what came before it. -/
theorem forall_stretch_iff {α : Type} {P : List α → List α → Prop} {as : List α} :
    (∀ l k r, as = l ++ k ++ r → P l k) ↔
      ∀ i < as.length + 1, ∀ j < as.length + 1, P (as.take i) ((as.drop i).take j) := by
  constructor
  · intro h i _ j _
    refine h (as.take i) ((as.drop i).take j) ((as.drop i).drop j) ?_
    rw [List.append_assoc, List.take_append_drop, List.take_append_drop]
  · rintro h l k r rfl
    rw [List.length_append, List.length_append] at h
    have hl := h l.length (by omega) k.length (by omega)
    rw [List.append_assoc, List.take_left, List.drop_left, List.take_left] at hl
    exact hl

/-- Every move starts from the first state or from where another ended. -/
theorem IsRun.pre_of_post {P : σ → Prop} {s : σ} {ms : List (Move σ ε)} (h : IsRun step s ms)
    (h0 : P s) (hpost : ∀ m ∈ ms, P m.post) : ∀ m ∈ ms, P m.pre := by
  induction ms generalizing s with
  | nil => simp
  | cons n ms ih =>
    obtain ⟨rfl, -, hr⟩ := h
    intro m hm
    rcases List.mem_cons.mp hm with rfl | hm
    · exact h0
    · exact ih hr (hpost n List.mem_cons_self)
        (fun k hk => hpost k (List.mem_cons_of_mem _ hk)) m hm

/-- **Invariants of runs**, for steps that meet a side condition `K`. -/
theorem IsRun.inv_of {I : σ → Prop} {K : Move σ ε → Prop} {s : σ} {ms : List (Move σ ε)}
    (h : IsRun step s ms) (h0 : I s) (hK : ∀ m ∈ ms, K m)
    (hstep : ∀ m : Move σ ε, I m.pre → step m.pre m.ev m.post → K m → I m.post) :
    (∀ m ∈ ms, I m.pre ∧ I m.post) ∧ I (final s ms) := by
  induction ms generalizing s with
  | nil => exact ⟨by simp, h0⟩
  | cons n ms ih =>
    obtain ⟨rfl, hs, hr⟩ := h
    have hpost := hstep n h0 hs (hK n List.mem_cons_self)
    obtain ⟨hall, hfin⟩ := ih hr hpost fun m hm => hK m (List.mem_cons_of_mem _ hm)
    refine ⟨fun m hm => ?_, hfin⟩
    rcases List.mem_cons.mp hm with rfl | hm
    · exact ⟨h0, hpost⟩
    · exact hall m hm

theorem IsRun.inv {I : σ → Prop} {s : σ} {ms : List (Move σ ε)} (h : IsRun step s ms)
    (h0 : I s) (hstep : ∀ m : Move σ ε, I m.pre → step m.pre m.ev m.post → I m.post) :
    (∀ m ∈ ms, I m.pre ∧ I m.post) ∧ I (final s ms) :=
  h.inv_of (K := fun _ => True) h0 (fun _ _ => trivial) fun m hi hs _ => hstep m hi hs

/-- Invariants of the state and the moves that led to it, where every move meets a side
condition `K` on what came before it. -/
theorem IsRun.inv_past_of {I : σ → List (Move σ ε) → Prop} {K : List (Move σ ε) → Move σ ε → Prop}
    {s : σ} {ms : List (Move σ ε)} (h : IsRun step s ms) (h0 : I s [])
    (hK : ∀ l v r, ms = l ++ v :: r → K l v)
    (hstep : ∀ (ns : List (Move σ ε)) (m : Move σ ε), I m.pre ns → step m.pre m.ev m.post →
      K ns m → I m.post (ns ++ [m])) : I (final s ms) ms := by
  induction ms using List.reverseRecOn with
  | nil => exact h0
  | append_singleton ms m ih =>
    rw [isRun_append, isRun_cons] at h
    obtain ⟨hms, hpre, hs, -⟩ := h
    have hpast : I (final s ms) ms := by
      refine ih hms fun l v r heq => hK l v (r ++ [m]) ?_
      rw [heq, List.append_assoc, List.cons_append]
    rw [final_append]
    exact hstep ms m (hpre ▸ hpast) hs (hK ms m [] rfl)

theorem IsRun.inv_past {I : σ → List (Move σ ε) → Prop} {s : σ} {ms : List (Move σ ε)}
    (h : IsRun step s ms) (h0 : I s [])
    (hstep : ∀ (ns : List (Move σ ε)) (m : Move σ ε), I m.pre ns → step m.pre m.ev m.post →
      I m.post (ns ++ [m])) : I (final s ms) ms :=
  h.inv_past_of (K := fun _ _ => True) h0 (fun _ _ _ _ => trivial) fun ns m hi hs _ => hstep ns m hi hs

/-- **Simulation.**  A relation that each step keeps makes of a run one of the other system, with
the same labels. -/
theorem IsRun.simulate {τ : Type} {step' : τ → ε → τ → Prop} {R : σ → τ → Prop} {s : σ} {t : τ}
    {ms : List (Move σ ε)} (h : IsRun step s ms) (hR : R s t)
    (hstep : ∀ {s e s' t}, step s e s' → R s t → ∃ t', step' t e t' ∧ R s' t') :
    ∃ ns, IsRun step' t ns ∧ List.Forall₂ (fun n m => n.ev = m.ev ∧ R m.post n.post) ns ms := by
  induction ms generalizing s t with
  | nil => exact ⟨[], trivial, .nil⟩
  | cons m ms ih =>
    obtain ⟨rfl, hm, hms⟩ := h
    obtain ⟨t', ht', hpost⟩ := hstep hm hR
    obtain ⟨ns, hns, hall⟩ := ih hms hpost
    exact ⟨⟨t, m.ev, t'⟩ :: ns, ⟨rfl, ht', hns⟩, .cons ⟨rfl, hpost⟩ hall⟩

/-- The moves of two runs with the same labels are counted alike. -/
theorem countP_of_simulate {τ : Type} {R : Move σ ε → Move τ ε → Prop} {ms : List (Move σ ε)}
    {ns : List (Move τ ε)} (h : List.Forall₂ (fun n m => n.ev = m.ev ∧ R m n) ns ms) (b : ε → Bool) :
    ns.countP (fun n => b n.ev) = ms.countP fun m => b m.ev := by
  induction h with
  | nil => rfl
  | cons hev _ ih => rw [List.countP_cons, List.countP_cons, ih, hev.1]

/-- **Counting up to a bound.**  A weight that only the moves with `b` raise, by one at most. -/
theorem IsRun.weight_le {w : σ → Nat} {b : Move σ ε → Bool} {s : σ} {ms : List (Move σ ε)}
    (h : IsRun step s ms)
    (hstep : ∀ m : Move σ ε, step m.pre m.ev m.post → w m.post ≤ w m.pre + if b m then 1 else 0) :
    ∀ m ∈ ms, w m.post ≤ w s + ms.countP b := by
  induction ms generalizing s with
  | nil => simp
  | cons n ms ih =>
    obtain ⟨rfl, hn, hms⟩ := h
    have hhead := hstep n hn
    intro m hm
    rw [List.countP_cons]
    rcases List.mem_cons.mp hm with rfl | hm
    · omega
    · have := ih hms m hm
      omega

/-- The run of a deterministic system on a list of labels. -/
def trace (f : σ → ε → σ) : σ → List ε → List (Move σ ε)
  | _, [] => []
  | s, e :: es => ⟨s, e, f s e⟩ :: trace f (f s e) es

theorem trace_append (f : σ → ε → σ) (s : σ) (es es' : List ε) :
    trace f s (es ++ es') = trace f s es ++ trace f (final s (trace f s es)) es' := by
  induction es generalizing s with
  | nil => rfl
  | cons e es ih => exact congrArg (_ :: ·) (ih (f s e))

theorem isRun_trace {f : σ → ε → σ} (h : ∀ s e, step s e (f s e)) (s : σ) (es : List ε) :
    IsRun step s (trace f s es) := by
  induction es generalizing s with
  | nil => trivial
  | cons e es ih => exact ⟨rfl, h s e, ih (f s e)⟩

theorem ev_mem_of_trace {f : σ → ε → σ} {s : σ} {es : List ε} {v : Move σ ε}
    (h : v ∈ trace f s es) : v.ev ∈ es := by
  induction es generalizing s with
  | nil => cases h
  | cons e es ih =>
    rcases List.mem_cons.mp h with rfl | h
    · exact List.mem_cons_self
    · exact List.mem_cons_of_mem _ (ih h)

/-- The run of a system that may refuse, up to the first refusal; `f` gives label and
next state. -/
def traceWhile {α : Type} (f : σ → α → Option (ε × σ)) : σ → List α → List (Move σ ε)
  | _, [] => []
  | s, a :: as =>
    match f s a with
    | some (e, t) => ⟨s, e, t⟩ :: traceWhile f t as
    | none => []

theorem isRun_traceWhile {α : Type} {f : σ → α → Option (ε × σ)}
    (h : ∀ s a e t, f s a = some (e, t) → step s e t) (s : σ) (as : List α) :
    IsRun step s (traceWhile f s as) := by
  induction as generalizing s with
  | nil => trivial
  | cons a as ih =>
    unfold traceWhile
    split
    · next e t hf => exact ⟨rfl, h s a e t hf, ih t⟩
    · trivial

/-- Every label comes from an input of the run. -/
theorem exists_of_traceWhile {α : Type} {f : σ → α → Option (ε × σ)} {R : α → ε → Prop}
    (hf : ∀ s a e t, f s a = some (e, t) → R a e) {s : σ} {as : List α} {v : Move σ ε}
    (h : v ∈ traceWhile f s as) : ∃ a ∈ as, R a v.ev := by
  induction as generalizing s with
  | nil => cases h
  | cons a as ih =>
    unfold traceWhile at h
    split at h
    · next e t hnext =>
      rcases List.mem_cons.mp h with rfl | h
      · exact ⟨a, List.mem_cons_self, hf s a e t hnext⟩
      · obtain ⟨b, hb, hR⟩ := ih h
        exact ⟨b, List.mem_cons_of_mem _ hb, hR⟩
    · cases h

theorem ev_mem_of_traceWhile {f : σ → ε → Option σ} {s : σ} {es : List ε} {v : Move σ ε}
    (h : v ∈ traceWhile (fun s e => (f s e).map fun t => (e, t)) s es) : v.ev ∈ es := by
  have hlabel (s : σ) (e ev : ε) (t : σ) (hnext : ((f s e).map fun t => (e, t)) = some (ev, t)) :
      ev = e := by
    obtain ⟨t', -, heq⟩ := Option.map_eq_some_iff.mp hnext
    exact (congrArg Prod.fst heq).symm
  obtain ⟨e, he, heq⟩ := exists_of_traceWhile (R := fun e ev => ev = e) hlabel h
  rw [heq]
  exact he

/-- A move with `Q`, and none with `N` after it. -/
def Since (Q N : Move σ ε → Prop) (ms : List (Move σ ε)) : Prop :=
  ∃ l m r, ms = l ++ m :: r ∧ Q m ∧ ∀ n ∈ r, ¬ N n

theorem Since.now {Q N : Move σ ε → Prop} {ms : List (Move σ ε)} {v : Move σ ε} (h : Q v) :
    Since Q N (ms ++ [v]) :=
  ⟨ms, v, [], rfl, h, by simp⟩

theorem Since.append {Q N : Move σ ε → Prop} {ms : List (Move σ ε)} {v : Move σ ε}
    (h : Since Q N ms) (hv : ¬ N v) : Since Q N (ms ++ [v]) := by
  obtain ⟨l, m, r, rfl, hm, hr⟩ := h
  refine ⟨l, m, r ++ [v], by simp, hm, fun n hn => ?_⟩
  rcases List.mem_append.mp hn with hn | hn
  · exact hr n hn
  · rw [List.mem_singleton.mp hn]
    exact hv

theorem since_append_singleton {Q N : Move σ ε → Prop} {ms : List (Move σ ε)} {v : Move σ ε} :
    Since Q N (ms ++ [v]) ↔ Q v ∨ Since Q N ms ∧ ¬ N v := by
  constructor
  · rintro ⟨l, m, r, heq, hm, hr⟩
    rcases List.eq_nil_or_concat r with rfl | ⟨r, w, rfl⟩
    · obtain ⟨rfl, hlast⟩ := List.append_inj' heq rfl
      exact .inl ((List.singleton_inj.mp hlast) ▸ hm)
    · rw [List.concat_eq_append, ← List.cons_append, ← List.append_assoc] at heq
      obtain ⟨rfl, hlast⟩ := List.append_inj' heq rfl
      have hN : ¬ N v := (List.singleton_inj.mp hlast) ▸ hr w (by simp)
      exact .inr ⟨⟨l, m, r, rfl, hm, fun n hn => hr n (by simp [hn])⟩, hN⟩
  · rintro (hv | ⟨hms, hv⟩)
    · exact .now hv
    · exact hms.append hv

theorem since_cons {Q N : Move σ ε → Prop} {ms : List (Move σ ε)} {v : Move σ ε} :
    Since Q N (v :: ms) ↔ (Q v ∧ ∀ n ∈ ms, ¬ N n) ∨ Since Q N ms := by
  constructor
  · rintro ⟨l, m, r, heq, hm, hr⟩
    cases l with
    | nil =>
      obtain ⟨rfl, rfl⟩ := List.cons.inj heq
      exact .inl ⟨hm, hr⟩
    | cons w l =>
      obtain ⟨rfl, htail⟩ := List.cons.inj heq
      exact .inr ⟨l, m, r, htail, hm, hr⟩
  · rintro (⟨hv, hms⟩ | ⟨l, m, r, rfl, hm, hr⟩)
    · exact ⟨[], v, ms, rfl, hv, hms⟩
    · exact ⟨v :: l, m, r, rfl, hm, hr⟩

/-- After a move with `N`, what holds since then comes from later moves. -/
theorem Since.of_append {Q N : Move σ ε → Prop} {ms ns : List (Move σ ε)} (h : Since Q N (ms ++ ns))
    (hn : ∃ n ∈ ns, N n) : ∃ m ∈ ns, Q m := by
  induction ms with
  | nil =>
    obtain ⟨l, m, r, rfl, hm, -⟩ := h
    exact ⟨m, by simp, hm⟩
  | cons v ms ih =>
    rcases since_cons.mp h with ⟨-, hnone⟩ | h
    · obtain ⟨n, hn, hN⟩ := hn
      exact absurd hN (hnone n (List.mem_append_right _ hn))
    · exact ih h

/-- What holds since a move with `N` holds of the moves after it. -/
theorem Since.after {Q N : Move σ ε → Prop} {ms ns : List (Move σ ε)} {n : Move σ ε}
    (h : Since Q N (ms ++ n :: ns)) (hN : N n) (hQ : ¬ Q n) : Since Q N ns := by
  induction ms with
  | nil =>
    rcases since_cons.mp h with ⟨hn, -⟩ | h
    · exact absurd hn hQ
    · exact h
  | cons v ms ih =>
    rcases since_cons.mp h with ⟨-, hnone⟩ | h
    · exact absurd hN (hnone n (by simp))
    · exact ih h

theorem Since.mono {Q N N' : Move σ ε → Prop} {ms : List (Move σ ε)} (h : Since Q N ms)
    (hN : ∀ n ∈ ms, N' n → N n) : Since Q N' ms := by
  obtain ⟨l, m, r, rfl, hm, hr⟩ := h
  exact ⟨l, m, r, rfl, hm, fun n hn h' => hr n hn (hN n (by simp [hn]) h')⟩

/-- What holds of the end of a run holds of the run. -/
theorem Since.prepend {Q N : Move σ ε → Prop} {ms : List (Move σ ε)} (h : Since Q N ms)
    (ls : List (Move σ ε)) : Since Q N (ls ++ ms) := by
  obtain ⟨l, m, r, rfl, hm, hr⟩ := h
  exact ⟨ls ++ l, m, r, by simp, hm, hr⟩

/-- States that a run from `init` ends in. -/
def Reach (step : σ → ε → σ → Prop) (init s : σ) : Prop :=
  ∃ ms, IsRun step init ms ∧ final init ms = s

theorem Reach.inv {I : σ → Prop} {init s : σ} (h : Reach step init s) (h0 : I init)
    (hstep : ∀ m : Move σ ε, I m.pre → step m.pre m.ev m.post → I m.post) : I s := by
  obtain ⟨ms, hr, rfl⟩ := h
  exact (hr.inv h0 hstep).2

/-- A run into `P` from outside has a move into `P`. -/
theorem IsRun.exists_enter {P : σ → Prop} {s : σ} {ms : List (Move σ ε)} (h : IsRun step s ms)
    (hs : ¬ P s) (hf : P (final s ms)) : ∃ m ∈ ms, ¬ P m.pre ∧ P m.post := by
  induction ms generalizing s with
  | nil => exact absurd hf hs
  | cons n ms ih =>
    obtain ⟨rfl, -, hr⟩ := h
    by_cases hp : P n.post
    · exact ⟨n, List.mem_cons_self, hs, hp⟩
    · obtain ⟨m, hm, hch⟩ := ih hr hp hf
      exact ⟨m, List.mem_cons_of_mem _ hm, hch⟩

/-- A run into `P` from outside has a last move into `P`: from there on `P` holds. -/
theorem IsRun.exists_last_enter {P : σ → Prop} {s : σ} {ms : List (Move σ ε)}
    (h : IsRun step s ms) (hs : ¬ P s) (hf : P (final s ms)) :
    ∃ l m r, ms = l ++ m :: r ∧ ¬ P m.pre ∧ P m.post ∧ ∀ n ∈ r, P n.post := by
  induction ms using List.reverseRecOn with
  | nil => exact absurd hf hs
  | append_singleton ms v ih =>
    rw [isRun_append] at h
    obtain ⟨hms, hpre, -⟩ := h
    rw [final_append] at hf
    by_cases hp : P v.pre
    · obtain ⟨l, m, r, rfl, hm, hpost, hr⟩ := ih hms (by rw [← hpre]; exact hp)
      refine ⟨l, m, r ++ [v], by simp, hm, hpost, fun n hn => ?_⟩
      rcases List.mem_append.mp hn with hn | hn
      · exact hr n hn
      · rw [List.mem_singleton.mp hn]
        exact hf
    · exact ⟨ms, v, [], rfl, hp, hf, by simp⟩

/-- A value that differs between the ends of a run is changed by one of its moves. -/
theorem IsRun.exists_change {α : Type} (f : σ → α) {s : σ} {ms : List (Move σ ε)}
    (h : IsRun step s ms) (hne : f (final s ms) ≠ f s) : ∃ m ∈ ms, f m.post ≠ f m.pre := by
  obtain ⟨m, hm, hpre, hpost⟩ := h.exists_enter (P := fun t => f t ≠ f s) (by simp) hne
  refine ⟨m, hm, fun hc => hpost ?_⟩
  rw [hc]
  exact not_not.mp hpre

/-- **Counting.**  Where every move of a run keeps `f` or applies `g` to it
(`b m` tells which), the run applies `g` as often as `b` holds. -/
theorem IsRun.iterate {α : Type} (f : σ → α) (g : α → α) (b : Move σ ε → Bool) {s : σ}
    {ms : List (Move σ ε)} (h : IsRun step s ms)
    (hstep : ∀ m ∈ ms, f m.post = if b m then g (f m.pre) else f m.pre) :
    f (final s ms) = g^[ms.countP b] (f s) := by
  induction ms generalizing s with
  | nil => rfl
  | cons n ms ih =>
    obtain ⟨rfl, -, hr⟩ := h
    have hn := hstep n List.mem_cons_self
    have := ih hr fun m hm => hstep m (List.mem_cons_of_mem _ hm)
    rw [final_cons, this, hn, List.countP_cons]
    cases hb : b n with
    | false => simp
    | true => simp [Function.iterate_succ_apply]

end Interact
