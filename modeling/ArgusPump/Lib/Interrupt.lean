import Mathlib.Logic.Relation
import ArgusPump.Lib.Prog
import ArgusPump.Lib.Run

/-!
# A task and its interrupt handler

One task runs programs over a memory `μ` that it shares with an interrupt handler, and its
calls act on a world `σ`.  The handler is served in one piece, while the task is idle or waits
in a call that does not mask it.

    begin c       the idle task starts on `prog c`
    act           it makes its next call, or returns
    interrupt i   the handler is served
    answer        the call it waits in returns

`Meets E K` is the environment that a program of the task sees: calls that `E` allows, and in
each of them any number of interrupts that `K` allows.  If every program keeps `I` in that
environment, then so does every run with no other calls and interrupts  (Device.invariant).
-/

namespace Interact

variable {Q : Type} {R : Q → Type} {μ σ ι κ α : Type}

/-- `mem q` is the memory when the call `q` is made, `back q r` the memory that the answer `r`
says the task goes on with. -/
structure Device (Q : Type) (R : Q → Type) (μ σ ι : Type) where
  mem : Q → μ
  masked : Q → Bool
  back : (q : Q) → R q → μ
  act : Q → σ → σ
  handle : ι → μ × σ → μ × σ → Prop

inductive Task (Q : Type) (R : Q → Type) (α : Type)
  | idle
  | ready (p : Prog Q R α)
  | waiting (q : Q) (k : R q → Prog Q R α)

structure Machine (Q : Type) (R : Q → Type) (μ σ α : Type) where
  mem : μ
  world : σ
  task : Task Q R (α × μ)

inductive MachineEv (κ ι : Type)
  | begin (c : κ)
  | act
  | interrupt (i : ι)
  | answer
deriving DecidableEq

namespace Device

variable (D : Device Q R μ σ ι)

/-- Whether an interrupt can be served. -/
def isOpen : Task Q R α → Bool
  | .idle => true
  | .ready _ => false
  | .waiting q _ => !D.masked q

/-- The memory of a program that goes on with `p`. -/
def memOf : Prog Q R (α × μ) → μ
  | .ret a => a.2
  | .ask q _ => D.mem q

def goOn (p : Prog Q R (α × μ)) (w : σ) : Machine Q R μ σ α := ⟨D.memOf p, w, .ready p⟩

def Step (prog : κ → μ → Prog Q R (α × μ)) (s : Machine Q R μ σ α) :
    MachineEv κ ι → Machine Q R μ σ α → Prop
  | .begin c, t => s.task = .idle ∧ t = D.goOn (prog c s.mem) s.world
  | .act, t =>
      (∃ a, s.task = .ready (.ret a) ∧ t = ⟨a.2, s.world, .idle⟩) ∨
        ∃ q k, s.task = .ready (.ask q k) ∧ t = ⟨D.mem q, D.act q s.world, .waiting q k⟩
  | .interrupt i, t =>
      D.isOpen s.task = true ∧
        ∃ m w, D.handle i (s.mem, s.world) (m, w) ∧ t = ⟨m, w, s.task⟩
  | .answer, t =>
      ∃ q k r, s.task = .waiting q k ∧ D.back q r = s.mem ∧ t = D.goOn (k r) s.world

/-! ## What a program sees -/

/-- One interrupt that `K` allows. -/
def Served (K : ι → μ → σ → Prop) (x y : μ × σ) : Prop := ∃ i, K i x.1 x.2 ∧ D.handle i x y

/-- What may have happened to the memory and the world when the call `q` returns. -/
def Leaves (K : ι → μ → σ → Prop) (q : Q) (x y : μ × σ) : Prop :=
  if D.masked q then y = x else Relation.ReflTransGen (D.Served K) x y

def Meets (E : Q → σ → Prop) (K : ι → μ → σ → Prop) (q : Q) (w : σ) (r : R q) (w' : σ) : Prop :=
  E q w ∧ D.Leaves K q (D.mem q, D.act q w) (D.back q r, w')

/-- Kept by every interrupt that `K` allows. -/
def Stable (K : ι → μ → σ → Prop) (P : μ → σ → Prop) : Prop :=
  ∀ i m w m' w', K i m w → D.handle i (m, w) (m', w') → P m w → P m' w'

variable {D} {E : Q → σ → Prop} {K : ι → μ → σ → Prop} {P : μ → σ → Prop}

theorem Leaves.keeps {q : Q} {x y : μ × σ} (h : D.Leaves K q x y) (hP : D.Stable K P)
    (hx : P x.1 x.2) : P y.1 y.2 := by
  unfold Leaves at h
  split at h
  · rw [h]
    exact hx
  · induction h with
    | refl => exact hx
    | tail _ hs ih =>
      obtain ⟨i, hK, hi⟩ := hs
      exact hP i _ _ _ _ hK hi ih

theorem Stable.and {P' : μ → σ → Prop} (h : D.Stable K P) (h' : D.Stable K P') :
    D.Stable K fun m w => P m w ∧ P' m w :=
  fun i m w m' w' hK hi hP => ⟨h i m w m' w' hK hi hP.1, h' i m w m' w' hK hi hP.2⟩

/-- An interrupt before the rest. -/
theorem Leaves.served {q : Q} {x y z : μ × σ} (hq : D.masked q = false) (hs : D.Served K x y)
    (h : D.Leaves K q y z) : D.Leaves K q x z := by
  unfold Leaves at *
  rw [if_neg (by simp [hq])] at *
  exact .head hs h

theorem Leaves.refl (q : Q) (x : μ × σ) : D.Leaves K q x x := by
  unfold Leaves
  split
  · rfl
  · exact .refl

/-! ## Invariants of runs -/

section Invariant

variable {I J : μ → σ → Prop} {B : κ → μ → σ → Prop} {prog : κ → μ → Prog Q R (α × μ)}

/-- A move whose call, interrupt or program is one that `E`, `K` and `B` allow. -/
def Within (E : Q → σ → Prop) (K : ι → μ → σ → Prop) (B : κ → μ → σ → Prop)
    (m : Move (Machine Q R μ σ α) (MachineEv κ ι)) : Prop :=
  match m.ev with
  | .begin c => B c m.pre.mem m.pre.world
  | .act => ∀ q k, m.pre.task = .ready (.ask q k) → E q m.pre.world
  | .interrupt i => K i m.pre.mem m.pre.world
  | .answer => True

variable (D) in
/-- What holds of a program where it makes a call. -/
def AtCall (E : Q → σ → Prop) (J : μ → σ → Prop) (q : Q) (w : σ) : Prop :=
  J (D.mem q) w ∧ (E q w → J (D.mem q) (D.act q w))

variable (D) in
/-- What is left of the program in progress still ends in `I`. -/
def Inv (E : Q → σ → Prop) (K : ι → μ → σ → Prop) (I J : μ → σ → Prop)
    (s : Machine Q R μ σ α) : Prop :=
  J s.mem s.world ∧
  match s.task with
  | .idle => I s.mem s.world
  | .ready p => p.wpS (D.Meets E K) (D.AtCall E J) (fun a w => I a.2 w) s.world
  | .waiting q k =>
      ∀ r w, D.Leaves K q (s.mem, s.world) (D.back q r, w) →
        (k r).wpS (D.Meets E K) (D.AtCall E J) (fun a w => I a.2 w) w

theorem Inv.goOn {p : Prog Q R (α × μ)} {w : σ} (hIJ : ∀ m w, I m w → J m w)
    (hp : p.wpS (D.Meets E K) (D.AtCall E J) (fun a w => I a.2 w) w) :
    D.Inv E K I J (D.goOn p w) := by
  refine ⟨?_, hp⟩
  cases p with
  | ret a => exact hIJ _ _ hp
  | ask q k => exact hp.1.1

theorem Inv.step (hIJ : ∀ m w, I m w → J m w) (hI : D.Stable K I) (hJ : D.Stable K J)
    (hprog : ∀ c m w, B c m w → I m w →
      (prog c m).wpS (D.Meets E K) (D.AtCall E J) (fun a w => I a.2 w) w)
    {s t : Machine Q R μ σ α} {ev : MachineEv κ ι} (h : D.Inv E K I J s)
    (hs : D.Step prog s ev t) (hK : Within E K B ⟨s, ev, t⟩) : D.Inv E K I J t := by
  obtain ⟨hj, htask⟩ := h
  cases ev with
  | begin c =>
    obtain ⟨hidle, rfl⟩ := hs
    rw [hidle] at htask
    exact .goOn hIJ (hprog c _ _ hK htask)
  | act =>
    rcases hs with ⟨a, hready, rfl⟩ | ⟨q, k, hready, rfl⟩
    · rw [hready] at htask
      exact ⟨hIJ _ _ htask, htask⟩
    · rw [hready] at htask
      have hE : E q s.world := hK q k hready
      exact ⟨htask.1.2 hE, fun r w hl => htask.2 r w ⟨hE, hl⟩⟩
  | interrupt i =>
    obtain ⟨hopen, m, w, hi, rfl⟩ := hs
    refine ⟨hJ i _ _ _ _ hK hi hj, ?_⟩
    cases htk : s.task with
    | idle =>
      rw [htk] at htask
      exact hI i _ _ _ _ hK hi htask
    | ready p =>
      rw [htk] at hopen
      exact absurd hopen Bool.false_ne_true
    | waiting q k =>
      rw [htk] at htask hopen
      have hq : D.masked q = false := by simpa [isOpen] using hopen
      exact fun r w' hl => htask r w' (hl.served hq ⟨i, hK, hi⟩)
  | answer =>
    obtain ⟨q, k, r, hwait, hback, rfl⟩ := hs
    rw [hwait] at htask
    refine .goOn hIJ (htask r s.world ?_)
    rw [hback]
    exact .refl q _

/-- **Invariants of an interrupted task.** -/
theorem invariant (hIJ : ∀ m w, I m w → J m w) (hI : D.Stable K I) (hJ : D.Stable K J)
    (hprog : ∀ c m w, B c m w → I m w →
      (prog c m).wpS (D.Meets E K) (D.AtCall E J) (fun a w => I a.2 w) w)
    {s : Machine Q R μ σ α} {ms : List (Move (Machine Q R μ σ α) (MachineEv κ ι))}
    (h : IsRun (D.Step prog) s ms) (hidle : s.task = .idle) (hs : I s.mem s.world)
    (hms : ∀ m ∈ ms, Within E K B m) :
    ∀ m ∈ ms, J m.post.mem m.post.world ∧ (m.post.task = .idle → I m.post.mem m.post.world) := by
  have hstart : D.Inv E K I J s := by
    refine ⟨hIJ _ _ hs, ?_⟩
    rw [hidle]
    exact hs
  intro m hm
  obtain ⟨-, hj, htask⟩ := (h.inv_of hstart hms
    fun m hi hs hK => hi.step hIJ hI hJ hprog hs hK).1 m hm
  refine ⟨hj, fun hidle => ?_⟩
  rw [hidle] at htask
  exact htask

/-- What `Within` asks of a call, for a task. -/
def actAllowed (E : Q → σ → Prop) [∀ q w, Decidable (E q w)] (task : Task Q R (α × μ)) (w : σ) :
    Bool :=
  match task with
  | .ready (.ask q _) => decide (E q w)
  | _ => true

theorem actAllowed_iff [∀ q w, Decidable (E q w)] (task : Task Q R (α × μ)) (w : σ) :
    actAllowed E task w = true ↔ ∀ q k, task = .ready (.ask q k) → E q w := by
  constructor
  · rintro h q k rfl
    exact of_decide_eq_true h
  · intro h
    cases task with
    | idle => rfl
    | ready p =>
      cases p with
      | ret a => rfl
      | ask q k => exact decide_eq_true (h q k rfl)
    | waiting q k => rfl

instance [∀ q w, Decidable (E q w)] [∀ i m w, Decidable (K i m w)] [∀ c m w, Decidable (B c m w)]
    (m : Move (Machine Q R μ σ α) (MachineEv κ ι)) : Decidable (Within E K B m) :=
  match m with
  | ⟨pre, .begin c, _⟩ => inferInstanceAs (Decidable (B c pre.mem pre.world))
  | ⟨pre, .act, _⟩ => decidable_of_iff _ (actAllowed_iff pre.task pre.world)
  | ⟨pre, .interrupt i, _⟩ => inferInstanceAs (Decidable (K i pre.mem pre.world))
  | ⟨_, .answer, _⟩ => inferInstanceAs (Decidable True)

end Invariant

/-! ## What holds after a program -/

section Takes

variable {β : Type} {J M T : μ → σ → Prop}

variable (D) in
/-- From `P` to `T`, whatever calls and interrupts `E` and `K` allow. -/
def Takes (E : Q → σ → Prop) (K : ι → μ → σ → Prop) (J P T : μ → σ → Prop)
    (p : StateT μ (Prog Q R) α) : Prop :=
  ∀ m w, P m w → Prog.wpTS (D.Meets E K) (D.AtCall E J) p (fun a w => T a.2 w) m w

namespace Takes

theorem pure (a : α) : D.Takes E K J P P (pure a) := fun _ _ h => h

theorem get : D.Takes E K J P P (get : StateT μ (Prog Q R) μ) := fun _ _ h => h

/-- The memory that a program goes on with is the one that it read. -/
theorem get_bind {f : μ → StateT μ (Prog Q R) α}
    (hf : ∀ m, D.Takes E K J (fun m' w => m' = m ∧ P m' w) T (f m)) :
    D.Takes E K J P T (MonadState.get >>= f) :=
  fun m w h => hf m m w ⟨rfl, h⟩

theorem bind {p : StateT μ (Prog Q R) α} {f : α → StateT μ (Prog Q R) β}
    (hp : D.Takes E K J P M p) (hf : ∀ a, D.Takes E K J M T (f a)) :
    D.Takes E K J P T (p >>= f) := by
  intro m w h
  rw [Prog.wpTS_bind]
  exact Prog.wpTS_mono (fun a w h => hf a.1 a.2 w h) (hp m w h)

theorem map {p : StateT μ (Prog Q R) α} {f : α → β} (hp : D.Takes E K J P T p) :
    D.Takes E K J P T (f <$> p) :=
  fun m w h => Prog.wpTS_map.mpr (hp m w h)

theorem ite {c : Prop} [Decidable c] {p p' : StateT μ (Prog Q R) α} (hp : D.Takes E K J P T p)
    (hp' : D.Takes E K J P T p') : D.Takes E K J P T (if c then p else p') := by
  split
  · exact hp
  · exact hp'

theorem modify {f : μ → μ} (h : ∀ m w, P m w → T (f m) w) :
    D.Takes E K J P T (modify f : StateT μ (Prog Q R) Unit) := fun m w hP => h m w hP

theorem weaken {p : StateT μ (Prog Q R) α} (hp : D.Takes E K J P M p)
    (h : ∀ m w, M m w → T m w) : D.Takes E K J P T p :=
  fun m w hP => Prog.wpTS_mono (fun a w hM => h a.2 w hM) (hp m w hP)

theorem strengthen {p : StateT μ (Prog Q R) α} (hp : D.Takes E K J M T p)
    (h : ∀ m w, P m w → M m w) : D.Takes E K J P T p :=
  fun m w hP => hp m w (h m w hP)

/-- One call, and the interrupts served in it. -/
theorem ask {p : StateT μ (Prog Q R) α} {q : μ → Q} {f : (m : μ) → R (q m) → α × μ}
    (hp : ∀ m, p m = .ask (q m) fun r => .ret (f m r)) (hmem : ∀ m, D.mem (q m) = m)
    (hback : ∀ m r, (f m r).2 = D.back (q m) r) (hT : D.Stable K T) (hPJ : ∀ m w, P m w → J m w)
    (hTJ : ∀ m w, T m w → J m w) (hact : ∀ m w, P m w → E (q m) w → T m (D.act (q m) w)) :
    D.Takes E K J P T p := by
  intro m w h
  unfold Prog.wpTS
  rw [hp]
  refine ⟨⟨?_, fun hE => ?_⟩, fun r w' hr => ?_⟩
  · rw [hmem]
    exact hPJ m w h
  · rw [hmem]
    exact hTJ m _ (hact m w h hE)
  · change T (f m r).2 w'
    rw [hback]
    refine hr.2.keeps hT ?_
    rw [hmem]
    exact hact m w h hr.1

end Takes

end Takes

/-! ## Runs that are played -/

section Play

variable (D) (prog : κ → μ → Prog Q R (α × μ)) (reply : (q : Q) → μ → R q)
  (serve : ι → μ × σ → μ × σ)

/-- One move of the machine, with every call answered by `reply`. -/
def next (s : Machine Q R μ σ α) : MachineEv κ ι → Option (Machine Q R μ σ α)
  | .begin c =>
    match s.task with
    | .idle => some (D.goOn (prog c s.mem) s.world)
    | _ => none
  | .act =>
    match s.task with
    | .ready (.ret a) => some ⟨a.2, s.world, .idle⟩
    | .ready (.ask q k) => some ⟨D.mem q, D.act q s.world, .waiting q k⟩
    | _ => none
  | .interrupt i =>
    if D.isOpen s.task then
      let y := serve i (s.mem, s.world)
      some ⟨y.1, y.2, s.task⟩
    else none
  | .answer =>
    match s.task with
    | .waiting q k => some (D.goOn (k (reply q s.mem)) s.world)
    | _ => none

/-- The run through `evs`, up to the first that is out of place. -/
def playMachine : Machine Q R μ σ α → List (MachineEv κ ι) →
    List (Move (Machine Q R μ σ α) (MachineEv κ ι)) :=
  traceWhile fun s ev => (D.next prog reply serve s ev).map fun t => (ev, t)

variable {D} {prog} {reply} {serve}

theorem step_of_next (hreply : ∀ q m, D.back q (reply q m) = m)
    (hserve : ∀ i x, D.handle i x (serve i x)) {s t : Machine Q R μ σ α} {ev : MachineEv κ ι}
    (h : D.next prog reply serve s ev = some t) : D.Step prog s ev t := by
  cases ev with
  | begin c =>
    dsimp only [next] at h
    split at h
    next hidle => exact ⟨hidle, (Option.some.inj h).symm⟩
    · cases h
  | act =>
    dsimp only [next] at h
    split at h
    next a hready => exact .inl ⟨a, hready, (Option.some.inj h).symm⟩
    next q k hready => exact .inr ⟨q, k, hready, (Option.some.inj h).symm⟩
    · cases h
  | interrupt i =>
    dsimp only [next] at h
    split at h
    next hopen => exact ⟨hopen, _, _, hserve i _, (Option.some.inj h).symm⟩
    · cases h
  | answer =>
    dsimp only [next] at h
    split at h
    next q k hwait => exact ⟨q, k, reply q s.mem, hwait, hreply q _, (Option.some.inj h).symm⟩
    · cases h

theorem isRun_playMachine (hreply : ∀ q m, D.back q (reply q m) = m)
    (hserve : ∀ i x, D.handle i x (serve i x)) (s : Machine Q R μ σ α)
    (evs : List (MachineEv κ ι)) : IsRun (D.Step prog) s (D.playMachine prog reply serve s evs) := by
  refine isRun_traceWhile (fun s ev ev' t h => ?_) s evs
  obtain ⟨t', hnext, heq⟩ := Option.map_eq_some_iff.mp h
  cases heq
  exact step_of_next hreply hserve hnext

end Play

end Device

end Interact
