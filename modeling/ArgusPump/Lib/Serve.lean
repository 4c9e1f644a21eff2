import ArgusPump.Lib.Run
import Mathlib.Logic.Function.Basic

/-!
# One serving task, its queue and the frames of its callers

Any number of tasks call one server.  A call puts a request and room for the answer in the
caller's own frame and sends a pointer to it through a queue of `cap` places; the server works on
one frame at a time, writes the answer into it and signals the caller, who then returns.  A caller
that finds the queue full waits for room, and may give up.

    a pointer in the queue or at the server is of a call still waiting, once     (Inv.step)
    a call that returns was worked on once, for its own request, after the work on `cap` others
      at most since it got its place                                             (served)
    a call that gives up was not worked on                                       (served)
    a call in progress can go on, or the server can                              (goes_on)
-/

namespace Interact

namespace Serve

/-- Where a task is in its call. -/
inductive Phase (ρ α : Type)
  | idle
  | sending (r : ρ)
  /-- The queue was full. -/
  | blocked (r : ρ)
  /-- Sent: what the frame holds, and whether the server has signalled. -/
  | waiting (r : ρ) (frame : α) (signalled : Bool)

inductive Worker
  | idle
  /-- Before and in the work on the frame of a task. -/
  | busy (t : Nat)
  /-- After it, before the signal. -/
  | done (t : Nat)

structure Server (ρ α : Type) where
  queue : List Nat
  worker : Worker
  task : Nat → Phase ρ α

inductive Act (ρ α χ : Type)
  | call (t : Nat) (r : ρ)
  | send (t : Nat)
  | full (t : Nat)
  | timeout (t : Nat) (r : ρ)
  | receive
  | work (c : χ)
  | signal
  | take (t : Nat) (r : ρ) (frame : α)

variable {ρ α χ : Type}

def Server.start : Server ρ α := ⟨[], .idle, fun _ => .idle⟩

def Server.goto (s : Server ρ α) (t : Nat) (phase : Phase ρ α) : Server ρ α :=
  { s with task := Function.update s.task t phase }

/-- The frames not worked on yet, in order. -/
def Server.todo (s : Server ρ α) : List Nat :=
  match s.worker with
  | .busy t => t :: s.queue
  | .idle | .done _ => s.queue

variable (cap : Nat) (init : ρ → α) (work : ρ → χ → α → α)

/-- A step of a task or of the server. -/
inductive Step : Server ρ α → Act ρ α χ → Server ρ α → Prop
  | call {s : Server ρ α} {t : Nat} {r : ρ} (h : s.task t = .idle) :
      Step s (.call t r) (s.goto t (.sending r))
  | send {s : Server ρ α} {t : Nat} {r : ρ} (h : s.task t = .sending r ∨ s.task t = .blocked r)
      (hroom : s.queue.length < cap) :
      Step s (.send t) ({ s with queue := s.queue ++ [t] }.goto t (.waiting r (init r) false))
  | full {s : Server ρ α} {t : Nat} {r : ρ} (h : s.task t = .sending r)
      (hfull : cap ≤ s.queue.length) : Step s (.full t) (s.goto t (.blocked r))
  | timeout {s : Server ρ α} {t : Nat} {r : ρ} (h : s.task t = .blocked r) :
      Step s (.timeout t r) (s.goto t .idle)
  | receive {s : Server ρ α} {t : Nat} {queue : List Nat} (h : s.worker = .idle)
      (hqueue : s.queue = t :: queue) : Step s .receive { s with queue := queue, worker := .busy t }
  | work {s : Server ρ α} {t : Nat} {r : ρ} {frame : α} {signalled : Bool} (c : χ)
      (h : s.worker = .busy t) (hframe : s.task t = .waiting r frame signalled) :
      Step s (.work c) ({ s with worker := .done t }.goto t (.waiting r (work r c frame) signalled))
  | signal {s : Server ρ α} {t : Nat} {r : ρ} {frame : α} {signalled : Bool} (h : s.worker = .done t)
      (hframe : s.task t = .waiting r frame signalled) :
      Step s .signal ({ s with worker := .idle }.goto t (.waiting r frame true))
  | take {s : Server ρ α} {t : Nat} {r : ρ} {frame : α} (h : s.task t = .waiting r frame true) :
      Step s (.take t r frame) (s.goto t .idle)

abbrev ServeMove (ρ α χ : Type) := Move (Server ρ α) (Act ρ α χ)

/-! ## The calls of a run -/

/-- The move is the work on a frame. -/
def IsWork (m : ServeMove ρ α χ) : Bool :=
  match m.ev with
  | .work _ => true
  | _ => false

/-- The move begins or ends a call of the task, or is the work on its frame. -/
def Touches (t : Nat) (m : ServeMove ρ α χ) : Prop :=
  (m.pre.worker = .busy t ∧ IsWork m = true) ∨
    ∃ r, m.ev = .call t r ∨ m.ev = .timeout t r ∨ ∃ frame, m.ev = .take t r frame

/-- The task has called for `r`, and nothing was done about it. -/
def Asked (t : Nat) (r : ρ) (ms : List (ServeMove ρ α χ)) : Prop :=
  Since (fun m => m.ev = .call t r) (Touches t) ms

/-- Its request then got a place in the queue, `n` works ago. -/
def Sent (t : Nat) (r : ρ) (n : Nat) (ms : List (ServeMove ρ α χ)) : Prop :=
  ∃ l m k, ms = l ++ m :: k ∧ Asked t r l ∧ m.ev = .send t ∧ (∀ v ∈ k, ¬ Touches t v) ∧
    k.countP IsWork = n

/-- And then was worked on, with at most `cap` others before it, which left `frame`. -/
def Served (t : Nat) (r : ρ) (frame : α) (ms : List (ServeMove ρ α χ)) : Prop :=
  ∃ l m k n c, ms = l ++ m :: k ∧ Sent t r n l ∧ n ≤ cap ∧ m.pre.worker = .busy t ∧ m.ev = .work c ∧
    frame = work r c (init r) ∧ ∀ v ∈ k, ¬ Touches t v

section Append

variable {t n : Nat} {r : ρ} {frame : α} {ms : List (ServeMove ρ α χ)} {m : ServeMove ρ α χ}

theorem quiet_append {k : List (ServeMove ρ α χ)} (h : ∀ v ∈ k, ¬ Touches t v) (hm : ¬ Touches t m) :
    ∀ v ∈ k ++ [m], ¬ Touches t v := by
  intro v hv
  rcases List.mem_append.mp hv with hv | hv
  · exact h v hv
  · rw [List.mem_singleton.mp hv]
    exact hm

theorem Sent.append (h : Sent t r n ms) (hm : ¬ Touches t m) :
    Sent t r (n + if IsWork m then 1 else 0) (ms ++ [m]) := by
  obtain ⟨l, sent, k, rfl, hasked, hev, hquiet, rfl⟩ := h
  refine ⟨l, sent, k ++ [m], by simp, hasked, hev, quiet_append hquiet hm, ?_⟩
  rw [List.countP_append, List.countP_singleton]

theorem Served.append (h : Served cap init work t r frame ms) (hm : ¬ Touches t m) :
    Served cap init work t r frame (ms ++ [m]) := by
  obtain ⟨l, worked, k, n, c, rfl, hsent, hn, hbusy, hev, hframe, hquiet⟩ := h
  exact ⟨l, worked, k ++ [m], n, c, by simp, hsent, hn, hbusy, hev, hframe, quiet_append hquiet hm⟩

end Append

/-! ## What every step keeps -/

/-- A task's phase, by where the pointer to its frame is. -/
inductive Stage (s : Server ρ α) (ms : List (ServeMove ρ α χ)) (t : Nat) : Phase ρ α → Prop
  | idle (htodo : t ∉ s.todo) (hdone : s.worker ≠ .done t) : Stage s ms t .idle
  | sending {r : ρ} (htodo : t ∉ s.todo) (hdone : s.worker ≠ .done t) (h : Asked t r ms) :
      Stage s ms t (.sending r)
  | blocked {r : ρ} (htodo : t ∉ s.todo) (hdone : s.worker ≠ .done t) (h : Asked t r ms) :
      Stage s ms t (.blocked r)
  | todo {r : ρ} {i n : Nat} (hi : s.todo[i]? = some t) (hdone : s.worker ≠ .done t)
      (h : Sent t r n ms) (hn : n + i ≤ cap) : Stage s ms t (.waiting r (init r) false)
  | done {r : ρ} {frame : α} (htodo : t ∉ s.todo) (hdone : s.worker = .done t)
      (h : Served cap init work t r frame ms) : Stage s ms t (.waiting r frame false)
  | signalled {r : ρ} {frame : α} (htodo : t ∉ s.todo) (hdone : s.worker ≠ .done t)
      (h : Served cap init work t r frame ms) : Stage s ms t (.waiting r frame true)

/-- Every pointer is of a call still waiting, and is held once. -/
structure Inv (s : Server ρ α) (ms : List (ServeMove ρ α χ)) : Prop where
  nodup : s.todo.Nodup
  bounded : s.queue.length ≤ cap
  stage : ∀ t, Stage cap init work s ms t (s.task t)

section Steps

variable {cap init work} {s s' : Server ρ α} {ms : List (ServeMove ρ α χ)} {t t' : Nat}

@[simp] theorem goto_todo (s : Server ρ α) (t : Nat) (phase : Phase ρ α) : (s.goto t phase).todo = s.todo := rfl

theorem goto_task (s : Server ρ α) (t u : Nat) (phase : Phase ρ α) :
    (s.goto t phase).task u = if u = t then phase else s.task u := by
  unfold Server.goto
  exact Function.update_apply _ _ _ _

theorem asked_call {m : ServeMove ρ α χ} {r : ρ} (hev : m.ev = .call t r) : Asked t r (ms ++ [m]) :=
  .now hev

/-- A move of another task, or the server's on another frame: the frames before this one get no
more, and one fewer if the move is work. -/
theorem Stage.append {phase : Phase ρ α} {m : ServeMove ρ α χ}
    (h : Stage cap init work s ms t phase) (hm : ¬ Touches t m) (htodo : t ∈ s'.todo → t ∈ s.todo)
    (hdone : s'.worker = .done t ↔ s.worker = .done t)
    (hahead : ∀ i, s.todo[i]? = some t → ∃ j, s'.todo[j]? = some t ∧ j + (if IsWork m then 1 else 0) ≤ i) :
    Stage cap init work s' (ms ++ [m]) t phase := by
  cases h with
  | idle hout hnot => exact .idle (mt htodo hout) (mt hdone.mp hnot)
  | sending hout hnot hasked => exact .sending (mt htodo hout) (mt hdone.mp hnot) (hasked.append hm)
  | blocked hout hnot hasked => exact .blocked (mt htodo hout) (mt hdone.mp hnot) (hasked.append hm)
  | todo hi hnot hsent hn =>
    obtain ⟨j, hj, hle⟩ := hahead _ hi
    exact .todo hj (mt hdone.mp hnot) (hsent.append hm) (by omega)
  | done hout hd hserved => exact .done (mt htodo hout) (hdone.mpr hd) (hserved.append _ _ _ hm)
  | signalled hout hnot hserved =>
    exact .signalled (mt htodo hout) (mt hdone.mp hnot) (hserved.append _ _ _ hm)

/-- What the others see of a step that leaves the pointers alone. -/
theorem Stage.same {phase : Phase ρ α} {m : ServeMove ρ α χ} (h : Stage cap init work s ms t phase)
    (hm : ¬ Touches t m) (htodo : s'.todo = s.todo) (hwork : IsWork m = false)
    (hdone : s'.worker = .done t ↔ s.worker = .done t) :
    Stage cap init work s' (ms ++ [m]) t phase := by
  refine h.append hm (fun hin => htodo ▸ hin) hdone fun i hi => ⟨i, htodo ▸ hi, ?_⟩
  rw [hwork]
  exact Nat.le_refl i

theorem not_touches {m : ServeMove ρ α χ} (hwork : IsWork m = true → m.pre.worker ≠ .busy t)
    (hcall : ∀ r, m.ev ≠ .call t r) (htimeout : ∀ r, m.ev ≠ .timeout t r)
    (htake : ∀ r frame, m.ev ≠ .take t r frame) : ¬ Touches t m := by
  rintro (⟨hbusy, hw⟩ | ⟨r, h | h | ⟨frame, h⟩⟩)
  · exact hwork hw hbusy
  · exact hcall r h
  · exact htimeout r h
  · exact htake r frame h

theorem Inv.send {r : ρ} (h : Inv cap init work s ms) (hphase : s.task t = .sending r ∨ s.task t = .blocked r)
    (hroom : s.queue.length < cap) (s' : Server ρ α)
    (hs' : s' = { s with queue := s.queue ++ [t] }.goto t (.waiting r (init r) false)) :
    Inv cap init work s' (ms ++ [⟨s, .send t, s'⟩]) := by
  have hout : t ∉ s.todo ∧ s.worker ≠ .done t ∧ Asked t r ms := by
    have ht := h.stage t
    rcases hphase with hphase | hphase
    · rw [hphase] at ht
      cases ht with
      | sending hout hnot hasked => exact ⟨hout, hnot, hasked⟩
    · rw [hphase] at ht
      cases ht with
      | blocked hout hnot hasked => exact ⟨hout, hnot, hasked⟩
  have htodo : s'.todo = s.todo ++ [t] := by
    rw [hs', goto_todo]
    unfold Server.todo
    cases s.worker with
    | busy u => rfl
    | idle => rfl
    | done u => rfl
  have hlen : s.todo.length ≤ cap := by
    unfold Server.todo
    split
    · rw [List.length_cons]
      omega
    all_goals omega
  have hworker : s'.worker = s.worker := by
    rw [hs']
    rfl
  refine ⟨?_, ?_, fun u => ?_⟩
  · rw [htodo]
    exact List.nodup_append.mpr ⟨h.nodup, List.pairwise_singleton _ t, fun a ha b hb => by
      rw [List.mem_singleton.mp hb]
      rintro rfl
      exact hout.1 ha⟩
  · rw [hs']
    change (s.queue ++ [t]).length ≤ cap
    rw [List.length_append, List.length_singleton]
    omega
  · have hu := h.stage u
    have htask : s'.task u = if u = t then .waiting r (init r) false else s.task u := by
      rw [hs', goto_task]
    rw [htask]
    split
    · next heq =>
      subst heq
      refine .todo (i := s.todo.length) ?_ ?_ ⟨ms, _, [], rfl, hout.2.2, rfl, by simp, rfl⟩ ?_
      · rw [htodo, List.getElem?_append_right (Nat.le_refl _), Nat.sub_self]
        rfl
      · rw [hworker]
        exact hout.2.1
      · simpa using hlen
    · next hne =>
      refine hu.append (not_touches nofun nofun nofun nofun) (fun hin => ?_) (by rw [hworker])
        fun i hi => ⟨i, ?_, Nat.le_refl i⟩
      · rw [htodo, List.mem_append, List.mem_singleton] at hin
        exact hin.resolve_right hne
      · rw [htodo, List.getElem?_append_left (List.getElem?_eq_some_iff.mp hi).1]
        exact hi

/-- A step of the task's own that moves no pointer. -/
theorem Inv.own {phase : Phase ρ α} {m : ServeMove ρ α χ} (h : Inv cap init work s ms)
    (hm : ∀ u, u ≠ t → ¬ Touches u m) (hwork : IsWork m = false)
    (ht : Stage cap init work (s.goto t phase) (ms ++ [m]) t phase) :
    Inv cap init work (s.goto t phase) (ms ++ [m]) := by
  refine ⟨h.nodup, h.bounded, fun u => ?_⟩
  rw [goto_task]
  split
  · next heq =>
    subst heq
    exact ht
  · next hne => exact (h.stage u).same (hm u hne) rfl hwork Iff.rfl

theorem Inv.receive {queue : List Nat} (h : Inv cap init work s ms) (hidle : s.worker = .idle)
    (hqueue : s.queue = t :: queue) (s' : Server ρ α)
    (hs' : s' = { s with queue := queue, worker := .busy t }) :
    Inv cap init work s' (ms ++ [⟨s, .receive, s'⟩]) := by
  have htodo : s'.todo = s.todo := by
    rw [hs']
    unfold Server.todo
    rw [hidle]
    exact hqueue.symm
  refine ⟨htodo ▸ h.nodup, ?_, fun u => ?_⟩
  · have hlen := h.bounded
    rw [hqueue, List.length_cons] at hlen
    rw [hs']
    exact Nat.le_of_succ_le hlen
  · have hdone : s'.worker = .done u ↔ s.worker = .done u := by
      rw [hs', hidle]
      exact ⟨nofun, nofun⟩
    have htask : s'.task u = s.task u := by
      rw [hs']
    rw [htask]
    exact (h.stage u).same (not_touches nofun nofun nofun nofun) htodo rfl hdone

theorem Inv.worked {r : ρ} {frame : α} {signalled : Bool} (h : Inv cap init work s ms) (c : χ)
    (hbusy : s.worker = .busy t) (hframe : s.task t = .waiting r frame signalled) (s' : Server ρ α)
    (hs' : s' = { s with worker := .done t }.goto t (.waiting r (work r c frame) signalled)) :
    Inv cap init work s' (ms ++ [⟨s, .work c, s'⟩]) := by
  have htodo : s.todo = t :: s.queue := by
    unfold Server.todo
    rw [hbusy]
  have htodo' : s'.todo = s.queue := by
    rw [hs']
    rfl
  have hnodup := h.nodup
  rw [htodo, List.nodup_cons] at hnodup
  have hbounded : s'.queue.length ≤ cap := by
    rw [hs']
    exact h.bounded
  refine ⟨htodo' ▸ hnodup.2, hbounded, fun u => ?_⟩
  have htask : s'.task u = if u = t then .waiting r (work r c frame) signalled else s.task u := by
    rw [hs', goto_task]
  have hworker : s'.worker = .done t := by
    rw [hs']
    rfl
  have hu := h.stage u
  rw [htask]
  split
  · next heq =>
    subst heq
    have hmem : u ∈ s.todo := by
      rw [htodo]
      exact List.mem_cons_self
    rw [hframe] at hu
    cases hu with
    | @todo _ i n hi hnot hsent hn =>
      exact .done (htodo' ▸ hnodup.1) hworker
        ⟨ms, _, [], n, c, rfl, hsent, by omega, hbusy, rfl, rfl, by simp⟩
    | done hout => exact absurd hmem hout
    | signalled hout => exact absurd hmem hout
  · next hne =>
    refine hu.append (not_touches (fun _ hbusy' => ?_) nofun nofun nofun) (fun hin => ?_) ?_ fun i hi => ?_
    · cases hbusy.symm.trans hbusy'
      exact hne rfl
    · rw [htodo]
      exact List.mem_cons_of_mem _ (htodo' ▸ hin)
    · rw [hworker, hbusy]
      refine ⟨fun heq => ?_, nofun⟩
      cases heq
      exact absurd rfl hne
    · rw [htodo] at hi
      cases i with
      | zero =>
        cases hi
        exact absurd rfl hne
      | succ i => exact ⟨i, htodo' ▸ hi, Nat.le_refl _⟩

theorem Inv.signal {r : ρ} {frame : α} {signalled : Bool} (h : Inv cap init work s ms)
    (hdone : s.worker = .done t) (hframe : s.task t = .waiting r frame signalled) (s' : Server ρ α)
    (hs' : s' = { s with worker := .idle }.goto t (.waiting r frame true)) :
    Inv cap init work s' (ms ++ [⟨s, .signal, s'⟩]) := by
  have htodo : s'.todo = s.todo := by
    rw [hs']
    unfold Server.todo
    rw [hdone]
    rfl
  have hbounded : s'.queue.length ≤ cap := by
    rw [hs']
    exact h.bounded
  refine ⟨htodo ▸ h.nodup, hbounded, fun u => ?_⟩
  have htask : s'.task u = if u = t then .waiting r frame true else s.task u := by
    rw [hs', goto_task]
  have hworker : s'.worker = .idle := by
    rw [hs']
    rfl
  have hm : ¬ Touches u (⟨s, .signal, s'⟩ : ServeMove ρ α χ) := not_touches nofun nofun nofun nofun
  have hu := h.stage u
  rw [htask]
  split
  · next heq =>
    subst heq
    rw [hframe] at hu
    cases hu with
    | todo _ hnot => exact absurd hdone hnot
    | done hout _ hserved =>
      refine .signalled (htodo ▸ hout) ?_ (hserved.append _ _ _ hm)
      rw [hworker]
      nofun
    | signalled _ hnot => exact absurd hdone hnot
  · next hne =>
    refine hu.same hm htodo rfl ?_
    rw [hworker, hdone]
    refine ⟨nofun, fun heq => ?_⟩
    cases heq
    exact absurd rfl hne

/-- Calls of different tasks do not touch each other. -/
theorem not_touches_call {u : Nat} {m : ServeMove ρ α χ} (hu : u ≠ t)
    (hev : (∃ r, m.ev = .call t r) ∨ m.ev = .full t ∨ (∃ r, m.ev = .timeout t r) ∨
      ∃ r frame, m.ev = .take t r frame) : ¬ Touches u m := by
  rcases hev with ⟨r, hev⟩ | hev | ⟨r, hev⟩ | ⟨r, frame, hev⟩
  all_goals
    refine not_touches (fun hwork => ?_) ?_ ?_ ?_
    · unfold IsWork at hwork
      rw [hev] at hwork
      cases hwork
    all_goals
      intros
      rw [hev]
      rintro heq
      cases heq
      try exact hu rfl

/-- **One step.** -/
theorem Inv.step {m : ServeMove ρ α χ} (h : Inv cap init work m.pre ms)
    (hs : Step cap init work m.pre m.ev m.post) : Inv cap init work m.post (ms ++ [m]) := by
  obtain ⟨s, ev, s'⟩ := m
  change Step cap init work s ev s' at hs
  change Inv cap init work s ms at h
  change Inv cap init work s' _
  cases hs with
  | @call t r hidle =>
    refine h.own (fun u hu => not_touches_call hu (.inl ⟨r, rfl⟩)) rfl ?_
    have ht := h.stage t
    rw [hidle] at ht
    cases ht with
    | idle hout hnot => exact .sending hout hnot (.now rfl)
  | send hphase hroom => exact h.send hphase hroom _ rfl
  | @full t r hsending _ =>
    refine h.own (fun u hu => not_touches_call hu (.inr (.inl rfl))) rfl ?_
    have ht := h.stage t
    rw [hsending] at ht
    cases ht with
    | sending hout hnot hasked =>
      exact .blocked hout hnot (hasked.append (not_touches nofun nofun nofun nofun))
  | @timeout t r hblocked =>
    refine h.own (fun u hu => not_touches_call hu (.inr (.inr (.inl ⟨r, rfl⟩)))) rfl ?_
    have ht := h.stage t
    rw [hblocked] at ht
    cases ht with
    | blocked hout hnot _ => exact .idle hout hnot
  | receive hidle hqueue => exact h.receive hidle hqueue _ rfl
  | work c hbusy hframe => exact h.worked c hbusy hframe _ rfl
  | signal hdone hframe => exact h.signal hdone hframe _ rfl
  | @take t r frame hwaiting =>
    refine h.own (fun u hu => not_touches_call hu (.inr (.inr (.inr ⟨r, frame, rfl⟩)))) rfl ?_
    have ht := h.stage t
    rw [hwaiting] at ht
    cases ht with
    | signalled hout hnot _ => exact .idle hout hnot

end Steps

/-! ## Runs -/

section Runs

variable {cap init work} {ms : List (ServeMove ρ α χ)}

theorem inv_start : Inv cap init work (Server.start : Server ρ α) ([] : List (ServeMove ρ α χ)) :=
  ⟨List.nodup_nil, Nat.zero_le _, fun _ => .idle List.not_mem_nil nofun⟩

theorem inv_run (h : IsRun (Step cap init work) Server.start ms) :
    Inv cap init work (final Server.start ms) ms :=
  h.inv_past inv_start fun _ _ hi hs => hi.step hs

/-- What a call returns, and what was done for it. -/
theorem served (h : IsRun (Step cap init work) Server.start ms) {l k : List (ServeMove ρ α χ)}
    {m : ServeMove ρ α χ} (hsplit : ms = l ++ m :: k) {t : Nat} {r : ρ} :
    (∀ frame, m.ev = .take t r frame → Served cap init work t r frame l) ∧
      (m.ev = .timeout t r → Asked t r l) := by
  rw [hsplit, isRun_append, isRun_cons] at h
  obtain ⟨hl, hpre, hm, -⟩ := h
  have hstage := (inv_run hl).stage t
  rw [← hpre] at hstage
  obtain ⟨s, ev, s'⟩ := m
  change Step cap init work s ev s' at hm
  change Stage cap init work s l t (s.task t) at hstage
  refine ⟨fun frame hev => ?_, fun hev => ?_⟩
  · cases hev
    cases hm with
    | take hwaiting =>
      rw [hwaiting] at hstage
      cases hstage with
      | signalled _ _ hserved => exact hserved
  · cases hev
    cases hm with
    | timeout hblocked =>
      rw [hblocked] at hstage
      cases hstage with
      | blocked _ _ hasked => exact hasked

/-- The server can go on, whatever its work does. -/
def Server.Goes (cap : Nat) (init : ρ → α) (work : ρ → χ → α → α) (s : Server ρ α) : Prop :=
  (∃ s', Step cap init work s .receive s') ∨ (∃ s', Step cap init work s .signal s') ∨
    ∀ c, ∃ s', Step cap init work s (.work c) s'

/-- The task can go on. -/
def Server.TaskGoes (cap : Nat) (init : ρ → α) (work : ρ → χ → α → α) (s : Server ρ α) (t : Nat) : Prop :=
  ∃ s', Step cap init work s (.send t) s' ∨ Step cap init work s (.full t) s' ∨
    ∃ r frame, Step cap init work s (.take t r frame) s'

/-- Who has the pointer waits, so that the server is never held up by a frame that is gone. -/
theorem Inv.goes {s : Server ρ α} (h : Inv cap init work s ms) (hheld : s.todo ≠ [] ∨ ∃ t, s.worker = .done t) :
    s.Goes cap init work := by
  cases hworker : s.worker with
  | idle =>
    rcases hheld with hheld | ⟨t, hdone⟩
    · unfold Server.todo at hheld
      rw [hworker] at hheld
      obtain ⟨t, queue, hqueue⟩ := List.exists_cons_of_ne_nil hheld
      exact .inl ⟨_, .receive hworker hqueue⟩
    · rw [hworker] at hdone
      cases hdone
  | busy t =>
    have hmem : t ∈ s.todo := by
      unfold Server.todo
      rw [hworker]
      exact List.mem_cons_self
    have ht := h.stage t
    cases hphase : s.task t with
    | waiting r frame signalled => exact .inr (.inr fun c => ⟨_, .work c hworker hphase⟩)
    | idle =>
      rw [hphase] at ht
      cases ht with
      | idle hout => exact absurd hmem hout
    | sending r =>
      rw [hphase] at ht
      cases ht with
      | sending hout => exact absurd hmem hout
    | blocked r =>
      rw [hphase] at ht
      cases ht with
      | blocked hout => exact absurd hmem hout
  | done t =>
    have ht := h.stage t
    cases hphase : s.task t with
    | waiting r frame signalled => exact .inr (.inl ⟨_, .signal hworker hphase⟩)
    | idle =>
      rw [hphase] at ht
      cases ht with
      | idle _ hnot => exact absurd hworker hnot
    | sending r =>
      rw [hphase] at ht
      cases ht with
      | sending _ hnot => exact absurd hworker hnot
    | blocked r =>
      rw [hphase] at ht
      cases ht with
      | blocked _ hnot => exact absurd hworker hnot

/-- No call is stuck. -/
theorem goes_on (hcap : 0 < cap) (h : IsRun (Step cap init work) Server.start ms) {t : Nat}
    (ht : (final Server.start ms).task t ≠ .idle) :
    (final Server.start ms).TaskGoes cap init work t ∨ (final Server.start ms).Goes cap init work := by
  have hinv := inv_run h
  generalize final Server.start ms = s at hinv ht
  have hstage := hinv.stage t
  have hfull (hlen : cap ≤ s.queue.length) : s.Goes cap init work := by
    refine hinv.goes (.inl fun hnil => ?_)
    have hqueue : s.queue = [] := by
      unfold Server.todo at hnil
      split at hnil
      · cases hnil
      all_goals exact hnil
    rw [hqueue] at hlen
    exact Nat.not_le_of_gt hcap hlen
  cases hphase : s.task t with
  | idle => exact absurd hphase ht
  | sending r =>
    rcases Nat.lt_or_ge s.queue.length cap with hroom | hlen
    · exact .inl ⟨_, .inl (.send (.inl hphase) hroom)⟩
    · exact .inl ⟨_, .inr (.inl (.full hphase hlen))⟩
  | blocked r =>
    rcases Nat.lt_or_ge s.queue.length cap with hroom | hlen
    · exact .inl ⟨_, .inl (.send (.inr hphase) hroom)⟩
    · exact .inr (hfull hlen)
  | waiting r frame signalled =>
    rw [hphase] at hstage
    cases hstage with
    | todo hi => exact .inr (hinv.goes (.inl (List.ne_nil_of_mem (List.mem_of_getElem? hi))))
    | done _ hdone => exact .inr (hinv.goes (.inr ⟨t, hdone⟩))
    | signalled => exact .inl ⟨_, .inr (.inr ⟨r, frame, .take hphase⟩)⟩

end Runs

end Serve

end Interact
