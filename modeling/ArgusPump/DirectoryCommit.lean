import ArgusPump.SecurityDirectoryCrash
import ArgusPump.MachineDirectoryCrash
import ArgusPump.Lib.Stamp

/-!
# Clients of a directory

Any number of tasks take snapshots, edit a copy and call commit with the generation of the
snapshot.  A commit puts its request in the writer's queue and waits; the writer task takes
the requests in order and runs `commit_locked` under the mutex that the snapshots take too
(`CommitStep`).

    the snapshot of a commit that succeeds is the current one          (CommitInv.process_ok)
    fewer than 2^32 commits → no update is lost, and the directory is what its edits make
      of it one after another                                          (no_lost_update)

Left out: the calls refused before there is a request, and failing allocations other than
the request's own.
-/

namespace Argus

open Interact DirectoryFlash Optimistic

variable {P S : Type}

/-! ## Steps -/

/-- What the clients do to a copy of the snapshot. -/
abbrev DirectoryEdit (P : Type) := DirectorySnapshot P → P

/-- A task that uses the directory. -/
inductive DirectoryClient (P : Type)
  | idle
  | holds (base : DirectorySnapshot P)
  /-- In `xQueueSend`. -/
  | sends (base : DirectorySnapshot P) (edit : DirectoryEdit P)
  /-- Waits for `completion`. -/
  | waits (base : DirectorySnapshot P) (edit : DirectoryEdit P)
  /-- The request's result is written. -/
  | answered (base : DirectorySnapshot P) (err : EspErr)

/-- The snapshot a task has a copy of. -/
def DirectoryClient.base? : DirectoryClient P → Option (DirectorySnapshot P)
  | .idle => none
  | .holds base | .sends base _ | .waits base _ | .answered base _ => some base

/-- `s_queue` holds the tasks whose requests are in it, `writer` is the one whose request the
writer task has taken. -/
structure DirectoryService (P S : Type) where
  device : DirectoryDevice P S
  queue : List Nat
  writer : Option Nat
  clients : Nat → DirectoryClient P

def directoryQueueLength : Nat := 2

inductive CommitAct (P : Type)
  | snapshot (c : Nat)
  | submit (c : Nat) (edit : DirectoryEdit P)
  | noMemory (c : Nat)
  | enqueue (c : Nat)
  | timeout (c : Nat)
  | receive (c : Nat)
  | process (c : Nat) (base : DirectorySnapshot P) (edit : DirectoryEdit P) (err : EspErr)
  | return (c : Nat) (err : EspErr)

namespace DirectoryService

def setClient (s : DirectoryService P S) (c : Nat) (client : DirectoryClient P) : DirectoryService P S :=
  { s with clients := fun i => if i = c then client else s.clients i }

theorem setClient_self (s : DirectoryService P S) (c : Nat) (client : DirectoryClient P) :
    (s.setClient c client).clients c = client := if_pos rfl

theorem setClient_of_ne {s : DirectoryService P S} {i c : Nat} {client : DirectoryClient P}
    (h : i ≠ c) : (s.setClient c client).clients i = s.clients i := if_neg h

/-- A client that goes on with the copy it has. -/
theorem setClient_base? {s : DirectoryService P S} {c : Nat} {was : DirectoryClient P}
    (client : DirectoryClient P) (hc : s.clients c = was) (hbase : client.base? = was.base?) (i : Nat) :
    ((s.setClient c client).clients i).base? = (s.clients i).base? := by
  by_cases hic : i = c
  · subst hic
    rw [setClient_self, hc]
    exact hbase
  · rw [setClient_of_ne hic]

/-- The requests that are not answered yet. -/
def pending (s : DirectoryService P S) : List Nat := s.writer.toList ++ s.queue

def snapshot [DecidableEq P] (sys : DirectorySystem P S) (s : DirectoryService P S) :
    DirectorySnapshot P :=
  (sys.ram s.device.statics).snapshot

end DirectoryService

/-- The steps of the clients and of `writer_task`. -/
inductive CommitStep [DecidableEq P] (sys : DirectorySystem P S) :
    DirectoryService P S → CommitAct P → DirectoryService P S → Prop
  /-- `get_snapshot`, by a task that is in no call. -/
  | snapshot {s : DirectoryService P S} {c : Nat} :
      s.clients c = .idle ∨ (∃ base, s.clients c = .holds base) →
      CommitStep sys s (.snapshot c) (s.setClient c (.holds (s.snapshot sys)))
  | submit {s : DirectoryService P S} {c : Nat} {base : DirectorySnapshot P} {edit : DirectoryEdit P} :
      s.clients c = .holds base →
      CommitStep sys s (.submit c edit) (s.setClient c (.sends base edit))
  /-- The request cannot be allocated. -/
  | noMemory {s : DirectoryService P S} {c : Nat} {base : DirectorySnapshot P}
      {edit : DirectoryEdit P} :
      s.clients c = .sends base edit →
      CommitStep sys s (.noMemory c) (s.setClient c (.answered base espErrNoMem))
  | enqueue {s : DirectoryService P S} {c : Nat} {base : DirectorySnapshot P} {edit : DirectoryEdit P} :
      s.clients c = .sends base edit → s.queue.length < directoryQueueLength →
      CommitStep sys s (.enqueue c)
        { s.setClient c (.waits base edit) with queue := s.queue ++ [c] }
  | timeout {s : DirectoryService P S} {c : Nat} {base : DirectorySnapshot P} {edit : DirectoryEdit P} :
      s.clients c = .sends base edit →
      CommitStep sys s (.timeout c) (s.setClient c (.answered base espErrTimeout))
  | receive {s : DirectoryService P S} {c : Nat} {queue : List Nat} :
      s.writer = none → s.queue = c :: queue →
      CommitStep sys s (.receive c) { s with queue := queue, writer := some c }
  /-- `commit_locked`, under the mutex, and the completion. -/
  | process {s : DirectoryService P S} {c : Nat} {base : DirectorySnapshot P} {edit : DirectoryEdit P}
      {tr : List (Σ q : DirectoryCall P, q.Answer)} {err : EspErr} {next : S} {t : DirectoryFlash P} :
      s.writer = some c → s.clients c = .waits base edit →
      Prog.Exec Call (sys.commit s.device.statics (edit base) base.generation) s.device.store tr
        (err, next) t →
      CommitStep sys s (.process c base edit err)
        { s.setClient c (.answered base err) with device := ⟨t, next⟩, writer := none }
  | return {s : DirectoryService P S} {c : Nat} {base : DirectorySnapshot P} {err : EspErr} :
      s.clients c = .answered base err →
      CommitStep sys s (.return c err) (s.setClient c (.holds base))

abbrev CommitMove (P S : Type) := Move (DirectoryService P S) (CommitAct P)

/-- The edit of a commit that returns `ESP_OK`. -/
def CommitAct.edit? : CommitAct P → Option (DirectoryEdit P)
  | .process _ _ edit err => if err = espOk then some edit else none
  | _ => none

theorem edit?_process_ok (c : Nat) (base : DirectorySnapshot P) (edit : DirectoryEdit P) :
    (CommitAct.process c base edit espOk).edit? = some edit := by
  unfold CommitAct.edit?
  exact if_pos rfl

/-- The edits of the commits that return `ESP_OK`, in order. -/
def committedEdits (ms : List (CommitMove P S)) : List (DirectoryEdit P) := ms.filterMap (·.ev.edit?)

/-- What one edit makes of the directory. -/
def DirectorySnapshot.apply (s : DirectorySnapshot P) (edit : DirectoryEdit P) : DirectorySnapshot P :=
  ⟨edit s, nextGeneration s.generation⟩

/-- Init has returned `ESP_OK`, and no client has called yet. -/
structure DirectoryService.Fresh [DecidableEq P] (sys : DirectorySystem P S) (s : DirectoryService P S) : Prop where
  ready : sys.ready s.device.statics = true
  generation : (s.snapshot sys).generation ≠ 0
  queue : s.queue = []
  writer : s.writer = none
  clients : ∀ c, s.clients c = .idle

/-! ## Generations -/

theorem nextGeneration_toNat {generation : UInt32} (h : generation ≠ 0) :
    (nextGeneration generation).toNat = skipZero (2 ^ 32 - 1) generation.toNat := by
  have hlt := generation.toNat_lt
  have hpos : generation.toNat ≠ 0 := fun h0 => h (UInt32.toNat_inj.mp h0)
  unfold nextGeneration skipZero
  split
  · next hwrap =>
    have hadd : (generation + 1).toNat = 0 := by rw [hwrap]; rfl
    rw [UInt32.toNat_add] at hadd
    rw [if_pos (by simp at hadd; omega)]
    rfl
  · next hne =>
    have hadd : (generation + 1).toNat ≠ 0 := fun h0 => hne (UInt32.toNat_inj.mp h0)
    rw [UInt32.toNat_add] at hadd ⊢
    rw [if_neg (by simp at hadd; omega)]
    simp at hadd ⊢
    omega

/-- The epoch an operation writes is the generation its commit makes. -/
theorem epoch_toNat {generation : UInt32} (h : generation.toNat + 1 < 2 ^ 32) :
    (generation + 1).toNat = generation.toNat + 1 := by
  rw [UInt32.toNat_add]
  exact Nat.mod_eq_of_lt h

/-- A counter that some moves put to its next value, 0 skipped. -/
def Counts {σ ε : Type} (step : σ → ε → σ → Prop) (f : σ → UInt32) (b : Move σ ε → Bool) : Prop :=
  ∀ m : Move σ ε, step m.pre m.ev m.post →
    f m.post = if b m then nextGeneration (f m.pre) else f m.pre

section Counts

variable {σ ε : Type} {step : σ → ε → σ → Prop} {f : σ → UInt32} {b : Move σ ε → Bool} {s : σ}
  {ms : List (Move σ ε)}

theorem Counts.ne_zero (hf : Counts step f b) (h : IsRun step s ms) (h0 : f s ≠ 0) :
    (∀ m ∈ ms, f m.pre ≠ 0 ∧ f m.post ≠ 0) ∧ f (final s ms) ≠ 0 :=
  h.inv (I := fun t => f t ≠ 0) h0 fun m hpre hs => by
    rw [hf m hs]
    split
    · exact nextGeneration_ne_zero _
    · exact hpre

theorem Counts.toNat (hf : Counts step f b) (h : IsRun step s ms) (h0 : f s ≠ 0) :
    ∀ m ∈ ms, (f m.post).toNat =
      if b m then skipZero (2 ^ 32 - 1) (f m.pre).toNat else (f m.pre).toNat := by
  intro m hm
  rw [hf m (h.step_of_mem m hm)]
  split
  · exact nextGeneration_toNat ((hf.ne_zero h h0).1 m hm).1
  · rfl

/-- Until the counter comes round, every move that raises it makes the next value. -/
theorem Counts.succ (hf : Counts step f b) (h : IsRun step s ms) (h0 : f s ≠ 0)
    (hlt : (f s).toNat + ms.countP b < 2 ^ 32) :
    ∀ m ∈ ms, b m → (f m.post).toNat = (f m.pre).toNat + 1 :=
  Stamp.counts_of_isRun (fun t => (f t).toNat) b h (hf.toNat h h0) (Nat.le_pred_of_lt hlt)

/-- With fewer values than there are, it is where it was if nothing has raised it. -/
theorem Counts.same_iff (hf : Counts step f b) (h : IsRun step s ms) (h0 : f s ≠ 0)
    (hlt : 1 + ms.countP b < 2 ^ 32) : f (final s ms) = f s ↔ ∀ m ∈ ms, b m = false := by
  have hpos : 0 < (f s).toNat := Nat.pos_of_ne_zero fun hzero => h0 (UInt32.toNat_inj.mp hzero)
  have hle := (f s).toNat_lt
  rw [← UInt32.toNat_inj]
  exact Stamp.same_iff_of_isRun (fun t => (f t).toNat) b h (hf.toNat h h0) hpos (by omega) (by omega)

end Counts

/-- The snapshot after some edits has the generation that many commits on. -/
theorem foldl_apply_generation (edits : List (DirectoryEdit P)) (s : DirectorySnapshot P)
    (h : s.generation ≠ 0) :
    (edits.foldl .apply s).generation ≠ 0 ∧
      (edits.foldl .apply s).generation.toNat =
        (skipZero (2 ^ 32 - 1))^[edits.length] s.generation.toNat := by
  induction edits generalizing s with
  | nil => exact ⟨h, rfl⟩
  | cons edit edits ih =>
    obtain ⟨hne, hgen⟩ := ih (s.apply edit) (nextGeneration_ne_zero _)
    refine ⟨hne, hgen.trans ?_⟩
    rw [List.length_cons, Function.iterate_succ_apply]
    exact congrArg _ (nextGeneration_toNat h)

theorem committedEdits_append (ms : List (CommitMove P S)) (m : CommitMove P S) :
    committedEdits (ms ++ [m]) = committedEdits ms ++ m.ev.edit?.toList := by
  unfold committedEdits
  rw [List.filterMap_append]
  cases h : m.ev.edit? <;> simp [h]

theorem committedEdits_length_le (l r : List (CommitMove P S)) (v : CommitMove P S) :
    (committedEdits (l ++ [v])).length ≤ (committedEdits (l ++ v :: r)).length := by
  unfold committedEdits
  rw [List.append_cons l v r, List.filterMap_append (l := l ++ [v]), List.length_append]
  exact Nat.le_add_right _ _

/-! ## The invariant -/

/-- A copy of the directory `current` after `n` commits from `s₀`. -/
abbrev SnapshotSeen (s₀ : DirectorySnapshot P) (n : Nat) (current copy : DirectorySnapshot P) : Prop :=
  Seen (fun s : DirectorySnapshot P => s.generation.toNat) (skipZero (2 ^ 32 - 1))
    s₀.generation.toNat n current copy

variable [DecidableEq P] {sys : DirectorySystem P S}

/-- What holds after the moves `ms` from the snapshot `s₀`. -/
structure CommitInv (sys : DirectorySystem P S) (s₀ : DirectorySnapshot P) (s : DirectoryService P S)
    (ms : List (CommitMove P S)) : Prop where
  ready : sys.ready s.device.statics = true
  serial : s.snapshot sys = (committedEdits ms).foldl .apply s₀
  seen : ∀ c base, (s.clients c).base? = some base →
    SnapshotSeen s₀ (committedEdits ms).length (s.snapshot sys) base
  pending : ∀ c ∈ s.pending, ∃ base edit, s.clients c = .waits base edit
  nodup : s.pending.Nodup

/-- What `commit_locked` does once a request is taken. -/
theorem process_cases {s next : S} {payload : P} {expectedGeneration : UInt32}
    {store t : DirectoryFlash P} {tr : List (Σ q : DirectoryCall P, q.Answer)} {err : EspErr}
    (hready : sys.ready s = true)
    (hr : Prog.Exec Call (sys.commit s payload expectedGeneration) store tr (err, next) t) :
    sys.ready next = true ∧
    (err ≠ espOk ∧ sys.ram next = sys.ram s ∧
        (¬ sys.Accepts s payload expectedGeneration →
          err = espErrInvalidState ∧ next = s ∧ t = store) ∨
      err = espOk ∧ expectedGeneration = (sys.ram s).snapshot.generation ∧
        (sys.ram next).snapshot = ⟨payload, nextGeneration (sys.ram s).snapshot.generation⟩) := by
  by_cases haccepts : sys.Accepts s payload expectedGeneration
  · rcases hr.of_wpS (sys.commit_spec haccepts store) with ⟨herr, rfl, -⟩ | ⟨heq, -⟩
    · rw [sys.ready_setRam, sys.ram_setRam]
      exact ⟨hready, .inl ⟨herr, rfl, fun hn => absurd haccepts hn⟩⟩
    · cases heq
      rw [sys.ready_setRam, sys.ram_setRam]
      exact ⟨hready, .inr ⟨rfl, haccepts.2.2.2, rfl⟩⟩
  · rw [DirectorySystem.commit_error haccepts] at hr
    cases hr
    exact ⟨hready, .inl ⟨(by decide : espErrInvalidState ≠ espOk), rfl, fun _ => ⟨rfl, rfl, rfl⟩⟩⟩

namespace CommitInv

variable {s t : DirectoryService P S} {s₀ : DirectorySnapshot P} {ms : List (CommitMove P S)}
  {act : CommitAct P}

/-- **A commit that succeeds** is based on the current snapshot, as long as the generations
have not come round. -/
theorem process_ok {c : Nat} {base : DirectorySnapshot P} (h : CommitInv sys s₀ s ms)
    (h₀ : s₀.generation ≠ 0) (hn : (committedEdits ms).length < 2 ^ 32 - 1)
    (hbase : (s.clients c).base? = some base)
    (hgen : base.generation = (s.snapshot sys).generation) : base = s.snapshot sys := by
  have hlt := s₀.generation.toNat_lt
  have hpos : 0 < s₀.generation.toNat := by
    have : s₀.generation.toNat ≠ 0 := fun h0 => h₀ (UInt32.toNat_inj.mp h0)
    omega
  apply (h.seen c base hbase).eq_current
  · rw [h.serial]
    exact (foldl_apply_generation _ _ h₀).2
  · exact skipZero_apart hpos (by omega) hn
  · rw [hgen]

/-- A step that leaves the directory alone, after which each copy is one of before or a
new one. -/
theorem same (h : CommitInv sys s₀ s ms) (h₀ : s₀.generation ≠ 0)
    (hready : sys.ready t.device.statics = true) (hsnap : t.snapshot sys = s.snapshot sys)
    (hedit : act.edit? = none)
    (hcopies : ∀ c base, (t.clients c).base? = some base →
      (s.clients c).base? = some base ∨ base = s.snapshot sys)
    (hpending : ∀ c ∈ t.pending, ∃ base edit, t.clients c = .waits base edit)
    (hnodup : t.pending.Nodup) : CommitInv sys s₀ t (ms ++ [⟨s, act, t⟩]) := by
  have hedits : committedEdits (ms ++ [⟨s, act, t⟩]) = committedEdits ms := by
    rw [committedEdits_append, hedit, Option.toList_none, List.append_nil]
  refine ⟨hready, ?_, fun c base hbase => ?_, hpending, hnodup⟩
  · rw [hedits, hsnap]
    exact h.serial
  · rw [hedits, hsnap]
    rcases hcopies c base hbase with hold | rfl
    · exact h.seen c base hold
    · apply Seen.now
      rw [h.serial]
      exact (foldl_apply_generation _ _ h₀).2

/-- A step of one client that is not in the queue. -/
theorem client {c : Nat} {client : DirectoryClient P} (h : CommitInv sys s₀ s ms)
    (h₀ : s₀.generation ≠ 0) (hwas : ∀ base edit, s.clients c ≠ .waits base edit)
    (hedit : act.edit? = none)
    (hbase : ∀ base, client.base? = some base →
      (s.clients c).base? = some base ∨ base = s.snapshot sys) :
    CommitInv sys s₀ (s.setClient c client) (ms ++ [⟨s, act, s.setClient c client⟩]) := by
  refine h.same h₀ h.ready rfl hedit (fun i base hi => ?_) (fun i hi => ?_) h.nodup
  · by_cases hic : i = c
    · subst hic
      rw [DirectoryService.setClient_self] at hi
      exact hbase base hi
    · rw [DirectoryService.setClient_of_ne hic] at hi
      exact .inl hi
  · obtain ⟨base, edit, hwaits⟩ := h.pending i hi
    have hic : i ≠ c := by
      rintro rfl
      exact hwas base edit hwaits
    refine ⟨base, edit, ?_⟩
    rw [DirectoryService.setClient_of_ne hic]
    exact hwaits

/-- The request the writer has taken is in no queue, and those left are waited for. -/
theorem taken {c : Nat} (h : CommitInv sys s₀ s ms) (hw : s.writer = some c)
    (client : DirectoryClient P) :
    s.queue.Nodup ∧ ∀ i ∈ s.queue, ∃ base edit, (s.setClient c client).clients i = .waits base edit := by
  have hpending : s.pending = c :: s.queue := by
    unfold DirectoryService.pending
    rw [hw]
    rfl
  have hnodup := h.nodup
  rw [hpending, List.nodup_cons] at hnodup
  refine ⟨hnodup.2, fun i hi => ?_⟩
  have hic : i ≠ c := by
    rintro rfl
    exact hnodup.1 hi
  rw [DirectoryService.setClient_of_ne hic]
  apply h.pending i
  rw [hpending]
  exact List.mem_cons_of_mem c hi

/-- A step of one client that is not in the queue and keeps its copy. -/
theorem keeps {c : Nat} {was client : DirectoryClient P} (h : CommitInv sys s₀ s ms)
    (h₀ : s₀.generation ≠ 0) (hc : s.clients c = was) (hwas : ∀ base edit, was ≠ .waits base edit)
    (hedit : act.edit? = none) (hbase : client.base? = was.base?) :
    CommitInv sys s₀ (s.setClient c client) (ms ++ [⟨s, act, s.setClient c client⟩]) := by
  subst hc
  exact h.client h₀ hwas hedit fun base hclient => .inl (hbase ▸ hclient)

/-- A request is put in the queue. -/
theorem enqueue {c : Nat} {base : DirectorySnapshot P} {edit : DirectoryEdit P} (h : CommitInv sys s₀ s ms)
    (h₀ : s₀.generation ≠ 0) (hc : s.clients c = .sends base edit)
    (ht : t = { s.setClient c (.waits base edit) with queue := s.queue ++ [c] }) :
    CommitInv sys s₀ t (ms ++ [⟨s, .enqueue c, t⟩]) := by
  subst ht
  have hout : c ∉ s.pending := by
    intro hp
    obtain ⟨base', edit', hw⟩ := h.pending c hp
    cases hc.symm.trans hw
  have hpending : s.writer.toList ++ (s.queue ++ [c]) = s.pending ++ [c] := by
    unfold DirectoryService.pending
    rw [List.append_assoc]
  refine h.same h₀ h.ready rfl rfl (fun i b hi => .inl ?_) (fun i hi => ?_) ?_
  · rw [← DirectoryService.setClient_base? (.waits base edit) hc rfl i]
    exact hi
  · replace hi : i ∈ s.writer.toList ++ (s.queue ++ [c]) := hi
    rw [hpending] at hi
    by_cases hic : i = c
    · subst hic
      exact ⟨base, edit, DirectoryService.setClient_self _ _ _⟩
    · obtain ⟨b, e, hw⟩ := h.pending i ((List.mem_append.mp hi).resolve_right (by simpa using hic))
      exact ⟨b, e, (DirectoryService.setClient_of_ne hic).trans hw⟩
  · show (s.writer.toList ++ (s.queue ++ [c])).Nodup
    rw [hpending, List.nodup_append]
    exact ⟨h.nodup, List.nodup_singleton c, fun a ha b hb => by
      rw [List.mem_singleton.mp hb]
      exact fun heq => hout (heq ▸ ha)⟩

/-- The writer takes a request. -/
theorem receive {c : Nat} {queue : List Nat} (h : CommitInv sys s₀ s ms) (h₀ : s₀.generation ≠ 0)
    (hw : s.writer = none) (hq : s.queue = c :: queue)
    (ht : t = { s with queue := queue, writer := some c }) :
    CommitInv sys s₀ t (ms ++ [⟨s, .receive c, t⟩]) := by
  subst ht
  have hpending : s.pending = c :: queue := by
    unfold DirectoryService.pending
    rw [hw, hq]
    rfl
  refine h.same h₀ h.ready rfl rfl (fun i b hi => .inl hi) (fun i hi => ?_) ?_
  · apply h.pending i
    rw [hpending]
    exact hi
  · show (c :: queue).Nodup
    rw [← hpending]
    exact h.nodup

/-- The writer processes the request it has taken. -/
theorem process {c : Nat} {base : DirectorySnapshot P} {edit : DirectoryEdit P}
    {tr : List (Σ q : DirectoryCall P, q.Answer)} {err : EspErr} {next : S} {u : DirectoryFlash P}
    (h : CommitInv sys s₀ s ms) (h₀ : s₀.generation ≠ 0) (hw : s.writer = some c)
    (hc : s.clients c = .waits base edit)
    (hr : Prog.Exec Call (sys.commit s.device.statics (edit base) base.generation) s.device.store tr
      (err, next) u)
    (ht : t = { s.setClient c (.answered base err) with device := ⟨u, next⟩, writer := none })
    (hn : (committedEdits (ms ++ [⟨s, .process c base edit err, t⟩])).length < 2 ^ 32) :
    CommitInv sys s₀ t (ms ++ [⟨s, .process c base edit err, t⟩]) := by
  subst ht
  obtain ⟨hnodup, hwaits⟩ := h.taken hw (.answered base err)
  obtain ⟨hready, hcase⟩ := process_cases h.ready hr
  have hold := DirectoryService.setClient_base? (.answered base err) hc rfl
  rcases hcase with ⟨herr, hram, -⟩ | ⟨rfl, hgen, hram⟩
  · refine h.same h₀ hready ?_ (if_neg herr) (fun i b hi => .inl ((hold i).symm.trans hi)) hwaits hnodup
    exact congrArg DirectoryRam.snapshot hram
  · have hedits := committedEdits_append ms ⟨s, .process c base edit espOk,
      { s.setClient c (.answered base espOk) with device := ⟨u, next⟩, writer := none }⟩
    rw [edit?_process_ok, Option.toList_some] at hedits
    have hlen : (committedEdits ms).length < 2 ^ 32 - 1 := by
      rw [hedits, List.length_append, List.length_singleton] at hn
      omega
    have hbase : base = s.snapshot sys := h.process_ok h₀ hlen (by rw [hc]; rfl) hgen
    refine ⟨hready, ?_, fun i b hi => ?_, hwaits, hnodup⟩
    · rw [hedits, List.foldl_append, ← h.serial]
      exact hram.trans (by rw [hbase]; rfl)
    · rw [hedits, List.length_append]
      exact (h.seen i b ((hold i).symm.trans hi)).update

/-- **Every step keeps the invariant**, up to `2 ^ 32 - 1` commits. -/
theorem step (h : CommitInv sys s₀ s ms) (h₀ : s₀.generation ≠ 0) (hs : CommitStep sys s act t)
    (hn : (committedEdits (ms ++ [⟨s, act, t⟩])).length < 2 ^ 32) :
    CommitInv sys s₀ t (ms ++ [⟨s, act, t⟩]) := by
  cases hs with
  | snapshot hc =>
    refine h.client h₀ ?_ rfl ?_
    · intro base edit hw
      rcases hc with hc | ⟨base', hc⟩ <;> cases hc.symm.trans hw
    · rintro base ⟨⟩
      exact .inr rfl
  | submit hc => exact h.keeps h₀ hc nofun rfl rfl
  | noMemory hc => exact h.keeps h₀ hc nofun rfl rfl
  | timeout hc => exact h.keeps h₀ hc nofun rfl rfl
  | «return» hc => exact h.keeps h₀ hc nofun rfl rfl
  | enqueue hc _ => exact h.enqueue h₀ hc rfl
  | receive hw hq => exact h.receive h₀ hw hq rfl
  | process hw hc hr => exact h.process h₀ hw hc hr rfl hn

/-- The start. -/
theorem start (h : s.Fresh sys) : CommitInv sys (s.snapshot sys) s [] := by
  have hpending : s.pending = [] := by
    unfold DirectoryService.pending
    rw [h.writer, h.queue]
    rfl
  refine ⟨h.ready, rfl, fun c base hbase => ?_, fun c hc => ?_, ?_⟩
  · rw [h.clients c] at hbase
    cases hbase
  · rw [hpending] at hc
    cases hc
  · rw [hpending]
    exact List.nodup_nil

end CommitInv

theorem commit_run_inv {s : DirectoryService P S} {ms : List (CommitMove P S)} (h₀ : s.Fresh sys)
    (h : IsRun (CommitStep sys) s ms) (hn : (committedEdits ms).length < 2 ^ 32) :
    CommitInv sys (s.snapshot sys) (final s ms) ms := by
  refine h.inv_past_of (K := fun l v => (committedEdits (l ++ [v])).length < 2 ^ 32) (.start h₀) ?_ ?_
  · rintro l v r rfl
    exact lt_of_le_of_lt (committedEdits_length_le l r v) hn
  · exact fun ns m hi hs hk => hi.step h₀.generation hs hk

/-- A run up to any of its moves. -/
theorem commit_run_split {s : DirectoryService P S} {l r : List (CommitMove P S)}
    {m : CommitMove P S} (h₀ : s.Fresh sys) (h : IsRun (CommitStep sys) s (l ++ m :: r))
    (hn : (committedEdits (l ++ m :: r)).length < 2 ^ 32) :
    CommitInv sys (s.snapshot sys) m.pre l ∧ CommitStep sys m.pre m.ev m.post ∧
      CommitInv sys (s.snapshot sys) m.post (l ++ [m]) := by
  have hlen := lt_of_le_of_lt (committedEdits_length_le l r m) hn
  rw [isRun_append, isRun_cons] at h
  obtain ⟨hl, hpre, hs, -⟩ := h
  have hinv : CommitInv sys (s.snapshot sys) m.pre l := by
    rw [hpre]
    refine commit_run_inv h₀ hl (lt_of_le_of_lt ?_ hlen)
    rw [committedEdits_append, List.length_append]
    exact Nat.le_add_right _ _
  exact ⟨hinv, hs, hinv.step h₀.generation hs hlen⟩

namespace CommitInv

variable {s t : DirectoryService P S} {s₀ : DirectorySnapshot P} {ms : List (CommitMove P S)}
  {act : CommitAct P} {c : Nat} {base : DirectorySnapshot P} {edit : DirectoryEdit P} {err : EspErr}

/-- A commit that succeeds. -/
theorem succeeds (h : CommitInv sys s₀ s ms) (h₀ : s₀.generation ≠ 0)
    (hs : CommitStep sys s (.process c base edit espOk) t)
    (hn : (committedEdits ms).length < 2 ^ 32 - 1) :
    base = s.snapshot sys ∧ t.snapshot sys = base.apply edit := by
  cases hs with
  | process hw hc hr =>
    rcases (process_cases h.ready hr).2 with ⟨herr, -⟩ | ⟨-, hgen, hram⟩
    · exact absurd rfl herr
    · have hbase : base = s.snapshot sys := h.process_ok h₀ hn (by rw [hc]; rfl) hgen
      exact ⟨hbase, hram.trans (by rw [hbase]; rfl)⟩

/-- Any other step. -/
theorem unchanged (h : CommitInv sys s₀ s ms) (hs : CommitStep sys s act t)
    (hedit : act.edit? = none) : t.snapshot sys = s.snapshot sys := by
  cases hs with
  | @process c base edit tr err next u hw hc hr =>
    rcases (process_cases h.ready hr).2 with ⟨-, hram, -⟩ | ⟨rfl, -⟩
    · exact congrArg DirectoryRam.snapshot hram
    · rw [edit?_process_ok] at hedit
      cases hedit
  | _ => rfl

/-- A commit that is refused. -/
theorem refused (h : CommitInv sys s₀ s ms) (hs : CommitStep sys s (.process c base edit err) t)
    (haccepts : ¬ sys.Accepts s.device.statics (edit base) base.generation) :
    err = espErrInvalidState ∧ t.device = s.device := by
  cases hs with
  | process hw hc hr =>
    rcases (process_cases h.ready hr).2 with ⟨-, -, hrefused⟩ | ⟨rfl, hgen, -⟩
    · obtain ⟨rfl, rfl, rfl⟩ := hrefused haccepts
      exact ⟨rfl, rfl⟩
    · rw [DirectorySystem.commit_error haccepts] at hr
      cases hr

/-- A commit that times out has no request in the queue. -/
theorem timedOut (h : CommitInv sys s₀ s ms) (hs : CommitStep sys s (.timeout c) t) :
    t.device = s.device ∧ c ∉ t.pending := by
  cases hs with
  | timeout hc =>
    refine ⟨rfl, fun hp => ?_⟩
    obtain ⟨base', edit', hw⟩ := h.pending c hp
    cases hc.symm.trans hw

end CommitInv

/-- A success of a run, with what came before it. -/
theorem commit_run_success {s : DirectoryService P S} {l r : List (CommitMove P S)}
    {m : CommitMove P S} {c : Nat} {base : DirectorySnapshot P} {edit : DirectoryEdit P}
    (h₀ : s.Fresh sys) (h : IsRun (CommitStep sys) s (l ++ m :: r))
    (hn : (committedEdits (l ++ m :: r)).length < 2 ^ 32)
    (hev : m.ev = .process c base edit espOk) :
    committedEdits (l ++ [m]) = committedEdits l ++ [edit] ∧
      (committedEdits l).length < 2 ^ 32 - 1 ∧
      base = m.pre.snapshot sys ∧ m.post.snapshot sys = base.apply edit := by
  obtain ⟨hinv, hs, -⟩ := commit_run_split h₀ h hn
  have hedits : committedEdits (l ++ [m]) = committedEdits l ++ [edit] := by
    rw [committedEdits_append, hev, edit?_process_ok, Option.toList_some]
  have hlt : (committedEdits l).length < 2 ^ 32 - 1 := by
    have := committedEdits_length_le l r m
    rw [hedits, List.length_append, List.length_singleton] at this
    omega
  rw [hev] at hs
  exact ⟨hedits, hlt, hinv.succeeds h₀.generation hs hlt⟩

/-- Two commits that succeed: the second is based on a later generation, and on what the
first installed if none succeeds in between. -/
theorem commit_run_successes {s : DirectoryService P S} {l k r : List (CommitMove P S)}
    {m n : CommitMove P S} {c c' : Nat} {base base' : DirectorySnapshot P}
    {edit edit' : DirectoryEdit P} (h₀ : s.Fresh sys)
    (h : IsRun (CommitStep sys) s (l ++ m :: (k ++ n :: r)))
    (hn : (committedEdits (l ++ m :: (k ++ n :: r))).length < 2 ^ 32)
    (hm : m.ev = .process c base edit espOk) (hev : n.ev = .process c' base' edit' espOk) :
    base.generation ≠ base'.generation ∧
      ((∀ x ∈ k, x.ev.edit? = none) → n.post.snapshot sys = (m.post.snapshot sys).apply edit') := by
  obtain ⟨hinv, -, hpost⟩ := commit_run_split h₀ h hn
  obtain ⟨hedits, -, hbase, -⟩ := commit_run_success h₀ h hn hm
  have hsplit : l ++ m :: (k ++ n :: r) = (l ++ [m] ++ k) ++ n :: r := by simp
  rw [hsplit] at h hn
  obtain ⟨hinv', -, -⟩ := commit_run_split h₀ h hn
  obtain ⟨-, hlt, hbase', happly⟩ := commit_run_success h₀ h hn hev
  have hlater : (committedEdits l).length < (committedEdits (l ++ [m] ++ k)).length := by
    have : committedEdits (l ++ [m] ++ k) = committedEdits (l ++ [m]) ++ committedEdits k :=
      List.filterMap_append
    rw [this, hedits, List.length_append, List.length_append, List.length_singleton]
    omega
  constructor
  · have hpos : 0 < (s.snapshot sys).generation.toNat :=
      Nat.pos_of_ne_zero fun h0 => h₀.generation (UInt32.toNat_inj.mp h0)
    have hle := (s.snapshot sys).generation.toNat_lt
    intro heq
    refine skipZero_apart hpos (by omega) hlt _ _ hlater le_rfl ?_
    rw [← (foldl_apply_generation _ _ h₀.generation).2, ← (foldl_apply_generation _ _ h₀.generation).2,
      ← hinv.serial, ← hinv'.serial, ← hbase, ← hbase', heq]
  · intro hk
    have hnone : committedEdits k = [] := List.filterMap_eq_nil_iff.mpr hk
    have hsame : n.pre.snapshot sys = m.post.snapshot sys := by
      rw [hinv'.serial, hpost.serial]
      unfold committedEdits at hnone ⊢
      rw [List.filterMap_append (l := l ++ [m]), hnone, List.append_nil]
    rw [happly, hbase', hsame]

/-- **No lost update.**  A commit that succeeds is its client's edit of what the one before
it installed, no two of them are based on one generation, and what is refused or times out
changes nothing; so the directory is what the edits make of it one after another. -/
theorem no_lost_update {s : DirectoryService P S} {ms : List (CommitMove P S)} (h₀ : s.Fresh sys)
    (h : IsRun (CommitStep sys) s ms) (hn : (committedEdits ms).length < 2 ^ 32) :
    (∀ m ∈ ms, ∀ c base edit, m.ev = .process c base edit espOk →
      base = m.pre.snapshot sys ∧ m.post.snapshot sys = base.apply edit) ∧
    (∀ l m k n r c base edit c' base' edit', ms = l ++ m :: (k ++ n :: r) →
      m.ev = .process c base edit espOk → n.ev = .process c' base' edit' espOk →
      base.generation ≠ base'.generation ∧
        ((∀ x ∈ k, x.ev.edit? = none) → n.post.snapshot sys = (m.post.snapshot sys).apply edit')) ∧
    (∀ m ∈ ms, m.ev.edit? = none → m.post.snapshot sys = m.pre.snapshot sys) ∧
    (∀ m ∈ ms, ∀ c base edit err, m.ev = .process c base edit err →
      ¬ sys.Accepts m.pre.device.statics (edit base) base.generation →
      err = espErrInvalidState ∧ m.post.device = m.pre.device) ∧
    (∀ m ∈ ms, ∀ c, m.ev = .timeout c → m.post.device = m.pre.device ∧ c ∉ m.post.pending) ∧
    (final s ms).snapshot sys = (committedEdits ms).foldl .apply (s.snapshot sys) := by
  have hat {m : CommitMove P S} (hm : m ∈ ms) :
      ∃ l, CommitInv sys (s.snapshot sys) m.pre l ∧ CommitStep sys m.pre m.ev m.post := by
    obtain ⟨l, r, rfl⟩ := List.append_of_mem hm
    obtain ⟨hinv, hs, -⟩ := commit_run_split h₀ h hn
    exact ⟨l, hinv, hs⟩
  refine ⟨fun m hm c base edit hev => ?_, ?_, fun m hm hedit => ?_,
    fun m hm c base edit err hev haccepts => ?_, fun m hm c hev => ?_, (commit_run_inv h₀ h hn).serial⟩
  · obtain ⟨l, r, rfl⟩ := List.append_of_mem hm
    exact (commit_run_success h₀ h hn hev).2.2
  · rintro l m k n r c base edit c' base' edit' rfl hm hev
    exact commit_run_successes h₀ h hn hm hev
  · obtain ⟨l, hinv, hs⟩ := hat hm
    exact hinv.unchanged hs hedit
  · obtain ⟨l, hinv, hs⟩ := hat hm
    rw [hev] at hs
    exact hinv.refused hs haccepts
  · obtain ⟨l, hinv, hs⟩ := hat hm
    rw [hev] at hs
    exact hinv.timedOut hs

/-- A directory nobody uses yet. -/
def unusedDirectory (d : DirectoryDevice P S) : DirectoryService P S := ⟨d, [], none, fun _ => .idle⟩

/-- One client takes a snapshot and commits `payload`. -/
theorem exists_committed {d : DirectoryDevice P S} {payload : P}
    (haccepts : sys.Accepts d.statics payload (sys.ram d.statics).snapshot.generation) :
    ∃ ms, IsRun (CommitStep sys) (unusedDirectory d) ms ∧ committedEdits ms = [fun _ => payload] := by
  have hrun := Prog.playS_exec DirectoryFlash.ideal_call
    (sys.commit d.statics payload (sys.ram d.statics).snapshot.generation) d.store
  have hok : ((sys.commit d.statics payload (sys.ram d.statics).snapshot.generation).playS
      DirectoryFlash.ideal d.store).2.1.1 = espOk := by
    have hwp : (sys.commit d.statics payload (sys.ram d.statics).snapshot.generation).wpS IdealCall
        (fun _ _ => True) (fun a _ => a.1 = espOk) d.store := by
      rw [sys.commit_taken _ _ _ haccepts.1 haccepts.2, Prog.wpS_bind]
      refine Prog.wpS_mono (fun _ _ h => h) ?_ _ _
        (DirectoryRam.commitLocked_ideal haccepts.2 d.store)
      rintro _ t ⟨rfl, -⟩
      exact rfl
    exact Prog.playS_of_wpS hwp
  generalize (sys.commit d.statics payload (sys.ram d.statics).snapshot.generation).playS
    DirectoryFlash.ideal d.store = out at hrun hok
  obtain ⟨tr, ⟨err, next⟩, t⟩ := out
  obtain rfl : err = espOk := hok
  let base := (sys.ram d.statics).snapshot
  let edit : DirectoryEdit P := fun _ => payload
  let s₀ := unusedDirectory d
  let s₁ := s₀.setClient 0 (.holds base)
  let s₂ := s₁.setClient 0 (.sends base edit)
  let s₃ : DirectoryService P S := { s₂.setClient 0 (.waits base edit) with queue := [0] }
  let s₄ : DirectoryService P S := { s₃ with queue := [], writer := some 0 }
  let s₅ : DirectoryService P S :=
    { s₄.setClient 0 (.answered base espOk) with device := ⟨t, next⟩, writer := none }
  refine ⟨[⟨s₀, .snapshot 0, s₁⟩, ⟨s₁, .submit 0 edit, s₂⟩, ⟨s₂, .enqueue 0, s₃⟩,
    ⟨s₃, .receive 0, s₄⟩, ⟨s₄, .process 0 base edit espOk, s₅⟩], ?_, rfl⟩
  exact ⟨rfl, .snapshot (.inl rfl), rfl, .submit rfl, rfl, .enqueue rfl (Nat.zero_lt_succ 1),
    rfl, .receive rfl rfl, rfl, .process rfl rfl hrun, trivial⟩

/-- Both directories after a first boot, and one commit. -/
theorem no_lost_update_one_commit :
    (∃ s ms, IsRun (CommitStep humanSystem) s ms ∧
      (final s ms).snapshot humanSystem = (s.snapshot humanSystem).apply fun _ => securityDirectory.empty) ∧
    ∃ s ms, IsRun (CommitStep machineSystem) s ms ∧
      (final s ms).snapshot machineSystem = (s.snapshot machineSystem).apply fun _ => machineDirectory.empty := by
  constructor
  · let d : DirectoryDevice SecurityDirectoryPayload SecurityDirectory :=
      ⟨(DirectoryFlash.blank.setSlot 0 (firstRecord securityDirectory)).select 0,
        ⟨⟨⟨securityDirectory.empty, 1⟩, 0⟩, true⟩⟩
    have haccepts : humanSystem.Accepts d.statics securityDirectory.empty 1 :=
      ⟨rfl, rfl, securityDirectory_empty_valid, rfl⟩
    obtain ⟨ms, hrun, hedits⟩ := exists_committed haccepts
    have hfresh : (unusedDirectory d).Fresh humanSystem := ⟨rfl, by decide, rfl, rfl, fun _ => rfl⟩
    have hall := no_lost_update hfresh hrun (by rw [hedits]; decide)
    refine ⟨_, ms, hrun, ?_⟩
    rw [hall.2.2.2.2.2, hedits]
    rfl
  · let d : DirectoryDevice MachinePayload MachineDirectory :=
      ⟨(DirectoryFlash.blank.setSlot 0 (firstRecord machineDirectory)).select 0,
        ⟨⟨⟨machineDirectory.empty, 1⟩, 0⟩, .ready, true⟩⟩
    have haccepts : machineSystem.Accepts d.statics machineDirectory.empty 1 :=
      ⟨rfl, rfl, machineDirectory_empty_valid, rfl⟩
    obtain ⟨ms, hrun, hedits⟩ := exists_committed haccepts
    have hfresh : (unusedDirectory d).Fresh machineSystem := ⟨rfl, by decide, rfl, rfl, fun _ => rfl⟩
    have hall := no_lost_update hfresh hrun (by rw [hedits]; decide)
    refine ⟨_, ms, hrun, ?_⟩
    rw [hall.2.2.2.2.2, hedits]
    rfl

end Argus
