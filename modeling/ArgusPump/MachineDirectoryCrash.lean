import ArgusPump.DirectoryCrash
import ArgusPump.MachineDirectory

/-!
# Power loss in the directory of machines

Without a selector `argus_machine_directory_init` takes the valid slot, or the one of the
higher generation, and writes the selector anew.  From blank flash there is only ever slot
A to take then, and the next commit writes slot B.

    run from blank, next init → the payload committed last or one tried since, in a slot
      that the next commit leaves alone                          (machine_directory_crash)
-/

namespace Argus

open Interact DirectoryFlash

namespace MachineDirectory

variable {s : MachineDirectory} {store : DirectoryFlash MachinePayload}

theorem commitLocked_eq (s : MachineDirectory) (payload : MachinePayload)
    (expectedGeneration : UInt32) :
    s.commitLocked payload expectedGeneration =
      s.ram.commitLocked machineDirectory (s.state = .ready) payload expectedGeneration >>=
        fun a => .ret (a.1, { s with ram := a.2 }) := rfl

/-- The statics with which a first boot commits. -/
def fresh (s : MachineDirectory) : MachineDirectory :=
  { s with
    ram := { s.ram with snapshot := ⟨machineDirectory.empty, 0⟩ }
    state := .ready }

/-- What the selection makes of sound data. -/
inductive Selects (store : DirectoryFlash MachinePayload) :
    Except EspErr (DirectoryRam MachinePayload × Bool) → Prop
  | first : store.BothMissing → Selects store (.error espErrNotFound)
  | repair {rec : DirectorySlot MachinePayload} : store.HalfWritten → store.slotA = .ok rec →
      Selects store (.ok (⟨⟨rec.payload, rec.generation⟩, 0⟩, true))
  | named {v : UInt8} {rec : DirectorySlot MachinePayload} : v ≤ 1 → store.selector = .ok v →
      store.slot v = .ok rec → Selects store (.ok (⟨⟨rec.payload, rec.generation⟩, v⟩, false))

/-- The generations of the slots are never compared. -/
theorem select_sound (hs : store.Sound machineDirectory) :
    Selects store (select (store.slot 0) (store.slot 1) store.selector) := by
  unfold select
  dsimp only
  split
  · next hm => exact .first ⟨(hs.slots 0).eq_missing hm.1, (hs.slots 1).eq_missing hm.2⟩
  · next hm =>
    rw [if_neg (by simp [(hs.slots 0).readFailed, (hs.slots 1).readFailed])]
    rcases hs.cases with hmissing | ⟨⟨hnosel, rec, ha⟩, hb⟩ | ⟨v, rec, hv, hsel, hrec⟩
    · exact absurd hmissing.flags hm
    · have hva := (hs.slots 0).validSlot_of_eq ha
      have hvb : DirectorySlot.validSlot machineDirectory (store.slot 1) = none := by
        rw [show store.slot 1 = store.slotB from rfl, hb]
        rfl
      rw [hnosel, hva, hvb]
      exact .repair ⟨hnosel, rec, ha⟩ ha
    · have hvalid := (hs.slots v).validSlot_of_eq hrec
      have husable : usableSelector (DirectorySlot.validSlot machineDirectory (store.slot 0))
          (DirectorySlot.validSlot machineDirectory (store.slot 1)) store.selector = some v := by
        rw [hsel]
        unfold usableSelector
        rcases eq_zero_or_one hv with rfl | rfl <;> simp [hvalid]
      have hslot : (if v = 0 then DirectorySlot.validSlot machineDirectory (store.slot 0)
          else DirectorySlot.validSlot machineDirectory (store.slot 1)) = some rec := by
        rcases eq_zero_or_one hv with rfl | rfl
        · rw [if_pos rfl, hvalid]
        · rw [if_neg (by decide), hvalid]
      rw [husable, Option.getD_some, hslot]
      exact .named hv hsel hrec

theorem fresh_commits (s : MachineDirectory) :
    s.fresh.ram.CommitPrecondition machineDirectory (s.fresh.state = .ready)
      machineDirectory.empty 0 := ⟨rfl, machineDirectory_empty_valid, rfl⟩

/-- **Init at every point.** -/
theorem init_spec (hi : s.initialized = false) (hs : store.Sound machineDirectory) :
    (init s).wpS Call
      (fun q t => InitLeaves machineDirectory store t ∧
        ∀ u, Cut q t u → InitLeaves machineDirectory store u)
      (fun a t => a.1 ≠ espOk ∧ a.2.initialized = false ∧ InitLeaves machineDirectory store t ∨
        a.1 = espOk ∧ a.2.initialized = true ∧ a.2.state = .ready ∧
          InitLoads machineDirectory store a.2.ram t) store := by
  have hread {q : DirectoryCall MachinePayload} (hq : ∀ u, Cut q store u → u = store) :
      InitLeaves machineDirectory store store ∧
        ∀ u, Cut q store u → InitLeaves machineDirectory store u :=
    ⟨.inl (.inl rfl), fun u hu => .inl (.inl (hq u hu))⟩
  unfold init
  rw [if_neg (by simp [hi])]
  refine ⟨hread fun u ⟨_, _, hu⟩ => hu, ?_⟩
  rintro _ t ⟨rfl, rfl⟩
  refine ⟨hread fun u ⟨_, _, hu⟩ => hu, ?_⟩
  rintro _ t ⟨rfl, rfl⟩
  refine ⟨hread fun u ⟨_, _, hu⟩ => hu, ?_⟩
  rintro _ t ⟨rfl, rfl⟩
  have hselects := select_sound hs
  beta_reduce
  generalize select (t.slot 0) (t.slot 1) t.selector = chosen at hselects
  cases hselects with
  | first hmissing =>
    have hleaves {u : DirectoryFlash MachinePayload}
        (hl : t.Leaves s.fresh.ram.target (s.fresh.ram.record machineDirectory
          machineDirectory.empty) u) : InitLeaves machineDirectory t u := .inl (.inr ⟨hmissing, hl⟩)
    refine (Prog.wpS_bind _ _ _ _ _).mpr ((Prog.wpS_bind _ _ _ _ _).mpr ?_)
    refine Prog.wpS_mono (fun q u h => ⟨hleaves h.1, fun w hw => hleaves (h.2 w hw)⟩) ?_ _ _
      (DirectoryRam.commitLocked_spec s.fresh_commits t)
    rintro ⟨err, ram⟩ u (⟨herr, -, hl⟩ | ⟨heq, rfl⟩)
    · dsimp only [pure, Prog.wpS, finish]
      rw [if_pos herr]
      exact .inl ⟨herr, hi, hleaves hl⟩
    · cases heq
      exact .inr ⟨rfl, rfl, rfl, .first hmissing rfl⟩
  | @repair rec hhalf hrec =>
    have hwrite {r : EspErr} {u : DirectoryFlash MachinePayload} (hu : Call (.writeSelector 0) t r u) :
        InitLeaves machineDirectory t u := by
      rcases hu with rfl | ⟨-, rfl⟩
      · exact .inr ⟨hhalf, rfl⟩
      · exact .inl (.inl rfl)
    refine ⟨⟨.inl (.inl rfl), fun u ⟨r, hu⟩ => hwrite hu⟩, fun r u hu => ?_⟩
    unfold finish
    beta_reduce
    split
    · next hr => exact .inl ⟨hr, hi, hwrite hu⟩
    · next hr =>
      obtain rfl := hu.resolve_right fun h => h.1 (not_not.mp hr)
      exact .inr ⟨rfl, rfl, rfl, .repaired hhalf hrec rfl⟩
  | @named v rec hv hsel hrec => exact .inr ⟨rfl, rfl, rfl, .selected hv hsel hrec rfl⟩

/-- **Init none of whose calls fails.** -/
theorem init_ideal (hs : store.Sound machineDirectory) :
    (init s).wpS IdealCall (fun _ _ => True) (fun a _ => a.1 = espOk) store := by
  unfold init
  split
  · exact rfl
  refine ⟨trivial, ?_⟩
  rintro _ _ ⟨⟩
  refine ⟨trivial, ?_⟩
  rintro _ _ ⟨⟩
  refine ⟨trivial, ?_⟩
  rintro _ _ ⟨⟩
  have hselects := select_sound hs
  beta_reduce
  generalize select (store.slot 0) (store.slot 1) store.selector = chosen at hselects
  cases hselects with
  | first hmissing =>
    refine (Prog.wpS_bind _ _ _ _ _).mpr ((Prog.wpS_bind _ _ _ _ _).mpr ?_)
    refine Prog.wpS_mono (fun _ _ h => h) ?_ _ _
      (DirectoryRam.commitLocked_ideal s.fresh_commits store)
    rintro _ u ⟨rfl, -⟩
    exact rfl
  | repair _ _ =>
    refine ⟨trivial, ?_⟩
    rintro _ _ ⟨⟩
    exact rfl
  | named _ _ _ => exact rfl

end MachineDirectory

open MachineDirectory

/-- `argus_machine_directory.c`. -/
def machineSystem : DirectorySystem MachinePayload MachineDirectory where
  kind := machineDirectory
  ram s := s.ram
  setRam s ram := { s with ram := ram }
  started s := s.initialized
  ready s := s.initialized && s.state = .ready
  boot := .boot
  init := init
  commit := commit
  ram_setRam _ _ := rfl
  started_setRam _ _ := rfl
  ready_setRam _ _ := rfl
  boot_started := rfl
  ready_started _ h := (Bool.and_eq_true_iff.mp h).1
  empty_valid := machineDirectory_empty_valid
  commit_refused s payload expectedGeneration h := by
    unfold commit
    split
    · rfl
    · next hi =>
      simp only [not_or, Bool.not_eq_true, Bool.not_eq_false, not_not] at hi
      have hready : (s.initialized && decide (s.state = .ready)) = true := by simp [hi.1, hi.2]
      rw [commitLocked_eq, DirectoryRam.commitLocked_refused fun hc => h ⟨hready, rfl, hc.2⟩]
      rfl
  commit_taken s payload expectedGeneration h _ := by
    simp only [Bool.and_eq_true, decide_eq_true_eq] at h
    unfold commit
    rw [if_neg (by simp [h.1, h.2]), commitLocked_eq]
    simp only [h.2, decide_true]
  init_started s h := if_pos h
  init_spec s store h hs := by
    refine Prog.wpS_mono (fun q t h => h) ?_ _ _ (init_spec h hs)
    rintro ⟨err, next⟩ t (hfail | ⟨herr, he, hstate, hl⟩)
    · exact .inl hfail
    · dsimp only at he hstate
      exact .inr ⟨herr, he, by simp [he, hstate], hl⟩

/-- No record under `id` that is not revoked. -/
def MachinePayload.Gone (id : List UInt8) (payload : MachinePayload) : Prop :=
  ∀ machine ∈ payload.entries, machine.id = id → machine.revoked ≠ 0

/-- **The next init after any run from blank flash.**  It fails only with a write of its
own.  The snapshot is the payload committed last or one tried since, so a record gone from
an acknowledged commit and all that was tried since does not come back.  The step after it
leaves the snapshot's slot alone. -/
theorem machine_directory_crash
    {ms : List (DirectoryMove MachinePayload MachineDirectory)}
    (h : IsRun (DirectoryStep machineSystem) machineSystem.blankDevice ms)
    {tr : List (Σ q : DirectoryCall MachinePayload, q.Answer)} {err : EspErr}
    {next : MachineDirectory} {t : DirectoryFlash MachinePayload}
    (hinit : Prog.Exec Call (init (final machineSystem.blankDevice ms).statics)
      (final machineSystem.blankDevice ms).store tr (err, next) t) :
    (WritesOk tr → err = espOk) ∧
    (err = espOk →
      LastTriedIn machineSystem next.ram.snapshot.payload
        (ms ++ [⟨final machineSystem.blankDevice ms, .init tr err, ⟨t, next⟩⟩]) ∧
      (∀ l a r id, ms ++ [⟨final machineSystem.blankDevice ms, .init tr err, ⟨t, next⟩⟩] = l ++ a :: r →
        Acknowledged machineSystem a →
        (∀ n ∈ a :: r, ∀ payload, Tries machineSystem payload n → payload.Gone id) →
        next.ram.snapshot.payload.Gone id) ∧
      (∃ rec, t.slot next.ram.activeSlot = .ok rec ∧
        next.ram.snapshot = ⟨rec.payload, rec.generation⟩) ∧
      ∀ act e, DirectoryStep machineSystem ⟨t, next⟩ act e →
        e.store.slot next.ram.activeSlot = t.slot next.ram.activeSlot) := by
  have hinv := directory_run_inv h
  refine ⟨fun hw => (exec_ideal hinit hw).of_wpS (init_ideal hinv.sound), ?_⟩
  rintro rfl
  have hpost := hinv.step (.init hinit)
  obtain ⟨hstarted, hlast⟩ := hinv.init_ok hinit
  obtain ⟨rec, hheld, -⟩ := hpost.held hstarted
  refine ⟨hlast, fun l a r id hsplit hack hgone => ?_, ⟨rec, hheld.2⟩,
    fun act e hs => hpost.slot_kept hs hstarted⟩
  rw [hsplit] at hlast
  obtain ⟨n, hn, htries⟩ := hlast.of_append ⟨a, List.mem_cons_self, hack⟩
  exact hgone n hn _ htries

/-- A first boot, as a run of the driver without failures. -/
theorem machine_directory_first_boot :
    ∃ (tr : List (Σ q : DirectoryCall MachinePayload, q.Answer)) (next : MachineDirectory)
      (t : DirectoryFlash MachinePayload),
      Prog.Exec Call (init .boot) .blank tr (espOk, next) t ∧
        LastTriedIn machineSystem next.ram.snapshot.payload
          [⟨machineSystem.blankDevice, .init tr espOk, ⟨t, next⟩⟩] := by
  have hrun := Prog.playS_exec DirectoryFlash.ideal_call (init .boot) .blank
  have hw := playS_writesOk (init .boot) .blank
  generalize (init .boot).playS ideal .blank = out at hrun hw
  obtain ⟨tr, ⟨err, next⟩, t⟩ := out
  have hcrash := @machine_directory_crash [] trivial tr err next t hrun
  obtain rfl := hcrash.1 hw
  exact ⟨tr, next, t, hrun, (hcrash.2 rfl).1⟩

end Argus
