import ArgusPump.DirectoryCrash
import ArgusPump.SecurityDirectory

/-!
# Power loss in the directory of humans

`argus_security_directory_init` takes the slot the selector names and nothing else: a first
boot stopped between its two writes leaves slot A without a selector, and every init after
it fails.

    run from blank, next init → the payload committed last or one tried since, unless a
      first boot was stopped between its two writes            (security_directory_crash)
-/

namespace Argus

open Interact DirectoryFlash

namespace SecurityDirectory

theorem commitLocked_eq (s : SecurityDirectory) (payload : SecurityDirectoryPayload)
    (expectedGeneration : UInt32) :
    s.commitLocked payload expectedGeneration =
      s.ram.commitLocked securityDirectory true payload expectedGeneration >>=
        fun a => .ret (a.1, { s with ram := a.2 }) := rfl

/-- The statics with which a first boot commits. -/
def fresh (s : SecurityDirectory) : SecurityDirectory :=
  { s with ram := { s.ram with snapshot := ⟨securityDirectory.empty, 0⟩ } }

/-- The selector of sound data names a slot that can be used. -/
theorem selected_named {store : DirectoryFlash SecurityDirectoryPayload}
    (hs : store.Sound securityDirectory) {v : UInt8} {rec : DirectorySlot SecurityDirectoryPayload}
    (hv : v ≤ 1) (hsel : store.selector = .ok v) (hrec : store.slot v = .ok rec) :
    selected (store.slot 0) (store.slot 1) store.selector = some (v, rec) := by
  have hvalid := (hs.slots v).validSlot_of_eq hrec
  rw [hsel]
  unfold selected
  dsimp only
  rw [if_neg (by simpa using hv)]
  rcases eq_zero_or_one hv with rfl | rfl
  · rw [if_pos rfl, hvalid]
    rfl
  · rw [if_neg (by decide), hvalid]
    rfl

/-- **Init at every point.** -/
theorem init_spec {s : SecurityDirectory} {store : DirectoryFlash SecurityDirectoryPayload}
    (hi : s.initialized = false) (hs : store.Sound securityDirectory) :
    (init s).wpS Call
      (fun q t => BootLeaves securityDirectory store t ∧
        ∀ u, Cut q t u → BootLeaves securityDirectory store u)
      (fun a t => a.1 ≠ espOk ∧ a.2.initialized = false ∧ BootLeaves securityDirectory store t ∨
        a.1 = espOk ∧ a.2.initialized = true ∧ ¬ store.HalfWritten ∧
          InitLoads securityDirectory store a.2.ram t) store := by
  have hread {q : DirectoryCall SecurityDirectoryPayload} (hq : ∀ u, Cut q store u → u = store) :
      BootLeaves securityDirectory store store ∧
        ∀ u, Cut q store u → BootLeaves securityDirectory store u :=
    ⟨.inl rfl, fun u hu => .inl (hq u hu)⟩
  unfold init
  rw [if_neg (by simp [hi])]
  refine ⟨hread fun u ⟨_, _, hu⟩ => hu, ?_⟩
  rintro _ t ⟨rfl, rfl⟩
  refine ⟨hread fun u ⟨_, _, hu⟩ => hu, ?_⟩
  rintro _ t ⟨rfl, rfl⟩
  beta_reduce
  rw [if_neg (by simp [(hs.slots 0).readFailed, (hs.slots 1).readFailed])]
  rw [if_neg hs.not_corrupt]
  split
  · next hm =>
    -- the first commit
    have hmissing : t.BothMissing := ⟨(hs.slots 0).eq_missing hm.1, (hs.slots 1).eq_missing hm.2⟩
    have hleaves {u : DirectoryFlash SecurityDirectoryPayload}
        (hl : t.Leaves s.fresh.ram.target (s.fresh.ram.record securityDirectory
          securityDirectory.empty) u) : BootLeaves securityDirectory t u := .inr ⟨hmissing, hl⟩
    have hfresh : DirectoryRam.CommitPrecondition securityDirectory true s.fresh.ram
        securityDirectory.empty 0 := ⟨rfl, securityDirectory_empty_valid, rfl⟩
    refine (Prog.wpS_bind _ _ _ _ _).mpr ((Prog.wpS_bind _ _ _ _ _).mpr ?_)
    refine Prog.wpS_mono (fun q u h => ⟨hleaves h.1, fun w hw => hleaves (h.2 w hw)⟩) ?_ _ _
      (DirectoryRam.commitLocked_spec hfresh t)
    rintro ⟨err, ram⟩ u (⟨herr, -, hl⟩ | ⟨heq, rfl⟩)
    · dsimp only [pure, Prog.wpS]
      rw [if_pos herr]
      exact .inl ⟨herr, hi, hleaves hl⟩
    · cases heq
      refine .inr ⟨rfl, rfl, ?_, .first hmissing rfl⟩
      rintro ⟨-, rec, hrec⟩
      cases hmissing.1.symm.trans hrec
  · next hm =>
    refine ⟨hread fun u ⟨_, _, hu⟩ => hu, ?_⟩
    rintro _ t ⟨rfl, rfl⟩
    beta_reduce
    rcases hs.phase with ⟨hnosel, -⟩ | ⟨v, rec, hv, hsel, hrec⟩
    · rw [hnosel]
      exact .inl ⟨(by decide : espErrInvalidState ≠ espOk), hi, .inl rfl⟩
    · rw [selected_named hs hv hsel hrec]
      refine .inr ⟨rfl, rfl, ?_, .selected hv hsel hrec rfl⟩
      rintro ⟨hnosel, -⟩
      cases hsel.symm.trans hnosel

/-- **Init none of whose calls fails**, unless slot A is stored without a selector. -/
theorem init_ideal {s : SecurityDirectory} {store : DirectoryFlash SecurityDirectoryPayload}
    (hs : store.Sound securityDirectory) (hhalf : ¬ store.HalfWritten) :
    (init s).wpS IdealCall (fun _ _ => True) (fun a _ => a.1 = espOk) store := by
  unfold init
  split
  · exact rfl
  refine ⟨trivial, ?_⟩
  rintro _ _ ⟨⟩
  refine ⟨trivial, ?_⟩
  rintro _ _ ⟨⟩
  beta_reduce
  rw [if_neg (by simp [(hs.slots 0).readFailed, (hs.slots 1).readFailed]), if_neg hs.not_corrupt]
  split
  · have hfresh : DirectoryRam.CommitPrecondition securityDirectory true s.fresh.ram
        securityDirectory.empty 0 := ⟨rfl, securityDirectory_empty_valid, rfl⟩
    refine (Prog.wpS_bind _ _ _ _ _).mpr ((Prog.wpS_bind _ _ _ _ _).mpr ?_)
    refine Prog.wpS_mono (fun _ _ h => h) ?_ _ _ (DirectoryRam.commitLocked_ideal hfresh store)
    rintro _ u ⟨rfl, -⟩
    exact rfl
  · next hm =>
    refine ⟨trivial, ?_⟩
    rintro _ _ ⟨⟩
    beta_reduce
    rcases hs.cases with hmissing | ⟨hh, -⟩ | ⟨v, rec, hv, hsel, hrec⟩
    · exact absurd hmissing.flags hm
    · exact absurd hh hhalf
    · rw [selected_named hs hv hsel hrec]
      exact rfl

/-- A first boot cut off between its two writes. -/
theorem init_cut {s : SecurityDirectory} {store : DirectoryFlash SecurityDirectoryPayload}
    (hi : s.initialized = false) (hm : store.BothMissing) :
    Prog.Crash Call Cut (init s) store (store.setSlot 0 (firstRecord securityDirectory)) := by
  have hfresh : DirectoryRam.CommitPrecondition securityDirectory true s.fresh.ram
      securityDirectory.empty 0 := ⟨rfl, securityDirectory_empty_valid, rfl⟩
  unfold init
  rw [if_neg (by simp [hi])]
  refine .later (r := .error espErrNvsNotFound) ⟨hm.1.symm, rfl⟩ ?_
  refine .later (r := .error espErrNvsNotFound) ⟨hm.2.symm, rfl⟩ ?_
  exact ((DirectoryRam.commitLocked_cut hfresh store).bind).bind

end SecurityDirectory

open SecurityDirectory

/-- `argus_security_directory.c`. -/
def humanSystem : DirectorySystem SecurityDirectoryPayload SecurityDirectory where
  kind := securityDirectory
  ram s := s.ram
  setRam s ram := { s with ram := ram }
  started s := s.initialized
  ready s := s.initialized
  boot := .boot
  init := init
  commit := commit
  ram_setRam _ _ := rfl
  started_setRam _ _ := rfl
  ready_setRam _ _ := rfl
  boot_started := rfl
  ready_started _ h := h
  empty_valid := securityDirectory_empty_valid
  commit_refused s payload expectedGeneration h := by
    unfold commit
    split
    · rfl
    · next hi =>
      have hready : s.initialized = true := by simpa using hi
      rw [commitLocked_eq, DirectoryRam.commitLocked_refused fun hc => h ⟨hready, hc⟩]
      rfl
  commit_taken s payload expectedGeneration h _ := by
    unfold commit
    rw [if_neg (by simp [h]), commitLocked_eq]
  init_started s h := if_pos h
  init_spec s store h hs := by
    refine Prog.wpS_mono (fun q t h => ⟨.inl h.1, fun u hu => .inl (h.2 u hu)⟩) ?_ _ _ (init_spec h hs)
    rintro ⟨err, next⟩ t (⟨herr, he, hl⟩ | ⟨herr, he, -, hl⟩)
    · exact .inl ⟨herr, he, .inl hl⟩
    · exact .inr ⟨herr, he, he, hl⟩

variable {d e : DirectoryDevice SecurityDirectoryPayload SecurityDirectory}
  {act : DirectoryAct SecurityDirectoryPayload}
  {ms : List (DirectoryMove SecurityDirectoryPayload SecurityDirectory)}

/-- Slot A without a selector stays so. -/
theorem half_stays (h : DirectoryInv humanSystem d ms) (hs : DirectoryStep humanSystem d act e)
    (hd : d.store.HalfWritten) : e.store.HalfWritten := by
  have hstopped : d.statics.initialized = false := h.stopped_of_half hd
  have hrefused (payload : SecurityDirectoryPayload) (expectedGeneration : UInt32) :
      d.statics.commit payload expectedGeneration = .ret (espErrInvalidState, d.statics) :=
    if_pos (by simp [hstopped])
  have hboot {t : DirectoryFlash SecurityDirectoryPayload}
      (hl : BootLeaves securityDirectory d.store t) : t.HalfWritten := by
    rcases hl with rfl | ⟨hmissing, -⟩
    · exact hd
    · obtain ⟨-, rec, hrec⟩ := hd
      cases hmissing.1.symm.trans hrec
  have hnot {p : Prop} (hn : ¬ d.store.HalfWritten) : p := absurd hd hn
  cases hs with
  | init hr =>
    rcases hr.of_wpS (init_spec hstopped h.sound) with ⟨-, -, hl⟩ | ⟨-, -, hn, -⟩
    · exact hboot hl
    · exact hnot hn
  | initCut hr =>
    refine hboot (hr.of_wpS (Prog.wpS_mono (fun _ _ h => h) ?_ _ _ (init_spec hstopped h.sound)))
    rintro a u (⟨-, -, hl⟩ | ⟨-, -, hn, -⟩)
    · exact hl
    · exact hnot hn
  | @commit payload expectedGeneration _ _ _ _ hr =>
    replace hr : Prog.Exec Call (d.statics.commit payload expectedGeneration) d.store _ _ _ := hr
    rw [hrefused] at hr
    cases hr
    exact hd
  | @commitCut payload expectedGeneration _ hr =>
    replace hr : Prog.Crash Call Cut (d.statics.commit payload expectedGeneration) d.store _ := hr
    rw [hrefused] at hr
    cases hr
    exact hd
  | powerLoss => exact hd

/-- Slot A is left without a selector by a first boot stopped between its two writes, and by
nothing else. -/
theorem half_iff_cutShort (h : IsRun (DirectoryStep humanSystem) humanSystem.blankDevice ms) :
    (final humanSystem.blankDevice ms).store.HalfWritten ↔ ∃ m ∈ ms, m.CutShort humanSystem := by
  constructor
  · intro hhalf
    have hblank : ¬ (humanSystem.blankDevice.store).HalfWritten := by
      rintro ⟨-, rec, hrec⟩
      cases hrec
    obtain ⟨m, hm, hpre, hpost⟩ := h.exists_enter (P := fun d => d.store.HalfWritten) hblank hhalf
    obtain ⟨l, r, rfl, hl, hfin, -⟩ := h.split_of_mem hm
    have hinv := directory_run_inv hl
    rw [hfin] at hinv
    exact ⟨m, hm, (hinv.half_of_half (h.step_of_mem m hm) hpost).resolve_left hpre, hpost⟩
  · rintro ⟨m, hm, -, hpost⟩
    obtain ⟨l, r, rfl, hl, hfin, hr⟩ := h.split_of_mem hm
    have hinv := directory_run_inv hl
    rw [hfin] at hinv
    rw [final_append, final_cons]
    have hpast : DirectoryInv humanSystem (final m.post r) (l ++ [m] ++ r) ∧
        (final m.post r).store.HalfWritten := by
      refine hr.inv_past (I := fun d ms => DirectoryInv humanSystem d (l ++ [m] ++ ms) ∧
        d.store.HalfWritten) ⟨?_, hpost⟩ fun ns n hi hs => ⟨?_, half_stays hi.1 hs hi.2⟩
      · rw [List.append_nil]
        exact hinv.step (h.step_of_mem m hm)
      · rw [← List.append_assoc]
        exact hi.1.step hs
    exact hpast.2

/-- **The next init after any run from blank flash.**  It succeeds with the payload
committed last or one tried since, unless a first boot was stopped between its two writes. -/
theorem security_directory_crash
    (h : IsRun (DirectoryStep humanSystem) humanSystem.blankDevice ms)
    {tr : List (Σ q : DirectoryCall SecurityDirectoryPayload, q.Answer)} {err : EspErr}
    {next : SecurityDirectory} {t : DirectoryFlash SecurityDirectoryPayload}
    (hinit : Prog.Exec Call (init (final humanSystem.blankDevice ms).statics)
      (final humanSystem.blankDevice ms).store tr (err, next) t) (hw : WritesOk tr) :
    (err = espOk ∧ LastTriedIn humanSystem next.ram.snapshot.payload
        (ms ++ [⟨final humanSystem.blankDevice ms, .init tr err, ⟨t, next⟩⟩]) ↔
      ¬ (final humanSystem.blankDevice ms).store.HalfWritten) ∧
    ((final humanSystem.blankDevice ms).store.HalfWritten ↔ ∃ m ∈ ms, m.CutShort humanSystem) := by
  refine ⟨?_, half_iff_cutShort h⟩
  have hinv := directory_run_inv h
  constructor
  · rintro ⟨herr, -⟩ hhalf
    rcases hinit.of_wpS (init_spec (hinv.stopped_of_half hhalf) hinv.sound) with ⟨hne, -⟩ | ⟨-, -, hn, -⟩
    · exact hne herr
    · exact hn hhalf
  · intro hhalf
    obtain rfl : err = espOk := (exec_ideal hinit hw).of_wpS (init_ideal hinv.sound hhalf)
    exact ⟨rfl, (hinv.init_ok hinit).2⟩

/-- A first boot, as a run of the driver without failures. -/
theorem security_directory_first_boot :
    ∃ (tr : List (Σ q : DirectoryCall SecurityDirectoryPayload, q.Answer)) (next : SecurityDirectory)
      (t : DirectoryFlash SecurityDirectoryPayload),
      Prog.Exec Call (init .boot) .blank tr (espOk, next) t ∧
        LastTriedIn humanSystem next.ram.snapshot.payload
          [⟨humanSystem.blankDevice, .init tr espOk, ⟨t, next⟩⟩] := by
  have hrun := Prog.playS_exec DirectoryFlash.ideal_call (init .boot) .blank
  have hw := playS_writesOk (init .boot) .blank
  generalize (init .boot).playS ideal .blank = out at hrun hw
  obtain ⟨tr, ⟨err, next⟩, t⟩ := out
  have hblank : ¬ (DirectoryFlash.blank : DirectoryFlash SecurityDirectoryPayload).HalfWritten := by
    rintro ⟨-, rec, hrec⟩
    cases hrec
  obtain ⟨rfl, hlast⟩ := (@security_directory_crash [] trivial tr err next t hrun hw).1.mpr hblank
  exact ⟨tr, next, t, hrun, hlast⟩

/-- A first boot cut off between its two writes: every init after it fails. -/
theorem security_directory_first_boot_cut :
    ¬ ∀ ms : List (DirectoryMove SecurityDirectoryPayload SecurityDirectory),
      IsRun (DirectoryStep humanSystem) humanSystem.blankDevice ms →
      ∀ tr err next t, Prog.Exec Call (init (final humanSystem.blankDevice ms).statics)
        (final humanSystem.blankDevice ms).store tr (err, next) t → WritesOk tr →
        err = espOk ∧ LastTriedIn humanSystem next.ram.snapshot.payload
          (ms ++ [⟨final humanSystem.blankDevice ms, .init tr err, ⟨t, next⟩⟩]) := by
  intro h
  have hcut : Prog.Crash Call Cut (init .boot) .blank
      (DirectoryFlash.blank.setSlot 0 (firstRecord securityDirectory)) := init_cut rfl ⟨rfl, rfl⟩
  generalize hrec : firstRecord securityDirectory = rec at hcut
  have hrun : IsRun (DirectoryStep humanSystem) humanSystem.blankDevice
      [⟨humanSystem.blankDevice, .initCut, ⟨DirectoryFlash.blank.setSlot 0 rec, .boot⟩⟩] :=
    ⟨rfl, .initCut hcut, trivial⟩
  have hinit := Prog.playS_exec DirectoryFlash.ideal_call (init .boot) (DirectoryFlash.blank.setSlot 0 rec)
  have hw := playS_writesOk (init .boot) (DirectoryFlash.blank.setSlot 0 rec)
  generalize (init .boot).playS ideal (DirectoryFlash.blank.setSlot 0 rec) = out at hinit hw
  obtain ⟨tr, ⟨err, next⟩, t⟩ := out
  have herr := (h _ hrun tr err next t hinit hw).1
  have hinv := directory_run_inv hrun
  rcases hinit.of_wpS (init_spec rfl hinv.sound) with ⟨hne, -⟩ | ⟨-, -, hn, -⟩
  · exact hne herr
  · exact hn ⟨rfl, rec, rfl⟩

end Argus
