import ArgusPump.DirectoryStore

/-!
# Power loss in a directory

Boots and commits from blank flash in any order, each cut off anywhere and with writes
that may fail (`DirectoryStep`).  The invariant is the same for both directories: what init
may leave is all they differ in (`DirectorySystem.init_spec`).

    the slot the selector names holds the payload committed last or one tried since, and the
      snapshot is kept in the active slot                          (DirectoryInv)
    every step keeps it                                            (DirectoryInv.step)
-/

namespace Argus

open Interact DirectoryFlash

variable {P S : Type} {k : DirectoryKind P}

/-! ## Boot -/

/-- A key holds a valid slot or was never written. -/
def DirectorySlot.Sound (k : DirectoryKind P) (slot : Except EspErr (DirectorySlot P)) : Prop :=
  slot = .error espErrNvsNotFound ∨ ∃ rec, slot = .ok rec ∧ rec.valid k = true

theorem DirectorySlot.sound_setSlot {s : DirectoryFlash P} {i : UInt8} {slot : DirectorySlot P}
    (hs : ∀ j, DirectorySlot.Sound k (s.slot j)) (hv : slot.valid k = true) (j : UInt8) :
    DirectorySlot.Sound k ((s.setSlot i slot).slot j) := by
  have hnew : DirectorySlot.Sound k (.ok slot) := .inr ⟨slot, rfl, hv⟩
  have ha : DirectorySlot.Sound k s.slotA := hs 0
  have hb : DirectorySlot.Sound k s.slotB := hs 1
  unfold DirectoryFlash.setSlot DirectoryFlash.slot
  by_cases hi : i = 0
  · by_cases hj : j = 0
    · simpa [hi, hj] using hnew
    · simpa [hi, hj] using hb
  · by_cases hj : j = 0
    · simpa [hi, hj] using ha
    · simpa [hi, hj] using hnew

namespace DirectorySlot.Sound

variable {slot : Except EspErr (DirectorySlot P)}

theorem readFailed (h : Sound k slot) : readFailed slot = false := by
  rcases h with rfl | ⟨rec, rfl, -⟩ <;> rfl

theorem validSlot_of_eq {rec : DirectorySlot P} (h : Sound k slot) (hs : slot = .ok rec) :
    DirectorySlot.validSlot k slot = some rec := by
  subst hs
  rcases h with h | ⟨rec', h, hv⟩
  · cases h
  · cases h
    exact if_pos hv

/-- A sound slot that cannot be used was never written. -/
theorem missing_of_none (h : Sound k slot) (hn : DirectorySlot.validSlot k slot = none) :
    slotMissing slot = true := by
  rcases h with rfl | ⟨rec, rfl, hv⟩
  · rfl
  · cases hn.symm.trans (if_pos hv)

theorem eq_missing (h : Sound k slot) (hm : slotMissing slot = true) :
    slot = .error espErrNvsNotFound := by
  refine h.resolve_right ?_
  rintro ⟨rec, rfl, -⟩
  cases hm

end DirectorySlot.Sound

namespace DirectoryFlash

/-- Neither slot was ever written. -/
def BothMissing (s : DirectoryFlash P) : Prop :=
  s.slotA = .error espErrNvsNotFound ∧ s.slotB = .error espErrNvsNotFound

theorem BothMissing.slot {s : DirectoryFlash P} (h : s.BothMissing) (i : UInt8) :
    s.slot i = .error espErrNvsNotFound := by
  unfold DirectoryFlash.slot
  split
  · exact h.1
  · exact h.2

/-- Slot A is stored and no selector is. -/
def HalfWritten (s : DirectoryFlash P) : Prop :=
  s.selector = .error espErrNvsNotFound ∧ ∃ rec, s.slotA = .ok rec

/-- The stored data between two calls: sound slots, and a selector that names a stored one
unless nothing but slot A was ever written. -/
structure Sound (k : DirectoryKind P) (s : DirectoryFlash P) : Prop where
  slots : ∀ i, DirectorySlot.Sound k (s.slot i)
  phase : s.selector = .error espErrNvsNotFound ∧ s.slotB = .error espErrNvsNotFound ∨
    ∃ v rec, v ≤ 1 ∧ s.selector = .ok v ∧ s.slot v = .ok rec

/-- What init tells apart. -/
theorem Sound.cases {s : DirectoryFlash P} (hs : s.Sound k) :
    s.BothMissing ∨ s.HalfWritten ∧ s.slotB = .error espErrNvsNotFound ∨
      ∃ v rec, v ≤ 1 ∧ s.selector = .ok v ∧ s.slot v = .ok rec := by
  rcases hs.phase with ⟨hnosel, hb⟩ | hnamed
  · rcases hs.slots 0 with ha | ⟨rec, ha, -⟩
    · exact .inl ⟨ha, hb⟩
    · exact .inr (.inl ⟨⟨hnosel, rec, ha⟩, hb⟩)
  · exact .inr (.inr hnamed)

/-- Sound data does not have a broken slot. -/
theorem Sound.not_corrupt {s : DirectoryFlash P} (hs : s.Sound k) :
    ¬ (DirectorySlot.validSlot k (s.slot 0) = none ∧ DirectorySlot.validSlot k (s.slot 1) = none ∧
      ¬ (slotMissing (s.slot 0) ∧ slotMissing (s.slot 1))) := by
  rintro ⟨ha, hb, hm⟩
  exact hm ⟨(hs.slots 0).missing_of_none ha, (hs.slots 1).missing_of_none hb⟩

theorem BothMissing.flags {s : DirectoryFlash P} (h : s.BothMissing) :
    slotMissing (s.slot 0) = true ∧ slotMissing (s.slot 1) = true := by
  rw [h.slot, h.slot]
  exact ⟨rfl, rfl⟩

end DirectoryFlash

/-- The slot of the first commit. -/
def firstRecord (k : DirectoryKind P) : DirectorySlot P := .record k 1 k.empty

/-- What a boot without a selector to repair may leave at any point: nothing, or the slot
and the selector of its own commit if both slots were missing. -/
def BootLeaves (k : DirectoryKind P) (s t : DirectoryFlash P) : Prop :=
  t = s ∨ s.BothMissing ∧ s.Leaves 0 (firstRecord k) t

/-- What init may leave at any point: also a selector, if slot A was stored without one. -/
def InitLeaves (k : DirectoryKind P) (s t : DirectoryFlash P) : Prop :=
  BootLeaves k s t ∨ s.HalfWritten ∧ t = s.select 0

/-- What an init that returns `ESP_OK` has made of the stored data `s` and the statics. -/
inductive InitLoads (k : DirectoryKind P) (s : DirectoryFlash P) :
    DirectoryRam P → DirectoryFlash P → Prop
  /-- Its own commit went through. -/
  | first {ram : DirectoryRam P} : s.BothMissing → ram = ⟨⟨k.empty, 1⟩, 0⟩ →
      InitLoads k s ram ((s.setSlot 0 (firstRecord k)).select 0)
  | selected {ram : DirectoryRam P} {v : UInt8} {rec : DirectorySlot P} : v ≤ 1 →
      s.selector = .ok v → s.slot v = .ok rec → ram = ⟨⟨rec.payload, rec.generation⟩, v⟩ →
      InitLoads k s ram s
  /-- Slot A was stored without a selector, and the selector is now written. -/
  | repaired {ram : DirectoryRam P} {rec : DirectorySlot P} : s.HalfWritten → s.slotA = .ok rec →
      ram = ⟨⟨rec.payload, rec.generation⟩, 0⟩ → InitLoads k s ram (s.select 0)

theorem InitLoads.leaves {s t : DirectoryFlash P} {ram : DirectoryRam P} (h : InitLoads k s ram t) :
    InitLeaves k s t := by
  cases h with
  | first hmissing _ => exact .inl (.inr ⟨hmissing, .inr (.inr rfl)⟩)
  | selected _ _ _ _ => exact .inl (.inl rfl)
  | repaired hhalf _ _ => exact .inr ⟨hhalf, rfl⟩

/-! ## The two directories -/

/-- A directory's statics and entry points, and what they do. -/
structure DirectorySystem (P S : Type) [DecidableEq P] where
  kind : DirectoryKind P
  ram : S → DirectoryRam P
  setRam : S → DirectoryRam P → S
  /-- `s_initialized`. -/
  started : S → Bool
  /-- Commits are taken. -/
  ready : S → Bool
  boot : S
  init : S → DirectoryProg P (EspErr × S)
  commit : S → P → UInt32 → DirectoryProg P (EspErr × S)
  ram_setRam : ∀ s r, ram (setRam s r) = r
  started_setRam : ∀ s r, started (setRam s r) = started s
  ready_setRam : ∀ s r, ready (setRam s r) = ready s
  boot_started : started boot = false
  ready_started : ∀ s, ready s = true → started s = true
  empty_valid : kind.payloadValid kind.empty = true
  commit_refused : ∀ s payload expected, ¬ (ready s = true ∧
    (ram s).CommitPrecondition kind true payload expected) →
    commit s payload expected = .ret (espErrInvalidState, s)
  commit_taken : ∀ s payload expected, ready s = true →
    (ram s).CommitPrecondition kind true payload expected →
    commit s payload expected =
      (ram s).commitLocked kind true payload expected >>= fun a => .ret (a.1, setRam s a.2)
  init_started : ∀ s, started s = true → init s = .ret (espOk, s)
  init_spec : ∀ s store, started s = false → store.Sound kind →
    (init s).wpS Call
      (fun q t => InitLeaves kind store t ∧ ∀ u, Cut q t u → InitLeaves kind store u)
      (fun a t => a.1 ≠ espOk ∧ started a.2 = false ∧ InitLeaves kind store t ∨
        a.1 = espOk ∧ started a.2 = true ∧ ready a.2 = true ∧ InitLoads kind store (ram a.2) t) store

variable [DecidableEq P] {sys : DirectorySystem P S}

/-- The stored data and the statics. -/
structure DirectoryDevice (P S : Type) where
  store : DirectoryFlash P
  statics : S

inductive DirectoryAct (P : Type)
  | init (tr : List (Σ q : DirectoryCall P, q.Answer)) (err : EspErr)
  | initCut
  | commit (payload : P) (expectedGeneration : UInt32) (err : EspErr)
  | commitCut (payload : P) (expectedGeneration : UInt32)
  | powerLoss

namespace DirectorySystem

/-- Blank flash, before the first boot. -/
def blankDevice (sys : DirectorySystem P S) : DirectoryDevice P S := ⟨.blank, sys.boot⟩

/-- What passes the checks before the first write. -/
def Accepts (sys : DirectorySystem P S) (s : S) (payload : P) (expectedGeneration : UInt32) : Prop :=
  sys.ready s = true ∧ (sys.ram s).CommitPrecondition sys.kind true payload expectedGeneration

end DirectorySystem

/-- A call of init or commit and what it returns, either of them cut off, or a power loss
between two. -/
inductive DirectoryStep (sys : DirectorySystem P S) :
    DirectoryDevice P S → DirectoryAct P → DirectoryDevice P S → Prop
  | init {d : DirectoryDevice P S} {tr : List (Σ q : DirectoryCall P, q.Answer)} {err : EspErr}
      {next : S} {t : DirectoryFlash P} :
      Prog.Exec Call (sys.init d.statics) d.store tr (err, next) t →
      DirectoryStep sys d (.init tr err) ⟨t, next⟩
  | initCut {d : DirectoryDevice P S} {t : DirectoryFlash P} :
      Prog.Crash Call Cut (sys.init d.statics) d.store t → DirectoryStep sys d .initCut ⟨t, sys.boot⟩
  | commit {d : DirectoryDevice P S} {payload : P} {expectedGeneration : UInt32}
      {tr : List (Σ q : DirectoryCall P, q.Answer)} {err : EspErr} {next : S} {t : DirectoryFlash P} :
      Prog.Exec Call (sys.commit d.statics payload expectedGeneration) d.store tr (err, next) t →
      DirectoryStep sys d (.commit payload expectedGeneration err) ⟨t, next⟩
  | commitCut {d : DirectoryDevice P S} {payload : P} {expectedGeneration : UInt32}
      {t : DirectoryFlash P} :
      Prog.Crash Call Cut (sys.commit d.statics payload expectedGeneration) d.store t →
      DirectoryStep sys d (.commitCut payload expectedGeneration) ⟨t, sys.boot⟩
  | powerLoss {d : DirectoryDevice P S} : DirectoryStep sys d .powerLoss ⟨d.store, sys.boot⟩

abbrev DirectoryMove (P S : Type) := Move (DirectoryDevice P S) (DirectoryAct P)

/-- A first boot: an init that commits the empty payload. -/
def DirectoryMove.FirstBoot (sys : DirectorySystem P S) (m : DirectoryMove P S) : Prop :=
  sys.started m.pre.statics = false ∧ m.pre.store.BothMissing

/-- A first boot stopped between its two writes. -/
def DirectoryMove.CutShort (sys : DirectorySystem P S) (m : DirectoryMove P S) : Prop :=
  m.FirstBoot sys ∧ m.post.store.HalfWritten

/-- A commit of `payload` past its checks, whatever becomes of it. -/
def Tries (sys : DirectorySystem P S) (payload : P) (m : DirectoryMove P S) : Prop :=
  match m.ev with
  | .init _ _ | .initCut => DirectoryMove.FirstBoot sys m ∧ payload = sys.kind.empty
  | .commit p expectedGeneration _ | .commitCut p expectedGeneration =>
    payload = p ∧ sys.Accepts m.pre.statics p expectedGeneration
  | .powerLoss => False

/-- A commit that returns `ESP_OK`. -/
def Acknowledged (sys : DirectorySystem P S) (m : DirectoryMove P S) : Prop :=
  match m.ev with
  | .init _ err => DirectoryMove.FirstBoot sys m ∧ err = espOk
  | .commit _ _ err => err = espOk
  | _ => False

/-- The payload of the last commit that returned `ESP_OK`, or of one interrupted since. -/
def LastTriedIn (sys : DirectorySystem P S) (payload : P) (ms : List (DirectoryMove P S)) : Prop :=
  Since (Tries sys payload) (Acknowledged sys) ms

/-! ## The invariant -/

/-- The snapshot is kept in the active slot. -/
def Held (sys : DirectorySystem P S) (d : DirectoryDevice P S) (rec : DirectorySlot P) : Prop :=
  (sys.ram d.statics).activeSlot ≤ 1 ∧ d.store.slot (sys.ram d.statics).activeSlot = .ok rec ∧
    (sys.ram d.statics).snapshot = ⟨rec.payload, rec.generation⟩

/-- What holds after the moves `ms` from blank flash. -/
structure DirectoryInv (sys : DirectorySystem P S) (d : DirectoryDevice P S)
    (ms : List (DirectoryMove P S)) : Prop where
  slots : ∀ i, DirectorySlot.Sound sys.kind (d.store.slot i)
  ready : sys.started d.statics = true → sys.ready d.statics = true
  held : sys.started d.statics = true → ∃ rec, Held sys d rec ∧ LastTriedIn sys rec.payload ms
  phase :
    d.store.selector = .error espErrNvsNotFound ∧ d.store.slotB = .error espErrNvsNotFound ∧
      sys.started d.statics = false ∧
      (∀ rec, d.store.slotA = .ok rec → LastTriedIn sys rec.payload ms) ∨
    ∃ v rec, v ≤ 1 ∧ d.store.selector = .ok v ∧ d.store.slot v = .ok rec ∧
      LastTriedIn sys rec.payload ms

variable {d e : DirectoryDevice P S} {ms : List (DirectoryMove P S)} {act : DirectoryAct P}

theorem DirectoryInv.sound (h : DirectoryInv sys d ms) : d.store.Sound sys.kind := by
  refine ⟨h.slots, ?_⟩
  rcases h.phase with ⟨hsel, hb, -⟩ | ⟨v, rec, hv, hsel, hrec, -⟩
  · exact .inl ⟨hsel, hb⟩
  · exact .inr ⟨v, rec, hv, hsel, hrec⟩

theorem DirectoryInv.generation_ne_zero {rec : DirectorySlot P} (h : DirectoryInv sys d ms)
    (hrec : Held sys d rec) : (sys.ram d.statics).snapshot.generation ≠ 0 := by
  obtain ⟨-, hslot, hsnap⟩ := hrec
  rw [hsnap]
  rcases h.slots (sys.ram d.statics).activeSlot with hmissing | ⟨rec', hrec', hv⟩
  · cases hslot.symm.trans hmissing
  · cases hslot.symm.trans hrec'
    exact (DirectorySlot.eq_record hv).2.1

/-- The statics of a step that does not go through: those of before, or a stopped firmware. -/
def Kept (sys : DirectorySystem P S) (s next : S) : Prop :=
  sys.started next = true →
    sys.started s = true ∧ sys.ready next = true ∧ sys.ram next = sys.ram s

theorem Kept.stopped {s next : S} (h : sys.started next = false) : Kept sys s next := by
  intro hs
  rw [h] at hs
  cases hs

theorem Kept.boot {s : S} : Kept sys s sys.boot := .stopped sys.boot_started

/-- What is held survives a step that changes neither the slot nor the snapshot. -/
theorem Held.kept {rec : DirectorySlot P} (h : Held sys d rec)
    (hram : sys.ram e.statics = sys.ram d.statics)
    (hslot : e.store.slot (sys.ram d.statics).activeSlot =
      d.store.slot (sys.ram d.statics).activeSlot) : Held sys e rec := by
  obtain ⟨hi, hrec, hsnap⟩ := h
  unfold Held
  rw [hram, hslot]
  exact ⟨hi, hrec, hsnap⟩

/-- A step that leaves the stored data alone and is no commit that goes through. -/
theorem DirectoryInv.same (h : DirectoryInv sys d ms) (hstore : e.store = d.store)
    (hack : ¬ Acknowledged sys ⟨d, act, e⟩) (hkept : Kept sys d.statics e.statics) :
    DirectoryInv sys e (ms ++ [⟨d, act, e⟩]) := by
  refine ⟨fun i => hstore ▸ h.slots i, fun hs => (hkept hs).2.1, fun hs => ?_, ?_⟩
  · obtain ⟨hd, -, hram⟩ := hkept hs
    obtain ⟨rec, hheld, hlast⟩ := h.held hd
    exact ⟨rec, hheld.kept hram (by rw [hstore]), hlast.append hack⟩
  · rw [hstore]
    rcases h.phase with ⟨hsel, hb, hd, ha⟩ | ⟨v, rec, hv, hsel, hrec, hlast⟩
    · refine .inl ⟨hsel, hb, ?_, fun rec hrec => (ha rec hrec).append hack⟩
      by_contra hs
      have := (hkept (by simpa using hs)).1
      rw [hd] at this
      cases this
    · exact .inr ⟨v, rec, hv, hsel, hrec, hlast.append hack⟩

/-- The stored data on slot `i` with the record of this step. -/
theorem DirectoryInv.selected {i : UInt8} {slot : DirectorySlot P} (h : DirectoryInv sys d ms)
    (hstore : e.store = (d.store.setSlot i slot).select i) (hi : i ≤ 1)
    (hv : slot.valid sys.kind = true) (htries : Tries sys slot.payload ⟨d, act, e⟩)
    (hready : sys.started e.statics = true → sys.ready e.statics = true)
    (hheld : sys.started e.statics = true →
      ∃ rec, Held sys e rec ∧ LastTriedIn sys rec.payload (ms ++ [⟨d, act, e⟩])) :
    DirectoryInv sys e (ms ++ [⟨d, act, e⟩]) := by
  refine ⟨fun j => ?_, hready, hheld, .inr ⟨i, slot, hi, ?_, ?_, .now htries⟩⟩
  · rw [hstore]
    exact DirectorySlot.sound_setSlot h.slots hv j
  · rw [hstore]
    rfl
  · rw [hstore, slot_select, DirectoryFlash.slot_setSlot]

/-- A commit past its checks that does not go through, wherever it stops. -/
theorem DirectoryInv.leaves {payload : P} {expectedGeneration : UInt32} (h : DirectoryInv sys d ms)
    (haccepts : sys.Accepts d.statics payload expectedGeneration)
    (hl : d.store.Leaves (sys.ram d.statics).target ((sys.ram d.statics).record sys.kind payload)
      e.store)
    (htries : Tries sys payload ⟨d, act, e⟩) (hack : ¬ Acknowledged sys ⟨d, act, e⟩)
    (hkept : Kept sys d.statics e.statics) : DirectoryInv sys e (ms ++ [⟨d, act, e⟩]) := by
  have hstarted := sys.ready_started _ haccepts.1
  obtain ⟨rec, hrec, hlast⟩ := h.held hstarted
  have hvalid := DirectoryRam.record_valid (sys.ram d.statics) haccepts.2.2.1
  have htarget : (sys.ram d.statics).target ≤ 1 := DirectoryRam.target_le hrec.1
  have hne : (sys.ram d.statics).activeSlot ≠ (sys.ram d.statics).target :=
    (DirectoryRam.target_ne hrec.1 (h.generation_ne_zero hrec)).symm
  have hready : sys.started e.statics = true → sys.ready e.statics = true := fun hs => (hkept hs).2.1
  -- the commit writes the other slot, so what is held stays
  have hheld (hslot : e.store.slot (sys.ram d.statics).activeSlot =
      d.store.slot (sys.ram d.statics).activeSlot) (hs : sys.started e.statics = true) :
      ∃ rec, Held sys e rec ∧ LastTriedIn sys rec.payload (ms ++ [⟨d, act, e⟩]) :=
    ⟨rec, hrec.kept (hkept hs).2.2 hslot, hlast.append hack⟩
  rcases hl with hs | hs | hs
  · exact h.same hs hack hkept
  · refine ⟨fun i => hs ▸ DirectorySlot.sound_setSlot h.slots hvalid i, hready, hheld ?_, .inr ?_⟩
    · rw [hs, slot_setSlot_of_ne _ htarget hrec.1 hne]
    · rcases h.phase with ⟨-, -, hd, -⟩ | ⟨v, vrec, hv, hsel, hvrec, hvlast⟩
      · rw [hd] at hstarted
        cases hstarted
      rw [hs, setSlot_selector]
      by_cases hvt : v = (sys.ram d.statics).target
      · refine ⟨v, (sys.ram d.statics).record sys.kind payload, hv, hsel, ?_, .now htries⟩
        rw [hvt, DirectoryFlash.slot_setSlot]
      · refine ⟨v, vrec, hv, hsel, ?_, hvlast.append hack⟩
        rw [slot_setSlot_of_ne _ htarget hv hvt]
        exact hvrec
  · refine h.selected hs htarget hvalid htries hready (hheld ?_)
    rw [hs, slot_select, slot_setSlot_of_ne _ htarget hrec.1 hne]

theorem firstRecord_valid (sys : DirectorySystem P S) : (firstRecord sys.kind).valid sys.kind = true :=
  DirectorySlot.record_valid (by decide) sys.empty_valid

/-- An init that fails or is cut off, wherever it stops. -/
theorem DirectoryInv.initLeaves (h : DirectoryInv sys d ms)
    (hl : InitLeaves sys.kind d.store e.store)
    (htries : DirectoryMove.FirstBoot sys ⟨d, act, e⟩ → Tries sys sys.kind.empty ⟨d, act, e⟩)
    (hack : ¬ Acknowledged sys ⟨d, act, e⟩) (hd : sys.started d.statics = false)
    (he : sys.started e.statics = false) : DirectoryInv sys e (ms ++ [⟨d, act, e⟩]) := by
  have hnot {p : Prop} (hs : sys.started e.statics = true) : p := by
    rw [he] at hs
    cases hs
  rcases hl with (hs | ⟨hmissing, hs | hs | hs⟩) | ⟨⟨hnosel, rec, hrec⟩, hs⟩
  · exact h.same hs hack (.stopped he)
  · exact h.same hs hack (.stopped he)
  · refine ⟨fun i => hs ▸ DirectorySlot.sound_setSlot h.slots (firstRecord_valid sys) i, hnot, hnot, .inl ?_⟩
    have hnosel : d.store.selector = .error espErrNvsNotFound := by
      rcases h.phase with ⟨hsel, -⟩ | ⟨v, rec, hv, -, hrec, -⟩
      · exact hsel
      · cases (hmissing.slot v).symm.trans hrec
    rw [hs]
    refine ⟨hnosel, hmissing.2, he, ?_⟩
    rintro _ ⟨⟩
    exact .now (htries ⟨hd, hmissing⟩)
  · exact h.selected hs (by decide) (firstRecord_valid sys) (htries ⟨hd, hmissing⟩) hnot hnot
  · have hlast : LastTriedIn sys rec.payload ms := by
      rcases h.phase with ⟨-, -, -, ha⟩ | ⟨v, vrec, -, hsel, -, -⟩
      · exact ha rec hrec
      · cases hnosel.symm.trans hsel
    refine ⟨fun i => ?_, hnot, hnot, .inr ⟨0, rec, by decide, ?_, ?_, hlast.append hack⟩⟩
    · rw [hs, slot_select]
      exact h.slots i
    · rw [hs]
      rfl
    · rw [hs]
      exact hrec

/-- An init that goes through. -/
theorem DirectoryInv.loads {tr : List (Σ q : DirectoryCall P, q.Answer)} (h : DirectoryInv sys d ms)
    (hl : InitLoads sys.kind d.store (sys.ram e.statics) e.store)
    (hd : sys.started d.statics = false) (hready : sys.ready e.statics = true) :
    DirectoryInv sys e (ms ++ [⟨d, .init tr espOk, e⟩]) := by
  obtain ⟨store, statics⟩ := e
  dsimp only at hl hready ⊢
  generalize hram : sys.ram statics = ram at hl
  cases hl with
  | first hmissing heq =>
    have htries (t : DirectoryFlash P) : Tries sys sys.kind.empty ⟨d, .init tr espOk, ⟨t, statics⟩⟩ :=
      ⟨⟨hd, hmissing⟩, rfl⟩
    refine h.selected rfl (by decide) (firstRecord_valid sys) (htries _) (fun _ => hready)
      fun _ => ⟨firstRecord sys.kind, ⟨?_, ?_, ?_⟩, .now (htries _)⟩
    all_goals rw [hram, heq]
    · show (0 : UInt8) ≤ 1
      decide
    · rfl
    · rfl
  | @selected v rec hv hsel hrec heq =>
    have hlast : LastTriedIn sys rec.payload ms := by
      rcases h.phase with ⟨hnosel, -⟩ | ⟨w, wrec, -, hw, hwrec, hlast⟩
      · cases hnosel.symm.trans hsel
      · cases hw.symm.trans hsel
        cases hwrec.symm.trans hrec
        exact hlast
    have hack : ¬ Acknowledged sys ⟨d, .init tr espOk, ⟨d.store, statics⟩⟩ := by
      rintro ⟨⟨-, hmissing⟩, -⟩
      cases (hmissing.slot v).symm.trans hrec
    refine ⟨h.slots, fun _ => hready, fun _ => ⟨rec, ⟨?_, ?_, ?_⟩, hlast.append hack⟩,
      .inr ⟨v, rec, hv, hsel, hrec, hlast.append hack⟩⟩
    all_goals rw [hram, heq]
    · exact hv
    · exact hrec
  | @repaired rec hhalf hrec heq =>
    have hlast : LastTriedIn sys rec.payload ms := by
      rcases h.phase with ⟨-, -, -, ha⟩ | ⟨v, vrec, -, hsel, -, -⟩
      · exact ha rec hrec
      · cases hhalf.1.symm.trans hsel
    have hack : ¬ Acknowledged sys ⟨d, .init tr espOk, ⟨d.store.select 0, statics⟩⟩ := by
      rintro ⟨⟨-, hmissing⟩, -⟩
      cases hmissing.1.symm.trans hrec
    refine ⟨h.slots, fun _ => hready, fun _ => ⟨rec, ⟨?_, ?_, ?_⟩, hlast.append hack⟩,
      .inr ⟨0, rec, by decide, rfl, hrec, hlast.append hack⟩⟩
    all_goals rw [hram, heq]
    · show (0 : UInt8) ≤ 1
      decide
    · exact hrec

/-- A commit refused. -/
theorem DirectorySystem.commit_error {s : S} {payload : P} {expectedGeneration : UInt32}
    (h : ¬ sys.Accepts s payload expectedGeneration) :
    sys.commit s payload expectedGeneration = .ret (espErrInvalidState, s) :=
  sys.commit_refused s payload expectedGeneration h

/-- **A commit of a directory at every point.** -/
theorem DirectorySystem.commit_spec {s : S} {payload : P} {expectedGeneration : UInt32}
    (h : sys.Accepts s payload expectedGeneration) (store : DirectoryFlash P) :
    (sys.commit s payload expectedGeneration).wpS Call
      (fun q t => store.Leaves (sys.ram s).target ((sys.ram s).record sys.kind payload) t ∧
        ∀ u, Cut q t u → store.Leaves (sys.ram s).target ((sys.ram s).record sys.kind payload) u)
      (fun a t => a.1 ≠ espOk ∧ a.2 = sys.setRam s (sys.ram s) ∧
          store.Leaves (sys.ram s).target ((sys.ram s).record sys.kind payload) t ∨
        a = (espOk, sys.setRam s ((sys.ram s).committed payload)) ∧
          t = (store.setSlot (sys.ram s).target ((sys.ram s).record sys.kind payload)).select
            (sys.ram s).target) store := by
  rw [sys.commit_taken s payload expectedGeneration h.1 h.2, Prog.wpS_bind]
  refine Prog.wpS_mono (fun _ _ h => h) ?_ _ _ (DirectoryRam.commitLocked_spec h.2 store)
  rintro ⟨err, ram⟩ t (⟨herr, rfl, hl⟩ | ⟨heq, ht⟩)
  · exact .inl ⟨herr, rfl, hl⟩
  · cases heq
    exact .inr ⟨rfl, ht⟩

theorem Kept.same {s : S} (h : sys.started s = true → sys.ready s = true) : Kept sys s s :=
  fun hs => ⟨hs, h hs, rfl⟩

/-- What a step can do. -/
inductive DirectoryEffect (sys : DirectorySystem P S) (d : DirectoryDevice P S) (act : DirectoryAct P)
    (e : DirectoryDevice P S) : Prop
  /-- Nothing: a second init, a refused commit, a power loss. -/
  | same : e.store = d.store → ¬ Acknowledged sys ⟨d, act, e⟩ → Kept sys d.statics e.statics →
      DirectoryEffect sys d act e
  | initStops : InitLeaves sys.kind d.store e.store →
      (DirectoryMove.FirstBoot sys ⟨d, act, e⟩ → Tries sys sys.kind.empty ⟨d, act, e⟩) →
      ¬ Acknowledged sys ⟨d, act, e⟩ → sys.started d.statics = false →
      sys.started e.statics = false → DirectoryEffect sys d act e
  | initLoads {tr : List (Σ q : DirectoryCall P, q.Answer)} : act = .init tr espOk →
      sys.started d.statics = false → sys.started e.statics = true → sys.ready e.statics = true →
      InitLoads sys.kind d.store (sys.ram e.statics) e.store → DirectoryEffect sys d act e
  | commitStops {payload : P} {expectedGeneration : UInt32} :
      sys.Accepts d.statics payload expectedGeneration →
      d.store.Leaves (sys.ram d.statics).target ((sys.ram d.statics).record sys.kind payload) e.store →
      Tries sys payload ⟨d, act, e⟩ → ¬ Acknowledged sys ⟨d, act, e⟩ →
      Kept sys d.statics e.statics → DirectoryEffect sys d act e
  | commits {payload : P} {expectedGeneration : UInt32} :
      act = .commit payload expectedGeneration espOk →
      sys.Accepts d.statics payload expectedGeneration →
      e.store = (d.store.setSlot (sys.ram d.statics).target
        ((sys.ram d.statics).record sys.kind payload)).select (sys.ram d.statics).target →
      e.statics = sys.setRam d.statics ((sys.ram d.statics).committed payload) →
      DirectoryEffect sys d act e

theorem DirectoryStep.effect (hs : DirectoryStep sys d act e) (hsound : d.store.Sound sys.kind)
    (hready : sys.started d.statics = true → sys.ready d.statics = true) :
    DirectoryEffect sys d act e := by
  cases hs with
  | @init tr err next t hr =>
    cases hd : sys.started d.statics with
    | true =>
      rw [sys.init_started _ hd] at hr
      cases hr
      refine .same rfl ?_ (.same hready)
      rintro ⟨⟨hstopped, -⟩, -⟩
      cases hd.symm.trans hstopped
    | false =>
      rcases hr.of_wpS (sys.init_spec _ _ hd hsound) with ⟨herr, he, hl⟩ | ⟨rfl, he, hr, hl⟩
      · exact .initStops hl (fun hf => ⟨hf, rfl⟩) (fun hack => herr hack.2) hd he
      · exact .initLoads rfl hd he hr hl
  | @initCut t hr =>
    cases hd : sys.started d.statics with
    | true =>
      rw [sys.init_started _ hd] at hr
      cases hr
      exact .same rfl id .boot
    | false =>
      refine .initStops (hr.of_wpS (Prog.wpS_mono (fun _ _ h => h) ?_ _ _
        (sys.init_spec _ _ hd hsound))) (fun hf => ⟨hf, rfl⟩) id hd sys.boot_started
      rintro a u (⟨-, -, hl⟩ | ⟨-, -, -, hl⟩)
      · exact hl
      · exact hl.leaves
  | @commit payload expectedGeneration tr err next t hr =>
    by_cases haccepts : sys.Accepts d.statics payload expectedGeneration
    · rcases hr.of_wpS (sys.commit_spec haccepts d.store) with ⟨herr, rfl, hl⟩ | ⟨heq, ht⟩
      · refine .commitStops haccepts hl ⟨rfl, haccepts⟩ herr fun _ =>
          ⟨sys.ready_started _ haccepts.1, ?_, sys.ram_setRam _ _⟩
        rw [sys.ready_setRam]
        exact haccepts.1
      · cases heq
        exact .commits rfl haccepts ht rfl
    · rw [DirectorySystem.commit_error haccepts] at hr
      cases hr
      exact .same rfl nofun (.same hready)
  | @commitCut payload expectedGeneration t hr =>
    by_cases haccepts : sys.Accepts d.statics payload expectedGeneration
    · refine .commitStops haccepts (hr.of_wpS (Prog.wpS_mono (fun _ _ h => h) ?_ _ _
        (sys.commit_spec haccepts d.store))) ⟨rfl, haccepts⟩ id .boot
      rintro a u (⟨-, -, hl⟩ | ⟨-, rfl⟩)
      · exact hl
      · exact .inr (.inr rfl)
    · rw [DirectorySystem.commit_error haccepts] at hr
      cases hr
      exact .same rfl id .boot
  | powerLoss => exact .same rfl id .boot

theorem DirectoryInv.effect (h : DirectoryInv sys d ms) (hs : DirectoryStep sys d act e) :
    DirectoryEffect sys d act e :=
  hs.effect h.sound h.ready

/-- A commit that goes through. -/
theorem DirectoryInv.commits {payload : P} {expectedGeneration : UInt32} (h : DirectoryInv sys d ms)
    (haccepts : sys.Accepts d.statics payload expectedGeneration)
    (hstore : e.store = (d.store.setSlot (sys.ram d.statics).target
      ((sys.ram d.statics).record sys.kind payload)).select (sys.ram d.statics).target)
    (hstatics : e.statics = sys.setRam d.statics ((sys.ram d.statics).committed payload)) :
    DirectoryInv sys e (ms ++ [⟨d, .commit payload expectedGeneration espOk, e⟩]) := by
  obtain ⟨rec, hheld, -⟩ := h.held (sys.ready_started _ haccepts.1)
  have htarget := DirectoryRam.target_le hheld.1
  have htries : Tries sys payload ⟨d, .commit payload expectedGeneration espOk, e⟩ :=
    ⟨rfl, haccepts⟩
  refine h.selected hstore htarget (DirectoryRam.record_valid _ haccepts.2.2.1) htries (fun _ => ?_)
    fun _ => ⟨(sys.ram d.statics).record sys.kind payload, ⟨?_, ?_, ?_⟩, .now htries⟩
  · rw [hstatics, sys.ready_setRam]
    exact haccepts.1
  all_goals rw [hstatics, sys.ram_setRam]
  · exact htarget
  · rw [hstore, slot_select]
    exact DirectoryFlash.slot_setSlot _ _ _
  · rfl

/-- **Every step keeps the invariant.** -/
theorem DirectoryInv.step (h : DirectoryInv sys d ms) (hs : DirectoryStep sys d act e) :
    DirectoryInv sys e (ms ++ [⟨d, act, e⟩]) := by
  cases h.effect hs with
  | same hstore hack hkept => exact h.same hstore hack hkept
  | initStops hl htries hack hd he => exact h.initLeaves hl htries hack hd he
  | initLoads hact hd _ hready hl =>
    subst hact
    exact h.loads hl hd hready
  | commitStops haccepts hl htries hack hkept => exact h.leaves haccepts hl htries hack hkept
  | commits hact haccepts hstore hstatics =>
    subst hact
    exact h.commits haccepts hstore hstatics

/-- Only a first boot leaves slot A without a selector. -/
theorem DirectoryInv.half_of_half (h : DirectoryInv sys d ms) (hs : DirectoryStep sys d act e)
    (he : e.store.HalfWritten) :
    d.store.HalfWritten ∨ DirectoryMove.FirstBoot sys ⟨d, act, e⟩ := by
  cases h.effect hs with
  | same hstore _ _ => exact .inl (hstore ▸ he)
  | initStops hl _ _ hd _ =>
    rcases hl with (hsame | ⟨hmissing, -⟩) | ⟨hhalf, -⟩
    · exact .inl (hsame ▸ he)
    · exact .inr ⟨hd, hmissing⟩
    · exact .inl hhalf
  | initLoads _ hd _ _ hl =>
    obtain ⟨store, statics⟩ := e
    dsimp only at hl he
    cases hl with
    | first hmissing _ => exact .inr ⟨hd, hmissing⟩
    | selected _ _ _ _ => exact .inl he
    | repaired hhalf _ _ => exact .inl hhalf
  | commitStops haccepts hl _ _ _ =>
    -- after a first boot there is a selector, and it stays
    rcases h.phase with ⟨-, -, hd, -⟩ | ⟨v, rec, -, hsel, -, -⟩
    · cases hd.symm.trans (sys.ready_started _ haccepts.1)
    · have hnosel := he.1
      rcases hl with heq | heq | heq <;> rw [heq] at hnosel
      · cases hsel.symm.trans hnosel
      · rw [setSlot_selector] at hnosel
        cases hsel.symm.trans hnosel
      · cases hnosel
  | commits _ _ hstore _ =>
    have hnosel := he.1
    rw [hstore] at hnosel
    cases hnosel

theorem DirectoryInv.stopped_of_half (h : DirectoryInv sys d ms) (hhalf : d.store.HalfWritten) :
    sys.started d.statics = false := by
  rcases h.phase with ⟨-, -, hd, -⟩ | ⟨v, rec, -, hsel, -, -⟩
  · exact hd
  · cases hhalf.1.symm.trans hsel

/-- An init that returns `ESP_OK` has loaded the payload committed last or one tried since,
and keeps it in the active slot. -/
theorem DirectoryInv.init_ok {tr : List (Σ q : DirectoryCall P, q.Answer)} {next : S}
    {t : DirectoryFlash P} (h : DirectoryInv sys d ms)
    (hr : Prog.Exec Call (sys.init d.statics) d.store tr (espOk, next) t) :
    sys.started next = true ∧
      LastTriedIn sys (sys.ram next).snapshot.payload (ms ++ [⟨d, .init tr espOk, ⟨t, next⟩⟩]) := by
  have hstarted : sys.started next = true := by
    cases hd : sys.started d.statics with
    | true =>
      rw [sys.init_started _ hd] at hr
      cases hr
      exact hd
    | false =>
      rcases hr.of_wpS (sys.init_spec _ _ hd h.sound) with ⟨hne, -⟩ | ⟨-, hn, -⟩
      · exact absurd rfl hne
      · exact hn
  obtain ⟨rec, ⟨-, -, hsnap⟩, hlast⟩ := (h.step (.init hr)).held hstarted
  refine ⟨hstarted, ?_⟩
  rw [show (sys.ram next).snapshot = ⟨rec.payload, rec.generation⟩ from hsnap]
  exact hlast

/-- No step from a started directory writes the slot the snapshot is kept in. -/
theorem DirectoryInv.slot_kept (h : DirectoryInv sys d ms) (hs : DirectoryStep sys d act e)
    (hstarted : sys.started d.statics = true) :
    e.store.slot (sys.ram d.statics).activeSlot = d.store.slot (sys.ram d.statics).activeSlot := by
  obtain ⟨rec, hheld, -⟩ := h.held hstarted
  have htarget : (sys.ram d.statics).target ≤ 1 := DirectoryRam.target_le hheld.1
  have hne : (sys.ram d.statics).activeSlot ≠ (sys.ram d.statics).target :=
    (DirectoryRam.target_ne hheld.1 (h.generation_ne_zero hheld)).symm
  cases h.effect hs with
  | same hstore _ _ => rw [hstore]
  | initStops _ _ _ hd _ => cases hd.symm.trans hstarted
  | initLoads _ hd _ _ _ => cases hd.symm.trans hstarted
  | commitStops _ hl _ _ _ =>
    rcases hl with heq | heq | heq <;> rw [heq]
    · exact slot_setSlot_of_ne _ htarget hheld.1 hne _
    · exact slot_setSlot_of_ne _ htarget hheld.1 hne _
  | commits _ _ hstore _ =>
    rw [hstore, slot_select]
    exact slot_setSlot_of_ne _ htarget hheld.1 hne _

theorem blankDevice_inv (sys : DirectorySystem P S) : DirectoryInv sys sys.blankDevice [] := by
  have hnot {p : Prop} (hs : sys.started sys.boot = true) : p := by
    rw [sys.boot_started] at hs
    cases hs
  refine ⟨fun i => .inl ?_, hnot, hnot, .inl ⟨rfl, rfl, sys.boot_started, nofun⟩⟩
  exact BothMissing.slot ⟨rfl, rfl⟩ i

theorem directory_run_inv (h : IsRun (DirectoryStep sys) sys.blankDevice ms) :
    DirectoryInv sys (final sys.blankDevice ms) ms :=
  h.inv_past (blankDevice_inv sys) fun _ _ hi hs => hi.step hs

end Argus
