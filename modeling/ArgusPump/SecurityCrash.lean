import ArgusPump.SecurityStore
import ArgusPump.Lib.Run

/-!
# Power loss in the security store

Boots and commits from blank flash in any order, each cut off anywhere and with writes
that may fail, every write atomic (`SecurityStep`).  A commit writes its slot and then the
selector (`SecurityFlash.Leaves`), so the slot the selector names is always valid
(`SecurityInv`).  The one state that init calls corrupt is a slot without a selector: the
first commit stopped between its two writes.

    run from blank, next init → corrupt, or a payload committed or tried since the last
      commit that returned ESP_OK                                (security_store_crash)
-/

namespace Argus

open Interact

/-! ## The stored data -/

/-- What each read of the driver finds. -/
structure SecurityFlash where
  slotA : Except EspErr SecuritySlot
  slotB : Except EspErr SecuritySlot
  selector : Except EspErr UInt8

namespace SecurityFlash

def blank : SecurityFlash :=
  ⟨.error espErrNvsNotFound, .error espErrNvsNotFound, .error espErrNvsNotFound⟩

def slot (s : SecurityFlash) (i : UInt8) : Except EspErr SecuritySlot :=
  if i = 0 then s.slotA else s.slotB

def setSlot (s : SecurityFlash) (i : UInt8) (slot : SecuritySlot) : SecurityFlash :=
  if i = 0 then { s with slotA := .ok slot } else { s with slotB := .ok slot }

/-- Reads find what is stored; a write takes effect, or reports a failure and changes
nothing.  One that reports a failure may still have taken effect. -/
def Call : (q : SecurityCall) → SecurityFlash → q.Answer → SecurityFlash → Prop
  | .readSlot i, s, r, t => r = s.slot i ∧ t = s
  | .writeSlot i slot, s, r, t => t = s.setSlot i slot ∨ r ≠ espOk ∧ t = s
  | .readSelector, s, r, t => r = s.selector ∧ t = s
  | .writeSelector v, s, r, t => t = { s with selector := .ok v } ∨ r ≠ espOk ∧ t = s

def Cut (q : SecurityCall) (s t : SecurityFlash) : Prop := ∃ r, Call q s r t

/-- A driver none of whose calls fails. -/
def ideal : (q : SecurityCall) → SecurityFlash → q.Answer × SecurityFlash
  | .readSlot i, s => (s.slot i, s)
  | .writeSlot i slot, s => (espOk, s.setSlot i slot)
  | .readSelector, s => (s.selector, s)
  | .writeSelector v, s => (espOk, { s with selector := .ok v })

theorem ideal_call (q : SecurityCall) (s : SecurityFlash) : Call q s (ideal q s).1 (ideal q s).2 := by
  cases q with
  | readSlot i => exact ⟨rfl, rfl⟩
  | writeSlot i slot => exact .inl rfl
  | readSelector => exact ⟨rfl, rfl⟩
  | writeSelector v => exact .inl rfl

@[simp] theorem slot_setSlot (s : SecurityFlash) (i : UInt8) (slot : SecuritySlot) :
    (s.setSlot i slot).slot i = .ok slot := by
  unfold setSlot SecurityFlash.slot
  split <;> rfl

@[simp] theorem setSlot_selector (s : SecurityFlash) (i : UInt8) (slot : SecuritySlot) :
    (s.setSlot i slot).selector = s.selector := by
  unfold setSlot
  split <;> rfl

theorem slot_setSlot_of_ne (s : SecurityFlash) {i j : UInt8} (hi : i ≤ 1) (hj : j ≤ 1) (hne : j ≠ i)
    (slot : SecuritySlot) : (s.setSlot i slot).slot j = s.slot j := by
  rcases eq_zero_or_one hi with rfl | rfl <;> rcases eq_zero_or_one hj with rfl | rfl
  · exact absurd rfl hne
  · rfl
  · rfl
  · exact absurd rfl hne

/-- What a commit of `slot` to `i` leaves at any point. -/
def Leaves (s : SecurityFlash) (i : UInt8) (slot : SecuritySlot) (t : SecurityFlash) : Prop :=
  t = s ∨ t = s.setSlot i slot ∨ t = { s.setSlot i slot with selector := .ok i }

end SecurityFlash

open SecurityFlash

/-! ## The commit -/

namespace SecurityCore

variable {core : SecurityCore} {payload : SecurityPayload}

theorem nextGeneration_ne_zero (core : SecurityCore) : core.nextGeneration ≠ 0 := by
  unfold nextGeneration
  split
  · decide
  · next h => exact h

/-- The record a commit of `payload` writes. -/
def record (core : SecurityCore) (payload : SecurityPayload) : SecuritySlot :=
  .current core.nextGeneration payload

theorem record_valid (h : ¬ core.Refuses payload) : (core.record payload).currentValid = true := by
  refine SecuritySlot.current_valid core.nextGeneration_ne_zero ?_
  by_contra hv
  exact h (.inl (by simpa using hv))

/-- The read-back finds the record as it was written. -/
theorem readback_ok (h : ¬ core.Refuses payload) :
    ¬ ((core.record payload).currentValid = false ∨
      core.record payload ≠ .current core.nextGeneration payload) := by
  rintro (hv | hne)
  · rw [record_valid h] at hv
    cases hv
  · exact hne rfl

/-- **A commit at every point.**  It leaves nothing, its slot, or its slot and the
selector, and `ESP_OK` means the last. -/
theorem commit_spec (h : ¬ core.Refuses payload) (s : SecurityFlash) :
    (core.commit payload).wpS Call
      (fun q t => s.Leaves core.target (core.record payload) t ∧
        ∀ u, Cut q t u → s.Leaves core.target (core.record payload) u)
      (fun a t => a.1 ≠ espOk ∧ a.2 = core ∧ s.Leaves core.target (core.record payload) t ∨
        a = (espOk, core.committed payload) ∧
          t = { s.setSlot core.target (core.record payload) with selector := .ok core.target }) s := by
  have hslot {r : EspErr} {t : SecurityFlash}
      (ht : Call (.writeSlot core.target (core.record payload)) s r t) :
      s.Leaves core.target (core.record payload) t := by
    rcases ht with rfl | ⟨-, rfl⟩
    · exact .inr (.inl rfl)
    · exact .inl rfl
  unfold commit
  rw [if_neg h]
  refine ⟨⟨.inl rfl, fun u ⟨r, hu⟩ => hslot hu⟩, fun r t ht => ?_⟩
  beta_reduce
  split
  · next hr => exact .inl ⟨hr, rfl, hslot ht⟩
  · next hr =>
    have hwritten : t = s.setSlot core.target (core.record payload) := ht.resolve_right fun h => h.1 (not_not.mp hr)
    subst hwritten
    refine ⟨⟨.inr (.inl rfl), ?_⟩, ?_⟩
    · rintro u ⟨r, -, rfl⟩
      exact .inr (.inl rfl)
    rintro _ _ ⟨rfl, rfl⟩
    rw [SecurityFlash.slot_setSlot]
    dsimp only
    rw [if_neg (readback_ok h)]
    have hsel {r : EspErr} {t : SecurityFlash} (ht : Call (.writeSelector core.target)
        (s.setSlot core.target (core.record payload)) r t) :
        s.Leaves core.target (core.record payload) t := by
      rcases ht with rfl | ⟨-, rfl⟩
      · exact .inr (.inr rfl)
      · exact .inr (.inl rfl)
    refine ⟨⟨.inr (.inl rfl), fun u ⟨r, hu⟩ => hsel hu⟩, fun r t ht => ?_⟩
    beta_reduce
    split
    · next hr => exact .inl ⟨hr, rfl, hsel ht⟩
    · next hr => exact .inr ⟨rfl, ht.resolve_right fun h => h.1 (not_not.mp hr)⟩

theorem commit_refused (h : core.Refuses payload) :
    core.commit payload = .ret (espErrInvalidState, core) := if_pos h

/-- A commit all of whose calls succeed is accepted. -/
theorem commit_accepted (h : ¬ core.Refuses payload) (s : SecurityFlash) :
    ((core.commit payload).playS ideal s).2.1.1 = espOk := by
  have hwp : (core.commit payload).wpS (fun q s r t => ideal q s = (r, t)) (fun _ _ => True)
      (fun a _ => a.1 = espOk) s := by
    have hdone : ¬ (espOk ≠ espOk) := not_not.mpr rfl
    unfold commit
    rw [if_neg h]
    refine ⟨trivial, ?_⟩
    rintro _ _ ⟨⟩
    beta_reduce
    rw [if_neg hdone]
    refine ⟨trivial, ?_⟩
    rintro _ _ ⟨⟩
    rw [SecurityFlash.slot_setSlot]
    dsimp only
    have hback := readback_ok h
    unfold record at hback
    rw [if_neg hback]
    refine ⟨trivial, ?_⟩
    rintro _ _ ⟨⟩
    beta_reduce
    rw [if_neg hdone]
    rfl
  exact Prog.playS_of_wpS hwp

end SecurityCore

/-! ## The boot -/

/-- The key holds a valid slot or was never written. -/
def SlotSound (slot : Except EspErr SecuritySlot) : Prop :=
  slot = .error espErrNvsNotFound ∨ ∃ rec, slot = .ok rec ∧ rec.currentValid = true

/-- Slot A is stored and no selector is. -/
def SecurityFlash.HalfWritten (s : SecurityFlash) : Prop :=
  s.selector = .error espErrNvsNotFound ∧ ∃ rec, s.slotA = .ok rec

/-- What init finds, stored slots being sound. -/
inductive SecurityCore.Booted (s : SecurityFlash) : SecurityCore → Prop
  | missing {core : SecurityCore} : s = .blank → core.state = .missing → core.generation = 0 →
      core.activeSlot = 0 → Booted s core
  | corrupt {core : SecurityCore} : s.HalfWritten → core.state = .corrupt → core.activeSlot = 0 →
      Booted s core
  | loaded {core : SecurityCore} {v : UInt8} {rec : SecuritySlot} : v ≤ 1 → s.selector = .ok v →
      s.slot v = .ok rec → core.active = rec.payload → core.state = rec.payload.storeState →
      core.activeSlot = v → Booted s core

/-- The stored data between two calls: sound slots, and a selector that names a stored one
unless nothing but slot A was ever written. -/
structure SecurityFlash.Sound (s : SecurityFlash) : Prop where
  slots : ∀ i, SlotSound (s.slot i)
  phase : s.selector = .error espErrNvsNotFound ∧ s.slotB = .error espErrNvsNotFound ∨
    ∃ v rec, v ≤ 1 ∧ s.selector = .ok v ∧ s.slot v = .ok rec

theorem readFailed_of_sound {slot : Except EspErr SecuritySlot} (h : SlotSound slot) :
    readFailed slot = false := by
  rcases h with rfl | ⟨rec, rfl, -⟩ <;> rfl

theorem validManifest_of_sound {slot : Except EspErr SecuritySlot} {rec : SecuritySlot}
    (h : SlotSound slot) (hs : slot = .ok rec) : validManifest slot = some rec := by
  subst hs
  rcases h with h | ⟨rec', h, hv⟩
  · cases h
  · cases h
    exact if_pos hv

theorem select_named {s : SecurityFlash} (hs : s.Sound) {v : UInt8} {rec : SecuritySlot}
    (hv : v ≤ 1) (hsel : s.selector = .ok v) (hslot : s.slot v = .ok rec) :
    SecurityCore.Booted s (.select (validManifest (s.slot 0)) (validManifest (s.slot 1)) v) := by
  have hrec := validManifest_of_sound (hs.slots v) hslot
  refine .loaded hv hsel hslot ?_ ?_ ?_
  all_goals
    rcases eq_zero_or_one hv with rfl | rfl
    · simp only [SecurityCore.select, if_true]
      rw [hrec]
    · simp only [SecurityCore.select, show (1 : UInt8) ≠ 0 from by decide, if_false]
      rw [hrec]

/-- **Init** writes nothing and tells the three cases apart. -/
theorem security_init_spec {s : SecurityFlash} (hs : s.Sound) :
    SecurityCore.init.wpS Call (fun q t => t = s ∧ ∀ u, Cut q t u → u = s)
      (fun a t => t = s ∧ a.1 = espOk ∧ SecurityCore.Booted s a.2) s := by
  have hreadSlot (i : UInt8) : ∀ u, Cut (.readSlot i) s u → u = s := fun u ⟨_, _, hu⟩ => hu
  refine ⟨⟨rfl, hreadSlot 0⟩, ?_⟩
  rintro _ t ⟨rfl, rfl⟩
  refine ⟨⟨rfl, hreadSlot 1⟩, ?_⟩
  rintro _ t ⟨rfl, rfl⟩
  beta_reduce
  rw [if_neg (by simp [readFailed_of_sound (hs.slots _)])]
  split
  · next hnone =>
    -- both keys missing: the selector cannot name a stored slot
    have hmissing (i : UInt8) (h : validManifest (t.slot i) = none) :
        t.slot i = .error espErrNvsNotFound := by
      refine (hs.slots i).resolve_right ?_
      rintro ⟨rec, hrec, -⟩
      rw [validManifest_of_sound (hs.slots i) hrec] at h
      cases h
    have ha := hmissing 0 hnone.1
    have hb := hmissing 1 hnone.2
    refine ⟨rfl, rfl, .missing ?_ ?_ rfl rfl⟩
    · rcases hs.phase with ⟨hsel, -⟩ | ⟨v, rec, hv, -, hrec⟩
      · show SecurityFlash.mk t.slotA t.slotB t.selector = _
        rw [show t.slotA = t.slot 0 from rfl, show t.slotB = t.slot 1 from rfl, ha, hb, hsel]
        rfl
      · rcases eq_zero_or_one hv with rfl | rfl
        · cases ha.symm.trans hrec
        · cases hb.symm.trans hrec
    · rw [ha, hb]
  · next hsome =>
    refine ⟨⟨rfl, fun u ⟨_, _, hu⟩ => hu⟩, ?_⟩
    rintro _ t ⟨rfl, rfl⟩
    rcases hs.phase with ⟨hsel, hb⟩ | ⟨v, rec, hv, hsel, hrec⟩
    · rw [hsel]
      refine ⟨rfl, rfl, .corrupt ⟨hsel, ?_⟩ rfl rfl⟩
      rcases hs.slots 0 with ha | ⟨rec, ha, -⟩
      · refine absurd ⟨?_, ?_⟩ hsome
        · rw [ha]
          rfl
        · rw [show t.slot 1 = t.slotB from rfl, hb]
          rfl
      · exact ⟨rec, ha⟩
    · rw [hsel]
      dsimp only
      rw [if_neg (by simpa using hv)]
      exact ⟨rfl, rfl, select_named hs hv hsel hrec⟩

/-! ## Runs -/

/-- The stored data and, while the firmware runs, its core. -/
structure SecurityDevice where
  store : SecurityFlash
  core : Option SecurityCore

def blankSecurity : SecurityDevice := ⟨.blank, none⟩

inductive SecurityAct
  | init
  | initCut
  | commit (payload : SecurityPayload) (err : EspErr)
  | commitCut (payload : SecurityPayload)

/-- A boot, a commit and what it returns, or either of them cut off. -/
inductive SecurityStep : SecurityDevice → SecurityAct → SecurityDevice → Prop
  | init {d : SecurityDevice} {tr : List (Σ q, SecurityCall.Answer q)} {err : EspErr}
      {core : SecurityCore} {t : SecurityFlash} :
      Prog.Exec Call SecurityCore.init d.store tr (err, core) t → SecurityStep d .init ⟨t, some core⟩
  | initCut {d : SecurityDevice} {t : SecurityFlash} :
      Prog.Crash Call Cut SecurityCore.init d.store t → SecurityStep d .initCut ⟨t, none⟩
  | commit {d : SecurityDevice} {core next : SecurityCore} {payload : SecurityPayload}
      {tr : List (Σ q, SecurityCall.Answer q)} {err : EspErr} {t : SecurityFlash} :
      d.core = some core → Prog.Exec Call (core.commit payload) d.store tr (err, next) t →
      SecurityStep d (.commit payload err) ⟨t, some next⟩
  | commitCut {d : SecurityDevice} {core : SecurityCore} {payload : SecurityPayload}
      {t : SecurityFlash} :
      d.core = some core → Prog.Crash Call Cut (core.commit payload) d.store t →
      SecurityStep d (.commitCut payload) ⟨t, none⟩

abbrev SecurityMove := Move SecurityDevice SecurityAct

/-- A commit of `payload`, whatever becomes of it. -/
def SecurityAct.Commits (payload : SecurityPayload) : SecurityAct → Prop
  | .commit p _ => p = payload
  | .commitCut p => p = payload
  | _ => False

/-- A commit that returns `ESP_OK`. -/
def SecurityAct.Done : SecurityAct → Prop
  | .commit _ err => err = espOk
  | _ => False

/-- The payload of the last commit that returned `ESP_OK`, or of one tried since. -/
def LastTried (payload : SecurityPayload) (ms : List SecurityMove) : Prop :=
  Since (fun m => m.ev.Commits payload) (fun m => m.ev.Done) ms

/-- What holds after the moves `ms` from blank flash. -/
structure SecurityInv (d : SecurityDevice) (ms : List SecurityMove) : Prop where
  slots : ∀ i, SlotSound (d.store.slot i)
  index : ∀ core, d.core = some core → core.activeSlot ≤ 1
  phase :
    d.store.selector = .error espErrNvsNotFound ∧ d.store.slotB = .error espErrNvsNotFound ∧
      (∀ m ∈ ms, ¬ m.ev.Done) ∧
      (∀ core, d.core = some core → core.state = .missing ∧ core.generation = 0 ∨
        core.state = .corrupt) ∨
    ∃ v rec, v ≤ 1 ∧ d.store.selector = .ok v ∧ d.store.slot v = .ok rec ∧
      LastTried rec.payload ms

theorem SecurityInv.sound {d : SecurityDevice} {ms : List SecurityMove} (h : SecurityInv d ms) :
    d.store.Sound := by
  refine ⟨h.slots, ?_⟩
  rcases h.phase with ⟨hsel, hb, -, -⟩ | ⟨v, rec, hv, hsel, hrec, -⟩
  · exact .inl ⟨hsel, hb⟩
  · exact .inr ⟨v, rec, hv, hsel, hrec⟩

theorem target_le {core : SecurityCore} (h : core.activeSlot ≤ 1) : core.target ≤ 1 := by
  unfold SecurityCore.target
  split
  · decide
  · rcases eq_zero_or_one h with hs | hs <;> rw [hs] <;> decide

theorem slotSound_setSlot {s : SecurityFlash} {i : UInt8} {slot : SecuritySlot}
    (hs : ∀ j, SlotSound (s.slot j)) (hv : slot.currentValid = true) (j : UInt8) :
    SlotSound ((s.setSlot i slot).slot j) := by
  have hnew : SlotSound (.ok slot) := .inr ⟨slot, rfl, hv⟩
  have ha : SlotSound s.slotA := hs 0
  have hb : SlotSound s.slotB := hs 1
  unfold SecurityFlash.setSlot SecurityFlash.slot
  by_cases hi : i = 0
  · by_cases hj : j = 0
    · simpa [hi, hj] using hnew
    · simpa [hi, hj] using hb
  · by_cases hj : j = 0
    · simpa [hi, hj] using ha
    · simpa [hi, hj] using hnew

/-- A step that leaves the stored data alone and is no commit that goes through. -/
theorem SecurityInv.same {d e : SecurityDevice} {ms : List SecurityMove} {v : SecurityMove}
    (h : SecurityInv d ms) (hstore : e.store = d.store) (hdone : ¬ v.ev.Done)
    (hcore : ∀ core, e.core = some core →
      core.activeSlot ≤ 1 ∧ (d.store.selector = .error espErrNvsNotFound →
        core.state = .missing ∧ core.generation = 0 ∨ core.state = .corrupt)) :
    SecurityInv e (ms ++ [v]) := by
  refine ⟨fun i => hstore ▸ h.slots i, fun core hc => (hcore core hc).1, ?_⟩
  rw [hstore]
  rcases h.phase with ⟨hsel, hb, hnone, -⟩ | ⟨w, rec, hw, hsel, hrec, hlast⟩
  · refine .inl ⟨hsel, hb, fun m hm => ?_, fun core hc => (hcore core hc).2 hsel⟩
    rcases List.mem_append.mp hm with hm | hm
    · exact hnone m hm
    · rwa [List.mem_singleton.mp hm]
  · exact .inr ⟨w, rec, hw, hsel, hrec, hlast.append hdone⟩

/-- The store on slot `i` with the record of this step's commit. -/
theorem SecurityInv.selected {s : SecurityFlash} {e : SecurityDevice} {ms : List SecurityMove}
    {v : SecurityMove} {i : UInt8} {slot : SecuritySlot} (hs : ∀ j, SlotSound (s.slot j))
    (hstore : e.store = { s.setSlot i slot with selector := .ok i }) (hi : i ≤ 1)
    (hv : slot.currentValid = true) (hcommits : v.ev.Commits slot.payload)
    (hindex : ∀ core, e.core = some core → core.activeSlot ≤ 1) : SecurityInv e (ms ++ [v]) := by
  refine ⟨fun j => ?_, hindex, .inr ⟨i, slot, hi, ?_, ?_, .now hcommits⟩⟩
  · rw [hstore]
    exact slotSound_setSlot hs hv j
  · rw [hstore]
  · rw [hstore]
    exact SecurityFlash.slot_setSlot s i slot

/-- A commit that fails or is cut off, wherever that is. -/
theorem SecurityInv.leaves {d e : SecurityDevice} {ms : List SecurityMove} {v : SecurityMove}
    {core : SecurityCore} {payload : SecurityPayload} (h : SecurityInv d ms)
    (hcore : d.core = some core) (hok : ¬ core.Refuses payload)
    (hl : d.store.Leaves core.target (core.record payload) e.store)
    (hcommits : v.ev.Commits payload) (hdone : ¬ v.ev.Done)
    (hsame : ∀ next, e.core = some next → next = core) : SecurityInv e (ms ++ [v]) := by
  have hindex : ∀ next, e.core = some next → next.activeSlot ≤ 1 := by
    intro next hn
    rw [hsame next hn]
    exact h.index core hcore
  have htarget := target_le (h.index core hcore)
  rcases hl with hs | hs | hs
  · refine h.same hs hdone fun next hn => ⟨hindex next hn, fun hsel => ?_⟩
    rw [hsame next hn]
    rcases h.phase with ⟨-, -, -, hstate⟩ | ⟨w, rec, -, hw, -, -⟩
    · exact hstate core hcore
    · rw [hsel] at hw
      cases hw
  · refine ⟨fun i => hs ▸ slotSound_setSlot h.slots (SecurityCore.record_valid hok) i, hindex, ?_⟩
    rw [hs, setSlot_selector]
    rcases h.phase with ⟨hsel, hb, hnone, hstate⟩ | ⟨w, rec, hw, hsel, hrec, hlast⟩
    · -- with no selector yet, the commit is the first and writes slot A
      have hfirst : core.state = .missing ∧ core.generation = 0 :=
        (hstate core hcore).resolve_right fun hc => hok (.inr (.inl hc))
      have hslot0 : core.target = 0 := if_pos hfirst.2
      refine .inl ⟨hsel, ?_, fun m hm => ?_, fun next hn => ?_⟩
      · rw [hslot0]
        exact hb
      · rcases List.mem_append.mp hm with hm | hm
        · exact hnone m hm
        · rwa [List.mem_singleton.mp hm]
      · rw [hsame next hn]
        exact .inl hfirst
    · by_cases hwt : w = core.target
      · exact .inr ⟨w, core.record payload, hw, hsel, hwt ▸ SecurityFlash.slot_setSlot _ _ _, .now hcommits⟩
      · refine .inr ⟨w, rec, hw, hsel, ?_, hlast.append hdone⟩
        rw [SecurityFlash.slot_setSlot_of_ne _ htarget hw hwt]
        exact hrec
  · exact .selected h.slots hs htarget (SecurityCore.record_valid hok) hcommits hindex

theorem SecurityCore.Booted.core {s : SecurityFlash} {core : SecurityCore}
    (h : SecurityCore.Booted s core) :
    core.activeSlot ≤ 1 ∧ (s.selector = .error espErrNvsNotFound →
      core.state = .missing ∧ core.generation = 0 ∨ core.state = .corrupt) := by
  cases h with
  | missing _ hstate hgen hslot => exact ⟨by rw [hslot]; decide, fun _ => .inl ⟨hstate, hgen⟩⟩
  | corrupt _ hstate hslot => exact ⟨by rw [hslot]; decide, fun _ => .inr hstate⟩
  | loaded hv hsel _ _ _ hslot =>
    refine ⟨by rw [hslot]; exact hv, fun hmissing => ?_⟩
    rw [hmissing] at hsel
    cases hsel

theorem SecurityInv.step {d e : SecurityDevice} {act : SecurityAct} {ms : List SecurityMove}
    (h : SecurityInv d ms) (hs : SecurityStep d act e) : SecurityInv e (ms ++ [⟨d, act, e⟩]) := by
  cases hs with
  | init hr =>
    obtain ⟨rfl, -, hb⟩ := hr.of_wpS (security_init_spec h.sound)
    refine h.same rfl id ?_
    rintro _ ⟨⟩
    exact hb.core
  | initCut hr =>
    have hsame := hr.of_wpS (Prog.wpS_mono (fun _ _ h => h) (fun _ _ h => h.1) _ _
      (security_init_spec h.sound))
    exact h.same hsame id nofun
  | @commit core next payload _ err t hcore hr =>
    by_cases hok : core.Refuses payload
    · rw [SecurityCore.commit_refused hok] at hr
      cases hr
      refine h.same rfl nofun ?_
      rintro _ ⟨⟩
      refine ⟨h.index core hcore, fun hsel => ?_⟩
      rcases h.phase with ⟨-, -, -, hstate⟩ | ⟨w, rec, -, hw, -, -⟩
      · exact hstate core hcore
      · rw [hsel] at hw
        cases hw
    · rcases hr.of_wpS (SecurityCore.commit_spec hok d.store) with ⟨herr, rfl, hl⟩ | ⟨heq, ht⟩
      · refine h.leaves hcore hok hl rfl herr ?_
        rintro _ ⟨⟩
        rfl
      · cases heq
        refine .selected h.slots ht (target_le (h.index core hcore)) (SecurityCore.record_valid hok)
          rfl ?_
        rintro _ ⟨⟩
        exact target_le (h.index core hcore)
  | @commitCut core payload t hcore hr =>
    by_cases hok : core.Refuses payload
    · rw [SecurityCore.commit_refused hok] at hr
      cases hr
      exact h.same rfl id nofun
    · have hl := hr.of_wpS (Prog.wpS_mono (fun _ _ h => h) ?_ _ _
        (SecurityCore.commit_spec hok d.store))
      · exact h.leaves hcore hok hl rfl id nofun
      · rintro a u (⟨-, -, hl⟩ | ⟨-, rfl⟩)
        · exact hl
        · exact .inr (.inr rfl)

theorem blank_inv : SecurityInv blankSecurity [] := by
  refine ⟨fun i => .inl ?_, fun core hc => ?_, .inl ⟨rfl, rfl, by simp, fun core hc => ?_⟩⟩
  · show SecurityFlash.slot .blank i = _
    unfold SecurityFlash.slot
    split <;> rfl
  · cases hc
  · cases hc

theorem security_run_inv {ms : List SecurityMove} (h : IsRun SecurityStep blankSecurity ms) :
    SecurityInv (final blankSecurity ms) ms :=
  h.inv_past blank_inv fun _ _ hi hs => hi.step hs

theorem storeState_cases (p : SecurityPayload) :
    p.storeState = .ready ∨ p.storeState = .unprovisioned := by
  unfold SecurityPayload.storeState
  split
  · exact .inl rfl
  · exact .inr rfl

theorem not_refuses {core : SecurityCore} {payload : SecurityPayload} (hp : payload.valid = true)
    (hs : core.state = .missing ∨ core.state = .ready ∨ core.state = .unprovisioned) :
    ¬ core.Refuses payload := by
  rintro (h | h | h | h)
  · rw [hp] at h
    cases h
  all_goals rcases hs with hs | hs | hs <;> cases hs.symm.trans h

/-- **The next init after any run from blank flash.**  A slot without a selector is corrupt
for good.  Anything else yields the payload committed last or one tried since, or nothing
if nothing was committed, and takes further commits. -/
theorem security_store_crash {ms : List SecurityMove} (h : IsRun SecurityStep blankSecurity ms)
    {tr : List (Σ q, SecurityCall.Answer q)} {err : EspErr} {core : SecurityCore} {t : SecurityFlash}
    (hinit : Prog.Exec Call SecurityCore.init (final blankSecurity ms).store tr (err, core) t) :
    err = espOk ∧
    ((final blankSecurity ms).store.HalfWritten → core.state = .corrupt ∧
      ∀ payload, core.commit payload = .ret (espErrInvalidState, core)) ∧
    (¬ (final blankSecurity ms).store.HalfWritten →
      (core.state = .missing ∧ (∀ m ∈ ms, ¬ m.ev.Done) ∨
        (core.state = .ready ∨ core.state = .unprovisioned) ∧ LastTried core.active ms) ∧
      ∀ payload, payload.valid = true → ((core.commit payload).playS ideal t).2.1.1 = espOk) := by
  have hinv := security_run_inv h
  obtain ⟨rfl, rfl, hb⟩ := hinit.of_wpS (security_init_spec hinv.sound)
  refine ⟨rfl, ?_⟩
  cases hb with
  | missing hblank hstate hgen _ =>
    have hnone : ∀ m ∈ ms, ¬ m.ev.Done := by
      rcases hinv.phase with ⟨-, -, hnone, -⟩ | ⟨v, rec, -, hsel, -, -⟩
      · exact hnone
      · rw [hblank] at hsel
        cases hsel
    refine ⟨fun hhalf => ?_, fun _ => ⟨.inl ⟨hstate, hnone⟩, fun payload hp => ?_⟩⟩
    · obtain ⟨-, rec, hrec⟩ := hhalf
      rw [hblank] at hrec
      cases hrec
    · exact SecurityCore.commit_accepted (not_refuses hp (.inl hstate)) _
  | corrupt hhalf hstate _ =>
    refine ⟨fun _ => ⟨hstate, fun payload => ?_⟩, fun hn => absurd hhalf hn⟩
    exact SecurityCore.commit_refused (.inr (.inl hstate))
  | @loaded v rec hv hsel hrec hactive hstate _ =>
    have hready := storeState_cases rec.payload
    rw [← hstate] at hready
    refine ⟨fun hhalf => ?_, fun _ => ⟨.inr ⟨hready, ?_⟩, fun payload hp => ?_⟩⟩
    · rw [hhalf.1] at hsel
      cases hsel
    · rcases hinv.phase with ⟨hsel', -, -, -⟩ | ⟨w, rec', -, hsel', hrec', hlast⟩
      · rw [hsel'] at hsel
        cases hsel
      · rw [hsel] at hsel'
        cases hsel'
        rw [hrec] at hrec'
        cases hrec'
        rw [hactive]
        exact hlast
    · exact SecurityCore.commit_accepted (not_refuses hp (.inr hready)) _

/-- A boot of sound data, as a run. -/
theorem security_boot {s : SecurityFlash} (hs : s.Sound) :
    ∃ tr core, Prog.Exec Call SecurityCore.init s tr (espOk, core) s ∧ SecurityCore.Booted s core := by
  have hrun := Prog.playS_exec SecurityFlash.ideal_call SecurityCore.init s
  obtain ⟨ht, he, hb⟩ := hrun.of_wpS (security_init_spec hs)
  generalize SecurityCore.init.playS ideal s = out at hrun ht he hb
  obtain ⟨tr, ⟨err, core⟩, t⟩ := out
  cases ht
  cases he
  exact ⟨tr, core, hrun, hb⟩

/-- A first boot finds nothing and takes the defaults. -/
theorem first_boot :
    ∃ tr core, Prog.Exec Call SecurityCore.init .blank tr (espOk, core) .blank ∧
      core.target = 0 ∧ ¬ core.Refuses .default := by
  obtain ⟨tr, core, hrun, hb⟩ := security_boot blank_inv.sound
  refine ⟨tr, core, hrun, ?_⟩
  cases hb with
  | missing _ hstate hgen _ =>
    exact ⟨if_pos hgen, not_refuses SecurityPayload.default_valid (.inl hstate)⟩
  | corrupt hhalf _ _ =>
    obtain ⟨-, rec, hrec⟩ := hhalf
    cases hrec
  | loaded _ hsel _ _ _ _ => cases hsel

/-- A first boot, the commit of the defaults, and a reboot. -/
theorem security_store_reboot :
    ∃ (s : SecurityFlash) (tr : List (Σ q, SecurityCall.Answer q)) (core : SecurityCore),
      Prog.Exec Call SecurityCore.init s tr (espOk, core) s ∧
        (core.state = .ready ∨ core.state = .unprovisioned) := by
  obtain ⟨_, core, hboot, -, hok⟩ := first_boot
  have hcommit := Prog.playS_exec SecurityFlash.ideal_call (core.commit .default) .blank
  have haccept := SecurityCore.commit_accepted hok .blank
  generalize (core.commit .default).playS ideal .blank = out at hcommit haccept
  obtain ⟨_, ⟨err, next⟩, s⟩ := out
  cases haccept
  have hrun : IsRun SecurityStep blankSecurity
      [⟨blankSecurity, .init, ⟨.blank, some core⟩⟩,
        ⟨⟨.blank, some core⟩, .commit .default espOk, ⟨s, some next⟩⟩] :=
    ⟨rfl, .init hboot, rfl, .commit rfl hcommit, trivial⟩
  obtain ⟨tr, last, hinit, -⟩ := security_boot (security_run_inv hrun).sound
  refine ⟨s, tr, last, hinit, ?_⟩
  have hselected : ¬ s.HalfWritten := by
    rcases hcommit.of_wpS (SecurityCore.commit_spec hok .blank) with h | ⟨-, h⟩
    · exact absurd rfl h.1
    · rintro ⟨hsel, -⟩
      have hnamed : s.selector = .ok core.target := congrArg SecurityFlash.selector h
      cases hnamed.symm.trans hsel
  rcases ((security_store_crash hrun hinit).2.2 hselected).1 with ⟨-, hnone⟩ | ⟨hstate, -⟩
  · exact absurd rfl (hnone ⟨⟨.blank, some core⟩, .commit .default espOk, ⟨s, some next⟩⟩ (by simp))
  · exact hstate

/-- The first commit cut off between its two writes: the next init reports `CORRUPT`. -/
theorem first_commit_cut :
    ¬ ∀ ms : List SecurityMove, IsRun SecurityStep blankSecurity ms →
      ∀ tr err core t,
        Prog.Exec Call SecurityCore.init (final blankSecurity ms).store tr (err, core) t →
        core.state ≠ .corrupt := by
  intro h
  obtain ⟨_, core, hboot, htarget, hok⟩ := first_boot
  have hcut : Prog.Crash Call Cut (core.commit .default) .blank
      (SecurityFlash.blank.setSlot core.target (core.record .default)) := by
    unfold SecurityCore.commit
    rw [if_neg hok]
    exact .inside ⟨espOk, .inl rfl⟩
  rw [htarget] at hcut
  generalize core.record .default = rec at hcut
  have hrun : IsRun SecurityStep blankSecurity
      [⟨blankSecurity, .init, ⟨.blank, some core⟩⟩,
        ⟨⟨.blank, some core⟩, .commitCut .default, ⟨SecurityFlash.blank.setSlot 0 rec, none⟩⟩] :=
    ⟨rfl, .init hboot, rfl, .commitCut rfl hcut, trivial⟩
  obtain ⟨tr, last, hinit, hb⟩ := security_boot (security_run_inv hrun).sound
  refine h _ hrun tr espOk last _ hinit ?_
  cases hb with
  | missing hblank _ _ _ => cases congrArg SecurityFlash.slotA hblank
  | corrupt _ hstate _ => exact hstate
  | loaded _ hsel _ _ _ _ => cases hsel

end Argus
