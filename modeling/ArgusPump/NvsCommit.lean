import ArgusPump.NvsCrash

/-!
# Power loss during a commit

A commit writes the slot the selector does not point to; init took its configuration
from the slot it found valid.  Where the two agree the commit can be cut off at any
point, or any of its calls can fail, and the next boot finds the old or the new
configuration; where they do not, the commit writes over the configuration in use.

    init ends in s with core, core has a valid configuration →
      (CommitSafe s core inCfg ↔ CommitCond s core inCfg)        (commit_safe_iff)
-/

namespace Argus

open Interact Function NvsStore

/-! ## What a commit owes -/

/-- `cfg` is `old`, the identity lock kept or raised. -/
def ConfigPayload.Carries (cfg old : ConfigPayload) : Prop :=
  cfg.settings = old.settings ∧
    (IdentityLocked old.provisionedFlags → IdentityLocked cfg.provisionedFlags)

/-- The slot a call writes. -/
def NvsCall.written : NvsCall → Option UInt8
  | .writeSlot i _ => some i
  | _ => none

/-- The commit never writes the slot in use, and whatever it leaves, finished, failed
or cut off, the next init returns the old configuration or the new one. -/
def CommitSafe (s : NvsStore) (core : NvsCore) (inCfg : ConfigPayload) : Prop :=
  (∀ tr r t, Prog.Exec CallOrFail (core.commit inCfg) s tr r t →
    ∀ x ∈ tr, x.1.written ≠ some core.activeSlotIndex) ∧
  ∀ t, Prog.Crash CallOrFail Cut (core.commit inCfg) s t →
    ∀ tr e next u, Prog.Exec Call NvsCore.init t tr (e, next) u →
      e = espOk ∧ ∃ cfg, next.get = .ok cfg ∧
        (cfg.Carries core.activeConfig ∨ cfg.Carries inCfg)

/-- The input is refused before any call; or the stored selector is unreadable, out of
range or the slot in use, and the identity lock does not hang on the other slot's
record alone (unless the commit is of the same settings, unlocked). -/
def CommitCond (s : NvsStore) (core : NvsCore) (inCfg : ConfigPayload) : Prop :=
  NvsCore.checkInput inCfg ≠ espOk ∨
    (∀ v, s.selector = .ok v → v ≤ 1 → v = core.activeSlotIndex) ∧
    (IdentityLocked core.activeConfig.provisionedFlags →
      IdentityLocked (hwmFlagsOf s.provHwm) ∨
      IdentityLocked (NvsCore.slotFlags (validSlot (s.slot core.activeSlotIndex))) ∨
      ¬ IdentityLocked inCfg.provisionedFlags ∧ inCfg.settings = core.activeConfig.settings)

/-! ## After the slot write -/

theorem CfgSlot.isSlotValid_current (generation : UInt32) (payload : ConfigPayload) :
    (CfgSlot.current generation payload).isSlotValid = none ∨
      (CfgSlot.current generation payload).isSlotValid =
        some (CfgSlot.current generation payload) := by
  unfold isSlotValid
  split
  · exact .inl rfl
  · split
    · exact .inl rfl
    · rw [if_pos ⟨rfl, rfl⟩]
      split
      · exact .inl rfl
      · split
        · exact .inr rfl
        · exact .inl rfl

theorem CfgSlot.isSlotValid_current_ok {generation : UInt32} {payload : ConfigPayload}
    (hg : generation ≠ 0) (hv : payload.validate = espOk) :
    (CfgSlot.current generation payload).isSlotValid =
      some (CfgSlot.current generation payload) := by
  simp [isSlotValid, current, hg, hv]

theorem CfgSlot.isSlotValid_bad_crc (generation : UInt32) (payload : ConfigPayload) :
    isSlotValid { current generation payload with crc32 := calcCrc32Raw payload.bytes + 1 } =
      none := by
  simp [isSlotValid, current]

/-- The slot `i` has been written with `rec`, done or torn, since `s`. -/
structure Written (s : NvsStore) (i : Bool) (rec : CfgSlot) (t : NvsStore) : Prop where
  leaves : DualSlot.Leaves s.slots i rec t.slots
  hwm : IdentityLocked (hwmFlagsOf s.provHwm) → IdentityLocked (hwmFlagsOf t.provHwm)

/-- The calls of a commit once the slot is written. -/
def NvsCall.AfterWrite : NvsCall → Prop
  | .writeSlot _ _ => False
  | .writeProvisionedHwm flags => IdentityLocked flags
  | _ => True

theorem writeSlot_written {s t : NvsStore} {j : UInt8} {generation : UInt32}
    {payload : ConfigPayload} {r : EspErr}
    (h : CallOrFail (.writeSlot j (CfgSlot.current generation payload)) s r t) :
    Written s (side j) (CfgSlot.current generation payload) t ∨ r ≠ espOk ∧ t = s := by
  rcases h with ⟨c, rfl, hc⟩ | ⟨hf, -⟩
  · have hw : validSlot c = none ∨ validSlot c = some (CfgSlot.current generation payload) →
        Written s (side j) (CfgSlot.current generation payload) (s.setSlot j c) := by
      intro hv
      refine ⟨?_, by rw [setSlot_provHwm]; exact id⟩
      rw [slots_setSlot]
      rcases hv with hv | hv
      · exact .inl (by rw [hv])
      · exact .inr (by rw [hv])
    rcases hc with rfl | hc | ⟨hr, rfl⟩
    · exact .inl (hw (CfgSlot.isSlotValid_current _ _))
    · exact .inl (hw (.inl hc))
    · exact .inr ⟨hr, setSlot_slot s j⟩
  · exact hf.elim

theorem Written.call {s t u : NvsStore} {i : Bool} {rec : CfgSlot} (h : Written s i rec t)
    {q : NvsCall} (hq : q.AfterWrite) {r : q.Answer} (hc : CallOrFail q t r u) :
    Written s i rec u := by
  rcases hc with hc | ⟨-, rfl⟩
  · cases q with
    | readSlot j => exact hc.2 ▸ h
    | writeSlot j c => exact hq.elim
    | readSelector => exact hc.2 ▸ h
    | writeSelector v =>
      rcases hc with rfl | ⟨-, rfl⟩
      · exact ⟨h.leaves, h.hwm⟩
      · exact h
    | readProvisionedHwm => exact hc.2 ▸ h
    | writeProvisionedHwm v =>
      rcases hc with rfl | ⟨-, rfl⟩
      · exact ⟨h.leaves, fun _ => hq⟩
      · exact h
  · exact h

/-! ## Every point of a commit -/

/-- What a commit may leave of the stored data `s`. -/
def CommitLeaves (s : NvsStore) (core : NvsCore) (inCfg : ConfigPayload) (t : NvsStore) : Prop :=
  t = s ∨ Written s (!side core.activeSlotIndex)
    (CfgSlot.current (core.activeGeneration + 1) inCfg) t

theorem readSelector_keeps {s t : NvsStore} {r : Except EspErr UInt8}
    (h : CallOrFail .readSelector s r t) : t = s := by
  rcases h with ⟨-, h⟩ | ⟨-, h⟩ <;> exact h

theorem activate_calls (core : NvsCore) (i : UInt8) (generation : UInt32) :
    (core.activate i generation).wp (fun _ _ => True) NvsCall.AfterWrite fun _ => True := by
  unfold NvsCore.activate
  refine ⟨trivial, fun r _ => ?_⟩
  beta_reduce
  split
  · trivial
  · refine ⟨trivial, fun r _ => ?_⟩
    beta_reduce
    split <;> trivial

theorem commit_wpS (s : NvsStore) (core : NvsCore) {inCfg : ConfigPayload}
    (hok : NvsCore.checkInput inCfg = espOk)
    (hsel : ∀ r t, CallOrFail .readSelector s r t →
      side (core.inactiveSlot r) = !side core.activeSlotIndex) :
    (core.commit inCfg).wpS CallOrFail
      (fun q t => q.written ≠ some core.activeSlotIndex ∧ CommitLeaves s core inCfg t ∧
        ∀ u, Cut q t u → CommitLeaves s core inCfg u)
      (fun _ t => CommitLeaves s core inCfg t) s := by
  unfold NvsCore.commit
  rw [if_neg (not_not.mpr hok)]
  refine ⟨⟨nofun, .inl rfl, ?_⟩, fun sel t ht => ?_⟩
  · rintro u ⟨r, hr⟩
    exact .inl (readSelector_keeps hr)
  have hi := hsel sel t ht
  rw [readSelector_keeps ht]
  refine ⟨⟨?_, .inl rfl, ?_⟩, fun r u hu => ?_⟩
  · intro hw
    rw [Option.some.inj hw] at hi
    simp at hi
  · rintro u ⟨r, hr⟩
    rcases writeSlot_written hr with hw | ⟨-, rfl⟩
    · exact .inr (hi ▸ hw)
    · exact .inl rfl
  by_cases hr : r = espOk
  · have hw := (writeSlot_written hu).resolve_right fun h => h.1 hr
    rw [hi] at hw
    refine Prog.wpS_mono ?_ (fun _ _ h => .inr h.2) _ _
      (Prog.wpS_of_wp NvsCall.AfterWrite (fun _ => True)
        (fun q v r' v' hq h hc => h.call hq hc) _ ?_ hw)
    · rintro q v ⟨hq, h⟩
      refine ⟨?_, .inr h, fun v' ⟨r', hr'⟩ => .inr (h.call hq hr')⟩
      cases q with
      | writeSlot j c => exact hq.elim
      | _ => nofun
    · beta_reduce
      rw [if_neg (not_not.mpr hr)]
      refine ⟨trivial, fun verify _ => ?_⟩
      beta_reduce
      split
      · trivial
      · split
        · next hl =>
          refine ⟨hl, fun hwm _ => ?_⟩
          beta_reduce
          split
          · trivial
          · exact activate_calls _ _ _
        · exact activate_calls _ _ _
  · beta_reduce
    rw [if_pos hr]
    rcases writeSlot_written hu with hw | ⟨-, rfl⟩
    · exact .inr (hi ▸ hw)
    · exact .inl rfl

/-! ## The next boot -/

/-- The hint init goes by. -/
def NvsStore.hint (s : NvsStore) : UInt8 × UInt8 := (readSelectorOr s.selector, hwmFlagsOf s.provHwm)

theorem pick_eq_some {s : NvsStore} {i : Bool} (h : NvsCore.slotRule.pick s.slots s.hint = some i) :
    NvsCore.Loaded s.slots (hwmFlagsOf s.provHwm) s.load.1 ∧ side s.load.1.activeSlotIndex = i := by
  change (if s.load.1.hasValidConfig then some (side s.load.1.activeSlotIndex) else none) = some i at h
  rcases s.load_cases with hn | hl
  · rw [hn.2] at h
    cases h
  · rw [if_pos hl.valid] at h
    exact ⟨hl, Option.some.inj h⟩

theorem Boot.pick {s : NvsStore} {core : NvsCore} (hb : Boot s core) :
    NvsCore.slotRule.pick s.slots s.hint = some (side core.activeSlotIndex) := by
  change (if s.load.1.hasValidConfig then some (side s.load.1.activeSlotIndex) else none) = _
  rcases s.load_cases with hn | hl
  · have := hb.loaded.slot
    rw [hn.1] at this
    cases this
  · rw [if_pos hl.valid, hb.stable]

/-- The next boot returns what it picks. -/
theorem init_get {s t : NvsStore} {tr : List (Σ q, NvsCall.Answer q)} {e : EspErr} {next : NvsCore}
    (hn : Prog.Exec Call NvsCore.init s tr (e, next) t) (hv : s.load.1.hasValidConfig = true) :
    e = espOk ∧ next.get = .ok s.load.1.activeConfig := by
  obtain ⟨rfl, rfl, -⟩ := exec_init hn
  exact ⟨rfl, by simp [NvsCore.get, hv]⟩

/-- A boot from untouched data returns the configuration in use. -/
theorem boot_same {s u : NvsStore} {core next : NvsCore} (hb : Boot s core)
    {tr : List (Σ q, NvsCall.Answer q)} {e : EspErr}
    (hn : Prog.Exec Call NvsCore.init s tr (e, next) u) :
    e = espOk ∧ ∃ cfg, next.get = .ok cfg ∧ cfg.Carries core.activeConfig := by
  obtain ⟨hl, hside⟩ := pick_eq_some hb.pick
  obtain ⟨he, hget⟩ := init_get hn hl.valid
  refine ⟨he, _, hget, ?_, fun h => hl.locked.mpr (hb.loaded.locked.mp h)⟩
  have := hl.slot
  rw [hside, hb.loaded.slot] at this
  exact (Option.some.inj this).symm

/-- A boot after a write of the other slot returns the old or the new configuration. -/
theorem boot_written {s t u : NvsStore} {core next : NvsCore} {inCfg : ConfigPayload}
    {generation : UInt32} (hb : Boot s core)
    (hlock : IdentityLocked core.activeConfig.provisionedFlags →
      IdentityLocked (hwmFlagsOf s.provHwm) ∨
      IdentityLocked (NvsCore.slotFlags (validSlot (s.slot core.activeSlotIndex))) ∨
      ¬ IdentityLocked inCfg.provisionedFlags ∧ inCfg.settings = core.activeConfig.settings)
    (hw : Written s (!side core.activeSlotIndex) (CfgSlot.current generation inCfg) t)
    {tr : List (Σ q, NvsCall.Answer q)} {e : EspErr}
    (hn : Prog.Exec Call NvsCore.init t tr (e, next) u) :
    e = espOk ∧ ∃ cfg, next.get = .ok cfg ∧
      (cfg.Carries core.activeConfig ∨ cfg.Carries inCfg) := by
  obtain ⟨k, hk, hside⟩ := NvsCore.slotRule.pick_leaves hb.pick hw.leaves t.hint
  obtain ⟨hl, hlk⟩ := pick_eq_some hk
  obtain ⟨he, hget⟩ := init_get hn hl.valid
  refine ⟨he, _, hget, ?_⟩
  have hslot := hl.slot
  rw [hlk] at hslot
  rcases hside with rfl | ⟨rfl, hnew⟩
  · -- the old record: its lock is its own, or the marker's, or not owed
    rw [hw.leaves.other, hb.loaded.slot] at hslot
    have hset := (Option.some.inj hslot).symm
    by_cases hlocked : IdentityLocked core.activeConfig.provisionedFlags
    · rcases hlock hlocked with h | h | ⟨h, heq⟩
      · exact .inl ⟨hset, fun _ => hl.locked.mpr (by simp [hw.hwm h])⟩
      · refine .inl ⟨hset, fun _ => hl.locked.mpr ?_⟩
        rw [← slots_side, ← hw.leaves.other] at h
        cases hs : side core.activeSlotIndex <;> rw [hs] at h <;> simp [h]
      · exact .inr ⟨hset.trans heq.symm, fun h' => absurd h' h⟩
    · exact .inl ⟨hset, fun h => absurd h hlocked⟩
  · -- the new record carries its own lock
    rw [hnew] at hslot
    refine .inr ⟨(Option.some.inj hslot).symm, fun h => hl.locked.mpr ?_⟩
    have : IdentityLocked (NvsCore.slotFlags (t.slots (!side core.activeSlotIndex))) := by
      rw [hnew]
      exact h
    cases hs : side core.activeSlotIndex <;> rw [hs] at this <;> simp_all

/-! ## The condition -/

theorem inactiveSlot_side {core : NvsCore} {sel : Except EspErr UInt8}
    (hidx : core.activeSlotIndex = 0 ∨ core.activeSlotIndex = 1)
    (h : ∀ v, sel = .ok v → v ≤ 1 → v = core.activeSlotIndex) :
    side (core.inactiveSlot sel) = !side core.activeSlotIndex := by
  have hother : side (if core.activeSlotIndex = 0 then (1 : UInt8) else 0) =
      !side core.activeSlotIndex := by
    rcases hidx with hi | hi <;> rw [hi] <;> rfl
  unfold NvsCore.inactiveSlot
  split
  · next v =>
    split_ifs with hle hv
    · rw [← h v rfl hle, hv]
      rfl
    · rw [← h v rfl hle]
      simp [side, hv]
    · rw [← hother, if_pos ‹_›]
    · rw [← hother, if_neg ‹_›]
  · exact hother

/-- A selector that names the other slot turns the commit on the slot in use. -/
theorem inactiveSlot_stale {core : NvsCore} {v : UInt8}
    (hidx : core.activeSlotIndex = 0 ∨ core.activeSlotIndex = 1) (hle : v ≤ 1)
    (hne : v ≠ core.activeSlotIndex) : core.inactiveSlot (.ok v) = core.activeSlotIndex := by
  have h : core.inactiveSlot (.ok v) = if v = 0 then 1 else 0 := if_pos hle
  rw [h]
  rcases eq_zero_or_one hle with rfl | rfl <;> rcases hidx with hi | hi <;> rw [hi] at hne ⊢
  · exact absurd rfl hne
  · rfl
  · rfl
  · exact absurd rfl hne

theorem commit_safe_of_refused {s : NvsStore} {core : NvsCore} {inCfg : ConfigPayload}
    (hb : Boot s core) (hbad : NvsCore.checkInput inCfg ≠ espOk) : CommitSafe s core inCfg := by
  have hret : core.commit inCfg = .ret (NvsCore.checkInput inCfg, core) := if_pos hbad
  refine ⟨?_, ?_⟩
  · intro tr r t h x hx
    rw [hret] at h
    cases h
    cases hx
  · intro t ht tr e next u hn
    rw [hret] at ht
    cases ht
    obtain ⟨he, cfg, hget, hcar⟩ := boot_same hb hn
    exact ⟨he, cfg, hget, .inl hcar⟩

/-- **The condition is enough.** -/
theorem commit_safe_of_cond {s : NvsStore} {core : NvsCore} {inCfg : ConfigPayload}
    (hb : Boot s core) (hc : CommitCond s core inCfg) : CommitSafe s core inCfg := by
  by_cases hok : NvsCore.checkInput inCfg = espOk
  · obtain ⟨hsel, hlock⟩ := hc.resolve_left fun h => h hok
    have hall := commit_wpS s core hok fun r t hr => by
      rcases hr with ⟨rfl, -⟩ | ⟨⟨e, rfl⟩, -⟩
      · exact inactiveSlot_side hb.loaded.index hsel
      · exact inactiveSlot_side hb.loaded.index nofun
    refine ⟨?_, ?_⟩
    · intro tr r t h x hx
      obtain ⟨v, hv, -⟩ := h.asked_of_wpS hall x hx
      exact hv
    · intro t ht tr e next u hn
      have hleft := ht.of_wpS (Prog.wpS_mono (fun q v h => h.2) (fun _ _ h => h) _ _ hall)
      rcases hleft with rfl | hw
      · obtain ⟨he, cfg, hget, hcar⟩ := boot_same hb hn
        exact ⟨he, cfg, hget, .inl hcar⟩
      · exact boot_written hb hlock hw hn
  · exact commit_safe_of_refused hb hok

/-- A driver none of whose calls fails. -/
def NvsStore.ideal : (q : NvsCall) → NvsStore → q.Answer × NvsStore
  | .readSlot i, s => (s.slot i, s)
  | .writeSlot i rec, s => (espOk, s.setSlot i (.ok rec))
  | .readSelector, s => (s.selector, s)
  | .writeSelector v, s => (espOk, { s with selector := .ok v })
  | .readProvisionedHwm, s => (s.provHwm, s)
  | .writeProvisionedHwm v, s => (espOk, { s with provHwm := .ok v })

theorem ideal_call (q : NvsCall) (s : NvsStore) : Call q s (ideal q s).1 (ideal q s).2 := by
  cases q with
  | readSlot i => exact ⟨rfl, rfl⟩
  | writeSlot i rec => exact ⟨_, rfl, .inl rfl⟩
  | readSelector => exact ⟨rfl, rfl⟩
  | writeSelector v => exact .inl rfl
  | readProvisionedHwm => exact ⟨rfl, rfl⟩
  | writeProvisionedHwm v => exact .inl rfl

/-- An accepted commit does write. -/
theorem commit_writes (s : NvsStore) (core : NvsCore) {inCfg : ConfigPayload}
    (hok : NvsCore.checkInput inCfg = espOk) :
    ∃ tr r t, Prog.Exec CallOrFail (core.commit inCfg) s tr r t ∧
      ∃ x ∈ tr, x.1.written = some (core.inactiveSlot s.selector) := by
  have hrun := Prog.playS_exec (H := CallOrFail) (fun q s => .inl (ideal_call q s))
    (core.commit inCfg) s
  refine ⟨_, _, _, hrun, ?_⟩
  unfold NvsCore.commit
  rw [if_neg (not_not.mpr hok)]
  exact ⟨_, List.mem_cons_of_mem _ List.mem_cons_self, rfl⟩

/-- An accepted commit can be cut off with its slot torn. -/
theorem commit_torn {s : NvsStore} {core : NvsCore} {inCfg : ConfigPayload}
    (hok : NvsCore.checkInput inCfg = espOk) :
    Prog.Crash CallOrFail Cut (core.commit inCfg) s
      (s.setSlot (core.inactiveSlot s.selector) (.error espFail)) := by
  unfold NvsCore.commit
  rw [if_neg (not_not.mpr hok)]
  refine .later (.inl ⟨rfl, rfl⟩) (.inside ⟨espFail, .inl ⟨_, rfl, .inr (.inl rfl)⟩⟩)

/-- With the other slot lost, only the record in use and the marker hold the lock. -/
theorem Boot.other_lost {s t : NvsStore} {core : NvsCore} (hb : Boot s core)
    (ht : t.slots = update s.slots (!side core.activeSlotIndex) none)
    (hhwm : t.provHwm = s.provHwm) (hno : ¬ IdentityLocked (hwmFlagsOf s.provHwm))
    (hown : ¬ IdentityLocked (NvsCore.slotFlags (validSlot (s.slot core.activeSlotIndex)))) :
    t.load.1.hasValidConfig = true ∧
      t.load.1.activeConfig.settings = core.activeConfig.settings ∧
      ¬ IdentityLocked t.load.1.activeConfig.provisionedFlags := by
  have hleaves : DualSlot.Leaves s.slots (!side core.activeSlotIndex) (CfgSlot.current 0
      core.activeConfig) t.slots := .inl ht
  obtain ⟨k, hk, hside⟩ := NvsCore.slotRule.pick_leaves hb.pick hleaves t.hint
  obtain ⟨hl, hlk⟩ := pick_eq_some hk
  have hgone : t.slots (!side core.activeSlotIndex) = none := by simp [ht]
  have hkept : t.slots (side core.activeSlotIndex) = s.slots (side core.activeSlotIndex) :=
    hleaves.other
  refine ⟨hl.valid, ?_, ?_⟩
  · rcases hside with rfl | ⟨rfl, hnew⟩
    · have hslot := hl.slot
      rw [hlk, hkept, hb.loaded.slot] at hslot
      exact (Option.some.inj hslot).symm
    · rw [hgone] at hnew
      cases hnew
  · rw [hl.locked, hhwm]
    rw [← slots_side, ← hkept] at hown
    cases hs : side core.activeSlotIndex <;> rw [hs] at hgone hown <;>
      simp_all [NvsCore.slotFlags]

/-- **The condition is needed.** -/
theorem commit_cond_of_safe {s : NvsStore} {core : NvsCore} {inCfg : ConfigPayload}
    (hb : Boot s core) (h : CommitSafe s core inCfg) : CommitCond s core inCfg := by
  by_cases hok : NvsCore.checkInput inCfg = espOk
  · have hsel : ∀ v, s.selector = .ok v → v ≤ 1 → v = core.activeSlotIndex := by
      intro v hv hle
      by_contra hne
      obtain ⟨tr, r, t, hrun, x, hx, hw⟩ := commit_writes s core hok
      apply h.1 tr r t hrun x hx
      rw [hw, hv, inactiveSlot_stale hb.loaded.index hle hne]
    refine .inr ⟨hsel, fun hlocked => ?_⟩
    by_cases hhwm : IdentityLocked (hwmFlagsOf s.provHwm)
    · exact .inl hhwm
    by_cases hown : IdentityLocked (NvsCore.slotFlags (validSlot (s.slot core.activeSlotIndex)))
    · exact .inr (.inl hown)
    -- the crash that tears the other slot takes the lock with it
    have hslots := slots_setSlot s (core.inactiveSlot s.selector) (.error espFail)
    rw [inactiveSlot_side hb.loaded.index hsel] at hslots
    obtain ⟨hv, hset, hun⟩ := hb.other_lost hslots (setSlot_provHwm _ _ _) hhwm hown
    have hboot := Prog.playS_exec (H := Call) ideal_call NvsCore.init
      (s.setSlot (core.inactiveSlot s.selector) (.error espFail))
    obtain ⟨-, cfg, hget, hcar⟩ := h.2 _ (commit_torn hok) _ _ _ _ hboot
    have hcfg := hget.symm.trans (init_get hboot hv).2
    cases hcfg
    rcases hcar with ⟨-, hc⟩ | ⟨hs, hc⟩
    · exact absurd (hc hlocked) hun
    · exact .inr (.inr ⟨fun h' => hun (hc h'), hs.symm.trans hset⟩)
  · exact .inl hok

theorem init_run (s : NvsStore) (h : s.load.2 = none) :
    ∃ tr, Prog.Exec Call NvsCore.init s tr (espOk, { s.load.1 with initialized := true }) s := by
  have hrun := Prog.playS_exec (H := Call) ideal_call NvsCore.init s
  obtain ⟨he, hcore, ht⟩ := exec_init hrun
  rcases ht with ht | ⟨v, hv, -⟩
  · refine ⟨(NvsCore.init.playS ideal s).1, ?_⟩
    rw [← he, ← hcore]
    rw [ht] at hrun
    exact hrun
  · rw [h] at hv
    cases hv

/-- Client `c1`, unit `u1`, device `pump`, no network. -/
def pumpConfig : ConfigPayload where
  clientId := charArray 33 [0x63, 0x31]
  unitId := charArray 33 [0x75, 0x31]
  deviceName := charArray 65 [0x70, 0x75, 0x6D, 0x70]
  staSsid := charArray 33 []
  staPass := charArray 64 []
  provisionedFlags := 0
  authorityProfile := authorityProfileStandaloneHmi

/-- Slot A fails its CRC, slot B is valid. -/
def slotBStore (selector : UInt8) : NvsStore where
  slotA := .ok { CfgSlot.current 2 pumpConfig with crc32 := calcCrc32Raw pumpConfig.bytes + 1 }
  slotB := .ok (CfgSlot.current 1 pumpConfig)
  selector := .ok selector
  provHwm := .error espErrNvsNotFound

theorem slotBStore_slots (selector : UInt8) :
    (slotBStore selector).slots false = none ∧
      (slotBStore selector).slots true = some (CfgSlot.current 1 pumpConfig) := by
  constructor
  · exact CfgSlot.isSlotValid_bad_crc 2 pumpConfig
  · have hv : pumpConfig.validate = espOk := by decide +kernel
    show (CfgSlot.current 1 pumpConfig).isSlotValid = _
    exact CfgSlot.isSlotValid_current_ok (by decide) hv

theorem slotBStore_load (selector : UInt8) :
    (slotBStore selector).load =
      ((NvsCore.zero.useSlot 1 (CfgSlot.current 1 pumpConfig)).mergeFlags none
        (some (CfgSlot.current 1 pumpConfig)) 0, none) := by
  obtain ⟨ha, hb⟩ := slotBStore_slots selector
  unfold NvsStore.load
  rw [ha, hb]
  rfl

end Argus
