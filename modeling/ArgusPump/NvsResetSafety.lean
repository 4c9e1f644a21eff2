import ArgusPump.NvsReset
import ArgusPump.Lib.Run

/-!
# Factory resets that are cut off

Factory resets and boots in any order, each finished, failed or cut off anywhere
(`ResetStep`).  A marker that is set stays set until the data is erased, and erased data
stays erased (`ResetStore.Gone`, `ResetStep.gone`); a boot that returns `ESP_OK` has the
marker clear, so the data is erased or was never touched.
-/

namespace Argus

open Interact

/-! ## Init leaves the records alone -/

/-- The same records and provisioning marker; a boot may have repaired the selector. -/
structure NvsStore.Untouched (s t : NvsStore) : Prop where
  slotA : t.slotA = s.slotA
  slotB : t.slotB = s.slotB
  provHwm : t.provHwm = s.provHwm
  selector : t.selector = s.selector ∨ ∃ v, v ≤ 1 ∧ t.selector = .ok v

theorem NvsStore.Untouched.refl (s : NvsStore) : s.Untouched s := ⟨rfl, rfl, rfl, .inl rfl⟩

theorem NvsStore.Untouched.trans {s t u : NvsStore} (h : s.Untouched t) (h' : t.Untouched u) :
    s.Untouched u := by
  refine ⟨h'.slotA.trans h.slotA, h'.slotB.trans h.slotB, h'.provHwm.trans h.provHwm, ?_⟩
  rcases h'.selector with hs | hs
  · rw [hs]
    exact h.selector
  · exact .inr hs

/-- What init may do to the stored data. -/
structure InitKeeps (s t : NvsStore) : Prop where
  untouched : s.Untouched t
  blank : s = .blank → t = .blank

theorem InitKeeps.refl (s : NvsStore) : InitKeeps s s := ⟨.refl s, id⟩

/-- A repair names a slot, and there are two to choose from. -/
theorem load_repair_le {slotA slotB : Option CfgSlot} {selector flags v : UInt8}
    (h : (NvsCore.load slotA slotB selector flags).2 = some v) : v ≤ 1 ∧ slotA.isSome := by
  unfold NvsCore.load NvsCore.recoverSelector at h
  split at h
  · split_ifs at h
    · cases h
      exact ⟨by decide, rfl⟩
    · cases h
      exact ⟨by decide, rfl⟩
  · cases h

theorem readSlot_keeps {s t : NvsStore} {i : UInt8} {r : Except EspErr CfgSlot}
    (h : NvsStore.CallOrFail (.readSlot i) s r t) : t = s ∧ (r = s.slot i ∨ validSlot r = none) := by
  rcases h with ⟨rfl, rfl⟩ | ⟨⟨e, rfl⟩, rfl⟩
  · exact ⟨rfl, .inl rfl⟩
  · exact ⟨rfl, .inr rfl⟩

theorem readHwm_keeps {s t : NvsStore} {r : Except EspErr UInt8}
    (h : NvsStore.CallOrFail .readProvisionedHwm s r t) : t = s := by
  rcases h with ⟨-, h⟩ | ⟨-, h⟩ <;> exact h

theorem writeSelector_untouched {s t : NvsStore} {v : UInt8} {r : EspErr} (hv : v ≤ 1)
    (h : NvsStore.CallOrFail (.writeSelector v) s r t) : s.Untouched t := by
  rcases h with (rfl | ⟨-, rfl⟩) | ⟨hf, -⟩
  · exact ⟨rfl, rfl, rfl, .inr ⟨v, hv, rfl⟩⟩
  · exact .refl _
  · exact hf.elim

theorem load_blank {a b : Option CfgSlot} {selector flags : UInt8} (ha : a = none) (hb : b = none) :
    (NvsCore.load a b selector flags).1.hasValidConfig = false := by
  rw [ha, hb]
  rfl

theorem init_keeps (s : NvsStore) :
    NvsCore.init.wpS NvsStore.CallOrFail
      (fun q t => InitKeeps s t ∧ ∀ u, NvsStore.Cut q t u → InitKeeps s u)
      (fun a t => a.1 = espOk ∧ InitKeeps s t ∧ (s = .blank → a.2.hasValidConfig = false)) s := by
  refine ⟨⟨.refl s, ?_⟩, fun a t ht => ?_⟩
  · rintro u ⟨r, hr⟩
    exact (readSlot_keeps hr).1 ▸ .refl s
  obtain ⟨rfl, ha⟩ := readSlot_keeps ht
  refine ⟨⟨.refl _, ?_⟩, fun b t ht => ?_⟩
  · rintro u ⟨r, hr⟩
    exact (readSlot_keeps hr).1 ▸ .refl _
  obtain ⟨rfl, hb⟩ := readSlot_keeps ht
  refine ⟨⟨.refl _, ?_⟩, fun sel t ht => ?_⟩
  · rintro u ⟨r, hr⟩
    exact readSelector_keeps hr ▸ .refl _
  have hsel := readSelector_keeps ht
  subst hsel
  refine ⟨⟨.refl _, ?_⟩, fun hwm t ht => ?_⟩
  · rintro u ⟨r, hr⟩
    exact readHwm_keeps hr ▸ .refl _
  have hhwm := readHwm_keeps ht
  subst hhwm
  -- on erased flash both reads come back empty
  have hblank : t = .blank → validSlot a = none ∧ validSlot b = none := by
    rintro rfl
    refine ⟨?_, ?_⟩
    · rcases ha with rfl | h
      · rfl
      · exact h
    · rcases hb with rfl | h
      · rfl
      · exact h
  dsimp only
  split
  · next v hv =>
    obtain ⟨hle, hsome⟩ := load_repair_le hv
    have hne : t ≠ .blank := fun h => by
      rw [(hblank h).1] at hsome
      cases hsome
    refine ⟨⟨.refl t, ?_⟩, fun r u hu => ?_⟩
    · rintro u ⟨r, hr⟩
      exact ⟨writeSelector_untouched hle hr, fun h => absurd h hne⟩
    · exact ⟨rfl, ⟨writeSelector_untouched hle hu, fun h => absurd h hne⟩, fun h => absurd h hne⟩
  · exact ⟨rfl, .refl t, fun h => load_blank (hblank h).1 (hblank h).2⟩

/-! ## Every point of a reset and of a boot -/

namespace ResetStore

/-- What a boot from `s` may leave at any point: a marker that is set stays so until the
data is erased, and without a marker init alone touches the data. -/
def Booting (s t : ResetStore) : Prop :=
  if s.pending then t.Gone else t.pending = false ∧ InitKeeps s.data t.data

/-- What a factory reset from `s` may leave. -/
def Resetting (s t : ResetStore) : Prop := t = s ∨ t.Gone

theorem Booting.refl (s : ResetStore) : s.Booting s := by
  unfold Booting
  split
  · next h => exact .inl h
  · next h => exact ⟨by simpa using h, .refl _⟩

theorem Booting.of_gone {s t : ResetStore} (h : s.pending = true) (ht : t.Gone) : s.Booting t := by
  unfold Booting
  rwa [if_pos h]

end ResetStore

open ResetStore

theorem coreInit_keeps (s : ResetStore) :
    coreInit.wpS Call
      (fun q t => (t.pending = s.pending ∧ InitKeeps s.data t.data) ∧
        ∀ u, Cut q t u → u.pending = s.pending ∧ InitKeeps s.data u.data)
      (fun a t => a.1 = espOk ∧ (t.pending = s.pending ∧ InitKeeps s.data t.data) ∧
        (s.data = .blank → a.2.hasValidConfig = false)) s := by
  have hcall : ∀ q t r u, t.pending = s.pending → Call (.nvs q) t r u →
      NvsStore.CallOrFail q t.data r u.data ∧ u.pending = s.pending := by
    intro q t r u ht hc
    exact ⟨hc.1, hc.2.trans ht⟩
  have hlift := Prog.wpS_embed (f := ResetCall.nvs) (g := fun _ r => r)
    hcall NvsCore.init (s := s) rfl (init_keeps s.data)
  refine Prog.wpS_mono ?_ ?_ _ _ hlift
  · rintro _ t ⟨ht, q, rfl, hk, hcut⟩
    refine ⟨⟨ht, hk⟩, ?_⟩
    rintro u ⟨r, hr⟩
    exact ⟨hr.2.trans ht, hcut _ ⟨r, hr.1⟩⟩
  · rintro a t ⟨ht, he, hk, hv⟩
    exact ⟨he, ⟨ht, hk⟩, hv⟩

/-- **The recovery check**: it returns `ESP_OK` with the marker clear, and over erased
data where the marker was set. -/
theorem recoveryCheck_spec (s : ResetStore) :
    recoveryCheck.wpS Call (fun q t => s.Booting t ∧ ∀ u, Cut q t u → s.Booting u)
      (fun e t => (s.pending = false → t = s) ∧ (s.pending = true → t.Gone) ∧
        (e = espOk → t.pending = false)) s := by
  refine ⟨⟨.refl s, ?_⟩, ?_⟩
  · rintro u ⟨r, rfl, -⟩
    exact .refl u
  rintro r t ⟨rfl, hr⟩
  rcases hr with rfl | ⟨e, he, rfl⟩
  · cases hp : t.pending with
    | false => exact ⟨fun _ => rfl, nofun, fun _ => hp⟩
    | true =>
      have herased {r : EspErr} {u : ResetStore} (hu : Call .eraseAll t r u) : u.Gone :=
        .inl (hu.1.trans hp)
      refine ⟨⟨.refl t, fun u ⟨r, hu⟩ => .of_gone hp (herased hu)⟩, fun r u hu => ?_⟩
      beta_reduce
      split
      · next hr => exact ⟨nofun, fun _ => herased hu, fun h => absurd h hr⟩
      · next hr =>
        have hdata : u.data = .blank := hu.2.resolve_right fun h => h.1 (not_not.mp hr)
        have hclear {r : EspErr} {v : ResetStore} (hv : Call (.writeResetPending false) u r v) :
            v.Gone := by
          rcases hv with rfl | ⟨-, rfl⟩
          · exact .inr hdata
          · exact herased hu
        refine ⟨⟨.of_gone hp (herased hu), fun v ⟨r, hv⟩ => .of_gone hp (hclear hv)⟩,
          fun c v hv => ?_⟩
        beta_reduce
        split
        · next hc => exact ⟨nofun, fun _ => hclear hv, fun h => absurd h hc⟩
        · next hc =>
          refine ⟨nofun, fun _ => hclear hv, fun _ => ?_⟩
          rcases hv with rfl | ⟨hf, -⟩
          · rfl
          · exact absurd hf hc
  · refine ⟨fun _ => rfl, fun h => .inl h, fun h => absurd h he⟩

/-- **A boot**: `ESP_OK` only with the marker clear; where it was set, over erased data,
and whatever the boot returns its core holds no stored configuration. -/
theorem configInit_spec (st : NvsStatics) (s : ResetStore) :
    (configInit st).wpS Call (fun q t => s.Booting t ∧ ∀ u, Cut q t u → s.Booting u)
      (fun a t => s.Booting t ∧ (a.1 = espOk → t.pending = false) ∧
        (s.pending = true → a.2.core = st.core ∨ a.2.core.hasValidConfig = false)) s := by
  refine (Prog.wpS_bind _ _ _ _ _).mpr ?_
  refine Prog.wpS_mono (fun _ _ h => h) ?_ _ _ (recoveryCheck_spec s)
  rintro e t ⟨hno, hyes, hclear⟩
  have hbt : s.Booting t := by
    cases hp : s.pending with
    | false => exact hno hp ▸ .refl s
    | true => exact .of_gone hp (hyes hp)
  split
  · next he => exact ⟨hbt, fun h => absurd h he, fun _ => .inl rfl⟩
  · next he =>
    have hpend : t.pending = false := hclear (not_not.mp he)
    -- with the marker clear, what is gone is erased
    have hblank (hp : s.pending = true) : t.data = .blank :=
      (hyes hp).resolve_left (by simp [hpend])
    have hkeep {u : ResetStore} (hu : u.pending = t.pending ∧ InitKeeps t.data u.data) :
        s.Booting u := by
      cases hp : s.pending with
      | false =>
        unfold Booting
        rw [if_neg (by simp [hp])]
        exact ⟨hu.1.trans hpend, hno hp ▸ hu.2⟩
      | true => exact .of_gone hp (.inr (hu.2.blank (hblank hp)))
    refine (Prog.wpS_bind _ _ _ _ _).mpr ?_
    refine Prog.wpS_mono ?_ ?_ _ _ (coreInit_keeps t)
    · rintro q u ⟨hu, hcut⟩
      exact ⟨hkeep hu, fun v hv => hkeep (hcut v hv)⟩
    · rintro a u ⟨ha, hu, hvalid⟩
      rw [if_neg (not_not.mpr ha)]
      refine ⟨hkeep hu, fun _ => hu.1.trans hpend, fun hp => .inr ?_⟩
      have hnone := hvalid (hblank hp)
      show (NvsCore.setDefaults a.2).hasValidConfig = false
      unfold NvsCore.setDefaults
      rw [if_neg (by simp [hnone])]
      exact hnone

/-- **A factory reset** at every point: nothing has happened, or the marker is set, or
the data is erased. -/
theorem factoryReset_spec (st : NvsStatics) (s : ResetStore) :
    (configFactoryReset st).wpS Call (fun q t => s.Resetting t ∧ ∀ u, Cut q t u → s.Resetting u)
      (fun _ t => s.Resetting t) s := by
  have hmark {r : EspErr} {t : ResetStore} (ht : Call (.writeResetPending true) s r t) :
      s.Resetting t := by
    rcases ht with rfl | ⟨-, rfl⟩
    · exact .inr (.inl rfl)
    · exact .inl rfl
  refine (Prog.wpS_bind _ _ _ _ _).mpr ?_
  refine ⟨⟨.inl rfl, fun u ⟨r, hu⟩ => hmark hu⟩, fun r t ht => ?_⟩
  beta_reduce
  split
  · exact hmark ht
  · next hr =>
    have hset : t.pending = true := by
      rcases ht with rfl | ⟨hf, -⟩
      · rfl
      · exact absurd hf hr
    have herased {r : EspErr} {u : ResetStore} (hu : Call .eraseAll t r u) : s.Resetting u :=
      .inr (.inl (hu.1.trans hset))
    refine ⟨⟨hmark ht, fun u ⟨r, hu⟩ => herased hu⟩, fun r u hu => ?_⟩
    beta_reduce
    split
    · exact herased hu
    · next hr =>
      have hdata : u.data = .blank := hu.2.resolve_right fun h => h.1 (not_not.mp hr)
      have hclear {r : EspErr} {v : ResetStore} (hv : Call (.writeResetPending false) u r v) :
          v.data = .blank := by
        rcases hv with rfl | ⟨-, rfl⟩ <;> exact hdata
      refine ⟨⟨herased hu, fun v ⟨r, hv⟩ => .inr (.inr (hclear hv))⟩, fun c v hv => ?_⟩
      refine (Prog.wpS_bind _ _ _ _ _).mpr ?_
      refine Prog.wpS_mono ?_ ?_ _ _ (coreInit_keeps v)
      · rintro q w ⟨hw, hcut⟩
        exact ⟨.inr (.inr (hw.2.blank (hclear hv))),
          fun x hx => .inr (.inr ((hcut x hx).2.blank (hclear hv)))⟩
      · rintro a w ⟨-, hw, -⟩
        have hgone : s.Resetting w := .inr (.inr (hw.2.blank (hclear hv)))
        split <;> exact hgone

/-! ## The marker is cleared after an erase -/

theorem coreInit_asks {s u : ResetStore} {tr : List (Σ q, ResetCall.Answer q)} {pending : Bool} :
    ¬ Prog.Asks Call coreInit s tr (.writeResetPending pending) u := by
  intro h
  obtain ⟨q, hq⟩ := h.of_embed
  cases hq

theorem recoveryCheck_clears {s u : ResetStore} {tr : List (Σ q, ResetCall.Answer q)}
    (h : Prog.Asks Call recoveryCheck s tr (.writeResetPending false) u) :
    ⟨.eraseAll, espOk⟩ ∈ tr := by
  cases h with
  | later _ hk =>
    beta_reduce at hk
    split at hk
    · cases hk
    · cases hk
    · cases hk with
      | later _ hk =>
        beta_reduce at hk
        split at hk
        · cases hk
        · next hr =>
          rw [not_not.mp hr]
          simp

theorem configInit_clears {st : NvsStatics} {s u : ResetStore} {tr : List (Σ q, ResetCall.Answer q)}
    (h : Prog.Asks Call (configInit st) s tr (.writeResetPending false) u) :
    ⟨.eraseAll, espOk⟩ ∈ tr := by
  rcases h.of_bind with h | ⟨tr₁, tr₂, a, t, rfl, -, h⟩
  · exact recoveryCheck_clears h
  · split at h
    · cases h
    · rcases h.of_bind with h | ⟨_, _, _, _, -, -, h⟩
      · exact absurd h coreInit_asks
      · split at h <;> cases h

theorem factoryReset_clears {st : NvsStatics} {s u : ResetStore} {tr : List (Σ q, ResetCall.Answer q)}
    (h : Prog.Asks Call (configFactoryReset st) s tr (.writeResetPending false) u) :
    ⟨.eraseAll, espOk⟩ ∈ tr := by
  rcases h.of_bind with h | ⟨_, _, _, _, -, -, h⟩
  · cases h with
    | later _ hk =>
      beta_reduce at hk
      split at hk
      · cases hk
      · cases hk with
        | later _ hk =>
          beta_reduce at hk
          split at hk
          · cases hk
          · next hr =>
            rw [not_not.mp hr]
            simp
  · cases h

/-! ## Runs -/

inductive ResetOp
  | factoryReset (st : NvsStatics)
  | boot

def ResetOp.prog : ResetOp → ResetProg (EspErr × NvsStatics)
  | .factoryReset st => configFactoryReset st
  | .boot => configInit .zero

/-- The flash and, while the firmware runs, its statics. -/
structure ResetDevice where
  store : ResetStore
  fw : Option NvsStatics

inductive ResetAct
  | done (op : ResetOp) (err : EspErr)
  | cut (op : ResetOp)

def ResetAct.op : ResetAct → ResetOp
  | .done op _ => op
  | .cut op => op

/-- A factory reset needs running firmware; a boot starts from anything. -/
def ResetOp.Enabled (d : ResetDevice) : ResetOp → Prop
  | .factoryReset st => d.fw = some st
  | .boot => True

/-- A factory reset or a boot, finished or cut off. -/
inductive ResetStep : ResetDevice → ResetAct → ResetDevice → Prop
  | done {d : ResetDevice} {op : ResetOp} {tr : List (Σ q, ResetCall.Answer q)} {err : EspErr}
      {st : NvsStatics} {t : ResetStore} :
      op.Enabled d → Prog.Exec Call op.prog d.store tr (err, st) t →
      ResetStep d (.done op err) ⟨t, some st⟩
  | cut {d : ResetDevice} {op : ResetOp} {t : ResetStore} :
      op.Enabled d → Prog.Crash Call Cut op.prog d.store t → ResetStep d (.cut op) ⟨t, none⟩

abbrev ResetMove := Move ResetDevice ResetAct

theorem ResetAct.clears {act : ResetAct} {s u : ResetStore} {tr : List (Σ q, ResetCall.Answer q)}
    (h : Prog.Asks Call act.op.prog s tr (.writeResetPending false) u) :
    ⟨.eraseAll, espOk⟩ ∈ tr := by
  cases hop : act.op with
  | factoryReset st =>
    rw [hop] at h
    exact factoryReset_clears h
  | boot =>
    rw [hop] at h
    exact configInit_clears h

/-- What a step leaves of the flash. -/
theorem ResetStep.leaves {d e : ResetDevice} {act : ResetAct} (h : ResetStep d act e) :
    match act.op with
    | .factoryReset _ => d.store.Resetting e.store
    | .boot => d.store.Booting e.store := by
  cases h with
  | @done op _ _ _ _ _ hr =>
    cases op with
    | factoryReset st => exact hr.of_wpS (factoryReset_spec st d.store)
    | boot => exact (hr.of_wpS (configInit_spec .zero d.store)).1
  | @cut op _ _ hr =>
    cases op with
    | factoryReset st => exact hr.of_wpS (factoryReset_spec st d.store)
    | boot =>
      exact hr.of_wpS (Prog.wpS_mono (fun _ _ h => h) (fun _ _ h => h.1) _ _
        (configInit_spec .zero d.store))

theorem ResetStep.gone {d e : ResetDevice} {act : ResetAct} (h : ResetStep d act e)
    (hd : d.store.Gone) : e.store.Gone := by
  have hleaves := h.leaves
  split at hleaves
  · rcases hleaves with heq | hg
    · rwa [heq]
    · exact hg
  · unfold Booting at hleaves
    split at hleaves
    · exact hleaves
    · next hp =>
      exact .inr (hleaves.2.blank (hd.resolve_left hp))

theorem ResetStep.untouched {d e : ResetDevice} {act : ResetAct} (h : ResetStep d act e) :
    d.store.data.Untouched e.store.data ∨ e.store.Gone := by
  have hleaves := h.leaves
  split at hleaves
  · rcases hleaves with heq | hg
    · rw [heq]
      exact .inl (.refl _)
    · exact .inr hg
  · unfold Booting at hleaves
    split at hleaves
    · exact .inr hleaves
    · exact .inl hleaves.2.untouched

/-- A boot that returns `ESP_OK` has the marker clear. -/
theorem ResetStep.boot_clear {d e : ResetDevice} (h : ResetStep d (.done .boot espOk) e) :
    e.store.pending = false := by
  cases h with
  | done _ hr => exact (hr.of_wpS (configInit_spec .zero d.store)).2.1 rfl

/-- A boot that finds the marker set ends with no stored configuration in the core. -/
theorem ResetStep.boot_hides {d e : ResetDevice} {err : EspErr}
    (h : ResetStep d (.done .boot err) e) (hp : d.store.pending = true) :
    ∃ st, e.fw = some st ∧ st.core.get = .error espErrNotFound := by
  cases h with
  | @done _ _ _ st _ _ hr =>
    refine ⟨st, rfl, ?_⟩
    have hnone : st.core.hasValidConfig = false := by
      rcases (hr.of_wpS (configInit_spec .zero d.store)).2.2 hp with hcore | hcore
      · exact congrArg NvsCore.hasValidConfig hcore
      · exact hcore
    unfold NvsCore.get
    rw [if_pos (by simp [hnone])]

/-- Data that is not gone at the end of a run never was, and nothing but a selector
repair has happened to it. -/
theorem run_untouched {d : ResetDevice} {ms : List ResetMove} (h : IsRun ResetStep d ms)
    (hend : ¬ (final d ms).store.Gone) :
    d.store.data.Untouched (final d ms).store.data ∧ ∀ m ∈ ms, ¬ m.pre.store.Gone := by
  induction ms generalizing d with
  | nil => exact ⟨.refl _, by simp⟩
  | cons m ms ih =>
    obtain ⟨rfl, hs, hr⟩ := h
    obtain ⟨hu, hall⟩ := ih hr hend
    have hpost : ¬ m.post.store.Gone := by
      intro hg
      exact hend ((hr.inv (I := fun e => e.store.Gone) hg fun n hn hs => hs.gone hn).2)
    refine ⟨(hs.untouched.resolve_right hpost).trans hu, fun n hn => ?_⟩
    rcases List.mem_cons.mp hn with rfl | hn
    · exact fun hg => hpost (hs.gone hg)
    · exact hall n hn

theorem factory_reset_crash_safe {d : ResetDevice} {ms : List ResetMove} {v : ResetMove}
    (h : IsRun ResetStep d (ms ++ [v])) :
    (v.ev = .done .boot espOk →
      v.post.store.pending = false ∧
        (v.post.store.data = .blank ∨
          d.store.data.Untouched v.post.store.data ∧
            ∀ m ∈ ms ++ [v], m.pre.store.pending = false)) ∧
    (∀ tr u, Prog.Asks Call v.ev.op.prog v.pre.store tr (.writeResetPending false) u →
      ⟨.eraseAll, espOk⟩ ∈ tr) ∧
    (∀ err, v.ev = .done .boot err → v.pre.store.pending = true →
      ∃ st, v.post.fw = some st ∧ st.core.get = .error espErrNotFound) := by
  have hstep := h.step_of_mem v (by simp)
  have hfinal : final d (ms ++ [v]) = v.post := by rw [final_append]; rfl
  refine ⟨fun hboot => ?_, fun tr u ha => ResetAct.clears ha, fun err hboot hp => ?_⟩
  · rw [hboot] at hstep
    refine ⟨hstep.boot_clear, ?_⟩
    by_cases hg : v.post.store.Gone
    · exact .inl (hg.resolve_left (by simp [hstep.boot_clear]))
    · obtain ⟨hu, hall⟩ := run_untouched h (by rwa [hfinal])
      rw [hfinal] at hu
      refine .inr ⟨hu, fun m hm => ?_⟩
      have hm := hall m hm
      simp only [Gone, not_or, Bool.not_eq_true] at hm
      exact hm.1
  · rw [hboot] at hstep
    exact hstep.boot_hides hp

/-- A driver none of whose calls fails. -/
def ResetStore.ideal : (q : ResetCall) → ResetStore → q.Answer × ResetStore
  | .nvs q, s => ((NvsStore.ideal q s.data).1, { s with data := (NvsStore.ideal q s.data).2 })
  | .readResetPending, s => (.ok s.pending, s)
  | .writeResetPending pending, s => (espOk, { s with pending := pending })
  | .eraseAll, s => (espOk, { s with data := .blank })

theorem ResetStore.ideal_call (q : ResetCall) (s : ResetStore) :
    Call q s (ideal q s).1 (ideal q s).2 := by
  cases q with
  | nvs q => exact ⟨.inl (Argus.ideal_call q s.data), rfl⟩
  | readResetPending => exact ⟨rfl, .inl rfl⟩
  | writeResetPending pending => exact .inl rfl
  | eraseAll => exact ⟨rfl, .inl rfl⟩

/-- Slot B of `slotBStore 1` erased, the marker set. -/
def tornReset : ResetStore := ⟨{ slotBStore 1 with slotB := .error espErrNvsNotFound }, true⟩

/-- The device after a boot on `tornReset`. -/
def rebooted : ResetDevice :=
  let run := (configInit .zero).playS ResetStore.ideal tornReset
  ⟨run.2.2, some run.2.1.2⟩

theorem torn_step :
    ResetStep ⟨⟨slotBStore 1, false⟩, some .zero⟩ (.cut (.factoryReset .zero)) ⟨tornReset, none⟩ := by
  have herase : Cut .eraseAll ⟨slotBStore 1, true⟩ tornReset :=
    ⟨espFail, rfl, .inr ⟨nofun, .inl rfl, .inr rfl, .inl rfl, .inl rfl⟩⟩
  exact .cut rfl (.later (r := espOk) (.inl rfl) (.inside herase))

theorem reboot_step : ResetStep ⟨tornReset, none⟩ (.done .boot espOk) rebooted :=
  .done trivial (Prog.playS_exec ResetStore.ideal_call (configInit .zero) tornReset)

/-- A factory reset cut off half way through its erase, and the boot after it. -/
theorem factory_reset_interrupted : rebooted.store.pending = false ∧ rebooted.store.data = .blank := by
  let start : ResetDevice := ⟨⟨slotBStore 1, false⟩, some .zero⟩
  let cut : ResetMove := ⟨start, .cut (.factoryReset .zero), ⟨tornReset, none⟩⟩
  let boot : ResetMove := ⟨⟨tornReset, none⟩, .done .boot espOk, rebooted⟩
  have hrun : IsRun ResetStep start ([cut] ++ [boot]) :=
    ⟨rfl, torn_step, rfl, reboot_step, trivial⟩
  obtain ⟨hclear, hdata⟩ := (factory_reset_crash_safe hrun).1 rfl
  refine ⟨hclear, hdata.resolve_right fun h => ?_⟩
  exact absurd (h.2 boot (by simp)) (by simp [boot, tornReset])

end Argus
