import ArgusPump.NvsCommit

/-!
# Factory reset

`main/argus_nvs_config.c`: `argus_nvs_core_recovery_check`,
`argus_nvs_core_factory_reset`, `argus_nvs_config_init` and `prod_erase_all`.  The
pending marker lives in a namespace of its own, which the erase does not touch: the
production erase is an erase of the driver's table (`prodEraseAll_call`).

A boot starts where `nvs_flash_init` has returned `ESP_OK` (or a driver is injected).
-/

namespace Argus

open Interact

/-! ## The calls -/

/-- The calls of `argus_nvs_driver_t`. -/
inductive ResetCall
  | nvs (q : NvsCall)
  | readResetPending
  | writeResetPending (pending : Bool)
  | eraseAll

abbrev ResetCall.Answer : ResetCall → Type
  | .nvs q => q.Answer
  | .readResetPending => Except EspErr Bool
  | .writeResetPending _ => EspErr
  | .eraseAll => EspErr

abbrev ResetProg := Prog ResetCall ResetCall.Answer

/-- `argus_nvs_core_init` over the whole driver. -/
def coreInit : ResetProg (EspErr × NvsCore) := NvsCore.init.embed .nvs fun _ r => r

/-- `argus_nvs_core_recovery_check`. -/
def recoveryCheck : ResetProg EspErr :=
  .ask .readResetPending fun pend =>
  match pend with
  | .error pendErr => .ret pendErr
  | .ok false => .ret espOk
  | .ok true =>
    .ask .eraseAll fun eraseErr =>
    -- the marker stays: the next boot tries again
    if eraseErr ≠ espOk then .ret eraseErr
    else
      .ask (.writeResetPending false) fun clearErr =>
      if clearErr ≠ espOk then .ret clearErr else .ret espOk

/-- `argus_nvs_core_factory_reset`. -/
def coreFactoryReset (core : NvsCore) : ResetProg (EspErr × NvsCore) :=
  .ask (.writeResetPending true) fun pendErr =>
  if pendErr ≠ espOk then .ret (pendErr, core)
  else
    .ask .eraseAll fun eraseErr =>
    if eraseErr ≠ espOk then .ret (eraseErr, core)
    else
      -- a marker that cannot be cleared is reported, the core follows the erased data
      .ask (.writeResetPending false) fun clearErr =>
      coreInit >>= fun r => if r.1 ≠ espOk then .ret r else .ret (clearErr, r.2)

/-- The defaults of an uncommissioned device. -/
def NvsCore.setDefaults (core : NvsCore) : NvsCore :=
  if core.hasValidConfig then core
  else { core with activeConfig := { core.activeConfig with
      clientId := charArray 33 (asciiBytes "default_client")
      unitId := charArray 33 (asciiBytes "unit_01")
      deviceName := charArray 65 (asciiBytes "Argus Peristaltic Pump V2") } }

/-- `s_prod_core` and `s_initialized`. -/
structure NvsStatics where
  core : NvsCore
  initialized : Bool

def NvsStatics.zero : NvsStatics := ⟨.zero, false⟩

/-- `argus_nvs_config_init`. -/
def configInit (st : NvsStatics) : ResetProg (EspErr × NvsStatics) :=
  recoveryCheck >>= fun recoveryErr =>
  if recoveryErr ≠ espOk then .ret (recoveryErr, { st with initialized := false })
  else
    coreInit >>= fun r =>
    if r.1 ≠ espOk then .ret (r.1, ⟨r.2, false⟩)
    else .ret (espOk, ⟨r.2.setDefaults, true⟩)

/-- `argus_nvs_config_factory_reset`. -/
def configFactoryReset (st : NvsStatics) : ResetProg (EspErr × NvsStatics) :=
  coreFactoryReset st.core >>= fun r => .ret (r.1, { st with core := r.2.setDefaults })

/-! ## The driver -/

/-- The stored data and the marker: does `rst_pend` hold 1? -/
structure ResetStore where
  data : NvsStore
  pending : Bool

/-- The key holds what it held, or is gone. -/
def KeptOrErased {α : Type} (old new : Except EspErr α) : Prop :=
  new = old ∨ new = .error espErrNvsNotFound

structure NvsStore.PartlyErased (s t : NvsStore) : Prop where
  slotA : KeptOrErased s.slotA t.slotA
  slotB : KeptOrErased s.slotB t.slotB
  selector : KeptOrErased s.selector t.selector
  provHwm : KeptOrErased s.provHwm t.provHwm

namespace ResetStore

/-- Any call may fail.  A write that fails may still have taken effect; a failed erase
leaves some keys and not others. -/
def Call : (q : ResetCall) → ResetStore → q.Answer → ResetStore → Prop
  | .nvs q, s, r, t => NvsStore.CallOrFail q s.data r t.data ∧ t.pending = s.pending
  | .readResetPending, s, r, t => t = s ∧ (r = .ok s.pending ∨ ∃ e, e ≠ espOk ∧ r = .error e)
  | .writeResetPending pending, s, r, t => t = { s with pending := pending } ∨ r ≠ espOk ∧ t = s
  | .eraseAll, s, r, t => t.pending = s.pending ∧
      (t.data = .blank ∨ r ≠ espOk ∧ s.data.PartlyErased t.data)

def Cut (q : ResetCall) (s t : ResetStore) : Prop := ∃ r, Call q s r t

/-- The marker is set, or there is nothing left to erase. -/
def Gone (s : ResetStore) : Prop := s.pending = true ∨ s.data = .blank

end ResetStore

/-! ## The production erase -/

/-- The NVS namespaces. -/
inductive NvsNamespace
  | cfg
  | sys
  | rst
deriving DecidableEq

/-- `argus_nvs_config_namespace_in_factory_reset_scope`. -/
def NvsNamespace.inFactoryResetScope (ns : NvsNamespace) : Bool := ns = .cfg || ns = .sys

inductive FlashCall
  | nvsOpen (ns : NvsNamespace)
  | nvsEraseAll (ns : NvsNamespace)
  | nvsCommit (ns : NvsNamespace)

abbrev FlashCall.Answer : FlashCall → Type := fun _ => EspErr

abbrev FlashProg := Prog FlashCall FlashCall.Answer

/-- The first error is kept. -/
def keepFirst (firstErr err : EspErr) : EspErr :=
  if err ≠ espOk ∧ firstErr = espOk then err else firstErr

/-- One pass of the loop of `prod_erase_all`. -/
def eraseNamespace (firstErr : EspErr) (ns : NvsNamespace) : FlashProg EspErr :=
  if ¬ ns.inFactoryResetScope then .ret (if firstErr = espOk then espErrInvalidState else firstErr)
  else
    .ask (.nvsOpen ns) fun openErr =>
    if openErr = espOk then
      .ask (.nvsEraseAll ns) fun eraseErr =>
      .ask (.nvsCommit ns) fun commitErr =>
      .ret (keepFirst (keepFirst firstErr eraseErr) commitErr)
    else .ret (if openErr ≠ espErrNvsNotFound ∧ firstErr = espOk then openErr else firstErr)

/-- `prod_erase_all`. -/
def prodEraseAll : FlashProg EspErr := [NvsNamespace.cfg, .sys].foldlM eraseNamespace espOk

/-- The flash, and the namespace whose erase waits for its commit. -/
structure Flash where
  store : ResetStore
  staged : Option NvsNamespace

namespace ResetStore

/-- Some keys of the namespace are gone. -/
structure ErasedIn (ns : NvsNamespace) (s t : ResetStore) : Prop where
  data : s.data.PartlyErased t.data
  cfg : ns ≠ .cfg → t.data.slotA = s.data.slotA ∧ t.data.slotB = s.data.slotB ∧
    t.data.selector = s.data.selector
  sys : ns ≠ .sys → t.data.provHwm = s.data.provHwm
  rst : ns ≠ .rst → t.pending = s.pending

/-- No key of the namespace is left. -/
def Empty (s : ResetStore) : NvsNamespace → Prop
  | .cfg => s.data.slotA = .error espErrNvsNotFound ∧ s.data.slotB = .error espErrNvsNotFound ∧
      s.data.selector = .error espErrNvsNotFound
  | .sys => s.data.provHwm = .error espErrNvsNotFound
  | .rst => s.pending = false

end ResetStore

/-- An erase is certain only once its commit has returned `ESP_OK`; a namespace that
cannot be found has no keys. -/
def Flash.Call : (q : FlashCall) → Flash → q.Answer → Flash → Prop
  | .nvsOpen ns, f, r, g => g = { f with staged := none } ∧ (r = espErrNvsNotFound → f.store.Empty ns)
  | .nvsEraseAll ns, f, r, g => f.store.ErasedIn ns g.store ∧ (r = espOk → g.staged = some ns)
  | .nvsCommit ns, f, r, g => f.store.ErasedIn ns g.store ∧
      (r = espOk → f.staged = some ns → g.store.Empty ns)

theorem KeptOrErased.refl {α : Type} (a : Except EspErr α) : KeptOrErased a a := .inl rfl

theorem KeptOrErased.trans {α : Type} {a b c : Except EspErr α} (h : KeptOrErased a b)
    (h' : KeptOrErased b c) : KeptOrErased a c := by
  rcases h' with rfl | rfl
  · exact h
  · exact .inr rfl

theorem NvsStore.PartlyErased.trans {s t u : NvsStore} (h : s.PartlyErased t)
    (h' : t.PartlyErased u) : s.PartlyErased u :=
  ⟨h.slotA.trans h'.slotA, h.slotB.trans h'.slotB, h.selector.trans h'.selector,
    h.provHwm.trans h'.provHwm⟩

theorem ResetStore.ErasedIn.refl (ns : NvsNamespace) (s : ResetStore) : s.ErasedIn ns s :=
  ⟨⟨.refl _, .refl _, .refl _, .refl _⟩, fun _ => ⟨rfl, rfl, rfl⟩, fun _ => rfl, fun _ => rfl⟩

theorem ResetStore.ErasedIn.trans {ns : NvsNamespace} {s t u : ResetStore} (h : s.ErasedIn ns t)
    (h' : t.ErasedIn ns u) : s.ErasedIn ns u := by
  refine ⟨h.data.trans h'.data, fun hn => ?_, fun hn => (h'.sys hn).trans (h.sys hn),
    fun hn => (h'.rst hn).trans (h.rst hn)⟩
  obtain ⟨ha, hb, hs⟩ := h.cfg hn
  obtain ⟨ha', hb', hs'⟩ := h'.cfg hn
  exact ⟨ha'.trans ha, hb'.trans hb, hs'.trans hs⟩

theorem keepFirst_ok {firstErr err : EspErr} (h : keepFirst firstErr err = espOk) :
    firstErr = espOk ∧ err = espOk := by
  unfold keepFirst at h
  split at h
  · next hc => exact absurd h hc.1
  · next hc =>
    refine ⟨h, ?_⟩
    by_contra hne
    exact hc ⟨hne, h⟩

def Flash.Cut (q : FlashCall) (f g : Flash) : Prop := ∃ r, Flash.Call q f r g

theorem Flash.Call.erasedIn {ns : NvsNamespace} {f g : Flash} {r : EspErr} :
    (Flash.Call (.nvsOpen ns) f r g → f.store.ErasedIn ns g.store) ∧
      (Flash.Call (.nvsEraseAll ns) f r g → f.store.ErasedIn ns g.store) ∧
      (Flash.Call (.nvsCommit ns) f r g → f.store.ErasedIn ns g.store) := by
  refine ⟨?_, fun h => h.1, fun h => h.1⟩
  rintro ⟨rfl, -⟩
  exact .refl ns f.store

/-- One pass: keys of the namespace only, all of them where no error is reported. -/
theorem eraseNamespace_spec (firstErr : EspErr) {ns : NvsNamespace} (hns : ns.inFactoryResetScope)
    (f : Flash) :
    (eraseNamespace firstErr ns).wpS Flash.Call
      (fun q g => f.store.ErasedIn ns g.store ∧
        ∀ k, Flash.Cut q g k → f.store.ErasedIn ns k.store)
      (fun e g => f.store.ErasedIn ns g.store ∧ (e = espOk → firstErr = espOk ∧ g.store.Empty ns))
      f := by
  unfold eraseNamespace
  rw [if_neg (not_not.mpr hns)]
  refine ⟨⟨.refl _ _, fun k ⟨r, hr⟩ => Flash.Call.erasedIn.1 hr⟩, fun openErr g hopen => ?_⟩
  obtain ⟨rfl, hmissing⟩ := hopen
  beta_reduce
  split
  · refine ⟨⟨.refl _ _, fun k ⟨r, hr⟩ => Flash.Call.erasedIn.2.1 hr⟩, ?_⟩
    rintro eraseErr g ⟨herase, hstaged⟩
    refine ⟨⟨herase, fun k ⟨r, hr⟩ => herase.trans (Flash.Call.erasedIn.2.2 hr)⟩, ?_⟩
    rintro commitErr k hcommit
    refine ⟨herase.trans hcommit.1, fun he => ?_⟩
    obtain ⟨he, hcommitOk⟩ := keepFirst_ok he
    obtain ⟨hfirst, heraseOk⟩ := keepFirst_ok he
    exact ⟨hfirst, hcommit.2 hcommitOk (hstaged heraseOk)⟩
  · next hopen =>
    refine ⟨.refl _ _, fun he => ?_⟩
    by_cases hc : openErr ≠ espErrNvsNotFound ∧ firstErr = espOk
    · rw [if_pos hc] at he
      exact absurd he hopen
    · rw [if_neg hc] at he
      refine ⟨he, hmissing ?_⟩
      by_contra hne
      exact hc ⟨hne, he⟩

/-- The marker is as before, and some keys are gone. -/
def Flash.Erasing (f g : Flash) : Prop :=
  g.store.pending = f.store.pending ∧ f.store.data.PartlyErased g.store.data

theorem prodEraseAll_spec (f : Flash) :
    prodEraseAll.wpS Flash.Call (fun q g => f.Erasing g ∧ ∀ k, Flash.Cut q g k → f.Erasing k)
      (fun r g => f.Erasing g ∧ (r = espOk → g.store.data = .blank)) f := by
  have hcfg {g : Flash} (h : f.store.ErasedIn .cfg g.store) : f.Erasing g := ⟨h.rst nofun, h.data⟩
  refine (Prog.wpS_bind _ _ _ _ _).mpr ?_
  refine Prog.wpS_mono (fun q g h => ⟨hcfg h.1, fun k hk => hcfg (h.2 k hk)⟩) ?_ _ _
    (eraseNamespace_spec espOk rfl f)
  rintro e g ⟨hg, hempty⟩
  have hsys {k : Flash} (h : g.store.ErasedIn .sys k.store) : f.Erasing k :=
    ⟨(h.rst nofun).trans (hg.rst nofun), hg.data.trans h.data⟩
  refine (Prog.wpS_bind _ _ _ _ _).mpr ?_
  refine Prog.wpS_mono (fun q k h => ⟨hsys h.1, fun l hl => hsys (h.2 l hl)⟩) ?_ _ _
    (eraseNamespace_spec e rfl g)
  rintro e' k ⟨hk, hempty'⟩
  refine ⟨hsys hk, fun he => ?_⟩
  obtain ⟨he, hprov⟩ := hempty' he
  obtain ⟨-, ha, hb, hsel⟩ := hempty he
  obtain ⟨ha', hb', hsel'⟩ := hk.cfg nofun
  have hkeys : k.store.data = ⟨k.store.data.slotA, k.store.data.slotB, k.store.data.selector,
      k.store.data.provHwm⟩ := rfl
  rw [hkeys, ha', hb', hsel', ha, hb, hsel, hprov]
  rfl

/-- **The production erase is an erase of the driver's table**: the marker survives it,
and `ESP_OK` means that nothing else is left. -/
theorem prodEraseAll_call {f g : Flash} {tr : List (Σ q, FlashCall.Answer q)} {r : EspErr}
    (h : Prog.Exec Flash.Call prodEraseAll f tr r g) :
    ResetStore.Call .eraseAll f.store r g.store := by
  obtain ⟨⟨hpend, hpart⟩, hdone⟩ := h.of_wpS (prodEraseAll_spec f)
  refine ⟨hpend, ?_⟩
  by_cases hr : r = espOk
  · exact .inl (hdone hr)
  · exact .inr ⟨hr, hpart⟩

theorem prodEraseAll_cut {f g : Flash} (h : Prog.Crash Flash.Call Flash.Cut prodEraseAll f g) :
    ResetStore.Cut .eraseAll f.store g.store := by
  obtain ⟨hpend, hpart⟩ := h.of_wpS
    (Prog.wpS_mono (fun _ _ h => h) (fun _ _ h => h.1) _ _ (prodEraseAll_spec f))
  exact ⟨espFail, hpend, .inr ⟨nofun, hpart⟩⟩

end Argus
