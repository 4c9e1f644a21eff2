import ArgusPump.NvsConfig

/-!
# The configuration overlay

`main/argus_config_overlay.c`: the fields of a request laid over the current configuration,
one scope at a time.  `out_cfg` is the second component of what a function returns.

    the overlay keeps its contract
      ↔ not a Wi-Fi request whose password is the mask or is missing, over another
        configuration than the one in `out_cfg`                          (overlay_holds)

Left out: NULL arguments and the parser of the scope's name.
-/

namespace Argus

/-- `snprintf(dst, n, "%s", s)`: the bytes behind the terminator stay. -/
def snprintf {n : Nat} (dst : Vector UInt8 n) (s : List UInt8) : Vector UInt8 n :=
  putString dst (s.take (n - 1))

theorem cString_snprintf {n : Nat} (dst : Vector UInt8 n) {s : List UInt8} (hn : 0 < n)
    (h0 : 0 ∉ s) : cString (snprintf dst s) = s.take (n - 1) := by
  refine cString_putString dst ?_ fun hmem => h0 (List.mem_of_mem_take hmem)
  rw [List.length_take]
  omega

/-- The string of an array survives, up to the room of the other. -/
theorem cString_snprintf_cString {m n : Nat} (dst : Vector UInt8 n) (src : Vector UInt8 m)
    (hn : 0 < n) : cString (snprintf dst (cString src)) = (cString src).take (n - 1) :=
  cString_snprintf dst hn (zero_notMem_cString src)

/-! ## The request -/

/-- `argus_config_scope_t`. -/
inductive ConfigScope
  | identity
  | wifi
  | invalid
deriving DecidableEq

/-- `argus_config_fields_t`. -/
structure ConfigFields where
  hasClientId : Bool
  hasUnitId : Bool
  hasDeviceName : Bool
  clientId : Vector UInt8 33
  unitId : Vector UInt8 33
  deviceName : Vector UInt8 65
  hasStaSsid : Bool
  hasStaPass : Bool
  staSsid : Vector UInt8 33
  staPass : Vector UInt8 64
deriving DecidableEq

/-- `argus_config_overlay_result_t`; the texts are `NULL` on success. -/
structure ConfigOverlayResult where
  success : Bool
  errorCode : Option String
  errorMessage : Option String
deriving DecidableEq

namespace ConfigOverlayResult

def ok : ConfigOverlayResult := ⟨true, none, none⟩

def error (code message : String) : ConfigOverlayResult := ⟨false, some code, some message⟩

end ConfigOverlayResult

namespace ConfigPayload

/-- The identity fields over the current configuration, and the lock. -/
def overlayIdentity (current : ConfigPayload) (fields : ConfigFields) : ConfigPayload :=
  { current with
    clientId := snprintf current.clientId (cString fields.clientId)
    unitId := snprintf current.unitId (cString fields.unitId)
    deviceName := snprintf current.deviceName (cString fields.deviceName)
    provisionedFlags := current.provisionedFlags ||| cfgProvisionedIdentity }

def clearWifi (current : ConfigPayload) : ConfigPayload :=
  { current with staSsid := .replicate 33 0, staPass := .replicate 64 0 }

def setPass (cfg : ConfigPayload) (pass : List UInt8) : ConfigPayload :=
  { cfg with staPass := snprintf cfg.staPass pass }

def setSsid (cfg : ConfigPayload) (ssid : List UInt8) : ConfigPayload :=
  { cfg with staSsid := snprintf cfg.staSsid ssid }

end ConfigPayload

open ConfigOverlayResult in
def applyIdentity (current : ConfigPayload) (fields : ConfigFields) (outCfg : ConfigPayload) :
    ConfigOverlayResult × ConfigPayload :=
  if IdentityLocked current.provisionedFlags then
    (error "identity_locked" "Identity is locked after initial provisioning", outCfg)
  else if ¬ fields.hasClientId ∨ ¬ fields.hasUnitId ∨ ¬ fields.hasDeviceName then
    (error "all_identity_fields_required"
      "client_id, unit_id, and device_name are all required", outCfg)
  else if ¬ identityValidateClientId fields.clientId then
    (error "invalid_client_id" "client_id: 1-32 alphanumeric, hyphens, or underscores", outCfg)
  else if ¬ identityValidateUnitId fields.unitId then
    (error "invalid_unit_id" "unit_id: 1-32 alphanumeric, hyphens, or underscores", outCfg)
  else if ¬ identityValidateDeviceName fields.deviceName then
    (error "invalid_device_name" "device_name: 1-64 printable ASCII characters", outCfg)
  else (ok, current.overlayIdentity fields)

open ConfigOverlayResult in
def applyWifi (current : ConfigPayload) (fields : ConfigFields) (outCfg : ConfigPayload) :
    ConfigOverlayResult × ConfigPayload :=
  if ¬ fields.hasStaSsid then
    (error "sta_ssid_required" "sta_ssid field is required for WiFi scope", outCfg)
  -- from here on `out_cfg` holds the copy of the current configuration
  else if strlen fields.staSsid = 0 then (ok, current.clearWifi)
  else if fields.hasStaPass ∧ cString fields.staPass = configMaskString then
    (error "mask_string_not_accepted" "Cannot use the mask string as a password", current)
  else if fields.hasStaPass ∧ 0 < strlen fields.staPass then
    (ok, (current.setPass (cString fields.staPass)).setSsid (cString fields.staSsid))
  else if cString fields.staSsid = cString current.staSsid then
    (ok, current.setSsid (cString fields.staSsid))
  else
    (error "password_required_for_new_ssid"
      "Password is required when changing the WiFi network", current)

open ConfigOverlayResult in
/-- `argus_config_overlay_apply`. -/
def configOverlayApply (current : ConfigPayload) (scope : ConfigScope) (fields : ConfigFields)
    (outCfg : ConfigPayload) : ConfigOverlayResult × ConfigPayload :=
  match scope with
  | .identity => applyIdentity current fields outCfg
  | .wifi => applyWifi current fields outCfg
  | .invalid => (error "invalid_scope" "scope must be identity or wifi", outCfg)

/-! ## What each scope can do -/

/-- A password comes with the request. -/
def ConfigFields.Supplied (fields : ConfigFields) : Prop :=
  fields.hasStaPass = true ∧ 0 < strlen fields.staPass

/-- A Wi-Fi request refused after the copy: the mask as password, or a new network
without a password. -/
def RefusedLate (current : ConfigPayload) (fields : ConfigFields) : Prop :=
  fields.hasStaSsid = true ∧ strlen fields.staSsid ≠ 0 ∧
    (fields.hasStaPass = true ∧ cString fields.staPass = configMaskString ∨
      ¬ fields.Supplied ∧ cString fields.staSsid ≠ cString current.staSsid)

theorem applyIdentity_cases (current : ConfigPayload) (fields : ConfigFields)
    (outCfg : ConfigPayload) :
    ((applyIdentity current fields outCfg).1.success = false ∧
      (applyIdentity current fields outCfg).2 = outCfg) ∨
    (¬ IdentityLocked current.provisionedFlags ∧
      identityValidateClientId fields.clientId = true ∧
      identityValidateUnitId fields.unitId = true ∧
      identityValidateDeviceName fields.deviceName = true ∧
      (applyIdentity current fields outCfg).1.success = true ∧
      (applyIdentity current fields outCfg).2 = current.overlayIdentity fields) := by
  unfold applyIdentity
  split
  · exact .inl ⟨rfl, rfl⟩
  · next hlock =>
    split
    · exact .inl ⟨rfl, rfl⟩
    · split
      · exact .inl ⟨rfl, rfl⟩
      · next hclient =>
        split
        · exact .inl ⟨rfl, rfl⟩
        · next hunit =>
          split
          · exact .inl ⟨rfl, rfl⟩
          · next hname =>
            exact .inr ⟨hlock, not_not.mp hclient, not_not.mp hunit, not_not.mp hname, rfl, rfl⟩

theorem applyWifi_cases (current : ConfigPayload) (fields : ConfigFields)
    (outCfg : ConfigPayload) :
    (fields.hasStaSsid = false ∧ (applyWifi current fields outCfg).1.success = false ∧
      (applyWifi current fields outCfg).2 = outCfg) ∨
    (RefusedLate current fields ∧ (applyWifi current fields outCfg).1.success = false ∧
      (applyWifi current fields outCfg).2 = current) ∨
    (fields.hasStaSsid = true ∧ ¬ RefusedLate current fields ∧
      (applyWifi current fields outCfg).1.success = true ∧
      (applyWifi current fields outCfg).2 =
        if strlen fields.staSsid = 0 then current.clearWifi
        else if fields.hasStaPass ∧ 0 < strlen fields.staPass then
          (current.setPass (cString fields.staPass)).setSsid (cString fields.staSsid)
        else current.setSsid (cString fields.staSsid)) := by
  unfold applyWifi
  split
  · next hno => exact .inl ⟨Bool.not_eq_true _ ▸ hno, rfl, rfl⟩
  · next hssid =>
    have hssid : fields.hasStaSsid = true := not_not.mp hssid
    refine .inr ?_
    split
    · next hempty => exact .inr ⟨hssid, fun h => h.2.1 hempty, rfl, rfl⟩
    · next hnonempty =>
      split
      · next hmask => exact .inl ⟨⟨hssid, hnonempty, .inl hmask⟩, rfl, rfl⟩
      · next hmask =>
        split
        · next hsupplied =>
          refine .inr ⟨hssid, ?_, rfl, rfl⟩
          rintro ⟨-, -, hm | ⟨hnone, -⟩⟩
          · exact hmask hm
          · exact hnone hsupplied
        · next hnone =>
          split
          · next hsame =>
            refine .inr ⟨hssid, ?_, rfl, rfl⟩
            rintro ⟨-, -, hm | ⟨-, hother⟩⟩
            · exact hmask hm
            · exact hother hsame
          · next hother => exact .inl ⟨⟨hssid, hnonempty, .inr ⟨hnone, hother⟩⟩, rfl, rfl⟩

/-! ## The contract -/

/-- The identity overlay: the three strings are the request's, the lock is set and nothing
else differs. -/
structure IdentityOverlaid (current : ConfigPayload) (fields : ConfigFields)
    (out : ConfigPayload) : Prop where
  unlocked : ¬ IdentityLocked current.provisionedFlags
  clientId : cString out.clientId = cString fields.clientId
  unitId : cString out.unitId = cString fields.unitId
  deviceName : cString out.deviceName = cString fields.deviceName
  locked : out.provisionedFlags = current.provisionedFlags ||| cfgProvisionedIdentity
  staSsid : out.staSsid = current.staSsid
  staPass : out.staPass = current.staPass
  authorityProfile : out.authorityProfile = current.authorityProfile

/-- The Wi-Fi overlay: nothing but the network differs, its password is cleared with it,
supplied and not the mask, or kept under the same name. -/
structure WifiOverlaid (current : ConfigPayload) (fields : ConfigFields)
    (out : ConfigPayload) : Prop where
  frame : out = { current with staSsid := out.staSsid, staPass := out.staPass }
  staSsid : cString out.staSsid = (cString fields.staSsid).take cfgStaSsidMax
  staPass : (cString fields.staSsid = [] ∧ cString out.staPass = []) ∨
    (fields.Supplied ∧ cString out.staPass = (cString fields.staPass).take cfgStaPassMax ∧
      cString out.staPass ≠ configMaskString) ∨
    (¬ fields.Supplied ∧ cString fields.staSsid = cString current.staSsid ∧
      out.staPass = current.staPass)

/-- What the header promises of `argus_config_overlay_apply`. -/
structure OverlayHolds (current : ConfigPayload) (scope : ConfigScope) (fields : ConfigFields)
    (outCfg : ConfigPayload) : Prop where
  unwritten : (configOverlayApply current scope fields outCfg).1.success = false →
    (configOverlayApply current scope fields outCfg).2 = outCfg
  identity : (configOverlayApply current scope fields outCfg).1.success = true →
    scope = .identity →
      IdentityOverlaid current fields (configOverlayApply current scope fields outCfg).2
  wifi : (configOverlayApply current scope fields outCfg).1.success = true →
    scope = .wifi → WifiOverlaid current fields (configOverlayApply current scope fields outCfg).2
  valid : (configOverlayApply current scope fields outCfg).1.success = true →
    current.validate = espOk →
      (scope = .wifi → fields.Supplied →
        cfgStaPassMin ≤ strlen fields.staPass ∧ strlen fields.staPass ≤ cfgStaPassMax) →
          (configOverlayApply current scope fields outCfg).2.validate = espOk

/-! ## Validity -/

/-- What `argus_nvs_config_validate` asks of the network. -/
def WifiValid {m n : Nat} (ssid : Vector UInt8 m) (pass : Vector UInt8 n) : Prop :=
  strlen ssid ≤ cfgStaSsidMax ∧
    (0 < strlen ssid → cfgStaPassMin ≤ strlen pass ∧ strlen pass ≤ cfgStaPassMax)

theorem validate_eq_ok (cfg : ConfigPayload) :
    cfg.validate = espOk ↔
      (identityValidateClientId cfg.clientId = true ∧ identityValidateUnitId cfg.unitId = true ∧
        identityValidateDeviceName cfg.deviceName = true) ∧
      WifiValid cfg.staSsid cfg.staPass ∧ cfg.authorityProfile ≤ authorityProfileMax := by
  have hbad : espErrInvalidArg ≠ espOk := by decide
  unfold ConfigPayload.validate WifiValid
  constructor
  · intro h
    split at h
    · exact absurd h hbad
    · next hclient =>
      split at h
      · exact absurd h hbad
      · next hunit =>
        split at h
        · exact absurd h hbad
        · next hname =>
          split at h
          · exact absurd h hbad
          · next hssid =>
            split at h
            · exact absurd h hbad
            · next hpass =>
              split at h
              · exact absurd h hbad
              · next hprofile =>
                refine ⟨⟨not_not.mp hclient, not_not.mp hunit, not_not.mp hname⟩,
                  ⟨Nat.not_lt.mp hssid, fun hpos => ?_⟩, UInt8.not_lt.mp hprofile⟩
                have hpass := not_or.mp fun h => hpass ⟨hpos, h⟩
                exact ⟨Nat.not_lt.mp hpass.1, Nat.not_lt.mp hpass.2⟩
  · rintro ⟨⟨hclient, hunit, hname⟩, ⟨hssid, hpass⟩, hprofile⟩
    rw [if_neg (not_not.mpr hclient), if_neg (not_not.mpr hunit), if_neg (not_not.mpr hname),
      if_neg (Nat.not_lt.mpr hssid), if_neg, if_neg (UInt8.not_lt.mpr hprofile)]
    rintro ⟨hpos, hshort | hlong⟩
    · exact absurd (hpass hpos).1 (Nat.not_le.mpr hshort)
    · exact absurd (hpass hpos).2 (Nat.not_le.mpr hlong)

/-- A checked identity string is copied whole. -/
theorem cString_snprintf_identity {max : Nat} {allowed : UInt8 → Bool}
    (dst src : Vector UInt8 (max + 1)) (h : identityValidate max allowed src = true) :
    cString (snprintf dst (cString src)) = cString src := by
  rw [cString_snprintf_cString dst src (Nat.succ_pos max)]
  unfold identityValidate at h
  split at h
  · cases h
  · next hlen => exact List.take_of_length_le (Nat.not_lt.mp (not_or.mp hlen).2)

theorem identityValidate_snprintf {max : Nat} {allowed : UInt8 → Bool}
    (dst src : Vector UInt8 (max + 1)) (h : identityValidate max allowed src = true) :
    identityValidate max allowed (snprintf dst (cString src)) = true := by
  have hsame := cString_snprintf_identity dst src h
  unfold identityValidate strlen at h ⊢
  rw [hsame]
  exact h

theorem validate_overlayIdentity {current : ConfigPayload} {fields : ConfigFields}
    (hclient : identityValidateClientId fields.clientId = true)
    (hunit : identityValidateUnitId fields.unitId = true)
    (hname : identityValidateDeviceName fields.deviceName = true)
    (hvalid : current.validate = espOk) : (current.overlayIdentity fields).validate = espOk := by
  obtain ⟨-, hwifi, hprofile⟩ := (validate_eq_ok _).mp hvalid
  refine (validate_eq_ok _).mpr ⟨⟨?_, ?_, ?_⟩, hwifi, hprofile⟩
  · exact identityValidate_snprintf current.clientId fields.clientId hclient
  · exact identityValidate_snprintf current.unitId fields.unitId hunit
  · exact identityValidate_snprintf current.deviceName fields.deviceName hname

/-- Of a valid configuration only the network is left to check. -/
theorem validate_withWifi {current out : ConfigPayload} (hvalid : current.validate = espOk)
    (hframe : out = { current with staSsid := out.staSsid, staPass := out.staPass })
    (hwifi : WifiValid out.staSsid out.staPass) : out.validate = espOk := by
  obtain ⟨hid, -, hprofile⟩ := (validate_eq_ok _).mp hvalid
  rw [validate_eq_ok, hframe]
  exact ⟨hid, hwifi, hprofile⟩

theorem cString_eq_nil {n : Nat} {a : Vector UInt8 n} : cString a = [] ↔ strlen a = 0 :=
  List.length_eq_zero_iff.symm

/-! ## The two overlays -/

theorem identityOverlaid {current : ConfigPayload} {fields : ConfigFields}
    (hlock : ¬ IdentityLocked current.provisionedFlags)
    (hclient : identityValidateClientId fields.clientId = true)
    (hunit : identityValidateUnitId fields.unitId = true)
    (hname : identityValidateDeviceName fields.deviceName = true) :
    IdentityOverlaid current fields (current.overlayIdentity fields) where
  unlocked := hlock
  clientId := cString_snprintf_identity current.clientId fields.clientId hclient
  unitId := cString_snprintf_identity current.unitId fields.unitId hunit
  deviceName := cString_snprintf_identity current.deviceName fields.deviceName hname
  locked := rfl
  staSsid := rfl
  staPass := rfl
  authorityProfile := rfl

theorem wifiOverlaid {current : ConfigPayload} {fields : ConfigFields}
    (hssid : fields.hasStaSsid = true) (hon : ¬ RefusedLate current fields) :
    WifiOverlaid current fields
      (if strlen fields.staSsid = 0 then current.clearWifi
        else if fields.hasStaPass ∧ 0 < strlen fields.staPass then
          (current.setPass (cString fields.staPass)).setSsid (cString fields.staSsid)
        else current.setSsid (cString fields.staSsid)) := by
  split
  · next hempty =>
    have hnil : cString fields.staSsid = [] := cString_eq_nil.mpr hempty
    refine ⟨rfl, ?_, .inl ⟨hnil, ?_⟩⟩
    · rw [hnil]
      exact (by decide : cString (Vector.replicate 33 (0 : UInt8)) = [])
    · exact (by decide : cString (Vector.replicate 64 (0 : UInt8)) = [])
  · next hnonempty =>
    split
    · next hsupplied =>
      have hpass := cString_snprintf_cString current.staPass fields.staPass (by omega)
      refine ⟨rfl, cString_snprintf_cString _ _ (by omega), .inr (.inl ⟨hsupplied, hpass, ?_⟩)⟩
      intro hmask
      have hmask : (cString fields.staPass).take 63 = configMaskString := hpass.symm.trans hmask
      have hlen := congrArg List.length hmask
      rw [List.length_take] at hlen
      have hwhole : (cString fields.staPass).take 63 = cString fields.staPass :=
        List.take_of_length_le (by
          have : configMaskString.length = 8 := rfl
          omega)
      exact hon ⟨hssid, hnonempty, .inl ⟨hsupplied.1, hwhole.symm.trans hmask⟩⟩
    · next hnone =>
      refine ⟨rfl, cString_snprintf_cString _ _ (by omega), .inr (.inr ⟨hnone, ?_, rfl⟩)⟩
      by_contra hother
      exact hon ⟨hssid, hnonempty, .inr ⟨hnone, hother⟩⟩

/-- The network laid over is valid when a supplied password has a valid length. -/
theorem WifiOverlaid.wifiValid {current out : ConfigPayload} {fields : ConfigFields}
    (h : WifiOverlaid current fields out)
    (hcurrent : WifiValid current.staSsid current.staPass)
    (hsupplied : fields.Supplied →
      cfgStaPassMin ≤ strlen fields.staPass ∧ strlen fields.staPass ≤ cfgStaPassMax) :
    WifiValid out.staSsid out.staPass := by
  have hlen : strlen out.staSsid = min cfgStaSsidMax (strlen fields.staSsid) := by
    unfold strlen
    rw [h.staSsid, List.length_take]
  refine ⟨by omega, fun hpos => ?_⟩
  obtain ⟨hempty, -⟩ | ⟨hnew, hpass, -⟩ | ⟨-, hsame, hpass⟩ := h.staPass
  · rw [cString_eq_nil] at hempty
    omega
  · have hroom := hsupplied hnew
    have hlen : strlen out.staPass = min cfgStaPassMax (strlen fields.staPass) := by
      unfold strlen
      rw [hpass, List.length_take]
    omega
  · have hsame : strlen fields.staSsid = strlen current.staSsid := congrArg List.length hsame
    rw [hpass]
    exact hcurrent.2 (by omega)

section

variable {current : ConfigPayload} {scope : ConfigScope} {fields : ConfigFields}
  {outCfg : ConfigPayload}

theorem OverlayHolds.of_failure
    (hfail : (configOverlayApply current scope fields outCfg).1.success = false)
    (hout : (configOverlayApply current scope fields outCfg).2 = outCfg) :
    OverlayHolds current scope fields outCfg := by
  have habsurd : ∀ {P : Prop},
      (configOverlayApply current scope fields outCfg).1.success = true → P := by
    intro P hdone
    rw [hfail] at hdone
    cases hdone
  exact ⟨fun _ => hout, habsurd, habsurd, habsurd⟩

theorem OverlayHolds.of_success
    (hdone : (configOverlayApply current scope fields outCfg).1.success = true)
    (hidentity : scope = .identity →
      IdentityOverlaid current fields (configOverlayApply current scope fields outCfg).2)
    (hwifi : scope = .wifi →
      WifiOverlaid current fields (configOverlayApply current scope fields outCfg).2)
    (hvalid : current.validate = espOk →
      (scope = .wifi → fields.Supplied →
        cfgStaPassMin ≤ strlen fields.staPass ∧ strlen fields.staPass ≤ cfgStaPassMax) →
          (configOverlayApply current scope fields outCfg).2.validate = espOk) :
    OverlayHolds current scope fields outCfg := by
  refine ⟨?_, fun _ => hidentity, fun _ => hwifi, fun _ => hvalid⟩
  intro hfail
  rw [hdone] at hfail
  cases hfail

end

/-- **The overlay keeps its contract** except for a Wi-Fi request refused after the copy. -/
theorem overlay_holds (current : ConfigPayload) (scope : ConfigScope) (fields : ConfigFields)
    (outCfg : ConfigPayload) :
    OverlayHolds current scope fields outCfg ↔
      ¬ (scope = .wifi ∧ RefusedLate current fields ∧ outCfg ≠ current) := by
  constructor
  · rintro h ⟨rfl, hlate, hother⟩
    obtain ⟨hno, -⟩ | ⟨-, hfail, hout⟩ | ⟨-, hon, -⟩ := applyWifi_cases current fields outCfg
    · rw [hlate.1] at hno
      cases hno
    · exact hother ((h.unwritten hfail).symm.trans hout)
    · exact hon hlate
  · intro hon
    cases scope with
    | identity =>
      obtain ⟨hfail, hout⟩ | ⟨hlock, hclient, hunit, hname, hdone, hout⟩ :=
        applyIdentity_cases current fields outCfg
      · exact .of_failure hfail hout
      · refine .of_success hdone (fun _ => ?_) (fun h => by cases h) fun hvalid _ => ?_
        · show IdentityOverlaid _ _ (applyIdentity current fields outCfg).2
          rw [hout]
          exact identityOverlaid hlock hclient hunit hname
        · show (applyIdentity current fields outCfg).2.validate = espOk
          rw [hout]
          exact validate_overlayIdentity hclient hunit hname hvalid
    | wifi =>
      obtain ⟨-, hfail, hout⟩ | ⟨hlate, hfail, hout⟩ | ⟨hssid, htimely, hdone, hout⟩ :=
        applyWifi_cases current fields outCfg
      · exact .of_failure hfail hout
      · -- refused after the copy, which `out_cfg` held already
        have hsame : outCfg = current := by
          by_contra hother
          exact hon ⟨rfl, hlate, hother⟩
        exact .of_failure hfail (hout.trans hsame.symm)
      · have hwifi := wifiOverlaid hssid htimely
        rw [← hout] at hwifi
        refine .of_success hdone (fun h => by cases h) (fun _ => hwifi) fun hvalid hroom => ?_
        exact validate_withWifi hvalid hwifi.frame
          (hwifi.wifiValid ((validate_eq_ok _).mp hvalid).2.1 (hroom rfl))
    | invalid => exact .of_failure rfl rfl

/-- A request for another network, without a password. -/
def otherNetwork : ConfigFields where
  hasClientId := false
  hasUnitId := false
  hasDeviceName := false
  clientId := .replicate 33 0
  unitId := .replicate 33 0
  deviceName := .replicate 65 0
  hasStaSsid := true
  hasStaPass := false
  staSsid := charArray 33 (asciiBytes "works")
  staPass := .replicate 64 0

def homeNetwork : ConfigPayload where
  clientId := charArray 33 (asciiBytes "site_01")
  unitId := charArray 33 (asciiBytes "pump_01")
  deviceName := charArray 65 (asciiBytes "Pump")
  staSsid := charArray 33 (asciiBytes "home")
  staPass := charArray 64 (asciiBytes "password")
  provisionedFlags := cfgProvisionedIdentity
  authorityProfile := authorityProfileStandaloneHmi

/-- The request is refused, and the zeroed `out_cfg` holds the current configuration. -/
theorem overlay_fails :
    ¬ OverlayHolds homeNetwork .wifi otherNetwork NvsCore.zero.activeConfig := by
  intro h
  have hout := h.unwritten (by decide +kernel)
  revert hout
  decide +kernel

end Argus
