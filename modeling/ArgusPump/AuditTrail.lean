import ArgusPump.AuditRing

/-!
# The audit ring over crashes and failed writes

A trail is what the ring is for: the records kept, and those that were tried since and may be
found by the next init.  An append that returns `ESP_OK` adds its record; an init adds one
tried record at most.

    a write that stops anywhere → the blob as it was, or one record ahead   (writeRecordAndMeta_wp)
    the runs of the ring → runs of the trail with the same events           (audit_ring)
-/

namespace Argus

open Interact

/-! ## What a call leaves -/

namespace AuditFlash

/-- The blob `m`, or the next one with a record of `tried` in its slot. -/
def Near (s : AuditFlash) (m : AuditMeta) (tried : List AuditRecord) : Prop :=
  s.sMeta = .ok m ∨ s.sMeta = .ok m.next ∧ ∃ r ∈ tried, s.slots m.spareSlot = .ok r

/-- Only the slot differs. -/
def SameBut (slot : UInt32) (s t : AuditFlash) : Prop := ∀ i ≠ slot, t.slots i = s.slots i

variable {s t : AuditFlash} {m : AuditMeta} {tried : List AuditRecord}

theorem Near.cons (h : s.Near m tried) (r : AuditRecord) : s.Near m (r :: tried) := by
  rcases h with h | ⟨h, x, hx, hslot⟩
  · exact .inl h
  · exact .inr ⟨h, x, List.mem_cons_of_mem r hx, hslot⟩

theorem slots_setRecord (s : AuditFlash) (slot : UInt32) (r : AuditRecord) :
    (s.setRecord slot r).slots slot = .ok r := Function.update_self _ _ _

theorem Near.setRecord (h : s.Near m tried) (r : AuditRecord) :
    (s.setRecord m.spareSlot r).Near m (r :: tried) := by
  rcases h with h | ⟨h, -⟩
  · exact .inl h
  · exact .inr ⟨h, r, List.mem_cons_self, slots_setRecord s m.spareSlot r⟩

theorem near_setMeta {r : AuditRecord} (h : s.slots m.spareSlot = .ok r) :
    (s.setMeta m.next).Near m (r :: tried) := .inr ⟨rfl, r, List.mem_cons_self, h⟩

theorem SameBut.refl (slot : UInt32) (s : AuditFlash) : SameBut slot s s := fun _ _ => rfl

theorem sameBut_setRecord (slot : UInt32) (s : AuditFlash) (r : AuditRecord) :
    SameBut slot s (s.setRecord slot r) := fun _ hne => Function.update_of_ne hne _ _

end AuditFlash

open AuditFlash

section Rules

variable {C : AuditFlash → Prop} {post : EspErr → AuditFlash → Prop} {s t : AuditFlash}

/-- `C` wherever a call is made, and after a crash inside it. -/
def Safe (C : AuditFlash → Prop) (q : AuditCall) (s : AuditFlash) : Prop :=
  C s ∧ ∀ t, Cut q s t → C t

theorem wpS_checkOk {err : EspErr} {p : AuditProg EspErr} (hok : err = espOk → p.wpS Call (Safe C) post s)
    (hfail : err ≠ espOk → post err s) : (checkOk err p).wpS Call (Safe C) post s := by
  unfold checkOk
  by_cases h : err = espOk
  · rw [if_pos h]
    exact hok h
  · rw [if_neg h]
    exact hfail h

/-- A call that changes nothing. -/
theorem wpS_still {α : Type} {post : α → AuditFlash → Prop} {q : AuditCall} {k : q.Answer → AuditProg α}
    (hq : ∀ r t, Call q s r t → t = s) (hs : C s) (hk : ∀ r, (k r).wpS Call (Safe C) post s) :
    (Prog.ask q k).wpS Call (Safe C) post s := by
  refine ⟨⟨hs, fun t ⟨r, ht⟩ => ?_⟩, fun r t ht => ?_⟩
  · rw [hq r t ht]
    exact hs
  · rw [hq r t ht]
    exact hk r

end Rules

/-- **A write that ends or stops anywhere.**  The blob is near the statics' and no live slot is
touched; `ESP_OK` means that both writes are there. -/
theorem writeRecordAndMeta_wp {s : AuditFlash} {m : AuditMeta} {tried : List AuditRecord}
    (h : s.Near m tried) (r : AuditRecord) :
    (writeRecordAndMeta m.spareSlot r m.next).wpS Call
      (Safe fun t => t.Near m (r :: tried) ∧ SameBut m.spareSlot s t)
      (fun err t => (t.Near m (r :: tried) ∧ SameBut m.spareSlot s t) ∧
        (err = espOk → t.sMeta = .ok m.next ∧ t.slots m.spareSlot = .ok r)) s := by
  have hbefore : s.Near m (r :: tried) ∧ SameBut m.spareSlot s s := ⟨h.cons r, .refl _ s⟩
  have hslot := slots_setRecord s m.spareSlot r
  have hwritten : (s.setRecord m.spareSlot r).Near m (r :: tried) ∧
      SameBut m.spareSlot s (s.setRecord m.spareSlot r) := ⟨h.setRecord r, sameBut_setRecord _ s r⟩
  have hcounted : ((s.setRecord m.spareSlot r).setMeta m.next).Near m (r :: tried) ∧
      SameBut m.spareSlot s ((s.setRecord m.spareSlot r).setMeta m.next) :=
    ⟨near_setMeta hslot, hwritten.2⟩
  refine wpS_still (fun _ _ ht => ht) hbefore fun err => ?_
  refine wpS_checkOk (fun _ => ?_) fun hne => ⟨hbefore, fun heq => absurd heq hne⟩
  -- the record
  have hset (err : EspErr) (t : AuditFlash) (ht : Call (.setRecord m.spareSlot r) s err t) :
      t.Near m (r :: tried) ∧ SameBut m.spareSlot s t := by
    rcases ht with rfl | ⟨-, rfl⟩
    · exact hwritten
    · exact hbefore
  refine ⟨⟨hbefore, fun t ⟨err, ht⟩ => hset err t ht⟩, fun err t ht => ?_⟩
  refine wpS_checkOk (fun hok => ?_) fun hne => ⟨hset err t ht, fun heq => absurd heq hne⟩
  rw [ht.resolve_right fun hr => hr.1 hok]
  refine wpS_still (fun _ _ ht => ht) hwritten fun err => ?_
  refine wpS_checkOk (fun _ => ?_) fun hne => ⟨hwritten, fun heq => absurd heq hne⟩
  -- the blob
  have hset (err : EspErr) (t : AuditFlash) (ht : Call (.setMeta m.next) (s.setRecord m.spareSlot r) err t) :
      t.Near m (r :: tried) ∧ SameBut m.spareSlot s t := by
    rcases ht with rfl | ⟨-, rfl⟩
    · exact hcounted
    · exact hwritten
  refine ⟨⟨hwritten, fun t ⟨err, ht⟩ => hset err t ht⟩, fun err t ht => ?_⟩
  refine wpS_checkOk (fun hok => ?_) fun hne => ⟨hset err t ht, fun heq => absurd heq hne⟩
  rw [ht.resolve_right fun hr => hr.1 hok]
  exact wpS_still (fun _ _ ht => ht) hcounted fun err => ⟨hcounted, fun _ => ⟨rfl, hslot⟩⟩

/-- Init, when the blob has been found or written. -/
theorem auditInit_of {C : AuditFlash → Prop} {post : Except EspErr AuditMeta → AuditFlash → Prop}
    {s : AuditFlash} (hs : C s) (hfail : ∀ err t, C t → post (.error err) t)
    (hmeta : auditInitMeta.wpS Call (Safe C)
      (fun found t => C t ∧ ∀ m, found = .ok m → post (.ok m) t) s) :
    auditInit.wpS Call (Safe C) post s := by
  refine wpS_still (fun _ _ ht => ht) hs fun err => ?_
  split
  · exact hfail err s hs
  refine wpS_still (fun _ _ ht => ht) hs fun err => ?_
  split
  · exact hfail err s hs
  rw [Prog.wpS_bind]
  refine Prog.wpS_mono (fun _ _ h => h) (fun found t h => ?_) _ _ hmeta
  cases found with
  | error err => exact hfail err t h.1
  | ok m =>
    refine wpS_still (fun _ _ ht => ht) h.1 fun err => ?_
    split
    · exact h.2 m rfl
    · exact hfail err t h.1

/-- Init reads a blob and changes nothing. -/
theorem auditInit_found {s : AuditFlash} {m : AuditMeta} (hm : s.sMeta = .ok m) (hv : m.valid = true) :
    auditInit.wpS Call (Safe fun t => t = s) (fun found t => t = s ∧ ∀ m', found = .ok m' → m' = m) s := by
  refine auditInit_of rfl (fun err t ht => ⟨ht, nofun⟩) ?_
  have hread (r : Except EspErr AuditMeta) (t : AuditFlash) (ht : Call .getMeta s r t) : t = s := ht.1
  refine ⟨⟨rfl, fun t ⟨r, ht⟩ => hread r t ht⟩, fun r t ht => ?_⟩
  obtain ⟨rfl, hr⟩ := ht
  rw [hm] at hr
  rcases hr with rfl | ⟨err, rfl, hne⟩
  · dsimp only
    rw [if_pos hv]
    exact ⟨rfl, fun m' hm' => ⟨rfl, fun m'' hm'' => by cases hm'; cases hm''; rfl⟩⟩
  · dsimp only
    rw [if_neg hne]
    exact ⟨rfl, nofun⟩

/-- Init of a blank partition. -/
theorem auditInit_blank {s : AuditFlash} (hm : s.sMeta = .error espErrNvsNotFound) :
    auditInit.wpS Call (Safe fun t => t = s ∨ t = s.setMeta .fresh)
      (fun found t => (t = s ∨ t = s.setMeta .fresh) ∧
        ∀ m', found = .ok m' → m' = .fresh ∧ t = s.setMeta .fresh) s := by
  refine auditInit_of (.inl rfl) (fun err t ht => ⟨ht, nofun⟩) ?_
  have hread (r : Except EspErr AuditMeta) (t : AuditFlash) (ht : Call .getMeta s r t) : t = s := ht.1
  refine ⟨⟨.inl rfl, fun t ⟨r, ht⟩ => .inl (hread r t ht)⟩, fun r t ht => ?_⟩
  obtain ⟨rfl, hr⟩ := ht
  rw [hm] at hr
  rcases hr with rfl | ⟨err, rfl, hne⟩
  · dsimp only
    rw [if_pos rfl]
    have hset (err : EspErr) (u : AuditFlash) (hu : Call (.setMeta .fresh) t err u) :
        u = t ∨ u = t.setMeta .fresh := by
      rcases hu with hu | ⟨-, hu⟩
      · exact .inr hu
      · exact .inl hu
    refine ⟨⟨.inl rfl, fun u ⟨err, hu⟩ => hset err u hu⟩, fun err u hu => ?_⟩
    dsimp only
    split
    · next hok =>
      rw [hu.resolve_right fun hr => hr.1 hok]
      refine wpS_still (fun _ _ ht => ht) (.inr rfl) fun err => ⟨.inr rfl, fun m hfound => ?_⟩
      split at hfound
      · cases hfound
        exact ⟨.inr rfl, fun m' hm' => by cases hm'; exact ⟨rfl, rfl⟩⟩
      · cases hfound
    · exact ⟨hset err u hu, nofun⟩
  · dsimp only
    rw [if_neg hne]
    exact ⟨.inl rfl, nofun⟩

/-! ## Runs -/

/-- The partition, whether the mutex is made since the boot, and the statics of an init that
returned `ESP_OK` since. -/
structure AuditDevice where
  flash : AuditFlash
  mutex : Bool
  ram : Option AuditRam

def blankAudit : AuditDevice := ⟨.blank, false, none⟩

def AuditDevice.read (d : AuditDevice) (offset : UInt32) : Except EspErr AuditRecord :=
  auditRead d.flash d.mutex d.ram offset

/-- The records are as `append_locked` stamps them. -/
inductive AuditAct
  | append (record : AuditRecord) (err : EspErr)
  | interrupted (record : AuditRecord)
  | reboot
  | init
  | initFailed (err : EspErr)
  | initCut
  | initAgain

def AuditAct.appends : AuditAct → Bool
  | .append _ _ | .interrupted _ => true
  | _ => false

/-- An append or an init and what becomes of it, or a reboot. -/
inductive AuditStep : AuditDevice → AuditAct → AuditDevice → Prop
  | append {s t : AuditFlash} {mutex : Bool} {ram : AuditRam} {record : AuditRecord} {uptimeUs : UInt64}
      {tr : List (Σ q, AuditCall.Answer q)} {err : EspErr} :
      Prog.Exec Call (appendLocked ram record uptimeUs) s tr err t →
      AuditStep ⟨s, mutex, some ram⟩ (.append (ram.stamp record uptimeUs) err)
        ⟨t, mutex, some (ram.appended err)⟩
  | interrupted {s t : AuditFlash} {mutex : Bool} {ram : AuditRam} {record : AuditRecord}
      {uptimeUs : UInt64} :
      Prog.Crash Call Cut (appendLocked ram record uptimeUs) s t →
      AuditStep ⟨s, mutex, some ram⟩ (.interrupted (ram.stamp record uptimeUs)) ⟨t, false, none⟩
  | reboot {s : AuditFlash} {mutex : Bool} {ram : Option AuditRam} :
      AuditStep ⟨s, mutex, ram⟩ .reboot ⟨s, false, none⟩
  | init {s t : AuditFlash} {mutex : Bool} {tr : List (Σ q, AuditCall.Answer q)} {m : AuditMeta}
      {bootId : UInt64} :
      Prog.Exec Call auditInit s tr (.ok m) t → bootId ≠ 0 →
      AuditStep ⟨s, mutex, none⟩ .init ⟨t, true, some ⟨m, bootId⟩⟩
  | initFailed {s t : AuditFlash} {mutex mutex' : Bool} {tr : List (Σ q, AuditCall.Answer q)}
      {err : EspErr} :
      Prog.Exec Call auditInit s tr (.error err) t → (mutex = true → mutex' = true) →
      AuditStep ⟨s, mutex, none⟩ (.initFailed err) ⟨t, mutex', none⟩
  | initCut {s t : AuditFlash} {mutex : Bool} :
      Prog.Crash Call Cut auditInit s t → AuditStep ⟨s, mutex, none⟩ .initCut ⟨t, false, none⟩
  | initAgain {s : AuditFlash} {mutex : Bool} {ram : AuditRam} :
      AuditStep ⟨s, mutex, some ram⟩ .initAgain ⟨s, mutex, some ram⟩

abbrev AuditMove := Move AuditDevice AuditAct

/-! ## The trail -/

/-- The records kept, and those tried since the last of them or the last init. -/
structure Trail where
  log : List AuditRecord
  tried : List AuditRecord

inductive TrailStep : Trail → AuditAct → Trail → Prop
  | append {log tried : List AuditRecord} (r : AuditRecord) :
      TrailStep ⟨log, tried⟩ (.append r espOk) ⟨log ++ [r], []⟩
  | appendFailed {log tried : List AuditRecord} (r : AuditRecord) {err : EspErr} :
      err ≠ espOk → TrailStep ⟨log, tried⟩ (.append r err) ⟨log, r :: tried⟩
  | interrupted {log tried : List AuditRecord} (r : AuditRecord) :
      TrailStep ⟨log, tried⟩ (.interrupted r) ⟨log, r :: tried⟩
  | keep {log tried : List AuditRecord} : TrailStep ⟨log, tried⟩ .init ⟨log, []⟩
  | adopt {log tried : List AuditRecord} {r : AuditRecord} :
      r ∈ tried → TrailStep ⟨log, tried⟩ .init ⟨log ++ [r], []⟩
  | reboot (t : Trail) : TrailStep t .reboot t
  | initFailed (t : Trail) (err : EspErr) : TrailStep t (.initFailed err) t
  | initCut (t : Trail) : TrailStep t .initCut t
  | initAgain (t : Trail) : TrailStep t .initAgain t

abbrev TrailMove := Move Trail AuditAct

/-- The records kept, and one more where one may yet be adopted. -/
def Trail.weight (t : Trail) : Nat := t.log.length + if t.tried = [] then 0 else 1

theorem TrailStep.weight_le {t u : Trail} {act : AuditAct} (h : TrailStep t act u) :
    u.weight ≤ t.weight + if act.appends then 1 else 0 := by
  unfold Trail.weight
  cases h with
  | append r => simp [AuditAct.appends]
  | appendFailed r _ => simp [AuditAct.appends]
  | interrupted r => simp [AuditAct.appends]
  | keep => exact Nat.le_add_right_of_le (Nat.le_add_right _ _)
  | adopt hr => simp [List.ne_nil_of_mem hr]
  | _ => omega

/-! ## The ring keeps the trail -/

/-- The partition holds the trail, by the blob `m`. -/
structure KeptTrail (s : AuditFlash) (m : AuditMeta) (t : Trail) : Prop where
  near : s.Near m t.tried
  stands : m.Stands s.slots t.log
  sound : SoundLog t.log
  next : ∀ r ∈ t.tried, SoundLog (t.log ++ [r])

namespace KeptTrail

variable {s u : AuditFlash} {m : AuditMeta} {log tried : List AuditRecord} {r : AuditRecord}

/-- The spare slot is written, and perhaps the blob. -/
theorem write (h : KeptTrail s m ⟨log, tried⟩) (hr : SoundLog (log ++ [r])) (hnear : u.Near m (r :: tried))
    (hsame : SameBut m.spareSlot s u) : KeptTrail u m ⟨log, r :: tried⟩ := by
  refine ⟨hnear, h.stands.overwrite hsame, h.sound, fun x hx => ?_⟩
  rcases List.mem_cons.mp hx with rfl | hx
  · exact hr
  · exact h.next x hx

/-- The record in the spare slot is counted. -/
theorem count (h : KeptTrail s m ⟨log, r :: tried⟩) (hmeta : s.sMeta = .ok m.next)
    (hslot : s.slots m.spareSlot = .ok r) : KeptTrail s m.next ⟨log ++ [r], []⟩ :=
  ⟨.inl hmeta, h.stands.next hslot, h.next r List.mem_cons_self, nofun⟩

/-- What init finds. -/
theorem found {t : Trail} (h : KeptTrail s m t) :
    ∃ m' t', s.sMeta = .ok m' ∧ TrailStep t .init t' ∧ KeptTrail s m' t' := by
  rcases h.near with hmeta | ⟨hmeta, r, hr, hslot⟩
  · exact ⟨m, ⟨t.log, []⟩, hmeta, .keep, .inl hmeta, h.stands, h.sound, nofun⟩
  · exact ⟨m.next, ⟨t.log ++ [r], []⟩, hmeta, .adopt hr, .inl hmeta, h.stands.next hslot, h.next r hr, nofun⟩

end KeptTrail

/-- What holds of the device and the trail. -/
def AuditInv (d : AuditDevice) (t : Trail) : Prop :=
  d.flash.sMeta = .error espErrNvsNotFound ∧ d.ram = none ∧ t = ⟨[], []⟩ ∨
    ∃ m, KeptTrail d.flash m t ∧ ∀ ram, d.ram = some ram → ram.sMeta = m ∧ d.mutex = true

theorem appendLocked_wp {s : AuditFlash} {ram : AuditRam} {log tried : List AuditRecord}
    (h : KeptTrail s ram.sMeta ⟨log, tried⟩) (record : AuditRecord) (uptimeUs : UInt64) :
    (appendLocked ram record uptimeUs).wpS Call
      (Safe fun t => KeptTrail t ram.sMeta ⟨log, ram.stamp record uptimeUs :: tried⟩)
      (fun err t => KeptTrail t ram.sMeta ⟨log, ram.stamp record uptimeUs :: tried⟩ ∧
        (err = espOk → KeptTrail t ram.sMeta.next ⟨log ++ [ram.stamp record uptimeUs], []⟩)) s := by
  have hsound : SoundLog (log ++ [ram.stamp record uptimeUs]) := by
    refine h.sound.snoc (ram.check_stamp record uptimeUs) ?_
    rw [ram.stamp_sequence]
    exact h.stands.sequence
  have hwrite {t : AuditFlash} (ht : t.Near ram.sMeta (ram.stamp record uptimeUs :: tried) ∧
      SameBut ram.sMeta.spareSlot s t) : KeptTrail t ram.sMeta ⟨log, ram.stamp record uptimeUs :: tried⟩ :=
    h.write hsound ht.1 ht.2
  refine Prog.wpS_mono (fun q t ht => ⟨hwrite ht.1, fun u hu => hwrite (ht.2 u hu)⟩)
    (fun err t ht => ⟨hwrite ht.1, fun hok => ?_⟩) _ _ (writeRecordAndMeta_wp h.near _)
  obtain ⟨hmeta, hslot⟩ := ht.2 hok
  exact (hwrite ht.1).count hmeta hslot

theorem KeptTrail.fresh {s : AuditFlash} : KeptTrail (s.setMeta .fresh) .fresh ⟨[], []⟩ :=
  ⟨.inl rfl, AuditMeta.fresh_stands _, ⟨nofun, nofun⟩, nofun⟩

/-- **One step of the device is one of the trail.** -/
theorem AuditInv.step {d e : AuditDevice} {act : AuditAct} {t : Trail} (hs : AuditStep d act e)
    (h : AuditInv d t) : ∃ u, TrailStep t act u ∧ AuditInv e u := by
  cases hs with
  | @append s u mutex ram record uptimeUs tr err hrun =>
    rcases h with ⟨-, hram, -⟩ | ⟨m, hk, hm⟩
    · cases hram
    obtain ⟨rfl, hmutex⟩ := hm ram rfl
    obtain ⟨hfail, hok⟩ := hrun.of_wpS (appendLocked_wp hk record uptimeUs)
    unfold AuditRam.appended
    by_cases herr : err = espOk
    · subst herr
      exact ⟨_, .append _, .inr ⟨_, hok rfl, fun r hr => by cases hr; exact ⟨rfl, hmutex⟩⟩⟩
    · rw [if_neg herr]
      exact ⟨_, .appendFailed _ herr, .inr ⟨_, hfail, fun r hr => by cases hr; exact ⟨rfl, hmutex⟩⟩⟩
  | interrupted hcut =>
    rcases h with ⟨-, hram, -⟩ | ⟨m, hk, hm⟩
    · cases hram
    obtain ⟨rfl, -⟩ := hm _ rfl
    have hleft := hcut.of_wpS (Prog.wpS_mono (fun _ _ h => h) (fun _ _ h => h.1) _ _ (appendLocked_wp hk _ _))
    exact ⟨_, .interrupted _, .inr ⟨_, hleft, nofun⟩⟩
  | reboot =>
    refine ⟨t, .reboot t, ?_⟩
    rcases h with ⟨hblank, -, ht⟩ | ⟨m, hk, -⟩
    · exact .inl ⟨hblank, rfl, ht⟩
    · exact .inr ⟨m, hk, nofun⟩
  | init hrun _ =>
    rcases h with ⟨hblank, -, rfl⟩ | ⟨m, hk, -⟩
    · obtain ⟨rfl, rfl⟩ := (hrun.of_wpS (auditInit_blank hblank)).2 _ rfl
      exact ⟨_, .keep, .inr ⟨_, .fresh, fun r hr => by cases hr; exact ⟨rfl, rfl⟩⟩⟩
    · obtain ⟨m', t', hmeta, htrail, hk'⟩ := hk.found
      obtain ⟨rfl, hsame⟩ := hrun.of_wpS (auditInit_found hmeta hk'.stands.valid)
      obtain rfl := hsame _ rfl
      exact ⟨t', htrail, .inr ⟨_, hk', fun r hr => by cases hr; exact ⟨rfl, rfl⟩⟩⟩
  | initFailed hrun _ =>
    refine ⟨t, .initFailed t _, ?_⟩
    rcases h with ⟨hblank, -, rfl⟩ | ⟨m, hk, -⟩
    · rcases (hrun.of_wpS (auditInit_blank hblank)).1 with rfl | rfl
      · exact .inl ⟨hblank, rfl, rfl⟩
      · exact .inr ⟨_, .fresh, nofun⟩
    · obtain ⟨m', t', hmeta, htrail, hk'⟩ := hk.found
      obtain ⟨rfl, -⟩ := hrun.of_wpS (auditInit_found hmeta hk'.stands.valid)
      exact .inr ⟨m, hk, nofun⟩
  | initCut hcut =>
    refine ⟨t, .initCut t, ?_⟩
    rcases h with ⟨hblank, -, rfl⟩ | ⟨m, hk, -⟩
    · have hleft := hcut.of_wpS (Prog.wpS_mono (fun _ _ h => h) (fun _ _ h => h.1) _ _ (auditInit_blank hblank))
      rcases hleft with rfl | rfl
      · exact .inl ⟨hblank, rfl, rfl⟩
      · exact .inr ⟨_, .fresh, nofun⟩
    · obtain ⟨m', t', hmeta, htrail, hk'⟩ := hk.found
      have hleft := hcut.of_wpS (Prog.wpS_mono (fun _ _ h => h) (fun _ _ h => h.1) _ _
        (auditInit_found hmeta hk'.stands.valid))
      rw [hleft]
      exact .inr ⟨m, hk, nofun⟩
  | initAgain => exact ⟨t, .initAgain t, h⟩

/-! ## What is read -/

/-- What reads show of the trail. -/
structure ShowsLog (d : AuditDevice) (log : List AuditRecord) : Prop where
  running : d.ram ≠ none → ∀ offset, d.read offset = readOf log offset
  stopped : d.ram = none → ∀ offset record, d.read offset ≠ .ok record
  increasing : (log.drop (log.length - auditCapacity.toNat)).Pairwise fun a b => a.sequence < b.sequence

theorem read_stopped {d : AuditDevice} (h : d.ram = none) (offset : UInt32) (record : AuditRecord) :
    d.read offset ≠ .ok record := by
  unfold AuditDevice.read auditRead
  rw [h]
  split
  · nofun
  · nofun

/-- Fewer than 2^64 records are numbered without a repetition. -/
theorem SoundLog.increasing {log : List AuditRecord} (h : SoundLog log) (hlen : log.length < 2 ^ 64) :
    log.Pairwise fun a b => a.sequence < b.sequence := by
  refine List.pairwise_iff_getElem.mpr fun i j hi hj hij => ?_
  have hfirst := h.sequence i _ (List.getElem?_eq_getElem hi)
  have hsecond := h.sequence j _ (List.getElem?_eq_getElem hj)
  rw [auditSequence_of_lt (by omega)] at hfirst hsecond
  refine UInt64.lt_iff_toNat_lt.mpr ?_
  omega

/-- Reads of a running device show the trail. -/
theorem AuditInv.read_running {d : AuditDevice} {t : Trail} (h : AuditInv d t) (hrunning : d.ram ≠ none)
    (offset : UInt32) : d.read offset = readOf t.log offset := by
  rcases h with ⟨-, hram, -⟩ | ⟨m, hk, hm⟩
  · exact absurd hram hrunning
  · obtain ⟨ram, hram⟩ := Option.ne_none_iff_exists'.mp hrunning
    obtain ⟨rfl, hmutex⟩ := hm ram hram
    unfold AuditDevice.read
    rw [hram, hmutex]
    exact auditRead_eq hk.stands hk.sound offset

theorem AuditInv.sound {d : AuditDevice} {t : Trail} (h : AuditInv d t) : SoundLog t.log := by
  rcases h with ⟨-, -, rfl⟩ | ⟨m, hk, -⟩
  · exact ⟨nofun, nofun⟩
  · exact hk.sound

theorem AuditInv.shows {d : AuditDevice} {t : Trail} (h : AuditInv d t) (hlen : t.log.length < 2 ^ 64) :
    ShowsLog d t.log :=
  ⟨h.read_running, read_stopped, (h.sound.increasing hlen).drop⟩

/-! ## An adopted record -/

theorem auditInit_ideal {s : AuditFlash} {m : AuditMeta} (hm : s.sMeta = .ok m) (hv : m.valid = true) :
    ∃ tr, Prog.Exec Call auditInit s tr (.ok m) s := by
  have hmeta : Prog.Exec Call auditInitMeta s [⟨.getMeta, .ok m⟩] (.ok m) s := by
    refine .ask ⟨rfl, .inl hm.symm⟩ ?_
    dsimp only
    rw [if_pos hv]
    exact .ret _ s
  have hstart : Prog.Exec Call (.ask .start fun err => .ret (if err = espOk then .ok m else .error err)) s
      [⟨.start, espOk⟩] (.ok m : Except EspErr AuditMeta) s := .ask rfl (.ret _ s)
  exact ⟨_, .ask (r := espOk) rfl (.ask (r := espOk) rfl (hmeta.bind hstart))⟩

namespace Adoption

def first : AuditRam := ⟨.fresh, 1⟩
def second : AuditRam := ⟨first.sMeta.next, 1⟩
def lost : AuditRecord := first.stamp .zero 0
def kept : AuditRecord := second.stamp .zero 0
def blob : AuditFlash := AuditFlash.blank.setMeta .fresh
def cut : AuditFlash := (blob.setRecord first.sMeta.spareSlot lost).setMeta second.sMeta
def last : AuditFlash := (cut.setRecord second.sMeta.spareSlot kept).setMeta second.sMeta.next

end Adoption

open Adoption in
/-- A first init, an append cut off after its last write, the next init, and an append. -/
def adoption : List AuditMove :=
  [⟨blankAudit, .init, ⟨blob, true, some first⟩⟩,
    ⟨⟨blob, true, some first⟩, .interrupted lost, ⟨cut, false, none⟩⟩,
    ⟨⟨cut, false, none⟩, .init, ⟨cut, true, some second⟩⟩,
    ⟨⟨cut, true, some second⟩, .append kept espOk, ⟨last, true, some (second.appended espOk)⟩⟩]

theorem adoption_run : IsRun AuditStep blankAudit adoption := by
  have hvalid : AuditMeta.fresh.next.valid = true :=
    ((AuditMeta.fresh_stands fun _ => .ok .zero).next rfl).valid
  obtain ⟨tr, hsecond⟩ := auditInit_ideal (s := Adoption.cut) rfl hvalid
  refine ⟨rfl, .init (Prog.playS_exec AuditFlash.ideal_call auditInit .blank) (by decide), rfl, .interrupted ?_, rfl,
    .init hsecond (by decide), rfl, .append (Prog.playS_exec AuditFlash.ideal_call _ _), trivial⟩
  exact .later (r := espOk) rfl (.later (r := espOk) (.inl rfl) (.later (r := espOk) rfl
    (.inside ⟨espOk, .inl rfl⟩)))

open Adoption in
theorem adoption_read : (final blankAudit adoption).read 0 = .ok lost := by
  have hne : first.sMeta.spareSlot ≠ second.sMeta.spareSlot := by decide
  have hlost : last.slots first.sMeta.spareSlot = .ok lost :=
    (sameBut_setRecord _ cut kept _ hne).trans (slots_setRecord blob first.sMeta.spareSlot lost)
  have hkept : last.slots second.sMeta.spareSlot = .ok kept :=
    slots_setRecord cut second.sMeta.spareSlot kept
  have hstands := ((AuditMeta.fresh_stands last.slots).next hlost).next hkept
  have hsound : SoundLog ([] ++ [lost] ++ [kept]) :=
    (SoundLog.nil.snoc (first.check_stamp .zero 0) rfl).snoc (second.check_stamp .zero 0) rfl
  show auditRead last true (some (second.appended espOk)) 0 = _
  exact auditRead_eq hstands hsound 0

/-- **The ring is its trail**, at every moment of every run of fewer than 2^64 appends. -/
theorem audit_ring {ms : List AuditMove} (h : IsRun AuditStep blankAudit ms)
    (hn : ms.countP (fun m => m.ev.appends) < 2 ^ 64) :
    ∃ ts : List TrailMove, IsRun TrailStep ⟨[], []⟩ ts ∧
      List.Forall₂ (fun t m => t.ev = m.ev ∧ ShowsLog m.post t.post.log) ts ms := by
  have h0 : AuditInv blankAudit ⟨[], []⟩ := .inl ⟨rfl, rfl, rfl⟩
  obtain ⟨ts, hts, hall⟩ := h.simulate h0 AuditInv.step
  have hcount := countP_of_simulate hall AuditAct.appends
  have hweight := hts.weight_le (w := Trail.weight) (b := fun t => t.ev.appends) fun m hm => hm.weight_le
  refine ⟨ts, hts, ((List.forall₂_and_left _ _).mpr ⟨hweight, hall⟩).imp ?_⟩
  rintro t m ⟨hle, hev, hinv⟩
  refine ⟨hev, hinv.shows ?_⟩
  rw [hcount] at hle
  have hlog : t.post.log.length ≤ t.post.weight := Nat.le_add_right _ _
  have hzero : Trail.weight ⟨[], []⟩ = 0 := rfl
  rw [hzero, Nat.zero_add] at hle
  exact Nat.lt_of_le_of_lt (hlog.trans hle) hn

theorem audit_ring_adopts :
    ∃ ts : List TrailMove, IsRun TrailStep ⟨[], []⟩ ts ∧
      List.Forall₂ (fun t m => t.ev = m.ev ∧ ShowsLog m.post t.post.log) ts adoption :=
  audit_ring adoption_run (by decide)

/-- The records of the appends that returned `ESP_OK`. -/
def acked (ms : List AuditMove) : List AuditRecord :=
  ms.filterMap fun m =>
    match m.ev with
    | .append r err => if err = espOk then some r else none
    | _ => none

/-- An append of the record that failed or was cut off. -/
def AuditAct.Lost (r : AuditRecord) : AuditAct → Prop
  | .append x err => x = r ∧ err ≠ espOk
  | .interrupted x => x = r
  | _ => False

/-- An append that returned `ESP_OK`. -/
def AuditAct.Acks : AuditAct → Prop
  | .append _ err => err = espOk
  | _ => False

/-- A record adopted by an init stays before those appended later. -/
theorem adopted_stays :
    ¬ ∀ ms : List AuditMove, IsRun AuditStep blankAudit ms →
      ms.countP (fun m => m.ev.appends) < 2 ^ 64 → (final blankAudit ms).ram ≠ none →
      ∃ extra : List AuditRecord, extra.length ≤ 1 ∧
        (∀ r ∈ extra, Since (fun m => m.ev.Lost r) (fun m => m.ev.Acks) ms) ∧
        ∀ offset, (final blankAudit ms).read offset = readOf (acked ms ++ extra) offset := by
  intro h
  obtain ⟨extra, hlen, -, hread⟩ := h adoption adoption_run (by decide) nofun
  have hfirst := (adoption_read.symm.trans (hread 0))
  have hacked : acked adoption = [Adoption.kept] := rfl
  rw [hacked] at hfirst
  unfold readOf at hfirst
  have hall : ([Adoption.kept] ++ extra).length - auditCapacity.toNat = 0 := by
    rw [List.length_append, List.length_singleton]
    show 1 + extra.length - 255 = 0
    omega
  rw [hall] at hfirst
  have hsame : Adoption.lost = Adoption.kept := Except.ok.inj hfirst
  have hsequence := congrArg AuditRecord.sequence hsame
  exact absurd hsequence (by decide)

end Argus
