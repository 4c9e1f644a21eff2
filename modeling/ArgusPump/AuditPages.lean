import ArgusPump.AuditTrail
import ArgusPump.Lib.Paging

/-!
# Pages of the audit ring

`argus_security_audit_read_page` answers the newest readable records below a sequence number,
and the caller goes on from the last of them.  Slots may be unreadable, and records may be
appended between two pages.

    a page → the readable records below the boundary, cut at the limit     (auditReadPage_ok)
    an append → its record first, and of the others perhaps the oldest gone (append_readable)
    a walk over the pages → a walk over the readable records                (PageWalk.walk)
    from any run → descending, of the first call's records, and complete    (audit_paging)
-/

namespace Argus

open Interact AuditFlash

/-! ## The pages -/

def auditPageMax : UInt32 := 16

/-- `argus_security_audit_page_t`, with the first `count` of its records. -/
structure AuditPage where
  records : List AuditRecord
  nextBefore : UInt64
  hasMore : Bool
  corruptionGap : Bool
deriving DecidableEq

def AuditPage.zero : AuditPage := ⟨[], 0, false, false⟩

/-- The loop over the reads, newest first. -/
def pageLoop (boundary : UInt64) (limit : UInt32) :
    List (Except EspErr AuditRecord) → AuditPage → AuditPage
  | [], out => out
  | .error _ :: rest, out => pageLoop boundary limit rest { out with corruptionGap := true }
  | .ok record :: rest, out =>
    if record.sequence ≥ boundary then pageLoop boundary limit rest out
    else if out.records.length < limit.toNat then
      pageLoop boundary limit rest
        { out with records := out.records ++ [record], nextBefore := record.sequence }
    else { out with hasMore := true }

/-- The reads of the loop. -/
def readsNewest (flash : AuditFlash) (ram : AuditRam) : List (Except EspErr AuditRecord) :=
  (List.range ram.sMeta.count.toNat).map fun reverse =>
    readSlotLocked flash ram (ram.sMeta.count - 1 - reverse.toUInt32)

/-- The offset of a read, that far from the newest. -/
theorem offset_toNat {count : UInt32} {reverse : Nat} (h : reverse < count.toNat) :
    (count - 1 - reverse.toUInt32).toNat = count.toNat - 1 - reverse := by
  have hcount := count.toNat_lt
  have hone : (1 : UInt32) ≤ count := UInt32.le_iff_toNat_le.mpr (show 1 ≤ count.toNat by omega)
  have hnum : reverse.toUInt32.toNat = reverse := UInt32.toNat_ofNat_of_lt' (by omega : reverse < 2 ^ 32)
  have hrest : reverse.toUInt32 ≤ count - 1 := by
    refine UInt32.le_iff_toNat_le.mpr ?_
    rw [UInt32.toNat_sub_of_le _ _ hone, hnum]
    show reverse ≤ count.toNat - 1
    omega
  rw [UInt32.toNat_sub_of_le _ _ hrest, UInt32.toNat_sub_of_le _ _ hone, hnum]
  rfl

def AuditRam.boundary (ram : AuditRam) (beforeSequence : UInt64) : UInt64 :=
  if beforeSequence = 0 then ram.sMeta.nextSequence else beforeSequence

/-- `argus_security_audit_read_page`, by whether the mutex is made and `s_available`. -/
def auditReadPage (flash : AuditFlash) (mutex available : Bool) (ram : AuditRam) (beforeSequence : UInt64)
    (limit : UInt32) : Except EspErr AuditPage :=
  if mutex = false ∨ limit = 0 ∨ limit > auditPageMax then .error espErrInvalidArg
  else if available = false ∨ beforeSequence ≠ 0 ∧ beforeSequence > ram.sMeta.nextSequence then
    .error (if beforeSequence > ram.sMeta.nextSequence then espErrInvalidArg else espErrInvalidState)
  else
    let out := pageLoop (ram.boundary beforeSequence) limit (readsNewest flash ram) .zero
    .ok (if out.hasMore then out else { out with nextBefore := 0 })

/-! ## One page -/

def auditKey (r : AuditRecord) : Nat := r.sequence.toNat

/-- The records that can be read, newest first. -/
def readable (flash : AuditFlash) (ram : AuditRam) : List AuditRecord :=
  (readsNewest flash ram).filterMap Except.toOption

open Paging in
/-- The loop takes records below the boundary until the limit and one more. -/
theorem pageLoop_spec (boundary : UInt64) (limit : UInt32) (reads : List (Except EspErr AuditRecord)) :
    ∀ out : AuditPage, out.records.length ≤ limit.toNat → out.hasMore = false →
      let found := below auditKey (reads.filterMap Except.toOption) boundary.toNat
      let room := limit.toNat - out.records.length
      (pageLoop boundary limit reads out).records = out.records ++ found.take room ∧
      (pageLoop boundary limit reads out).hasMore = decide (room < found.length) ∧
      (pageLoop boundary limit reads out).nextBefore =
        ((found.take room).getLast?).elim out.nextBefore AuditRecord.sequence := by
  induction reads with
  | nil =>
    intro out _ hmore
    simp [pageLoop, below, hmore]
  | cons read reads ih =>
    intro out hroom hmore
    cases read with
    | error err => exact ih { out with corruptionGap := true } hroom hmore
    | ok record =>
      unfold pageLoop
      dsimp only
      rw [show (Except.ok record :: reads).filterMap Except.toOption =
        record :: reads.filterMap Except.toOption from rfl]
      by_cases hpast : record.sequence ≥ boundary
      · have hskip : below auditKey (record :: reads.filterMap Except.toOption) boundary.toNat =
            below auditKey (reads.filterMap Except.toOption) boundary.toNat := by
          unfold below
          rw [List.filter_cons_of_neg]
          have hle : boundary.toNat ≤ record.sequence.toNat := UInt64.le_iff_toNat_le.mp hpast
          show ¬ decide (record.sequence.toNat < boundary.toNat) = true
          rw [decide_eq_true_eq]
          omega
        rw [if_pos hpast, hskip]
        exact ih out hroom hmore
      · have htaken : below auditKey (record :: reads.filterMap Except.toOption) boundary.toNat =
            record :: below auditKey (reads.filterMap Except.toOption) boundary.toNat := by
          unfold below
          rw [List.filter_cons_of_pos]
          have hlt : record.sequence.toNat < boundary.toNat :=
            Nat.lt_of_not_le fun hle => hpast (UInt64.le_iff_toNat_le.mpr hle)
          exact decide_eq_true hlt
        rw [if_neg hpast, htaken]
        by_cases hfull : out.records.length < limit.toNat
        · obtain ⟨hrecords, hhas, hnext⟩ := ih
            { out with records := out.records ++ [record], nextBefore := record.sequence }
            (by rw [List.length_append, List.length_singleton]; exact hfull) hmore
          rw [if_pos hfull]
          dsimp only at hrecords hhas hnext
          rw [List.length_append, List.length_singleton] at hrecords hhas hnext
          obtain ⟨room, hroom⟩ : ∃ room, limit.toNat - out.records.length = room + 1 :=
            ⟨limit.toNat - out.records.length - 1, by omega⟩
          have hless : limit.toNat - (out.records.length + 1) = room := by omega
          rw [hless] at hrecords hhas hnext
          rw [hroom, List.take_succ_cons]
          refine ⟨?_, ?_, ?_⟩
          · rw [hrecords, List.append_assoc]
            rfl
          · rw [hhas, List.length_cons]
            exact decide_eq_decide.mpr (by omega)
          · rw [hnext]
            cases hlast : ((below auditKey (reads.filterMap Except.toOption) boundary.toNat).take room).getLast? with
            | none =>
              rw [List.getLast?_eq_none_iff.mp hlast]
              rfl
            | some last =>
              rw [List.getLast?_cons, hlast]
              rfl
        · have hzero : limit.toNat - out.records.length = 0 := by omega
          rw [if_neg hfull, hzero]
          simp

/-- The sequence number a page ends with, if there is more. -/
def AuditPage.more (page : AuditPage) : Option Nat :=
  if page.hasMore then some page.nextBefore.toNat else none

section Page

variable {flash : AuditFlash} {ram : AuditRam} {before : UInt64} {limit : UInt32} {page : AuditPage}

theorem pageLoop_zero (boundary : UInt64) (limit : UInt32) :
    (pageLoop boundary limit (readsNewest flash ram) .zero).records =
        Paging.page auditKey limit.toNat (readable flash ram) boundary.toNat ∧
      (pageLoop boundary limit (readsNewest flash ram) .zero).hasMore =
        decide (limit.toNat < (Paging.below auditKey (readable flash ram) boundary.toNat).length) ∧
      (pageLoop boundary limit (readsNewest flash ram) .zero).nextBefore =
        ((Paging.page auditKey limit.toNat (readable flash ram) boundary.toNat).getLast?).elim 0
          AuditRecord.sequence :=
  pageLoop_spec boundary limit (readsNewest flash ram) .zero (Nat.zero_le _) rfl

/-- **One page.** -/
theorem auditReadPage_ok (h : auditReadPage flash true true ram before limit = .ok page) :
    0 < limit.toNat ∧
      page.records = Paging.page auditKey limit.toNat (readable flash ram) (ram.boundary before).toNat ∧
      page.more = Paging.next auditKey limit.toNat (readable flash ram) (ram.boundary before).toNat := by
  obtain ⟨hrecords, hmore, hnext⟩ := @pageLoop_zero flash ram (ram.boundary before) limit
  unfold auditReadPage at h
  split at h
  · cases h
  · next hlimit =>
    split at h
    · cases h
    · simp only [not_or] at hlimit
      have hpos : 0 < limit.toNat := by
        refine Nat.pos_of_ne_zero fun hzero => hlimit.2.1 ?_
        exact UInt32.toNat_inj.mp hzero
      dsimp only at h
      generalize pageLoop (ram.boundary before) limit (readsNewest flash ram) .zero = out
        at h hrecords hmore hnext
      unfold Paging.next
      by_cases hlong : limit.toNat <
          (Paging.below auditKey (readable flash ram) (ram.boundary before).toNat).length
      · rw [decide_eq_true hlong] at hmore
        rw [if_pos hmore] at h
        obtain rfl := Except.ok.inj h
        refine ⟨hpos, hrecords, ?_⟩
        have hne : Paging.page auditKey limit.toNat (readable flash ram) (ram.boundary before).toNat ≠ [] := by
          intro hnil
          have hlen := congrArg List.length hnil
          unfold Paging.page at hlen
          rw [List.length_take, List.length_nil] at hlen
          omega
        unfold AuditPage.more
        rw [if_pos hmore, if_pos hlong, hnext, List.getLast?_eq_some_getLast hne]
        rfl
      · rw [decide_eq_false hlong] at hmore
        rw [hmore, if_neg Bool.false_ne_true] at h
        obtain rfl := Except.ok.inj h
        refine ⟨hpos, hrecords, ?_⟩
        unfold AuditPage.more
        rw [if_neg hlong]
        rfl

/-- A page is answered from any sequence number up to the next one. -/
theorem auditReadPage_answers (hpos : 0 < limit.toNat) (hmax : limit.toNat ≤ 16)
    (hbefore : before.toNat ≤ ram.sMeta.nextSequence.toNat) :
    ∃ page, auditReadPage flash true true ram before limit = .ok page := by
  have hzero : limit ≠ 0 := by
    rintro rfl
    exact Nat.lt_irrefl _ hpos
  have hle : ¬ limit > auditPageMax := fun hgt => by
    have hlt : 16 < limit.toNat := UInt32.lt_iff_toNat_lt.mp hgt
    omega
  have hnot : ¬ before > ram.sMeta.nextSequence := fun hgt => by
    have hlt := UInt64.lt_iff_toNat_lt.mp hgt
    omega
  unfold auditReadPage
  rw [if_neg (by simp [hzero, hle]), if_neg (by simp [hnot])]
  exact ⟨_, rfl⟩

end Page

/-! ## The ring under the pages -/

/-- What the reads find in the cells of the ring. -/
def readCells (flash : AuditFlash) (i : Nat) : Except EspErr AuditRecord := checkRecord (flash.slots i.toUInt32)

/-- The live slots are where the blob says. -/
structure AuditMeta.Placed (m : AuditMeta) : Prop where
  oldest : m.oldestSlot.toNat < 256
  count : m.count.toNat ≤ 255
  spare : m.spareSlot.toNat = m.cursor.spare 256

/-- The ring can be paged: its readable records descend and are numbered below the next. -/
structure Ordered (flash : AuditFlash) (ram : AuditRam) : Prop where
  placed : ram.sMeta.Placed
  next : 0 < ram.sMeta.nextSequence.toNat
  descending : Paging.Descending auditKey (readable flash ram)
  numbered : ∀ r ∈ readable flash ram, 0 < auditKey r ∧ auditKey r < ram.sMeta.nextSequence.toNat

section Ring

variable {flash flash' : AuditFlash} {ram : AuditRam}

theorem AuditMeta.Stands.placed {m : AuditMeta} {slots : UInt32 → Except EspErr AuditRecord}
    {log : List AuditRecord} (h : m.Stands slots log) : m.Placed :=
  ⟨h.holds.oldest, h.count_le, h.spare⟩

/-- The reads, newest first, are those of the live cells. -/
theorem readsNewest_eq (h : ram.sMeta.Placed) :
    readsNewest flash ram = (SpareRing.live 256 (readCells flash) ram.sMeta.cursor).reverse := by
  have hcount := h.count
  unfold readsNewest SpareRing.live
  apply List.ext_getElem?
  intro i
  by_cases hi : i < ram.sMeta.count.toNat
  · have hoffset := offset_toNat hi
    have hread : readSlotLocked flash ram (ram.sMeta.count - 1 - i.toUInt32) =
        readCells flash ((ram.sMeta.cursor.oldest + (ram.sMeta.cursor.count - 1 - i)) % 256) := by
      unfold readSlotLocked readCells
      rw [slot_number h.oldest (by rw [hoffset]; omega), hoffset]
      rfl
    rw [List.getElem?_map, List.getElem?_range hi, Option.map_some, hread, List.getElem?_reverse, List.length_map,
      List.length_range, List.getElem?_map, List.getElem?_range, Option.map_some]
    · show ram.sMeta.count.toNat - 1 - i < ram.sMeta.count.toNat
      omega
    · rw [List.length_map, List.length_range]
      exact hi
  · rw [List.getElem?_eq_none, List.getElem?_eq_none]
    · rw [List.length_reverse, List.length_map, List.length_range]
      exact Nat.le_of_not_lt hi
    · rw [List.length_map, List.length_range]
      exact Nat.le_of_not_lt hi

theorem readable_eq (h : ram.sMeta.Placed) :
    readable flash ram =
      (SpareRing.live 256 (readCells flash) ram.sMeta.cursor).reverse.filterMap Except.toOption := by
  unfold readable
  rw [readsNewest_eq h]

/-! ### An append -/

theorem readCells_sameBut {m : AuditMeta} (h : m.Placed) (hsame : SameBut m.spareSlot flash flash') :
    ∀ j < 256, j ≠ m.cursor.spare 256 → readCells flash' j = readCells flash j := by
  intro j hj hne
  unfold readCells
  rw [hsame]
  intro heq
  apply hne
  rw [← h.spare, ← heq]
  exact (UInt32.toNat_ofNat_of_lt' (Nat.lt_trans hj (by decide))).symm

/-- No read is of the spare slot. -/
theorem readable_sameBut (h : ram.sMeta.Placed) (hsame : SameBut ram.sMeta.spareSlot flash flash') :
    readable flash' ram = readable flash ram := by
  have hcount : ram.sMeta.cursor.count < 256 := Nat.lt_of_le_of_lt h.count (by decide)
  rw [readable_eq h, readable_eq h,
    SpareRing.live_overwrite (by decide) hcount (readCells_sameBut h hsame)]

theorem AuditMeta.Placed.next {m : AuditMeta} (h : m.Placed) : m.next.Placed := by
  have hcursor := next_cursor h.oldest h.count
  have holdest : m.next.oldestSlot.toNat = (m.cursor.advance 256).oldest :=
    congrArg SpareRing.Cursor.oldest hcursor
  have hcount : m.next.count.toNat = (m.cursor.advance 256).count :=
    congrArg SpareRing.Cursor.count hcursor
  have hle := h.count
  have hlt := h.oldest
  refine ⟨?_, ?_, next_spare h.oldest h.count h.spare⟩
  · rw [holdest]
    unfold SpareRing.Cursor.advance
    split
    · exact hlt
    · exact Nat.mod_lt _ (by decide)
  · rw [hcount]
    unfold SpareRing.Cursor.advance
    split
    · next hroom => exact hroom
    · exact hle

/-- **An append** puts its record first; a full ring loses its oldest. -/
theorem append_readable (h : ram.sMeta.Placed) {r : AuditRecord}
    (hr : checkRecord (flash.slots ram.sMeta.spareSlot) = .ok r) :
    ∃ l, readable flash (ram.appended espOk) = r :: l ∧ l.Sublist (readable flash ram) := by
  have hnewest : readCells flash (ram.sMeta.cursor.spare 256) = .ok r := by
    unfold readCells
    rw [← h.spare]
    exact (congrArg (fun i => checkRecord (flash.slots i)) UInt32.ofNat_toNat).trans hr
  have hlive : SpareRing.live 256 (readCells flash) (ram.appended espOk).sMeta.cursor = _ :=
    (congrArg (SpareRing.live 256 (readCells flash)) (AuditMeta.next_cursor h.oldest h.count)).trans
      (SpareRing.live_advance (readCells flash) (by decide) h.count)
  have hplaced : (ram.appended espOk).sMeta.Placed := h.next
  rw [readable_eq hplaced, readable_eq h, hlive, hnewest, List.reverse_append, List.reverse_singleton,
    List.singleton_append]
  refine ⟨_, List.filterMap_cons_some rfl, List.Sublist.filterMap _ (List.Sublist.reverse ?_)⟩
  split
  · exact List.Sublist.refl _
  · exact List.tail_sublist _

theorem Ordered.sameBut (h : Ordered flash ram) (hsame : SameBut ram.sMeta.spareSlot flash flash') :
    Ordered flash' ram := by
  have hreads := readable_sameBut h.placed hsame
  exact ⟨h.placed, h.next, hreads ▸ h.descending, hreads ▸ h.numbered⟩

/-- The ring stays in order while the numbers do not wrap. -/
theorem Ordered.appended (h : Ordered flash ram) (hsame : SameBut ram.sMeta.spareSlot flash flash')
    {r : AuditRecord} (hslot : checkRecord (flash'.slots ram.sMeta.spareSlot) = .ok r)
    (hsequence : r.sequence = ram.sMeta.nextSequence)
    (hroom : ram.sMeta.nextSequence.toNat < 2 ^ 64 - 1) :
    Ordered flash' (ram.appended espOk) ∧
      (ram.appended espOk).sMeta.nextSequence.toNat = ram.sMeta.nextSequence.toNat + 1 ∧
      ∀ x ∈ readable flash' (ram.appended espOk), auditKey x < ram.sMeta.nextSequence.toNat →
        x ∈ readable flash ram := by
  obtain ⟨l, hl, hsub⟩ := append_readable h.placed hslot
  rw [readable_sameBut h.placed hsame] at hsub
  have hkey : auditKey r = ram.sMeta.nextSequence.toNat := congrArg UInt64.toNat hsequence
  have hnext : (ram.appended espOk).sMeta.nextSequence.toNat = ram.sMeta.nextSequence.toNat + 1 := by
    have hsum : (ram.sMeta.nextSequence + 1).toNat = ram.sMeta.nextSequence.toNat + 1 := by
      rw [UInt64.toNat_add]
      exact Nat.mod_eq_of_lt (by show _ + 1 < 2 ^ 64; omega)
    have hne : ram.sMeta.nextSequence + 1 ≠ 0 := by
      intro hzero
      rw [hzero] at hsum
      cases hsum
    show ram.sMeta.next.nextSequence.toNat = _
    rw [AuditMeta.next_nextSequence, if_neg hne, hsum]
  refine ⟨⟨h.placed.next, by omega, ?_, fun x hx => ?_⟩, hnext, fun x hx hlt => ?_⟩
  · rw [hl, Paging.Descending, List.pairwise_cons]
    refine ⟨fun x hx => ?_, List.Pairwise.sublist hsub h.descending⟩
    rw [hkey]
    exact (h.numbered x (hsub.subset hx)).2
  · rw [hnext]
    rw [hl] at hx
    rcases List.mem_cons.mp hx with rfl | hx
    · have := h.next
      omega
    · have := h.numbered x (hsub.subset hx)
      omega
  · rw [hl] at hx
    rcases List.mem_cons.mp hx with rfl | hx
    · omega
    · exact hsub.subset hx

/-! ### Worn slots -/

/-- Slots that can no longer be read. -/
def Worn (s t : AuditFlash) : Prop :=
  t.sMeta = s.sMeta ∧ ∀ i, t.slots i = s.slots i ∨ ∀ r, checkRecord (t.slots i) ≠ .ok r

theorem filterMap_sublist {α β : Type} {f g : α → Option β} (h : ∀ a, g a = f a ∨ g a = none) (l : List α) :
    (l.filterMap g).Sublist (l.filterMap f) := by
  induction l with
  | nil => exact List.Sublist.refl _
  | cons a l ih =>
    rcases h a with hsame | hnone
    · rw [List.filterMap_cons, List.filterMap_cons, hsame]
      split
      · exact ih
      · exact ih.cons_cons _
    · rw [List.filterMap_cons_none hnone, List.filterMap_cons]
      split
      · exact ih
      · exact ih.cons _

theorem Worn.readable (h : Worn flash flash') (ram : AuditRam) :
    (readable flash' ram).Sublist (readable flash ram) := by
  unfold Argus.readable readsNewest
  rw [List.filterMap_map, List.filterMap_map]
  refine filterMap_sublist (fun reverse => ?_) _
  dsimp only [Function.comp, readSlotLocked]
  rcases h.2 ((ram.sMeta.oldestSlot + (ram.sMeta.count - 1 - reverse.toUInt32)) % auditPhysicalSlots) with
    hsame | hbad
  · rw [hsame]
    exact .inl rfl
  · refine .inr ?_
    cases hread : checkRecord (flash'.slots
        ((ram.sMeta.oldestSlot + (ram.sMeta.count - 1 - reverse.toUInt32)) % auditPhysicalSlots)) with
    | error err => rfl
    | ok r => exact absurd hread (hbad r)

theorem Ordered.worn (h : Ordered flash ram) (hworn : Worn flash flash') : Ordered flash' ram := by
  have hsub := hworn.readable ram
  exact ⟨h.placed, h.next, List.Pairwise.sublist hsub h.descending, fun r hr => h.numbered r (hsub.subset hr)⟩

/-- The ring of a trail. -/
theorem KeptTrail.ordered {t : Trail} (h : KeptTrail flash ram.sMeta t) (hlen : t.log.length < 2 ^ 64 - 1) :
    Ordered flash ram ∧ ram.sMeta.nextSequence.toNat = t.log.length + 1 := by
  have hplaced := h.stands.placed
  have hnext : ram.sMeta.nextSequence.toNat = t.log.length + 1 := by
    rw [h.stands.sequence, auditSequence_of_lt hlen]
  have hcells : SpareRing.live 256 (readCells flash) ram.sMeta.cursor =
      ((t.log.drop (t.log.length - 255)).map Except.ok : List (Except EspErr AuditRecord)) := by
    have hlive := h.stands.holds.toList
    rw [List.length_map, ← List.map_drop] at hlive
    have hmap : SpareRing.live 256 (readCells flash) ram.sMeta.cursor =
        (SpareRing.live 256 (fun i => flash.slots i.toUInt32) ram.sMeta.cursor).map checkRecord := by
      unfold SpareRing.live
      rw [List.map_map]
      rfl
    rw [hmap, hlive, List.map_map]
    apply List.map_congr_left
    intro r hr
    exact h.sound.check r (List.mem_of_mem_drop hr)
  have hreads : readable flash ram = (t.log.drop (t.log.length - 255)).reverse := by
    rw [readable_eq hplaced, hcells, ← List.map_reverse, List.filterMap_map]
    exact List.filterMap_some
  refine ⟨⟨hplaced, by omega, ?_, fun r hr => ?_⟩, hnext⟩
  · rw [hreads, Paging.Descending, List.pairwise_reverse]
    exact ((h.sound.increasing (by omega)).drop).imp fun hlt => UInt64.lt_iff_toNat_lt.mp hlt
  · rw [hreads, List.mem_reverse] at hr
    obtain ⟨i, hi, rfl⟩ := List.mem_iff_getElem.mp (List.mem_of_mem_drop hr)
    have hseq := h.sound.sequence i _ (List.getElem?_eq_getElem hi)
    rw [auditSequence_of_lt (by omega)] at hseq
    unfold auditKey
    omega

end Ring

/-! ## Runs with worn slots -/

/-- A step of the device, or slots that become unreadable. -/
inductive WearStep : AuditDevice → Option AuditAct → AuditDevice → Prop
  | act {d e : AuditDevice} {act : AuditAct} : AuditStep d act e → WearStep d (some act) e
  | wear {s t : AuditFlash} {mutex : Bool} {ram : Option AuditRam} :
      Worn s t → WearStep ⟨s, mutex, ram⟩ none ⟨t, mutex, ram⟩

abbrev WearMove := Move AuditDevice (Option AuditAct)

def WearMove.appends (m : WearMove) : Bool :=
  match m.ev with
  | some act => act.appends
  | none => false

theorem Worn.refl (s : AuditFlash) : Worn s s := ⟨rfl, fun _ => .inl rfl⟩

theorem Worn.trans {s t u : AuditFlash} (h : Worn s t) (h' : Worn t u) : Worn s u := by
  refine ⟨h'.1.trans h.1, fun i => ?_⟩
  rcases h'.2 i with hsame | hbad
  · rw [hsame]
    exact h.2 i
  · exact .inr hbad

/-- A call on worn slots, on the slots as they were written. -/
theorem Worn.call (q : AuditCall) (s : AuditFlash) (r : q.Answer) (t s' : AuditFlash) (h : Call q s r t)
    (hs : Worn s' s) : ∃ t', Call q s' r t' ∧ Worn t' t := by
  cases q with
  | getMeta =>
    obtain ⟨rfl, hr⟩ := h
    refine ⟨s', ⟨rfl, ?_⟩, hs⟩
    rw [← hs.1]
    exact hr
  | setMeta m =>
    rcases h with rfl | ⟨hr, rfl⟩
    · exact ⟨s'.setMeta m, .inl rfl, rfl, hs.2⟩
    · exact ⟨s', .inr ⟨hr, rfl⟩, hs⟩
  | setRecord slot record =>
    rcases h with rfl | ⟨hr, rfl⟩
    · refine ⟨s'.setRecord slot record, .inl rfl, hs.1, fun i => ?_⟩
      by_cases hi : i = slot
      · subst hi
        rw [slots_setRecord, slots_setRecord]
        exact .inl rfl
      · rw [sameBut_setRecord slot s record i hi, sameBut_setRecord slot s' record i hi]
        exact hs.2 i
    · exact ⟨s', .inr ⟨hr, rfl⟩, hs⟩
  | _ =>
    obtain rfl := h
    exact ⟨s', rfl, hs⟩

theorem Worn.cut (q : AuditCall) (s t s' : AuditFlash) (h : Cut q s t) (hs : Worn s' s) :
    ∃ t', Cut q s' t' ∧ Worn t' t := by
  obtain ⟨r, hcall⟩ := h
  obtain ⟨t', hcall', ht⟩ := Worn.call q s r t s' hcall hs
  exact ⟨t', ⟨r, hcall'⟩, ht⟩

/-- A step of a worn device, on the slots as they were written. -/
theorem AuditStep.worn {d e : AuditDevice} {act : AuditAct} (h : AuditStep d act e) {s : AuditFlash}
    (hs : Worn s d.flash) :
    ∃ t, AuditStep { d with flash := s } act { e with flash := t } ∧ Worn t e.flash := by
  cases h with
  | append hrun =>
    obtain ⟨t, hrun', ht⟩ := hrun.sim Worn.call hs
    exact ⟨t, .append hrun', ht⟩
  | interrupted hcut =>
    obtain ⟨t, hcut', ht⟩ := hcut.sim Worn.call Worn.cut hs
    exact ⟨t, .interrupted hcut', ht⟩
  | reboot => exact ⟨s, .reboot, hs⟩
  | init hrun hboot =>
    obtain ⟨t, hrun', ht⟩ := hrun.sim Worn.call hs
    exact ⟨t, .init hrun' hboot, ht⟩
  | initFailed hrun hmutex =>
    obtain ⟨t, hrun', ht⟩ := hrun.sim Worn.call hs
    exact ⟨t, .initFailed hrun' hmutex, ht⟩
  | initCut hcut =>
    obtain ⟨t, hcut', ht⟩ := hcut.sim Worn.call Worn.cut hs
    exact ⟨t, .initCut hcut', ht⟩
  | initAgain => exact ⟨s, .initAgain, hs⟩

/-- The device is worn from one that holds the trail. -/
def WornInv (d : AuditDevice) (t : Trail) : Prop :=
  ∃ s, Worn s d.flash ∧ AuditInv { d with flash := s } t

theorem WornInv.step {d e : AuditDevice} {ev : Option AuditAct} {t : Trail} (h : WornInv d t)
    (hstep : WearStep d ev e) :
    ∃ t', WornInv e t' ∧ t'.weight ≤ t.weight + if WearMove.appends ⟨d, ev, e⟩ then 1 else 0 := by
  obtain ⟨s, hs, hinv⟩ := h
  cases hstep with
  | act hact =>
    obtain ⟨u, hact', hu⟩ := hact.worn hs
    obtain ⟨t', htrail, hinv'⟩ := AuditInv.step hact' hinv
    exact ⟨t', ⟨u, hu, hinv'⟩, htrail.weight_le⟩
  | wear hworn => exact ⟨t, ⟨s, hs.trans hworn, hinv⟩, Nat.le_add_right _ _⟩

theorem WornInv.run {ms : List WearMove} {d : AuditDevice} {t : Trail} (h : WornInv d t)
    (hrun : IsRun WearStep d ms) :
    ∃ t', WornInv (final d ms) t' ∧ t'.weight ≤ t.weight + ms.countP WearMove.appends := by
  refine hrun.inv_past
    (I := fun e ns => ∃ t', WornInv e t' ∧ t'.weight ≤ t.weight + ns.countP WearMove.appends)
    ⟨t, h, Nat.le_add_right _ _⟩ ?_
  rintro ns m ⟨u, hpast, hle⟩ hstep
  obtain ⟨t', hinv, hweight⟩ := hpast.step hstep
  refine ⟨t', hinv, ?_⟩
  rw [List.countP_append, List.countP_singleton]
  have hmove : WearMove.appends ⟨m.pre, m.ev, m.post⟩ = WearMove.appends m := rfl
  rw [hmove] at hweight
  omega

/-- The ring a run leaves, when the device runs. -/
theorem ordered_of_isRun {ms : List WearMove} (h : IsRun WearStep blankAudit ms)
    (hn : ms.countP WearMove.appends < 2 ^ 64 - 1) {ram : AuditRam}
    (hram : (final blankAudit ms).ram = some ram) :
    (final blankAudit ms).mutex = true ∧ Ordered (final blankAudit ms).flash ram ∧
      ram.sMeta.nextSequence.toNat ≤ ms.countP WearMove.appends + 1 := by
  have h0 : WornInv blankAudit ⟨[], []⟩ := ⟨blankAudit.flash, .refl _, .inl ⟨rfl, rfl, rfl⟩⟩
  obtain ⟨t, ⟨s, hs, hinv⟩, hweight⟩ := h0.run h
  have hzero : Trail.weight ⟨[], []⟩ = 0 := rfl
  have hlog : t.log.length ≤ t.weight := Nat.le_add_right _ _
  rcases hinv with ⟨-, hnone, -⟩ | ⟨m, hkept, hm⟩
  · exact absurd (hram.symm.trans hnone) (Option.some_ne_none ram)
  · obtain ⟨rfl, hmutex⟩ := hm ram hram
    obtain ⟨hordered, hnext⟩ := hkept.ordered (by omega)
    exact ⟨hmutex, hordered.worn hs, by omega⟩

/-! ## A walk over the pages -/

/-- The device answers a page. -/
def AuditDevice.AnswersPage (d : AuditDevice) (beforeSequence : UInt64) (limit : UInt32) (page : AuditPage) :
    Prop :=
  ∃ ram, d.ram = some ram ∧ auditReadPage d.flash d.mutex true ram beforeSequence limit = .ok page

/-- `argus_security_audit_read` answers the record. -/
def AuditDevice.Readable (d : AuditDevice) (r : AuditRecord) : Prop := ∃ offset, d.read offset = .ok r

/-- Pages read from `d` on, each from the `next_before` of the last, while records are appended
and slots wear: the device now, the number of appends, the earlier pages and the last. -/
inductive PageWalk (limit : UInt32) (d : AuditDevice) :
    AuditDevice → Nat → List AuditPage → AuditPage → Prop
  | first {page : AuditPage} : d.AnswersPage 0 limit page → PageWalk limit d d 0 [] page
  | append {e f : AuditDevice} {n : Nat} {pages : List AuditPage} {page : AuditPage}
      {record : AuditRecord} {err : EspErr} : PageWalk limit d e n pages page →
      AuditStep e (.append record err) f → PageWalk limit d f (n + 1) pages page
  | wear {e f : AuditDevice} {n : Nat} {pages : List AuditPage} {page : AuditPage} :
      PageWalk limit d e n pages page → WearStep e none f → PageWalk limit d f n pages page
  | next {e : AuditDevice} {n : Nat} {pages : List AuditPage} {page page' : AuditPage} :
      PageWalk limit d e n pages page → page.hasMore = true → e.AnswersPage page.nextBefore limit page' →
      PageWalk limit d e n (pages ++ [page]) page'

theorem appendLocked_slots {s t : AuditFlash} {ram : AuditRam} {record : AuditRecord} {uptimeUs : UInt64}
    {tr : List (Σ q, AuditCall.Answer q)} {err : EspErr}
    (h : Prog.Exec Call (appendLocked ram record uptimeUs) s tr err t) :
    SameBut ram.sMeta.spareSlot s t ∧
      (err = espOk → t.slots ram.sMeta.spareSlot = .ok (ram.stamp record uptimeUs)) := by
  have hslot := slots_setRecord s ram.sMeta.spareSlot (ram.stamp record uptimeUs)
  have hsame := sameBut_setRecord ram.sMeta.spareSlot s (ram.stamp record uptimeUs)
  refine h.of_wpS (I := Safe fun _ => True) (?_ : Prog.wpS _ _ (fun err t =>
    SameBut ram.sMeta.spareSlot s t ∧
      (err = espOk → t.slots ram.sMeta.spareSlot = .ok (ram.stamp record uptimeUs))) _ _)
  refine wpS_still (fun _ _ ht => ht) trivial fun err => ?_
  refine wpS_checkOk (fun _ => ?_) fun hne => ⟨.refl _ s, fun heq => absurd heq hne⟩
  refine ⟨⟨trivial, fun _ _ => trivial⟩, fun err t ht => ?_⟩
  refine wpS_checkOk (fun hok => ?_) fun hne => ⟨?_, fun heq => absurd heq hne⟩
  · rw [ht.resolve_right fun hr => hr.1 hok]
    refine wpS_still (fun _ _ ht => ht) trivial fun err => ?_
    refine wpS_checkOk (fun _ => ?_) fun hne => ⟨hsame, fun heq => absurd heq hne⟩
    refine ⟨⟨trivial, fun _ _ => trivial⟩, fun err u hu => ?_⟩
    have hwritten : SameBut ram.sMeta.spareSlot s u ∧
        u.slots ram.sMeta.spareSlot = .ok (ram.stamp record uptimeUs) := by
      rcases hu with rfl | ⟨-, rfl⟩
      · exact ⟨hsame, hslot⟩
      · exact ⟨hsame, hslot⟩
    refine wpS_checkOk (fun _ => ?_) fun hne => ⟨hwritten.1, fun heq => absurd heq hne⟩
    exact wpS_still (fun _ _ ht => ht) trivial fun err => ⟨hwritten.1, fun _ => hwritten.2⟩
  · rcases ht with rfl | ⟨-, rfl⟩
    · exact hsame
    · exact .refl _ _

theorem readable_iff {d : AuditDevice} {ram : AuditRam} (hram : d.ram = some ram) (hmutex : d.mutex = true)
    {r : AuditRecord} : d.Readable r ↔ r ∈ readable d.flash ram := by
  have hread (offset : UInt32) : d.read offset =
      if offset ≥ ram.sMeta.count then .error espErrNotFound else readSlotLocked d.flash ram offset := by
    unfold AuditDevice.read auditRead
    rw [hram, hmutex]
    rfl
  unfold AuditDevice.Readable readable readsNewest
  rw [List.filterMap_map, List.mem_filterMap]
  constructor
  · rintro ⟨offset, hoffset⟩
    rw [hread] at hoffset
    split at hoffset
    · cases hoffset
    · next hlive =>
      have hlt : offset.toNat < ram.sMeta.count.toNat :=
        Nat.lt_of_not_le fun hle => hlive (UInt32.le_iff_toNat_le.mpr hle)
      have hreverse : ram.sMeta.count.toNat - 1 - offset.toNat < ram.sMeta.count.toNat := by omega
      have hback : ram.sMeta.count - 1 - (ram.sMeta.count.toNat - 1 - offset.toNat).toUInt32 = offset := by
        apply UInt32.toNat_inj.mp
        rw [offset_toNat hreverse]
        omega
      refine ⟨ram.sMeta.count.toNat - 1 - offset.toNat, List.mem_range.mpr hreverse, ?_⟩
      show (readSlotLocked d.flash ram _).toOption = some r
      rw [hback, hoffset]
      rfl
  · rintro ⟨reverse, hmem, hfound⟩
    have hlt := List.mem_range.mp hmem
    have hlive : ¬ ram.sMeta.count - 1 - reverse.toUInt32 ≥ ram.sMeta.count := by
      intro hge
      have hge := UInt32.le_iff_toNat_le.mp hge
      rw [offset_toNat hlt] at hge
      omega
    refine ⟨ram.sMeta.count - 1 - reverse.toUInt32, ?_⟩
    rw [hread, if_neg hlive]
    have hfound : (readSlotLocked d.flash ram (ram.sMeta.count - 1 - reverse.toUInt32)).toOption = some r :=
      hfound
    cases hslot : readSlotLocked d.flash ram (ram.sMeta.count - 1 - reverse.toUInt32) with
    | error err =>
      rw [hslot] at hfound
      cases hfound
    | ok x =>
      rw [hslot] at hfound
      exact congrArg Except.ok (Option.some.inj hfound)

/-- What a walk over the pages keeps: the ring in order, and a walk over the readable records. -/
structure WalkInv (limit : UInt32) (flash₀ : AuditFlash) (ram₀ : AuditRam) (e : AuditDevice) (n : Nat)
    (pages : List AuditPage) (page : AuditPage) (ram : AuditRam) : Prop where
  running : e.ram = some ram
  mutex : e.mutex = true
  ordered : Ordered e.flash ram
  later : ram₀.sMeta.nextSequence.toNat ≤ ram.sMeta.nextSequence.toNat
  bound : ram.sMeta.nextSequence.toNat ≤ ram₀.sMeta.nextSequence.toNat + n
  room : 0 < limit.toNat
  walk : Paging.Walk auditKey limit.toNat (readable flash₀ ram₀) ram₀.sMeta.nextSequence.toNat
    (readable e.flash ram) ((pages ++ [page]).map AuditPage.records) page.more

section Walk

variable {limit : UInt32} {d e f : AuditDevice} {n : Nat} {pages : List AuditPage} {page page' : AuditPage}
  {ram₀ ram : AuditRam}

theorem AuditPage.more_eq_some {page : AuditPage} {b : Nat} :
    page.more = some b ↔ page.hasMore = true ∧ page.nextBefore.toNat = b := by
  unfold more
  split
  · next h => simp [h]
  · next h => simp [h]

theorem AuditPage.more_eq_none {page : AuditPage} : page.more = none ↔ page.hasMore = false := by
  unfold more
  split
  · next h => simp [h]
  · next h => simp [h]

namespace WalkInv

theorem append (h : WalkInv limit d.flash ram₀ e n pages page ram) {record : AuditRecord} {err : EspErr}
    (hstep : AuditStep e (.append record err) f)
    (hn : ram₀.sMeta.nextSequence.toNat + (n + 1) < 2 ^ 64) :
    ∃ ram', WalkInv limit d.flash ram₀ f (n + 1) pages page ram' := by
  have hbound := h.bound
  have hlater := h.later
  generalize hev : AuditAct.append record err = act at hstep
  cases hstep with
  | @append s t mutex own base uptimeUs tr err' hrun =>
    obtain rfl := Option.some.inj h.running
    obtain ⟨hsame, hwritten⟩ := appendLocked_slots hrun
    by_cases hok : err' = espOk
    · subst hok
      have hslot : checkRecord (t.slots own.sMeta.spareSlot) = .ok (own.stamp base uptimeUs) := by
        rw [hwritten rfl]
        exact own.check_stamp base uptimeUs
      obtain ⟨hordered, hnext, hold⟩ :=
        h.ordered.appended hsame hslot (own.stamp_sequence base uptimeUs) (by omega)
      refine ⟨own.appended espOk, rfl, h.mutex, hordered, by omega, by omega, h.room, ?_⟩
      exact h.walk.change hordered.descending fun x hx hlt => hold x hx (Nat.lt_of_lt_of_le hlt hlater)
    · have hsameRam : own.appended err' = own := if_neg hok
      have hreads := readable_sameBut h.ordered.placed hsame
      rw [hsameRam]
      refine ⟨own, rfl, h.mutex, h.ordered.sameBut hsame, hlater, by omega, h.room, ?_⟩
      show Paging.Walk _ _ _ _ (readable t own) _ _
      rw [hreads]
      exact h.walk
  | _ => cases hev

theorem wear (h : WalkInv limit d.flash ram₀ e n pages page ram) (hstep : WearStep e none f) :
    WalkInv limit d.flash ram₀ f n pages page ram := by
  cases hstep with
  | wear hworn =>
    refine ⟨h.running, h.mutex, h.ordered.worn hworn, h.later, h.bound, h.room, ?_⟩
    exact h.walk.change (h.ordered.worn hworn).descending fun x hx _ => (hworn.readable ram).subset hx

theorem answers (h : WalkInv limit d.flash ram₀ e n pages page ram) {before : UInt64}
    (hpage : e.AnswersPage before limit page') :
    auditReadPage e.flash true true ram before limit = .ok page' := by
  obtain ⟨own, hown, hread⟩ := hpage
  obtain rfl := Option.some.inj (h.running.symm.trans hown)
  rw [h.mutex] at hread
  exact hread

/-- The next boundary is a sequence number of a record that was there. -/
theorem nextBefore (h : WalkInv limit d.flash ram₀ e n pages page ram) (hd : Ordered d.flash ram₀)
    (hmore : page.hasMore = true) :
    0 < page.nextBefore.toNat ∧ page.nextBefore.toNat < ram₀.sMeta.nextSequence.toNat := by
  have hwalk := h.walk
  rw [AuditPage.more_eq_some.mpr ⟨hmore, rfl⟩] at hwalk
  obtain ⟨x, hx, hkey⟩ := hwalk.next_mem
  rw [← hkey]
  exact hd.numbered x (hwalk.mem_first h.room hd.descending hx).1

theorem next (h : WalkInv limit d.flash ram₀ e n pages page ram) (hd : Ordered d.flash ram₀)
    (hmore : page.hasMore = true) (hpage : e.AnswersPage page.nextBefore limit page') :
    WalkInv limit d.flash ram₀ e n (pages ++ [page]) page' ram := by
  obtain ⟨-, hrecords, hnext⟩ := auditReadPage_ok (h.answers hpage)
  have hwalk := h.walk
  rw [AuditPage.more_eq_some.mpr ⟨hmore, rfl⟩] at hwalk
  have hboundary : ram.boundary page.nextBefore = page.nextBefore := by
    refine if_neg fun hzero => ?_
    have hpos := (h.nextBefore hd hmore).1
    rw [hzero] at hpos
    exact Nat.lt_irrefl _ hpos
  rw [hboundary] at hrecords hnext
  refine ⟨h.running, h.mutex, h.ordered, h.later, h.bound, h.room, ?_⟩
  rw [List.map_append, List.map_singleton, hrecords, hnext]
  exact hwalk.next

end WalkInv

theorem WalkInv.hasMore_iff (h : WalkInv limit d.flash ram₀ e n pages page ram) {before : UInt64}
    (hpage : e.AnswersPage before limit page') :
    page'.hasMore = true ↔ ∃ r, e.Readable r ∧ (before = 0 ∨ r.sequence < before) ∧
      ∀ x ∈ page'.records, r.sequence < x.sequence := by
  obtain ⟨-, hrecords, hnext⟩ := auditReadPage_ok (h.answers hpage)
  have hmore : page'.hasMore = true ↔ page'.more ≠ none := by
    rw [Ne, AuditPage.more_eq_none, Bool.not_eq_false]
  have hbelow (r : AuditRecord) (hr : r ∈ readable e.flash ram) :
      auditKey r < (ram.boundary before).toNat ↔ before = 0 ∨ r.sequence < before := by
    unfold AuditRam.boundary
    split
    · next hzero => exact ⟨fun _ => .inl hzero, fun _ => (h.ordered.numbered r hr).2⟩
    · next hne =>
      rw [UInt64.lt_iff_toNat_lt]
      exact ⟨.inr, fun hlt => hlt.resolve_left hne⟩
  rw [hmore, hnext, Paging.next_ne_none_iff h.room h.ordered.descending, ← hrecords]
  refine exists_congr fun r => ?_
  rw [readable_iff h.running h.mutex]
  constructor
  · rintro ⟨hr, hlt, hlow⟩
    exact ⟨hr, (hbelow r hr).mp hlt, fun x hx => UInt64.lt_iff_toNat_lt.mpr (hlow x hx)⟩
  · rintro ⟨hr, hlt, hlow⟩
    exact ⟨hr, (hbelow r hr).mpr hlt, fun x hx => UInt64.lt_iff_toNat_lt.mp (hlow x hx)⟩

theorem PageWalk.limit_le (h : PageWalk limit d e n pages page) : limit.toNat ≤ 16 := by
  induction h with
  | first hpage =>
    obtain ⟨ram, -, hread⟩ := hpage
    unfold auditReadPage at hread
    split at hread
    · cases hread
    · next hlimit =>
      simp only [not_or] at hlimit
      exact UInt32.le_iff_toNat_le.mp (UInt32.not_lt.mp hlimit.2.2)
  | append _ _ ih => exact ih
  | wear _ _ ih => exact ih
  | next _ _ _ ih => exact ih

theorem PageWalk.running (h : PageWalk limit d e n pages page) : ∃ ram, d.ram = some ram := by
  induction h with
  | first hpage =>
    obtain ⟨ram, hram, -⟩ := hpage
    exact ⟨ram, hram⟩
  | append _ _ ih => exact ih
  | wear _ _ ih => exact ih
  | next _ _ _ ih => exact ih

/-- There is a next page while there is more. -/
theorem WalkInv.more_answers (h : WalkInv limit d.flash ram₀ e n pages page ram)
    (hd : Ordered d.flash ram₀) (hmore : page.hasMore = true) (hlimit : limit.toNat ≤ 16) :
    ∃ page', e.AnswersPage page.nextBefore limit page' := by
  have hbefore := (h.nextBefore hd hmore).2
  have hlater := h.later
  obtain ⟨page', hread⟩ := @auditReadPage_answers e.flash ram page.nextBefore limit h.room hlimit (by omega)
  refine ⟨page', ram, h.running, ?_⟩
  rw [h.mutex]
  exact hread

theorem readable_length {flash : AuditFlash} (h : ram.sMeta.Placed) : (readable flash ram).length ≤ 255 := by
  have hle := List.length_filterMap_le Except.toOption (readsNewest flash ram)
  have hreads : (readsNewest flash ram).length = ram.sMeta.count.toNat := by
    unfold readsNewest
    rw [List.length_map, List.length_range]
  have hcount := h.count
  unfold readable
  omega

/-- **A walk** over the pages is a walk over the readable records. -/
theorem PageWalk.walk (h : PageWalk limit d e n pages page) (hram : d.ram = some ram₀)
    (hmutex : d.mutex = true) (hd : Ordered d.flash ram₀)
    (hn : ram₀.sMeta.nextSequence.toNat + n < 2 ^ 64) :
    ∃ ram, WalkInv limit d.flash ram₀ e n pages page ram := by
  induction h with
  | first hpage =>
    obtain ⟨own, hown, hread⟩ := hpage
    obtain rfl := Option.some.inj (hram.symm.trans hown)
    rw [hmutex] at hread
    obtain ⟨hlimit, hrecords, hnext⟩ := auditReadPage_ok hread
    refine ⟨ram₀, hram, hmutex, hd, Nat.le_refl _, Nat.le_refl _, hlimit, ?_⟩
    rw [List.nil_append, List.map_singleton, hrecords, hnext]
    exact .first
  | append _ hstep ih =>
    obtain ⟨ram, hinv⟩ := ih (by omega)
    exact hinv.append hstep hn
  | wear _ hstep ih =>
    obtain ⟨ram, hinv⟩ := ih hn
    exact ⟨ram, hinv.wear hstep⟩
  | next _ hmore hpage ih =>
    obtain ⟨ram, hinv⟩ := ih hn
    exact ⟨ram, hinv.next hd hmore hpage⟩

end Walk

/-- **Paging.**  In any run of fewer than 2^64 - 1 appends the pages read from some moment on
hold the readable records of that moment, each once and in descending order, and no other; the
last page has no more exactly when no older readable record is left, and then no record that
can still be read is missing. -/
theorem audit_paging {ms : List WearMove} (h : IsRun WearStep blankAudit ms) {limit : UInt32}
    {e : AuditDevice} {n : Nat} {pages : List AuditPage} {page : AuditPage}
    (hwalk : PageWalk limit (final blankAudit ms) e n pages page)
    (hn : ms.countP WearMove.appends + n < 2 ^ 64 - 1) :
    (((pages ++ [page]).flatMap AuditPage.records).Pairwise fun a b => b.sequence < a.sequence) ∧
    (∀ r ∈ (pages ++ [page]).flatMap AuditPage.records, (final blankAudit ms).Readable r ∧
      ∀ ram, (final blankAudit ms).ram = some ram → r.sequence < ram.sMeta.nextSequence) ∧
    (page.hasMore = false → ∀ r, (final blankAudit ms).Readable r → e.Readable r →
      r ∈ (pages ++ [page]).flatMap AuditPage.records) ∧
    (∀ before page', e.AnswersPage before limit page' → (page'.hasMore = true ↔
      ∃ r, e.Readable r ∧ (before = 0 ∨ r.sequence < before) ∧
        ∀ x ∈ page'.records, r.sequence < x.sequence)) ∧
    (page.hasMore = true → ∃ page', e.AnswersPage page.nextBefore limit page') ∧
    pages.length ≤ 255 := by
  obtain ⟨ram₀, hram⟩ := hwalk.running
  obtain ⟨hmutex, hordered, hnext⟩ := ordered_of_isRun h (by omega) hram
  obtain ⟨ram, hinv⟩ := hwalk.walk hram hmutex hordered (by omega)
  have hd := hordered.descending
  have hflat : ((pages ++ [page]).map AuditPage.records).flatten =
      (pages ++ [page]).flatMap AuditPage.records := List.flatMap_def.symm
  refine ⟨?_, fun r hr => ?_, fun hmore r hfirst hlast => ?_, fun before page' hpage => ?_, fun hmore => ?_, ?_⟩
  · rw [← hflat]
    exact (hinv.walk.descending hinv.room hd).imp fun hlt => UInt64.lt_iff_toNat_lt.mpr hlt
  · rw [← hflat] at hr
    obtain ⟨hmem, hlt⟩ := hinv.walk.mem_first hinv.room hd hr
    refine ⟨(readable_iff hram hmutex).mpr hmem, fun own hown => ?_⟩
    obtain rfl := Option.some.inj (hram.symm.trans hown)
    exact UInt64.lt_iff_toNat_lt.mpr hlt
  · have hend := hinv.walk
    rw [AuditPage.more_eq_none.mpr hmore] at hend
    rw [← hflat]
    have hold := (readable_iff hram hmutex).mp hfirst
    exact hend.complete hinv.room hd ((readable_iff hinv.running hinv.mutex).mp hlast)
      (hordered.numbered r hold).2
  · exact hinv.hasMore_iff hpage
  · refine hinv.more_answers hordered hmore hwalk.limit_le
  · have hlength := hinv.walk.length_le hinv.room hd
    have hlist := @readable_length ram₀ (final blankAudit ms).flash hordered.placed
    rw [List.length_map, List.length_append, List.length_singleton] at hlength
    omega

/-! ## Appends one after another -/

theorem append_ideal (s : AuditFlash) (ram : AuditRam) (record : AuditRecord) (uptimeUs : UInt64) :
    AuditStep ⟨s, true, some ram⟩ (.append (ram.stamp record uptimeUs) espOk)
      ⟨(s.setRecord ram.sMeta.spareSlot (ram.stamp record uptimeUs)).setMeta ram.sMeta.next, true,
        some (ram.appended espOk)⟩ :=
  .append (Prog.playS_exec AuditFlash.ideal_call (appendLocked ram record uptimeUs) s)

/-- A first init and `n` appends that succeed. -/
theorem exists_appends (n : Nat) :
    ∃ (ms : List WearMove) (s : AuditFlash) (ram : AuditRam) (log : List AuditRecord),
      IsRun WearStep blankAudit ms ∧ final blankAudit ms = ⟨s, true, some ram⟩ ∧
        ms.countP WearMove.appends = n ∧ ram.sMeta.Stands s.slots log ∧ SoundLog log ∧ log.length = n := by
  induction n with
  | zero =>
    refine ⟨[⟨blankAudit, some .init, ⟨Adoption.blob, true, some Adoption.first⟩⟩], _, _, [], ⟨rfl, .act ?_, trivial⟩,
      rfl, rfl, AuditMeta.fresh_stands _, .nil, rfl⟩
    exact .init (Prog.playS_exec AuditFlash.ideal_call auditInit .blank) (by decide)
  | succ n ih =>
    obtain ⟨ms, s, ram, log, hrun, hfinal, hcount, hstands, hsound, hlength⟩ := ih
    have hslot := slots_setRecord s ram.sMeta.spareSlot (ram.stamp .zero 0)
    have hsame := sameBut_setRecord ram.sMeta.spareSlot s (ram.stamp .zero 0)
    refine ⟨ms ++ [⟨⟨s, true, some ram⟩, some (.append (ram.stamp .zero 0) espOk), _⟩], _, _,
      log ++ [ram.stamp .zero 0],
      (isRun_append _ _ _).mpr ⟨hrun, hfinal.symm, .act (append_ideal s ram .zero 0), trivial⟩,
      final_append _ _ _, ?_, (hstands.overwrite hsame).next hslot,
      hsound.snoc (ram.check_stamp .zero 0) ?_, ?_⟩
    · rw [List.countP_append, hcount]
      rfl
    · rw [ram.stamp_sequence]
      exact hstands.sequence
    · rw [List.length_append, hlength]
      rfl

namespace Adoption

def full : AuditRam := second.appended espOk

/-- The ring after the two appends and one more. -/
def later : AuditFlash := (last.setRecord full.sMeta.spareSlot (full.stamp .zero 0)).setMeta full.sMeta.next

def newerPage : AuditPage := ⟨[kept], 2, true, false⟩
def olderPage : AuditPage := ⟨[lost], 0, false, false⟩

end Adoption

open Adoption in
/-- A first init and two appends. -/
def twoAppends : List WearMove :=
  [⟨blankAudit, some .init, ⟨blob, true, some first⟩⟩,
    ⟨⟨blob, true, some first⟩, some (.append lost espOk), ⟨cut, true, some second⟩⟩,
    ⟨⟨cut, true, some second⟩, some (.append kept espOk), ⟨last, true, some full⟩⟩]

theorem twoAppends_run : IsRun WearStep blankAudit twoAppends :=
  ⟨rfl, .act (.init (Prog.playS_exec AuditFlash.ideal_call auditInit .blank) (by decide)), rfl,
    .act (append_ideal Adoption.blob Adoption.first .zero 0), rfl,
    .act (append_ideal Adoption.cut Adoption.second .zero 0), trivial⟩

open Adoption in
/-- One page, a third append, and the other page. -/
theorem twoAppends_walk :
    PageWalk 1 (final blankAudit twoAppends) ⟨later, true, some (full.appended espOk)⟩ 1 [newerPage] olderPage := by
  have hlost : checkRecord (.ok lost) = .ok lost := first.check_stamp .zero 0
  have hkept : checkRecord (.ok kept) = .ok kept := second.check_stamp .zero 0
  have hthird : checkRecord (.ok (full.stamp .zero 0)) = .ok (full.stamp .zero 0) := full.check_stamp .zero 0
  have hnewer : auditReadPage last true true full 0 1 = .ok newerPage := by
    have hreads : readsNewest last full = [checkRecord (.ok kept), checkRecord (.ok lost)] := rfl
    unfold auditReadPage
    rw [hreads, hkept, hlost]
    rfl
  have holder : auditReadPage later true true (full.appended espOk) 2 1 = .ok olderPage := by
    have hreads : readsNewest later (full.appended espOk) =
        [checkRecord (.ok (full.stamp .zero 0)), checkRecord (.ok kept), checkRecord (.ok lost)] := rfl
    unfold auditReadPage
    rw [hreads, hthird, hkept, hlost]
    rfl
  have hfirst : PageWalk 1 (final blankAudit twoAppends) (final blankAudit twoAppends) 0 [] newerPage :=
    .first ⟨full, rfl, hnewer⟩
  have happend : PageWalk 1 (final blankAudit twoAppends) ⟨later, true, some (full.appended espOk)⟩ 1 []
      newerPage := .append hfirst (append_ideal last full .zero 0)
  exact .next happend rfl ⟨full.appended espOk, rfl, holder⟩

open Adoption in
theorem audit_paging_two :
    (([newerPage] ++ [olderPage]).flatMap AuditPage.records).Pairwise (fun a b => b.sequence < a.sequence) ∧
      ¬ ∃ r, (final blankAudit twoAppends).Readable r ∧
        (⟨later, true, some (full.appended espOk)⟩ : AuditDevice).Readable r ∧ r ∉ [kept, lost] := by
  obtain ⟨hdescending, -, hcomplete, -⟩ := audit_paging twoAppends_run twoAppends_walk (by decide)
  refine ⟨hdescending, ?_⟩
  rintro ⟨r, hfirst, hlast, hnot⟩
  exact hnot (hcomplete rfl r hfirst hlast)

/-- After 2^64 - 1 appends the next sequence number is 1 again, and no record is below it. -/
theorem wrapped_ring_pages_empty :
    ¬ ∀ (ms : List WearMove) (limit : UInt32) (page : AuditPage), IsRun WearStep blankAudit ms →
      (final blankAudit ms).AnswersPage 0 limit page → page.hasMore = false →
      ∀ r, (final blankAudit ms).Readable r → r ∈ page.records := by
  intro hall
  obtain ⟨ms, s, ram, log, hrun, hfinal, -, hstands, hsound, hlength⟩ := exists_appends (2 ^ 64 - 1)
  have hnext : ram.sMeta.nextSequence.toNat = 1 := by
    rw [hstands.sequence, hlength]
    rfl
  have hread (r : AuditRecord) (hr : (final blankAudit ms).Readable r) : 0 < r.sequence.toNat := by
    obtain ⟨offset, hoffset⟩ := hr
    rw [hfinal] at hoffset
    have hlog : readOf log offset = .ok r := (auditRead_eq hstands hsound offset).symm.trans hoffset
    unfold readOf at hlog
    cases hget : (log.drop (log.length - auditCapacity.toNat))[offset.toNat]? with
    | none =>
      rw [hget] at hlog
      cases hlog
    | some x =>
      rw [hget] at hlog
      obtain rfl := Except.ok.inj hlog
      rw [List.getElem?_drop] at hget
      rw [hsound.sequence _ _ hget]
      exact auditSequence_pos _
  have hsome : ∃ r, (final blankAudit ms).Readable r := by
    have hlt : log.length - 255 < log.length := by omega
    refine ⟨log[log.length - 255], 0, ?_⟩
    rw [hfinal]
    refine (auditRead_eq hstands hsound 0).trans ?_
    unfold readOf
    rw [List.getElem?_drop, UInt32.toNat_zero, Nat.add_zero, show auditCapacity.toNat = 255 from rfl,
      List.getElem?_eq_getElem hlt]
    rfl
  obtain ⟨page, hpage⟩ := @auditReadPage_answers s ram 0 16 (by decide) (by decide) (Nat.zero_le _)
  have hnone : Paging.below auditKey (readable s ram) (ram.boundary 0).toNat = [] := by
    rw [List.eq_nil_iff_forall_not_mem]
    intro r hr
    obtain ⟨hmem, hlt⟩ := Paging.mem_below.mp hr
    have hreadable : (final blankAudit ms).Readable r := by
      rw [hfinal]
      exact (readable_iff rfl rfl).mpr hmem
    have hpos := hread r hreadable
    have hlt : r.sequence.toNat < ram.sMeta.nextSequence.toNat := hlt
    omega
  obtain ⟨-, hrecords, hmore⟩ := auditReadPage_ok hpage
  unfold Paging.page at hrecords
  unfold Paging.next at hmore
  rw [hnone] at hrecords hmore
  rw [List.length_nil, if_neg (Nat.not_lt_zero _), AuditPage.more_eq_none] at hmore
  obtain ⟨r, hr⟩ := hsome
  have hanswers : (final blankAudit ms).AnswersPage 0 16 page := by
    rw [hfinal]
    exact ⟨ram, rfl, hpage⟩
  have hmem := hall ms 16 page hrun hanswers hmore r hr
  rw [hrecords] at hmem
  cases hmem

end Argus
