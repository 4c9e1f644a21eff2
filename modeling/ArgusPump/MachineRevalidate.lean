import ArgusPump.MachineLifecycle
import ArgusPump.DirectoryCommit

/-!
# Live revalidation

A principal carries what the directory said of its record when it authenticated;
`argus_machine_service_revalidate` compares that with what the directory says now.  The
counters of a record start over when it is deleted and made again, but its epoch is the
generation of the commit that wrote it last.

    fewer than 2^32 generations → revalidation succeeds ↔ no operation on the identifier has
      been committed since authentication                             (machine_revalidation)
-/

namespace Argus

open Interact Stamp

/-! ## Runs of the directory -/

/-- Calls of the service, and commits of anybody else. -/
inductive MachineDirectoryAct
  | call (call : MachineCall)
  | commit (payload : MachinePayload)

abbrev MachineDirectoryMove := Move MachineSnapshot MachineDirectoryAct

/-- The steps of the directory; a commit of anybody else leaves the record of `id` alone. -/
inductive MachineDirectoryStep (id : List UInt8) :
    MachineSnapshot → MachineDirectoryAct → MachineSnapshot → Prop
  | call {s t : MachineSnapshot} {call : MachineCall} : MachineStep s call t →
      MachineDirectoryStep id s (.call call) t
  | commit {s : MachineSnapshot} {payload : MachinePayload} : payload.valid = true →
      payload.find id = s.payload.find id →
      MachineDirectoryStep id s (.commit payload) ⟨payload, nextGeneration s.generation⟩

/-- The move makes a new generation. -/
def MachineDirectoryMove.commits (m : MachineDirectoryMove) : Bool :=
  match m.ev with
  | .call call => call.err = espOk
  | .commit _ => true

/-- An operation called with `id` goes through. -/
def MachineDirectoryMove.Touches (id : List UInt8) (m : MachineDirectoryMove) : Prop :=
  ∃ op, m.ev = .call ⟨op, espOk⟩ ∧ op.target? = some id

/-- The stamp of a record and the directory's clock. -/
def MachineRecord.stamp (r : MachineRecord) : Nat := r.recordSecurityEpoch.toNat

def machineClock (s : MachineSnapshot) : Nat := s.generation.toNat

def machineEntry (id : List UInt8) (s : MachineSnapshot) : Option MachineRecord := s.payload.find id

section Steps

variable {id : List UInt8}

theorem MachineDirectoryStep.valid {s t : MachineSnapshot} {act : MachineDirectoryAct}
    (h : MachineDirectoryStep id s act t) (hs : s.payload.Valid) : t.payload.Valid := by
  cases h with
  | call hstep => exact hstep.valid hs
  | commit hvalid _ => exact MachinePayload.valid_iff.mp hvalid

theorem MachineDirectoryStep.generation (m : MachineDirectoryMove)
    (h : MachineDirectoryStep id m.pre m.ev m.post) :
    m.post.generation = if m.commits then nextGeneration m.pre.generation else m.pre.generation := by
  obtain ⟨s, act, t⟩ := m
  dsimp only at h
  cases h with
  | call hstep =>
    unfold MachineDirectoryMove.commits
    cases hstep with
    | refused _ herr => rw [if_neg (by simpa using herr)]
    | failed _ herr => rw [if_neg (by simpa using herr)]
    | committed _ _ => rfl
  | commit _ _ => rfl

/-- What an operation writes under a record's identifier is stamped with the next generation. -/
theorem MachineOp.Rewrites.stamp {s : MachineSnapshot} {op : MachineOp} {k : List UInt8}
    {old : Option MachineRecord} {r : MachineRecord} (h : op.Rewrites s k old (some r)) :
    r.recordSecurityEpoch = s.generation + 1 := by
  cases h <;> rfl

/-- An operation that changes or deletes a record is called with its identifier. -/
theorem MachineOp.Rewrites.target {s : MachineSnapshot} {op : MachineOp} {k : List UInt8}
    {old new : Option MachineRecord} (h : op.Rewrites s k old new) :
    op.target? = some k ∨ op.target? = none ∧ old = none := by
  cases h with
  | enrolled _ _ => exact .inr ⟨rfl, rfl⟩
  | updated htarget _ => exact .inl htarget
  | deleted _ => exact .inl rfl

/-- **One step**: what it writes is stamped past the clock. -/
theorem MachineDirectoryStep.stamps (m : MachineDirectoryMove)
    (h : MachineDirectoryStep id m.pre m.ev m.post) (hs : m.pre.payload.Valid)
    (hcount : m.commits → m.post.generation.toNat = m.pre.generation.toNat + 1)
    (hbound : ∀ r, machineEntry id m.pre = some r → r.stamp ≤ machineClock m.pre) :
    Stamps machineClock (machineEntry id) MachineRecord.stamp (m.Touches id) m.pre m.post := by
  obtain ⟨s, act, t⟩ := m
  dsimp only at h hs hbound hcount ⊢
  cases h with
  | commit _ hsame =>
    refine Stamps.of_same hbound ?_ hsame ?_
    · exact (Nat.le_succ _).trans (hcount rfl).ge
    · rintro ⟨op, hev, -⟩
      cases hev
  | @call _ call hstep =>
    obtain ⟨op, err⟩ := call
    rcases hstep.cases hs with ⟨herr, rfl⟩ | ⟨herr, -, -, -, k, old, new, hrewrites, hold, hfind⟩
    · refine Stamps.of_same hbound le_rfl rfl ?_
      rintro ⟨op', hev, -⟩
      cases hev
      exact herr rfl
    · dsimp only at herr hrewrites
      subst herr
      have hclock : t.generation.toNat = s.generation.toNat + 1 := hcount rfl
      have hlt := t.generation.toNat_lt
      by_cases hk : id = k
      · subst hk
        have hentry : machineEntry id t = new := by
          unfold machineEntry
          rw [hfind, if_pos rfl]
        have hstamp : ∀ r, machineEntry id t = some r → r.stamp = machineClock s + 1 := by
          intro r hr
          obtain rfl := hentry.symm.trans hr
          unfold MachineRecord.stamp machineClock
          rw [hrewrites.stamp, epoch_toNat (by omega)]
        refine ⟨?_, fun r hr => ?_, fun r _ hr => ?_, fun _ r r' hr hr' => ?_, fun hnone r hr => ?_⟩
        · exact (Nat.le_succ _).trans hclock.ge
        · rw [hstamp r hr]
          exact hclock.ge
        · rw [hstamp r hr]
          exact Nat.lt_succ_self _
        · rw [hstamp r' hr']
          exact Nat.lt_succ_of_le (hbound r hr)
        · rcases hrewrites.target with htarget | ⟨-, rfl⟩
          · exact absurd ⟨op, rfl, htarget⟩ hnone
          · rw [machineEntry, hold] at hr
            cases hr
      · refine Stamps.of_same hbound ((Nat.le_succ _).trans hclock.ge) ?_ ?_
        · unfold machineEntry
          rw [hfind, if_neg hk]
        · rintro ⟨op', hev, htarget⟩
          cases hev
          rcases hrewrites.target with hk' | ⟨hnone, -⟩
          · exact hk (Option.some.inj (htarget.symm.trans hk'))
          · rw [htarget] at hnone
            cases hnone

end Steps

/-! ## What is compared -/

/-- The strings of a valid record end within their arrays. -/
theorem MachineRecord.terminated {r : MachineRecord} (h : r.valid = true) :
    strlen r.identifier < 37 ∧ strlen r.scope < 37 ∧ strlen r.topicScope < 97 := by
  have hid := strlen_le r.identifier
  have htopic := strlen_le r.topicScope
  unfold valid at h
  simp only [Bool.and_eq_true] at h
  obtain ⟨⟨⟨⟨⟨⟨⟨⟨⟨⟨⟨-, hidentifier⟩, -⟩, hscope⟩, htopicScope⟩, -⟩, -⟩, -⟩, -⟩, -⟩, -⟩, -⟩ := h
  refine ⟨?_, ?_, ?_⟩
  · unfold boundedStringValid at hidentifier
    split at hidentifier
    · cases hidentifier
    · omega
  · unfold machineScopeValid at hscope
    split at hscope
    · cases hscope
    · omega
  · unfold boundedPrintableValid at htopicScope
    split at htopicScope
    · cases htopicScope
    · omega

theorem MachineRecord.principal_identifier {r : MachineRecord} (h : r.valid = true) (g : UInt32) :
    cString (r.principal g).identifier = r.id :=
  cString_strlcpy_cString (terminated h).1

/-- Revalidation succeeds only if the epoch is still the principal's. -/
theorem epoch_of_serviceRevalidate {s : MachineSnapshot} {principal : MachineServicePrincipal}
    {receivingInterface : UInt8} (h : serviceRevalidate s principal receivingInterface = espOk) :
    ∃ r, s.payload.find (cString principal.identifier) = some r ∧
      r.recordSecurityEpoch = principal.recordSecurityEpoch := by
  unfold serviceRevalidate at h
  split at h
  · cases h
  · split at h
    · cases h
    · next current hfind =>
      split at h
      · next hsame => exact ⟨current, hfind, hsame.2.2.2.2.1⟩
      · cases h

/-- While the record is as it was, revalidation succeeds. -/
theorem serviceRevalidate_same {s : MachineSnapshot} {r : MachineRecord} (hvalid : r.valid = true)
    (hfind : s.payload.find r.id = some r) (hid : r.id ≠ []) (henabled : r.enabled ≠ 0)
    (hrevoked : r.revoked = 0) (htransport : r.allowedTransports &&& machineTransportMqtt ≠ 0)
    {receivingInterface : UInt8} (hinterface : r.allowedInterfaces &&& receivingInterface ≠ 0)
    (g : UInt32) : serviceRevalidate s (r.principal g) receivingInterface = espOk := by
  have hidentifier := MachineRecord.principal_identifier hvalid g
  obtain ⟨-, hscope, htopic⟩ := MachineRecord.terminated hvalid
  unfold serviceRevalidate
  rw [if_neg (by rw [strlen, hidentifier]; simpa using hid), hidentifier, hfind]
  exact if_pos ⟨henabled, hrevoked, rfl, rfl, rfl, htransport, hinterface, rfl,
    (cString_strlcpy_cString hscope).symm, (cString_strlcpy_cString htopic).symm⟩

/-! ## Revalidation over runs -/

variable {id clientId password : List UInt8} {receivingInterface : UInt8}
  {refusal : Option MachineAuthResult} {verify : Except EspErr Bool}
  {principal : MachineServicePrincipal} {l k ms : List MachineDirectoryMove}

theorem machineDirectory_run_valid (h : IsRun (MachineDirectoryStep id) freshMachines ms) :
    (∀ m ∈ ms, m.pre.payload.Valid ∧ m.post.payload.Valid) ∧ (final freshMachines ms).payload.Valid :=
  h.inv (I := fun t => t.payload.Valid) freshMachines_valid fun _ hi hstep => hstep.valid hi

theorem freshMachines_find : machineEntry id freshMachines = none := rfl

/-- In a run from blank flash with fewer than 2^32 generations every step stamps its writes. -/
theorem machineDirectory_run_stamps (h : IsRun (MachineDirectoryStep id) freshMachines ms)
    (hgen : 1 + ms.countP MachineDirectoryMove.commits < 2 ^ 32) :
    ∀ m ∈ ms, Stamps machineClock (machineEntry id) MachineRecord.stamp (m.Touches id) m.pre m.post := by
  have hcounter : Counts (MachineDirectoryStep id) DirectorySnapshot.generation
      MachineDirectoryMove.commits := MachineDirectoryStep.generation
  have hcounts := hcounter.succ h (by decide) hgen
  have hvalid := (machineDirectory_run_valid h).1
  refine stamps_of_isRun h (fun r hr => ?_) fun m hm =>
    MachineDirectoryStep.stamps m (h.step_of_mem m hm) (hvalid m hm).1 (hcounts m hm)
  rw [freshMachines_find] at hr
  cases hr

/-- **Live revalidation is exact.** -/
theorem machine_revalidation (h : IsRun (MachineDirectoryStep id) freshMachines (l ++ k))
    (hgen : 1 + (l ++ k).countP MachineDirectoryMove.commits < 2 ^ 32)
    (hauth : machineAuthenticate (final freshMachines l) clientId id password receivingInterface refusal
      verify = .ok principal) :
    serviceRevalidate (final freshMachines (l ++ k)) principal receivingInterface = espOk ↔
      ∀ m ∈ k, ¬ m.Touches id := by
  obtain ⟨hne, r, hfind, henabled, hrevoked, htransport, hinterface, rfl⟩ := machineAuthenticate_ok hauth
  obtain ⟨hl, hk⟩ := (isRun_append _ l k).mp h
  obtain ⟨hmem, rfl⟩ := (machineDirectory_run_valid hl).2.find_iff.mp hfind
  have hvalid := (machineDirectory_run_valid hl).2.machines r hmem
  have hstamps := machineDirectory_run_stamps h hgen
  have h0 : ∀ q, machineEntry r.id freshMachines = some q → q.stamp ≤ machineClock freshMachines := by
    intro q hq
    rw [freshMachines_find] at hq
    cases hq
  constructor
  · intro hok
    obtain ⟨r', hr', hepoch⟩ := epoch_of_serviceRevalidate hok
    rw [MachineRecord.principal_identifier hvalid] at hr'
    exact (current_iff h hstamps h0 hfind).mp ⟨r', hr', congrArg UInt32.toNat hepoch⟩
  · intro hnone
    have hkept := entry_of_untouched hk (fun m hm => hstamps m (List.mem_append_right l hm)) hfind hnone
    rw [← final_append] at hkept
    exact serviceRevalidate_same hvalid hkept hne henabled hrevoked htransport hinterface _

/-- The panel is enrolled and authenticates, and is current. -/
theorem machine_revalidation_panel :
    ∃ (l : List MachineDirectoryMove) (password : List UInt8) (principal : MachineServicePrincipal),
      IsRun (MachineDirectoryStep panelIdentifier) freshMachines l ∧
      machineAuthenticate (final freshMachines l) panelIdentifier panelIdentifier password
        machineInterfaceSoftap none (.ok true) = .ok principal ∧
      serviceRevalidate (final freshMachines l) principal machineInterfaceSoftap = espOk := by
  have hall : (machineServe freshMachines enrollPanel).any (fun served =>
      (machineAuthenticate served.2 panelIdentifier panelIdentifier (.replicate 43 0x41)
        machineInterfaceSoftap none (.ok true)).isOk) = true := by decide +kernel
  obtain ⟨⟨call, t⟩, hserve, hauth⟩ := (Option.any_eq_true _ _).mp hall
  have hstep := (machineServe_step freshMachines enrollPanel call t hserve).1
  clear hall hserve
  generalize panelIdentifier = id, List.replicate 43 (0x41 : UInt8) = password at hauth ⊢
  dsimp only at hauth
  generalize hanswer : machineAuthenticate t id id password machineInterfaceSoftap none (.ok true) =
    answer at hauth
  cases answer with
  | error err => cases hauth
  | ok principal =>
    generalize hl : [(⟨freshMachines, .call call, t⟩ : MachineDirectoryMove)] = l
    have hrun : IsRun (MachineDirectoryStep id) freshMachines (l ++ []) := by
      rw [← hl]
      exact ⟨rfl, .call hstep, trivial⟩
    have hfinal : final freshMachines l = t := by rw [← hl]; rfl
    have hgen : 1 + (l ++ []).countP MachineDirectoryMove.commits < 2 ^ 32 := by
      refine Nat.lt_of_le_of_lt (Nat.add_le_add_left List.countP_le_length 1) ?_
      rw [← hl]
      exact Nat.succ_lt_succ (by decide)
    rw [← hfinal] at hanswer
    have hcurrent := (machine_revalidation hrun hgen hanswer).mpr fun _ hm =>
      absurd hm List.not_mem_nil
    rw [List.append_nil] at hrun hcurrent
    exact ⟨l, password, principal, hrun, hanswer, hcurrent⟩

end Argus
