import ArgusPump.ServiceEntry

/-!
# Service entry fails closed

The lock accounts of the ways out of `argus_net_mgr_orchestrate_service_entry`.

    a local owner, a preparation that succeeds and hooks that give the locks back and
      revalidate ↔ the way out fails closed                           (service_entry)
-/

namespace Argus

/-! ## When every way out fails closed -/

/-- What the orchestration needs of its caller and its hooks. -/
structure ServiceEnv.Complete (env : ServiceEnv) (owner : AuthorityOwner) (core : AuthorityCore) :
    Prop where
  owner : owner = .browser ∨ owner = .diagnosticCli
  prepare : env.answer .prepareTransition = espOk
  unlockDispatch : env.present .unlockDispatch = true
  unlockNet : env.present .unlockNet = true
  lockNet : env.present .lockNet = true
  lockDispatch : (∀ hook ∈ serviceSteps, env.answer hook = espOk) → env.present .lockDispatch = true
  revalidate : (∀ hook ∈ serviceSteps, env.answer hook = espOk) → env.grants core →
    env.present .revalidateNetwork = true

section Holds

variable {env : ServiceEnv}

theorem enterCalls_net : holds .lockNet .unlockNet env.enterCalls =
    1 - (env.present .unlockNet).toNat + (env.present .lockNet).toNat := by
  unfold ServiceEnv.enterCalls
  rw [holds_append, holds_append, holds_append, holds_append, holds_called_other (by decide) (by decide),
    holds_called_unlock (by decide), holds_called_other (by decide) (by decide),
    holds_called_lock (by decide), holds_of_notMem (by decide)]
  omega

theorem enterCalls_dispatch : holds .lockDispatch .unlockDispatch env.enterCalls =
    1 - (env.present .unlockDispatch).toNat := by
  unfold ServiceEnv.enterCalls
  rw [holds_append, holds_append, holds_append, holds_append, holds_called_unlock (by decide),
    holds_called_other (by decide) (by decide), holds_called_other (by decide) (by decide),
    holds_called_other (by decide) (by decide), holds_of_notMem (by decide)]
  omega

theorem holds_of_steps {lock unlock : ServiceHook} {called : List (ServiceHook × EspErr)}
    (h : ∀ call ∈ called, call.1 ∈ serviceSteps) (hlock : lock ∉ serviceSteps)
    (hunlock : unlock ∉ serviceSteps) : holds lock unlock called = 1 :=
  holds_of_notMem fun call hc =>
    ⟨fun heq => hlock (heq ▸ h call hc), fun heq => hunlock (heq ▸ h call hc)⟩

theorem mem_steps_map {call : ServiceHook × EspErr} (h : call ∈ serviceSteps.map (·, espOk)) :
    call.1 ∈ serviceSteps := by
  obtain ⟨hook, hmem, rfl⟩ := List.mem_map.mp h
  exact hmem

theorem holds_of_restored {lock unlock : ServiceHook} {restored : List (ServiceHook × EspErr)}
    (h : ∀ call ∈ restored, call.1 = .startHttp) (hlock : lock ≠ .startHttp)
    (hunlock : unlock ≠ .startHttp) : holds lock unlock restored = 1 :=
  holds_of_notMem fun call hc => by
    rw [h call hc]
    exact ⟨hlock.symm, hunlock.symm⟩

variable {owner : AuthorityOwner} {core : AuthorityCore} {result : EspErr × ServiceEntry}

/-- The way out of a failed step gives both locks back if the hooks are there. -/
theorem stopped_holds {called restored : List (ServiceHook × EspErr)}
    (hcalled : ∀ call ∈ called, call.1 ∈ serviceSteps) (hrestored : ∀ call ∈ restored, call.1 = .startHttp)
    (hcalls : result.2.calls = env.enterCalls ++ called ++ [(.abortTransition, espOk)] ++
      env.called .unlockNet ++ restored) :
    holds .lockNet .unlockNet result.2.calls =
        1 - (env.present .unlockNet).toNat + (env.present .lockNet).toNat - (env.present .unlockNet).toNat ∧
      holds .lockDispatch .unlockDispatch result.2.calls = 1 - (env.present .unlockDispatch).toNat := by
  rw [hcalls]
  constructor
  · rw [holds_append, holds_append, holds_append, holds_append, enterCalls_net,
      holds_of_steps hcalled (by decide) (by decide), holds_of_notMem (l := [_]) (by decide),
      holds_called_unlock (by decide), holds_of_restored hrestored (by decide) (by decide)]
    omega
  · rw [holds_append, holds_append, holds_append, holds_append, enterCalls_dispatch,
      holds_of_steps hcalled (by decide) (by decide), holds_of_notMem (l := [_]) (by decide),
      holds_called_other (by decide) (by decide), holds_of_restored hrestored (by decide) (by decide)]
    omega

/-- The ways out after the steps do, if the hook that takes the dispatch lock again is there too. -/
theorem tried_holds {tried restored : List (ServiceHook × EspErr)}
    (htried : ∀ call ∈ tried, call.1 = .revalidateNetwork ∨ call.1 = .grantLocal ∨
      call.1 = .abortTransition)
    (hrestored : ∀ call ∈ restored, call.1 = .startHttp)
    (hcalls : result.2.calls = env.enterCalls ++ serviceSteps.map (·, espOk) ++ env.called .lockDispatch ++
      tried ++ env.called .unlockDispatch ++ env.called .unlockNet ++ restored) :
    holds .lockNet .unlockNet result.2.calls =
        1 - (env.present .unlockNet).toNat + (env.present .lockNet).toNat - (env.present .unlockNet).toNat ∧
      holds .lockDispatch .unlockDispatch result.2.calls = 1 - (env.present .unlockDispatch).toNat +
        (env.present .lockDispatch).toNat - (env.present .unlockDispatch).toNat := by
  have hother : ∀ call ∈ tried, call.1 ≠ .lockNet ∧ call.1 ≠ .unlockNet ∧ call.1 ≠ .lockDispatch ∧
      call.1 ≠ .unlockDispatch := by
    intro call hc
    rcases htried call hc with h | h | h <;> rw [h] <;> decide
  rw [hcalls]
  constructor
  · rw [holds_append, holds_append, holds_append, holds_append, holds_append, holds_append, enterCalls_net,
      holds_of_steps (fun _ => mem_steps_map) (by decide) (by decide),
      holds_called_other (by decide) (by decide),
      holds_of_notMem fun call hc => ⟨(hother call hc).1, (hother call hc).2.1⟩,
      holds_called_other (by decide) (by decide), holds_called_unlock (by decide),
      holds_of_restored hrestored (by decide) (by decide)]
    omega
  · rw [holds_append, holds_append, holds_append, holds_append, holds_append, holds_append,
      enterCalls_dispatch, holds_of_steps (fun _ => mem_steps_map) (by decide) (by decide),
      holds_called_lock (by decide),
      holds_of_notMem fun call hc => ⟨(hother call hc).2.2.1, (hother call hc).2.2.2⟩,
      holds_called_unlock (by decide), holds_called_other (by decide) (by decide),
      holds_of_restored hrestored (by decide) (by decide)]
    omega

/-- No grant goes through among some calls. -/
def NoGrant (calls : List (ServiceHook × EspErr)) : Prop := (.grantLocal, espOk) ∉ calls

instance (calls : List (ServiceHook × EspErr)) : Decidable (NoGrant calls) :=
  inferInstanceAs (Decidable (¬ _))

theorem noGrant_append {l r : List (ServiceHook × EspErr)} :
    NoGrant (l ++ r) ↔ NoGrant l ∧ NoGrant r := by
  unfold NoGrant
  rw [List.mem_append, not_or]

theorem noGrant_of_hook {l : List (ServiceHook × EspErr)} (h : ∀ call ∈ l, call.1 ≠ .grantLocal) :
    NoGrant l := fun hmem => h _ hmem rfl

theorem noGrant_called {hook : ServiceHook} (h : hook ≠ .grantLocal) : NoGrant (env.called hook) :=
  noGrant_of_hook fun call hc => by
    rw [hook_of_mem_called hc]
    exact h

theorem noGrant_enterCalls : NoGrant env.enterCalls := by
  unfold ServiceEnv.enterCalls
  simp only [noGrant_append]
  exact ⟨⟨⟨⟨by decide, noGrant_called (by decide)⟩, noGrant_called (by decide)⟩,
    noGrant_called (by decide)⟩, noGrant_called (by decide)⟩

theorem noGrant_steps {called : List (ServiceHook × EspErr)}
    (h : ∀ call ∈ called, call.1 ∈ serviceSteps) : NoGrant called :=
  noGrant_of_hook fun call hc heq => absurd (heq ▸ h call hc) (by decide)

theorem noGrant_restored {restored : List (ServiceHook × EspErr)}
    (h : ∀ call ∈ restored, call.1 = .startHttp) : NoGrant restored :=
  noGrant_of_hook fun call hc => by
    rw [h call hc]
    decide

theorem noGrant_grantCalls : NoGrant env.grantCalls := by
  unfold ServiceEnv.grantCalls
  refine noGrant_append.mpr ⟨noGrant_called (by decide), noGrant_of_hook fun call hc => ?_⟩
  rw [(revalidated_of_mem hc).1]
  decide

/-- An error that leaves no grant behind fails closed if it gives the locks back. -/
theorem Faulted.failsClosed (h : Faulted result) (hgrant : NoGrant result.2.calls)
    (hnet : holds .lockNet .unlockNet result.2.calls = 0)
    (hdispatch : holds .lockDispatch .unlockDispatch result.2.calls = 0) : FailsClosed owner result where
  failed _ := h.2
  entered hok := absurd hok h.1
  granted l r heq := absurd (by rw [heq]; simp) hgrant
  net := hnet
  dispatch := hdispatch

/-- A lock given up, taken again and given up is free only if both hooks are there. -/
theorem both_present {lock unlock : Bool}
    (h : (1 : Int) - unlock.toNat + lock.toNat - unlock.toNat = 0) : unlock = true ∧ lock = true := by
  have hlock := lock.toNat_le
  have hunlock := unlock.toNat_le
  exact ⟨Bool.toNat_eq_one.mp (by omega), Bool.toNat_eq_one.mp (by omega)⟩

theorem present_of_revalidated
    (h : (.revalidateNetwork, espOk) ∈ env.enterCalls ++ serviceSteps.map (·, espOk) ++ env.grantCalls) :
    env.present .revalidateNetwork = true := by
  have hcalled {hook : ServiceHook} (hc : (.revalidateNetwork, espOk) ∈ env.called hook) :
      ServiceHook.revalidateNetwork = hook := hook_of_mem_called hc
  unfold ServiceEnv.enterCalls ServiceEnv.grantCalls at h
  simp only [List.mem_append] at h
  rcases h with (((((h | h) | h) | h) | h) | h) | h | h
  · exact absurd h (by decide)
  · cases hcalled h
  · cases hcalled h
  · cases hcalled h
  · cases hcalled h
  · exact absurd (mem_steps_map h) (by decide)
  · cases hcalled h
  · exact (revalidated_of_mem h).2

theorem noGrant_before :
    NoGrant (env.enterCalls ++ serviceSteps.map (·, espOk) ++ env.grantCalls) := by
  simp only [noGrant_append]
  exact ⟨⟨noGrant_enterCalls, noGrant_steps fun _ => mem_steps_map⟩, noGrant_grantCalls⟩

theorem noGrant_after :
    NoGrant (env.called .unlockDispatch ++ env.called .unlockNet ++ env.called .startHttp) := by
  simp only [noGrant_append]
  exact ⟨⟨noGrant_called (by decide), noGrant_called (by decide)⟩, noGrant_called (by decide)⟩

/-- Before a grant the dispatch lock is held again and revalidation has succeeded. -/
theorem granted_before (hunlock : env.present .unlockDispatch = true)
    (hlock : env.present .lockDispatch = true) (hrevalidate : env.present .revalidateNetwork = true) :
    holds .lockDispatch .unlockDispatch
        (env.enterCalls ++ serviceSteps.map (·, espOk) ++ env.grantCalls) = 1 ∧
      (.revalidateNetwork, espOk) ∈ env.enterCalls ++ serviceSteps.map (·, espOk) ++ env.grantCalls := by
  unfold ServiceEnv.grantCalls ServiceEnv.revalidated
  rw [if_pos hrevalidate]
  constructor
  · rw [holds_append, holds_append, holds_append, enterCalls_dispatch,
      holds_of_steps (fun _ => mem_steps_map) (by decide) (by decide), holds_called_lock (by decide),
      holds_of_notMem (l := [_]) (by decide), hunlock, hlock]
    rfl
  · exact List.mem_append_right _ (List.mem_append_right _ List.mem_cons_self)

/-- A way out fails closed exactly if the hooks it needs are there. -/
theorem ServicePath.failsClosed_iff (howner : owner = .browser ∨ owner = .diagnosticCli)
    (h : ServicePath env owner core result) : FailsClosed owner result ↔ env.Complete owner core := by
  cases h with
  | unprepared hprepare hcalls =>
    constructor
    · intro hclosed
      have hnet := hclosed.net
      rw [hcalls] at hnet
      cases hnet
    · exact fun hcomplete => absurd hcomplete.prepare hprepare
  | @stopped called restored hook hprepare hmem hbad hfaulted hcalled hrestored hcalls =>
    obtain ⟨hnet, hdispatch⟩ := stopped_holds hcalled hrestored hcalls
    have hnone : ¬ ∀ hook ∈ serviceSteps, env.answer hook = espOk := fun hall => hbad (hall hook hmem)
    constructor
    · intro hclosed
      obtain ⟨hunlock, hlock⟩ := both_present (hnet.symm.trans hclosed.net)
      refine ⟨howner, hprepare, ?_, hunlock, hlock, fun hall => absurd hall hnone,
        fun hall => absurd hall hnone⟩
      have hzero := hdispatch.symm.trans hclosed.dispatch
      exact Bool.toNat_eq_one.mp (by omega)
    · intro hcomplete
      refine hfaulted.failsClosed ?_ ?_ ?_
      · rw [hcalls]
        simp only [noGrant_append]
        exact ⟨⟨⟨⟨noGrant_enterCalls, noGrant_steps hcalled⟩, by decide⟩, noGrant_called (by decide)⟩,
          noGrant_restored hrestored⟩
      · rw [hnet, hcomplete.unlockNet, hcomplete.lockNet]
        rfl
      · rw [hdispatch, hcomplete.unlockDispatch]
        rfl
  | @refused tried restored hprepare hsteps hgrants hfaulted htried hrestored hcalls =>
    have htail : ∀ call ∈ tried ++ [(.abortTransition, espOk)], call.1 = .revalidateNetwork ∨
        call.1 = .grantLocal ∨ call.1 = .abortTransition := by
      intro call hc
      rcases List.mem_append.mp hc with hc | hc
      · exact (htried call hc).imp_right fun h => .inl h.1
      · rw [List.mem_singleton.mp hc]
        exact .inr (.inr rfl)
    obtain ⟨hnet, hdispatch⟩ := @tried_holds env result _ _ htail hrestored
      (by rw [hcalls]; simp only [List.append_assoc])
    constructor
    · intro hclosed
      obtain ⟨hunlock, hlock⟩ := both_present (hnet.symm.trans hclosed.net)
      obtain ⟨hdunlock, hdlock⟩ := both_present (hdispatch.symm.trans hclosed.dispatch)
      exact ⟨howner, hprepare, hdunlock, hunlock, hlock, fun _ => hdlock, fun _ => hgrants⟩
    · intro hcomplete
      refine hfaulted.failsClosed ?_ ?_ ?_
      · rw [hcalls]
        simp only [noGrant_append]
        refine ⟨⟨⟨⟨⟨⟨⟨noGrant_enterCalls, noGrant_steps fun _ => mem_steps_map⟩,
          noGrant_called (by decide)⟩, fun hmem => ?_⟩, by decide⟩, noGrant_called (by decide)⟩,
          noGrant_called (by decide)⟩, noGrant_restored hrestored⟩
        rcases htried _ hmem with h | ⟨-, h⟩
        · cases h
        · exact h rfl
      · rw [hnet, hcomplete.unlockNet, hcomplete.lockNet]
        rfl
      · rw [hdispatch, hcomplete.unlockDispatch, hcomplete.lockDispatch hsteps]
        rfl
  | entered hprepare hsteps hgrants hok hmode hown hcalls =>
    have htail : ∀ call ∈ env.revalidated ++ [(.grantLocal, espOk)], call.1 = .revalidateNetwork ∨
        call.1 = .grantLocal ∨ call.1 = .abortTransition := by
      intro call hc
      rcases List.mem_append.mp hc with hc | hc
      · exact .inl (revalidated_of_mem hc).1
      · rw [List.mem_singleton.mp hc]
        exact .inr (.inl rfl)
    obtain ⟨hnet, hdispatch⟩ := @tried_holds env result _ (env.called .startHttp) htail (fun call hc => hook_of_mem_called hc)
      (by rw [hcalls]; simp only [ServiceEnv.grantCalls, List.append_assoc, List.cons_append,
        List.nil_append])
    constructor
    · intro hclosed
      obtain ⟨hunlock, hlock⟩ := both_present (hnet.symm.trans hclosed.net)
      obtain ⟨hdunlock, hdlock⟩ := both_present (hdispatch.symm.trans hclosed.dispatch)
      refine ⟨howner, hprepare, hdunlock, hunlock, hlock, fun _ => hdlock, fun _ _ => ?_⟩
      exact present_of_revalidated (hclosed.granted _ _ hcalls).2
    · intro hcomplete
      refine ⟨fun herr => absurd hok herr, fun _ => ⟨hmode, hown, ?_⟩, fun l r heq => ?_, ?_, ?_⟩
      · rw [hcalls]
        exact ((List.sublist_append_right _ _).trans (List.sublist_append_left _ _)).trans
          (List.sublist_append_left _ _)
      · rw [hcalls] at heq
        obtain ⟨rfl, -, -⟩ := (List.append_cons_inj_of_notMem noGrant_before noGrant_after).mp heq
        exact granted_before hcomplete.unlockDispatch (hcomplete.lockDispatch hsteps)
          (hcomplete.revalidate hsteps hgrants)
      · rw [hnet, hcomplete.unlockNet, hcomplete.lockNet]
        rfl
      · rw [hdispatch, hcomplete.unlockDispatch, hcomplete.lockDispatch hsteps]
        rfl

end Holds

/-- **Service entry**, called with both locks held. -/
theorem service_entry (env : ServiceEnv) (owner : AuthorityOwner) (core : AuthorityCore)
    (netMode : NetworkMode) (hvalid : env.valid = true) :
    FailsClosed owner (orchestrateServiceEntry env owner ⟨core, netMode, []⟩) ↔
      env.Complete owner core := by
  by_cases howner : owner = .browser ∨ owner = .diagnosticCli
  · exact (orchestrateServiceEntry_path core netMode hvalid howner).failsClosed_iff howner
  · have hrefused : orchestrateServiceEntry env owner ⟨core, netMode, []⟩ =
        (espErrInvalidArg, ⟨core, netMode, []⟩) := by
      unfold orchestrateServiceEntry
      rw [if_neg (not_not.mpr hvalid), if_pos (not_or.mp howner)]
    constructor
    · intro hclosed
      have hnet := hclosed.net
      rw [hrefused] at hnet
      cases hnet
    · exact fun hcomplete => absurd hcomplete.owner howner

/-- The tables of the product: every hook is there. -/
def serviceTables (answer : ServiceHook → EspErr) : ServiceEnv := ⟨fun _ => true, answer, fun _ core => core⟩

def bootAuthority : AuthorityCore := ⟨.none, .none, 1, espOk⟩

/-- The browser's request, all hooks succeeding. -/
theorem service_entry_browser :
    FailsClosed .browser (orchestrateServiceEntry (serviceTables fun _ => espOk) .browser
      ⟨bootAuthority, .commissionedSta, []⟩) :=
  (service_entry (serviceTables fun _ => espOk) .browser bootAuthority .commissionedSta rfl).mpr
    ⟨.inl rfl, rfl, rfl, rfl, rfl, fun _ => rfl, fun _ _ => rfl⟩

/-- `prepare_transition` fails, and both locks stay held. -/
theorem unprepared_keeps_locks :
    ¬ ∀ (env : ServiceEnv) (owner : AuthorityOwner) (core : AuthorityCore) (netMode : NetworkMode),
      (∀ hook, env.present hook = true) → owner = .browser ∨ owner = .diagnosticCli →
      FailsClosed owner (orchestrateServiceEntry env owner ⟨core, netMode, []⟩) := by
  intro h
  have hclosed := h (serviceTables fun hook =>
    if hook = .prepareTransition then espErrInvalidState else espOk) .browser bootAuthority
    .commissionedSta (fun _ => rfl) (.inl rfl)
  have hnet := hclosed.net
  cases hnet

end Argus
