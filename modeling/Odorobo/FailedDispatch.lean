import Odorobo.PlacementStore

/-! Dispatches that fail. What was recorded for a create before it was sent is
taken back by dropping everything that is stored under its VM. That restores the
scheduler exactly when nothing was stored there before: intent and placements go
together, but an actor may have been discovered for a VM without either. -/

namespace Odorobo.SchedulerActor

/-- The tables that a failed create has to give back. -/
structure SameTables (s t : SchedulerActor) : Prop where
  vmManifests : t.vmManifests.get = s.vmManifests.get
  vmPlacements : t.vmPlacements.get = s.vmPlacements.get
  vmDataCache : t.vmDataCache.get = s.vmDataCache.get
  vmActoridUlidMap : t.vmActoridUlidMap.get = s.vmActoridUlidMap.get
  agentDataCache : t.agentDataCache.get = s.agentDataCache.get
  agentVmIndex : t.agentVmIndex.get = s.agentVmIndex.get

theorem sameTables_pendingResources (s : SchedulerActor) : SameTables s s.pendingResources :=
  ⟨rfl, rfl, rfl, rfl, rfl, rfl⟩

/-- The create gets as far as an agent: its VM is unknown and some agent is
chosen for it. -/
def Sends (s : SchedulerActor) (msg : CreateVM) : Prop :=
  s.vmManifests.get msg.vmid = none ∧ (s.bestAgent msg).isSome = true

/-- Dropping a key that has just been written restores the table just when the
key was not in it. -/
theorem erase_written_iff {K V : Type} [DecidableEq K] {m written : AHashMap K V} {k : K}
    (hwritten : ∀ k', k' ≠ k → written.get k' = m.get k') :
    (written.erase k).get = m.get ↔ m.get k = none := by
  constructor
  · intro heq
    rw [← heq, AHashMap.get_erase_self]
  · intro hnone
    funext k'
    rw [AHashMap.get_erase]
    split
    · next hk => rw [hk, hnone]
    · next hk => exact hwritten k' hk

/-! Client creates. -/

theorem createVM_unsent {s : SchedulerActor} {msg : CreateVM} (env : CreateEnv)
    (h : ¬ s.Sends msg) : SameTables s (s.createVM msg env).2 := by
  cases hget : s.vmManifests.get msg.vmid with
  | some existing =>
    rw [createVM_of_known env hget]
    exact ⟨rfl, rfl, rfl, rfl, rfl, rfl⟩
  | none =>
    have hbest : s.bestAgent msg = none := by
      rw [← Option.not_isSome_iff_eq_none]
      exact fun hsome => h ⟨hget, hsome⟩
    rw [createVM_of_unknown env hget, hbest]
    exact sameTables_pendingResources s

theorem createVM_sent_iff {s : SchedulerActor} (hs : Reachable s) {msg : CreateVM} {env : CreateEnv}
    {error : String} (herror : (s.createVM msg env).1 = .error error) (h : s.Sends msg)
    (hlookup : env.actorExists = false) :
    SameTables s (s.createVM msg env).2 ↔ s.vmDataCache.get msg.vmid = none := by
  obtain ⟨hunknown, hsome⟩ := h
  obtain ⟨agent, hbest⟩ := Option.isSome_iff_exists.mp hsome
  rw [createVM_of_unknown env hunknown, hbest] at herror
  have hreply : env.reply = .error error := herror
  have hunplaced : s.vmPlacements.get msg.vmid = none := by
    rw [← AHashMap.contains_eq_false, Bool.eq_false_iff]
    intro hplaced
    have hknown := (reachable_store hs).known msg.vmid hplaced
    rw [(AHashMap.contains_eq_false _ _).mpr hunknown] at hknown
    cases hknown
  rw [createVM_of_unknown env hunknown, hbest]
  simp only [settleCreate, hreply, rollbackFailedCreate, hlookup]
  constructor
  · intro hsame
    exact (erase_written_iff fun _ hne => AHashMap.get_insert_ne _ _ hne).mp hsame.vmDataCache
  · intro hempty
    refine ⟨?_, ?_, ?_, rfl, rfl, rfl⟩
    · exact (erase_written_iff fun _ hne => AHashMap.get_insert_ne _ _ hne).mpr hunknown
    · exact (erase_written_iff fun _ hne => AHashMap.get_insert_ne _ _ hne).mpr hunplaced
    · exact (erase_written_iff fun _ hne => AHashMap.get_insert_ne _ _ hne).mpr hempty

/-! The loop of a tick. -/

/-- What is stored under one VM, apart from its intent. -/
def storedUnder (s : SchedulerActor) (vmid : Ulid) :
    Option (List VmPlacement) × Option (List CachedVMActor) :=
  (s.vmPlacements.get vmid, s.vmDataCache.get vmid)

theorem storedUnder_recreate_ne (env : Ulid → DispatchEnv) (s : SchedulerActor)
    (vm : Ulid × VmManifest) {vmid : Ulid} (h : vmid ≠ vm.1) :
    (s.recreate env vm).storedUnder vmid = s.storedUnder vmid := by
  rw [storedUnder, storedUnder, recreate_vmPlacements_ne env s vm h,
    recreate_vmDataCache_ne env s vm h]

theorem storedUnder_foldl_ne (env : Ulid → DispatchEnv) {vmid : Ulid}
    (vms : List (Ulid × VmManifest)) :
    ∀ s : SchedulerActor, vmid ∉ vms.map Prod.fst →
      (vms.foldl (recreate env) s).storedUnder vmid = s.storedUnder vmid := by
  induction vms with
  | nil =>
    intro s _
    rfl
  | cons vm vms ih =>
    intro s hnot
    rw [List.map_cons, List.mem_cons, not_or] at hnot
    rw [List.foldl_cons, ih _ hnot.2, storedUnder_recreate_ne env s vm hnot.1]

/-- The iteration of a VM has the last word on what is stored under it. -/
theorem storedUnder_of_call (env : Ulid → DispatchEnv) {t : SchedulerActor} {vm : Ulid × VmManifest}
    (vms : List (Ulid × VmManifest)) :
    ∀ s : SchedulerActor, (vms.map Prod.fst).Nodup → (t, vm) ∈ recreateCalls env s vms →
      (vms.foldl (recreate env) s).storedUnder vm.1 = (t.recreate env vm).storedUnder vm.1 := by
  induction vms with
  | nil =>
    intro s _ hcall
    cases hcall
  | cons first vms ih =>
    intro s hdistinct hcall
    rw [List.map_cons, List.nodup_cons] at hdistinct
    rw [recreateCalls, List.mem_cons] at hcall
    rw [List.foldl_cons]
    cases hcall with
    | inl hfirst =>
      obtain ⟨rfl, rfl⟩ := Prod.mk.inj hfirst
      exact storedUnder_foldl_ne env vms _ hdistinct.1
    | inr hrest => exact ih _ hdistinct.2 hrest

theorem storedUnder_unsent {env : Ulid → DispatchEnv} {t : SchedulerActor} {vm : Ulid × VmManifest}
    (hbest : (t.bestAgent ⟨vm.1, vm.2⟩).isSome = true) (hsent : (env vm.1).sent = false) :
    (t.recreate env vm).storedUnder vm.1 = (some [], none) := by
  obtain ⟨agent, hagent⟩ := Option.isSome_iff_exists.mp hbest
  rw [recreate_eq, hagent]
  simp [hsent, storedUnder]

theorem failed_recreate_iff {s t : SchedulerActor} {now : Instant} {env : Ulid → DispatchEnv}
    {msg : CreateVM} (hcall : (t, msg) ∈ s.scheduleCalls (.reconcileVmPlacements now env))
    (hbest : (t.bestAgent msg).isSome = true) (hsent : (env msg.vmid).sent = false) :
    ((s.reconcileVmPlacements now env).vmDataCache.get msg.vmid = t.vmDataCache.get msg.vmid ∧
        (s.reconcileVmPlacements now env).placementsOf msg.vmid = []) ↔
      t.vmDataCache.get msg.vmid = none := by
  rw [scheduleCalls, List.mem_map] at hcall
  obtain ⟨⟨before, vm⟩, hmem, heq⟩ := hcall
  obtain ⟨rfl, rfl⟩ := Prod.mk.inj heq
  have hstored := storedUnder_of_call env _ _ (unplacedVms_nodup _) hmem
  rw [storedUnder_unsent hbest hsent] at hstored
  have hplaced : (s.reconcileVmPlacements now env).vmPlacements.get vm.1 = some [] :=
    congrArg Prod.fst hstored
  have hcache : (s.reconcileVmPlacements now env).vmDataCache.get vm.1 = none :=
    congrArg Prod.snd hstored
  rw [hcache, placementsOf, hplaced]
  simp [eq_comm]

theorem failed_dispatch_restores_iff {s : SchedulerActor} (hs : Reachable s) :
    (∀ msg env error, (s.createVM msg env).1 = .error error →
      (s.Sends msg → env.actorExists = false) →
        (SameTables s (s.createVM msg env).2 ↔
          (s.Sends msg → s.vmDataCache.get msg.vmid = none))) ∧
    ∀ now env t msg, (t, msg) ∈ s.scheduleCalls (.reconcileVmPlacements now env) →
      (t.bestAgent msg).isSome = true → (env msg.vmid).sent = false →
        (((s.reconcileVmPlacements now env).vmDataCache.get msg.vmid =
            t.vmDataCache.get msg.vmid ∧
          (s.reconcileVmPlacements now env).placementsOf msg.vmid = []) ↔
            t.vmDataCache.get msg.vmid = none) := by
  refine ⟨?_, fun now env t msg hcall hbest hsent => failed_recreate_iff hcall hbest hsent⟩
  intro msg env error herror hlookup
  by_cases hsends : s.Sends msg
  · rw [createVM_sent_iff hs herror hsends (hlookup hsends)]
    exact ⟨fun hnone _ => hnone, fun h => h hsends⟩
  · exact ⟨fun _ h => absurd h hsends, fun _ => createVM_unsent env hsends⟩

/-- One of two agents is lost with a VM: the VM is unplaced, and nothing has been
discovered for it. -/
theorem failed_dispatch_restores_iff_agent_lost :
    let s := handleAll [reportsFull agentOne 0 [] 0, createsVm 5 1, reportsFull agentTwo 0 [] 1,
      .agentUpdaterStopped agentOne]
    let unsent : Ulid → DispatchEnv := fun _ => ⟨3, false⟩
    SameTables s (s.createVM ⟨6, sampleManifest 6⟩ ⟨3, .error "refused", false⟩).2 ∧
      (s.reconcileVmPlacements 3 unsent).vmDataCache.get 5 =
        (s.expireUnresolved 3).vmDataCache.get 5 ∧
      (s.reconcileVmPlacements 3 unsent).placementsOf 5 = [] := by
  intro s unsent
  have hrestores := failed_dispatch_restores_iff (reachable_handleAll
    [reportsFull agentOne 0 [] 0, createsVm 5 1, reportsFull agentTwo 0 [] 1,
      .agentUpdaterStopped agentOne])
  refine ⟨?_, ?_⟩
  · apply (hrestores.1 ⟨6, sampleManifest 6⟩ ⟨3, .error "refused", false⟩ "refused"
      (by decide +kernel) fun _ => rfl).mpr
    exact fun _ => by decide +kernel
  · have hunplaced : (s.expireUnresolved 3).unplacedVms = [(5, sampleManifest 5)] := by
      decide +kernel
    apply (hrestores.2 3 unsent (s.expireUnresolved 3) ⟨5, sampleManifest 5⟩ ?_
      (by decide +kernel) rfl).mpr
    · decide +kernel
    · rw [scheduleCalls, hunplaced]
      exact List.mem_singleton_self _

/-- A VM was discovered before there was any intent for it, and one with intent
but without a placement: the failed create and the failed re-creation each drop
the discovered actor. -/
theorem failed_dispatch_drops_discovered :
    let s := handleAll [reportsFull agentOne 0 [] 0, reportsVm vmActorOne 5 none,
      reportsVm ⟨7, 2⟩ 6 (some (sampleManifest 6))]
    let created := s.createVM ⟨5, sampleManifest 5⟩ ⟨1, .error "refused", false⟩
    let ticked := s.reconcileVmPlacements 1 fun _ => ⟨1, false⟩
    created.1 = .error "refused" ∧ ¬ SameTables s created.2 ∧
      (s.vmDataCache.get 6).isSome = true ∧
      ticked.vmDataCache.get 6 ≠ (s.expireUnresolved 1).vmDataCache.get 6 := by
  intro s created ticked
  have hcached : (s.vmDataCache.get 5).isSome = true := by decide +kernel
  have hdropped : created.2.vmDataCache.get 5 = none := by decide +kernel
  refine ⟨by decide +kernel, ?_, by decide +kernel, by decide +kernel⟩
  intro hsame
  rw [← congrFun hsame.vmDataCache 5, hdropped] at hcached
  cases hcached

end Odorobo.SchedulerActor
