import Odorobo.SchedulerHandlers
import Odorobo.Transition

/-! Runs of the scheduler actor. Between two messages the tables may come to be
iterated in any other order, so a run interleaves handled events with rehashes.
`Outcome` says once what handling an event can do to the state; invariants are
derived from it and never unfold a handler again. -/

namespace Odorobo.SchedulerActor

/-- The same tables, iterated in any orders. -/
structure Rehash (s t : SchedulerActor) : Prop where
  agentDataCache : t.agentDataCache.get = s.agentDataCache.get
  agentKeepaliveTasks : t.agentKeepaliveTasks.get = s.agentKeepaliveTasks.get
  vmActoridUlidMap : t.vmActoridUlidMap.get = s.vmActoridUlidMap.get
  vmManifests : t.vmManifests.get = s.vmManifests.get
  vmPlacements : t.vmPlacements.get = s.vmPlacements.get
  vmDataCache : t.vmDataCache.get = s.vmDataCache.get
  vmKeepaliveTasks : t.vmKeepaliveTasks.get = s.vmKeepaliveTasks.get
  pendingResourcesCache :
    t.pendingResourcesCache.map AHashMap.get = s.pendingResourcesCache.map AHashMap.get
  agentVmIndex : t.agentVmIndex.get = s.agentVmIndex.get
  actorKinds : t.actorKinds.get = s.actorKinds.get

theorem Rehash.refl (s : SchedulerActor) : Rehash s s :=
  ⟨rfl, rfl, rfl, rfl, rfl, rfl, rfl, rfl, rfl, rfl⟩

inductive Action where
  | handle (event : Event)
  | rehash

def Step (s : SchedulerActor) : Action → SchedulerActor → Prop
  | .handle event, t => t = s.handle event
  | .rehash, t => Rehash s t

abbrev Reachable (s : SchedulerActor) : Prop := Transition.Reachable Step onStart s

theorem Reachable.handle {s : SchedulerActor} (h : Reachable s) (event : Event) :
    Reachable (s.handle event) :=
  h.tail (l := .handle event) rfl

/-! Re-creation of unplaced VMs. -/

/-- The VM has the intent the loop snapshotted, and no placement. -/
structure Unplaced (s : SchedulerActor) (vm : Ulid × VmManifest) : Prop where
  intent : s.vmManifests.get vm.1 = some vm.2
  empty : s.placementsOf vm.1 = []

/-- The states in which the loop calls `schedule_agent`, with the VM at hand. -/
def recreateCalls (env : Ulid → DispatchEnv) :
    SchedulerActor → List (Ulid × VmManifest) → List (SchedulerActor × (Ulid × VmManifest))
  | _, [] => []
  | s, vm :: rest => (s, vm) :: recreateCalls env (s.recreate env vm) rest

theorem placementsOf_of_all_isEmpty {s : SchedulerActor} {vmid : Ulid}
    (h : (s.vmPlacements.get vmid).all List.isEmpty = true) : s.placementsOf vmid = [] := by
  unfold placementsOf
  cases hget : s.vmPlacements.get vmid with
  | none => rfl
  | some entries => simpa [hget] using h

theorem unplaced_of_mem {s : SchedulerActor} {vm : Ulid × VmManifest}
    (h : vm ∈ s.unplacedVms) : Unplaced s vm := by
  rw [unplacedVms, List.mem_filter] at h
  exact ⟨(AHashMap.mem_toList _ _ _).mp h.1, placementsOf_of_all_isEmpty h.2⟩

theorem unplacedVms_nodup (s : SchedulerActor) : (s.unplacedVms.map Prod.fst).Nodup :=
  (List.filter_sublist.map Prod.fst).nodup s.vmManifests.toList_keys_nodup

theorem recreate_vmManifests (env : Ulid → DispatchEnv) (s : SchedulerActor)
    (vm : Ulid × VmManifest) : (s.recreate env vm).vmManifests = s.vmManifests := by
  rw [recreate_eq]
  split
  · rfl
  · split <;> rfl

/-- An iteration leaves the placements of every other VM alone. -/
theorem recreate_vmPlacements_ne (env : Ulid → DispatchEnv) (s : SchedulerActor)
    (vm : Ulid × VmManifest) {vmid : Ulid} (h : vmid ≠ vm.1) :
    (s.recreate env vm).vmPlacements.get vmid = s.vmPlacements.get vmid := by
  rw [recreate_eq]
  split
  · rfl
  · split
    · exact AHashMap.get_insert_ne _ _ h
    · change ((s.vmPlacements.upsert vm.1 [] _).insert vm.1 []).get vmid = _
      rw [AHashMap.get_insert_ne _ _ h]
      exact AHashMap.get_insert_ne _ _ h

theorem recreate_vmDataCache_ne (env : Ulid → DispatchEnv) (s : SchedulerActor)
    (vm : Ulid × VmManifest) {vmid : Ulid} (h : vmid ≠ vm.1) :
    (s.recreate env vm).vmDataCache.get vmid = s.vmDataCache.get vmid := by
  rw [recreate_eq]
  split
  · rfl
  · split
    · exact AHashMap.get_insert_ne _ _ h
    · change ((s.vmDataCache.upsert vm.1 [] _).erase vm.1).get vmid = _
      rw [AHashMap.get_erase_ne _ h]
      exact AHashMap.get_insert_ne _ _ h

theorem Unplaced.recreate_ne {env : Ulid → DispatchEnv} {s : SchedulerActor}
    {vm other : Ulid × VmManifest} (h : Unplaced s other) (hne : other.1 ≠ vm.1) :
    Unplaced (s.recreate env vm) other := by
  refine ⟨?_, ?_⟩
  · rw [recreate_vmManifests]
    exact h.intent
  · unfold placementsOf
    rw [recreate_vmPlacements_ne env s vm hne]
    exact h.empty

/-- The loop rule: a property that one iteration keeps for an unplaced VM holds
whenever the loop calls `schedule_agent`, for a VM still unplaced, and at its
end. Each VM is still unplaced at its turn because the snapshot names it once
and other iterations do not touch it. -/
theorem recreate_rule {P : SchedulerActor → Prop} (env : Ulid → DispatchEnv)
    (kept : ∀ s vm, P s → Unplaced s vm → P (s.recreate env vm))
    (vms : List (Ulid × VmManifest)) (s : SchedulerActor) (start : P s)
    (distinct : (vms.map Prod.fst).Nodup) (unplaced : ∀ vm ∈ vms, Unplaced s vm) :
    P (vms.foldl (recreate env) s) ∧
      ∀ call ∈ recreateCalls env s vms, P call.1 ∧ Unplaced call.1 call.2 := by
  induction vms generalizing s with
  | nil => simpa [recreateCalls] using start
  | cons vm vms ih =>
    rw [List.map_cons, List.nodup_cons] at distinct
    have hvm : Unplaced s vm := unplaced vm List.mem_cons_self
    have hnext := ih (s.recreate env vm) (kept s vm start hvm) distinct.2 (by
      intro other hother
      apply (unplaced other (List.mem_cons_of_mem vm hother)).recreate_ne
      intro heq
      exact distinct.1 (heq ▸ List.mem_map_of_mem hother))
    refine ⟨hnext.1, ?_⟩
    intro call hcall
    rw [recreateCalls, List.mem_cons] at hcall
    cases hcall with
    | inl heq =>
      subst heq
      exact ⟨start, hvm⟩
    | inr hrest => exact hnext.2 call hrest

theorem reconcile_rule {P : SchedulerActor → Prop} (s : SchedulerActor) (now : Instant)
    (env : Ulid → DispatchEnv) (start : P (s.expireUnresolved now))
    (kept : ∀ s vm, P s → Unplaced s vm → P (s.recreate env vm)) :
    P (s.reconcileVmPlacements now env) ∧
      ∀ call ∈ recreateCalls env (s.expireUnresolved now) (s.expireUnresolved now).unplacedVms,
        P call.1 ∧ Unplaced call.1 call.2 :=
  recreate_rule env kept _ _ start (unplacedVms_nodup _) fun _ h => unplaced_of_mem h

/-- What placing VMs never touches: the views of agents and of actors. -/
structure Frame (s t : SchedulerActor) : Prop where
  agentDataCache : t.agentDataCache = s.agentDataCache
  agentKeepaliveTasks : t.agentKeepaliveTasks = s.agentKeepaliveTasks
  vmKeepaliveTasks : t.vmKeepaliveTasks = s.vmKeepaliveTasks
  agentVmIndex : t.agentVmIndex = s.agentVmIndex
  actorKinds : t.actorKinds = s.actorKinds

theorem Frame.refl (s : SchedulerActor) : Frame s s := ⟨rfl, rfl, rfl, rfl, rfl⟩

theorem Frame.trans {s t u : SchedulerActor} (h : Frame s t) (h' : Frame t u) : Frame s u where
  agentDataCache := h'.agentDataCache.trans h.agentDataCache
  agentKeepaliveTasks := h'.agentKeepaliveTasks.trans h.agentKeepaliveTasks
  vmKeepaliveTasks := h'.vmKeepaliveTasks.trans h.vmKeepaliveTasks
  agentVmIndex := h'.agentVmIndex.trans h.agentVmIndex
  actorKinds := h'.actorKinds.trans h.actorKinds

theorem recreate_frame (env : Ulid → DispatchEnv) (s : SchedulerActor) (vm : Ulid × VmManifest) :
    Frame s (s.recreate env vm) := by
  rw [recreate_eq]
  split
  · exact ⟨rfl, rfl, rfl, rfl, rfl⟩
  · split <;> exact ⟨rfl, rfl, rfl, rfl, rfl⟩

/-- A settled create is kept, perhaps with the actor of the reply, or taken back. -/
theorem settleCreate_rule {P : SchedulerActor → Prop} {s : SchedulerActor} {msg : CreateVM}
    {env : CreateEnv} (kept : P s)
    (mapped : ∀ reply actorId, env.reply = .ok reply → replyActorId reply = some actorId →
      P { s with vmActoridUlidMap := s.vmActoridUlidMap.insert actorId msg.vmid })
    (undone : P (s.removeVmState msg.vmid)) : P (s.settleCreate msg env) := by
  unfold settleCreate
  split
  · next reply hreply =>
    split
    · next actorId hid => exact mapped reply actorId hreply hid
    · exact kept
  · unfold rollbackFailedCreate
    split
    · exact kept
    · exact undone

theorem settleCreate_frame (s : SchedulerActor) (msg : CreateVM) (env : CreateEnv) :
    Frame s (s.settleCreate msg env) :=
  settleCreate_rule (P := Frame s) (.refl s) (fun _ _ _ _ => ⟨rfl, rfl, rfl, rfl, rfl⟩)
    ⟨rfl, rfl, rfl, rfl, rfl⟩

theorem reconcile_frame (s : SchedulerActor) (now : Instant) (env : Ulid → DispatchEnv) :
    Frame s (s.reconcileVmPlacements now env) :=
  (reconcile_rule (P := Frame s) s now env ⟨rfl, rfl, rfl, rfl, rfl⟩
    fun t vm ht _ => ht.trans (recreate_frame env t vm)).1

theorem reconcile_vmManifests (s : SchedulerActor) (now : Instant) (env : Ulid → DispatchEnv) :
    (s.reconcileVmPlacements now env).vmManifests = s.vmManifests :=
  (reconcile_rule (P := fun t => t.vmManifests = s.vmManifests) s now env rfl
    fun t vm ht _ => (recreate_vmManifests env t vm).trans ht).1

theorem created_frame (s : SchedulerActor) (msg : CreateVM) (env : CreateEnv)
    (agentId : ActorId) :
    Frame s ((s.pendingResources.reserveCreate msg agentId env.now).settleCreate msg env) := by
  have hreserved : Frame s (s.pendingResources.reserveCreate msg agentId env.now) :=
    ⟨rfl, rfl, rfl, rfl, rfl⟩
  exact hreserved.trans (settleCreate_frame _ msg env)

theorem created_vmManifests_ne (s : SchedulerActor) (msg : CreateVM) (env : CreateEnv)
    (agentId : ActorId) {vmid : Ulid} (hne : vmid ≠ msg.vmid) :
    ((s.pendingResources.reserveCreate msg agentId env.now).settleCreate msg env).vmManifests.get
        vmid = s.vmManifests.get vmid := by
  have hreserved : (s.vmManifests.insert msg.vmid msg.config).get vmid = s.vmManifests.get vmid :=
    AHashMap.get_insert_ne _ _ hne
  apply settleCreate_rule (P := fun t => t.vmManifests.get vmid = s.vmManifests.get vmid)
  · exact hreserved
  · exact fun _ _ _ _ => hreserved
  · exact (AHashMap.get_erase_ne _ hne).trans hreserved

/-! The two handlers of VM actors, table by table. -/

def reportedManifests (s : SchedulerActor) (data : GetVMInfoReply) : AHashMap Ulid VmManifest :=
  data.config.elim s.vmManifests (s.vmManifests.insert data.vmid)

def reportedPlacements (s : SchedulerActor) (data : GetVMInfoReply) (now : ActorId → Instant) :
    AHashMap Ulid (List VmPlacement) :=
  data.config.elim s.vmPlacements fun manifest =>
    reconcileDiscoveredVm data.vmid now s.agentVmIndex (s.vmManifests.insert data.vmid manifest)
      s.vmPlacements

theorem vmUpdated_eq (s : SchedulerActor) (actorRef : RemoteActorRef .vm) (data : GetVMInfoReply)
    (now : ActorId → Instant) :
    s.vmUpdated actorRef data now = { s with
      vmActoridUlidMap := s.vmActoridUlidMap.insert actorRef.id data.vmid
      vmManifests := s.reportedManifests data
      vmPlacements := s.reportedPlacements data now
      pendingResourcesCache := data.config.elim s.pendingResourcesCache fun _ => none
      vmDataCache := s.vmDataCache.upsert data.vmid [] fun entries =>
        updateCachedVmEntry entries actorRef.id ⟨some actorRef⟩ } := by
  unfold vmUpdated reportedManifests reportedPlacements
  cases data.config <;> rfl

def placementsAfterVmLoss (s : SchedulerActor) (actorId : ActorId) :
    AHashMap Ulid (List VmPlacement) :=
  match s.vmActoridUlidMap.get actorId with
  | none => s.vmPlacements
  | some vmid =>
    if isDiscovered (removeVmActor actorId s.vmDataCache) vmid then s.vmPlacements
    else s.vmPlacements.modify vmid (List.filter (survivesVmLoss s.agentVmIndex vmid))

theorem cleanupVmActor_eq (s : SchedulerActor) (actorId : ActorId) :
    s.cleanupVmActor actorId = { s with
      vmKeepaliveTasks := s.vmKeepaliveTasks.erase actorId
      vmActoridUlidMap := s.vmActoridUlidMap.erase actorId
      pendingResourcesCache := none
      vmDataCache := removeVmActor actorId s.vmDataCache
      vmPlacements := s.placementsAfterVmLoss actorId } := by
  unfold cleanupVmActor placementsAfterVmLoss
  cases s.vmActoridUlidMap.get actorId with
  | none => rfl
  | some vmid =>
    dsimp only
    split <;> rfl

/-! Dispatched creates. -/

/-- A create sent to an agent: the state `schedule_agent` chose the agent in, and
the state in which the reservation is recorded and the message leaves. -/
structure Dispatch where
  request : CreateVM
  agent : RemoteActorRef .agent
  before : SchedulerActor
  reserved : SchedulerActor

/-- The calls of `schedule_agent` while an event is handled. -/
def scheduleCalls (s : SchedulerActor) : Event → List (SchedulerActor × CreateVM)
  | .createVM msg _ => if s.vmManifests.contains msg.vmid then [] else [(s, msg)]
  | .reconcileVmPlacements now env =>
    (recreateCalls env (s.expireUnresolved now) (s.expireUnresolved now).unplacedVms).map
      fun call => (call.1, ⟨call.2.1, call.2.2⟩)
  | _ => []

/-- The state a dispatch leaves from. A client create also records its intent. -/
def reservedFor (t : SchedulerActor) (msg : CreateVM) (agentId : ActorId) : Event → SchedulerActor
  | .createVM _ env => t.pendingResources.reserveCreate msg agentId env.now
  | .reconcileVmPlacements _ env =>
    t.pendingResources.reserve msg.vmid agentId (env msg.vmid).now
  | _ => t

/-- A call that finds an agent is dispatched. -/
def dispatches (s : SchedulerActor) (event : Event) : List Dispatch :=
  (s.scheduleCalls event).filterMap fun call =>
    (call.1.bestAgent call.2).map fun agent =>
      ⟨call.2, agent, call.1, call.1.reservedFor call.2 agent.id event⟩

/-- Inversion of a call: a client create of an unknown VM, or an iteration of the
re-creation loop. -/
theorem mem_scheduleCalls {s t : SchedulerActor} {event : Event} {msg : CreateVM}
    (h : (t, msg) ∈ s.scheduleCalls event) :
    (t = s ∧ s.vmManifests.get msg.vmid = none ∧ ∃ env, event = .createVM msg env) ∨
      ∃ now env, event = .reconcileVmPlacements now env ∧
        (t, (msg.vmid, msg.config)) ∈
          recreateCalls env (s.expireUnresolved now) (s.expireUnresolved now).unplacedVms := by
  cases event with
  | createVM msg' env =>
    simp only [scheduleCalls] at h
    split at h
    · simp at h
    · next hunknown =>
      rw [List.mem_singleton, Prod.mk.injEq] at h
      obtain ⟨rfl, rfl⟩ := h
      rw [Bool.not_eq_true, AHashMap.contains_eq_false] at hunknown
      exact Or.inl ⟨rfl, hunknown, env, rfl⟩
  | reconcileVmPlacements now env =>
    simp only [scheduleCalls, List.mem_map] at h
    obtain ⟨call, hcall, heq⟩ := h
    rw [Prod.mk.injEq] at heq
    obtain ⟨rfl, rfl⟩ := heq
    exact Or.inr ⟨now, env, rfl, hcall⟩
  | _ => simp [scheduleCalls] at h

theorem mem_dispatches {s : SchedulerActor} {event : Event} {d : Dispatch}
    (h : d ∈ s.dispatches event) :
    (d.before, d.request) ∈ s.scheduleCalls event ∧
      d.before.bestAgent d.request = some d.agent ∧
      d.reserved = d.before.reservedFor d.request d.agent.id event := by
  rw [dispatches, List.mem_filterMap] at h
  obtain ⟨call, hcall, hsome⟩ := h
  rw [Option.map_eq_some_iff] at hsome
  obtain ⟨agent, hbest, rfl⟩ := hsome
  exact ⟨hcall, hbest, rfl⟩

/-- The call rule: a property of reachable states that expiry and the iterations
of the loop keep holds at every call. -/
theorem scheduleCalls_rule {P : SchedulerActor → Prop} {s : SchedulerActor} {event : Event}
    (start : P s) (expired : ∀ now, P (s.expireUnresolved now))
    (kept : ∀ env t vm, P t → Unplaced t vm → P (t.recreate env vm))
    {t : SchedulerActor} {msg : CreateVM} (h : (t, msg) ∈ s.scheduleCalls event) : P t := by
  cases mem_scheduleCalls h with
  | inl hcreate => exact hcreate.1 ▸ start
  | inr hloop =>
    obtain ⟨now, env, rfl, hcall⟩ := hloop
    have hrule := reconcile_rule s now env (expired now) (kept env)
    exact (hrule.2 _ hcall).1

/-! What an event can do. -/

/-- The state after an event. Bookkeeping of kinds and polling tasks is left
open here: it is looked at where it matters. -/
inductive Outcome (s : SchedulerActor) : Event → SchedulerActor → Prop where
  | watch (event : Event) (kinds : AHashMap ActorId CachedActorKind)
      (vmTasks agentTasks : AHashMap ActorId JoinHandle) :
      Outcome s event { s with
        actorKinds := kinds, vmKeepaliveTasks := vmTasks, agentKeepaliveTasks := agentTasks }
  | vmUpdated (actorRef : RemoteActorRef .vm) (data : GetVMInfoReply) (now : ActorId → Instant) :
      Outcome s (.vmUpdated actorRef data now) (s.vmUpdated actorRef data now)
  | vmLost (event : Event) (kinds : AHashMap ActorId CachedActorKind) (id : ActorId) :
      event = .vmUpdaterStopped id ∨ event = .linkDied id →
      Outcome s event (cleanupVmActor { s with actorKinds := kinds } id)
  | agentLost (event : Event) (kinds : AHashMap ActorId CachedActorKind) (id : ActorId) :
      event = .agentUpdaterStopped id ∨
        (event = .linkDied id ∧ s.actorKinds.get id = some .agent) →
      Outcome s event (cleanupAgentActor { s with actorKinds := kinds } id)
  | full (msg : AgentUpdated) (now : Instant) (revision : U64) (status : AgentStatus) :
      msg.update = .full revision status →
      Outcome s (.agentUpdated msg now) (s.acceptFull msg revision status now)
  | delta (msg : AgentUpdated) (now : Instant) (cached : CachedAgentActor) (revision : U64)
      (added removed : List Ulid) (usedVcpus : U32) (usedRam : U64) :
      s.agentDataCache.get msg.actorId = some cached → cached.statusRevision < revision →
      msg.update = .delta revision added removed usedVcpus usedRam →
      Outcome s (.agentUpdated msg now) (s.acceptDelta msg cached added removed now)
  | tick (now : Instant) (env : Ulid → DispatchEnv) :
      Outcome s (.reconcileVmPlacements now env) (s.reconcileVmPlacements now env)
  | unscheduled (msg : CreateVM) (env : CreateEnv) :
      Outcome s (.createVM msg env) s.pendingResources
  | created (msg : CreateVM) (env : CreateEnv) (agent : RemoteActorRef .agent) :
      s.vmManifests.get msg.vmid = none → s.bestAgent msg = some agent →
      Outcome s (.createVM msg env)
        ((s.pendingResources.reserveCreate msg agent.id env.now).settleCreate msg env)
  | stopped (event : Event) (vmid : Ulid) (env : StopEnv) :
      event = .deleteVM vmid env ∨ event = .shutdownVM vmid env → (s.stopVM vmid env).1 = .ok () →
      Outcome s event (s.removeVmIntent vmid)

theorem Outcome.idle (s : SchedulerActor) (event : Event) : Outcome s event s :=
  .watch event s.actorKinds s.vmKeepaliveTasks s.agentKeepaliveTasks

theorem stopVM_outcome (s : SchedulerActor) (vmid : Ulid) (env : StopEnv) (event : Event)
    (h : event = .deleteVM vmid env ∨ event = .shutdownVM vmid env) :
    Outcome s event (s.stopVM vmid env).2 := by
  have hstop := Outcome.stopped (s := s) event vmid env h
  unfold stopVM at hstop ⊢
  cases hl : env.lookup with
  | error e => exact .idle s event
  | ok found =>
    cases found with
    | none => exact .idle s event
    | some vm =>
      cases hs : env.sent with
      | error e => exact .idle s event
      | ok _ => exact hstop (by simp [hl, hs])

theorem agentUpdated_outcome (s : SchedulerActor) (msg : AgentUpdated) (now : Instant) :
    Outcome s (.agentUpdated msg now) (s.agentUpdated msg now) := by
  unfold SchedulerActor.agentUpdated
  cases hget : s.agentDataCache.get msg.actorId with
  | none =>
    dsimp only
    split
    · next hu => exact .full msg now _ _ hu
    · exact .idle s _
  | some cached =>
    dsimp only
    split
    · exact .idle s _
    · next hnew =>
      split
      · next hu => exact .full msg now _ _ hu
      · next revision added removed usedVcpus usedRam hu =>
        refine .delta msg now cached revision added removed usedVcpus usedRam hget ?_ hu
        rw [hu] at hnew
        exact not_le.mp hnew

theorem createVM_outcome (s : SchedulerActor) (msg : CreateVM) (env : CreateEnv) :
    Outcome s (.createVM msg env) (s.createVM msg env).2 := by
  cases h : s.vmManifests.get msg.vmid with
  | some existing =>
    rw [createVM_of_known env h]
    exact .idle s _
  | none =>
    rw [createVM_of_unknown env h]
    cases hb : s.bestAgent msg with
    | none => exact .unscheduled msg env
    | some agent => exact .created msg env agent h hb

theorem vmActorDiscovered_outcome (s : SchedulerActor) (actorRef : RemoteActorRef .vm)
    (env : DiscoveryEnv) :
    Outcome s (.vmActorDiscovered actorRef env) (s.vmActorDiscovered actorRef env) := by
  unfold SchedulerActor.vmActorDiscovered
  dsimp only
  split
  · exact .idle s _
  · split
    · exact .watch _ _ _ s.agentKeepaliveTasks
    · exact .watch _ s.actorKinds _ s.agentKeepaliveTasks

theorem agentActorDiscovered_outcome (s : SchedulerActor) (actorRef : RemoteActorRef .agent)
    (env : DiscoveryEnv) :
    Outcome s (.agentActorDiscovered actorRef env) (s.agentActorDiscovered actorRef env) := by
  unfold SchedulerActor.agentActorDiscovered
  dsimp only
  split
  · exact .idle s _
  · split
    · exact .watch _ _ s.vmKeepaliveTasks _
    · exact .watch _ s.actorKinds s.vmKeepaliveTasks _

theorem onLinkDied_outcome (s : SchedulerActor) (id : ActorId) :
    Outcome s (.linkDied id) (s.onLinkDied id) := by
  unfold onLinkDied
  dsimp only
  split
  · next h => exact .agentLost _ _ id (Or.inr ⟨rfl, h⟩)
  · exact .vmLost _ _ id (Or.inr rfl)
  · exact .watch _ _ s.vmKeepaliveTasks s.agentKeepaliveTasks

/-- The inversion lemma every invariant goes through. -/
theorem handle_outcome (s : SchedulerActor) (event : Event) : Outcome s event (s.handle event) := by
  cases event with
  | vmActorDiscovered actorRef env => exact vmActorDiscovered_outcome s actorRef env
  | agentActorDiscovered actorRef env => exact agentActorDiscovered_outcome s actorRef env
  | vmUpdated actorRef data now => exact .vmUpdated actorRef data now
  | vmUpdaterStopped actorId => exact .vmLost _ _ actorId (Or.inl rfl)
  | agentUpdated msg now => exact agentUpdated_outcome s msg now
  | agentUpdaterStopped actorId => exact .agentLost _ _ actorId (Or.inl rfl)
  | reconcileVmPlacements now env => exact .tick now env
  | createVM msg env => exact createVM_outcome s msg env
  | deleteVM vmid env => exact stopVM_outcome s vmid env _ (Or.inl rfl)
  | shutdownVM vmid env => exact stopVM_outcome s vmid env _ (Or.inr rfl)
  | linkDied id => exact onLinkDied_outcome s id
  | query => exact .idle s _

/-- The cached agents after an event: only an update of an agent inserts, and only
a full one inserts an agent that was not cached. -/
inductive CacheChange (s : SchedulerActor) (event : Event)
    (cache : AHashMap ActorId CachedAgentActor) : Prop where
  | kept : cache = s.agentDataCache → CacheChange s event cache
  | lost (id : ActorId) : cache = s.agentDataCache.erase id → CacheChange s event cache
  | updated (msg : AgentUpdated) (now : Instant) (cached : CachedAgentActor) :
      event = .agentUpdated msg now → cached.actorRef = msg.actorRef →
      (∃ revision status, msg.update = .full revision status) ∨
        s.agentDataCache.contains msg.actorId = true →
      cache = s.agentDataCache.insert msg.actorId cached → CacheChange s event cache

theorem agentDataCache_outcome {s t : SchedulerActor} {event : Event}
    (outcome : Outcome s event t) : CacheChange s event t.agentDataCache := by
  cases outcome with
  | watch => exact .kept rfl
  | vmUpdated actorRef data now =>
    rw [vmUpdated_eq]
    exact .kept rfl
  | vmLost event kinds id =>
    rw [cleanupVmActor_eq]
    exact .kept rfl
  | agentLost event kinds id => exact .lost id rfl
  | full msg now revision status hupdate =>
    exact .updated msg now _ rfl rfl (Or.inl ⟨revision, status, hupdate⟩) rfl
  | delta msg now cached revision added removed usedVcpus usedRam hcached =>
    have hknown := (AHashMap.contains_iff _ _).mpr ⟨cached, hcached⟩
    exact .updated msg now _ rfl rfl (Or.inr hknown) rfl
  | tick now env => exact .kept (reconcile_frame s now env).agentDataCache
  | unscheduled => exact .kept rfl
  | created msg env agent => exact .kept (created_frame s msg env agent.id).agentDataCache
  | stopped => exact .kept rfl

/-- The invariant rule of the scheduler: what every outcome and every rehash
keeps holds in every reachable state. -/
theorem Reachable.rule {P : SchedulerActor → Prop} {s : SchedulerActor} (h : Reachable s)
    (start : P onStart) (outcome : ∀ s event t, Outcome s event t → P s → P t)
    (rehashed : ∀ s t, Rehash s t → P s → P t) : P s := by
  apply Transition.Reachable.invariant h start
  intro s action t hs hstep
  cases action with
  | handle event =>
    rw [show t = s.handle event from hstep]
    exact outcome s event _ (handle_outcome s event) hs
  | rehash => exact rehashed s t hstep hs

/-! Concrete runs. -/

def handleAll (events : List Event) : SchedulerActor := events.foldl handle onStart

theorem reachable_foldl (events : List Event) {s : SchedulerActor} (h : Reachable s) :
    Reachable (events.foldl handle s) := by
  induction events generalizing s with
  | nil => exact h
  | cons event events ih => exact ih (h.handle event)

theorem reachable_handleAll (events : List Event) : Reachable (handleAll events) :=
  reachable_foldl events (Transition.Reachable.refl onStart)

/-- The run that handles the events one after the other. -/
def runFrom : SchedulerActor → List Event → List (Action × SchedulerActor)
  | _, [] => []
  | s, event :: events => (.handle event, s.handle event) :: runFrom (s.handle event) events

theorem isRun_runFrom (s : SchedulerActor) (events : List Event) :
    Transition.IsRun Step s (runFrom s events) := by
  induction events generalizing s with
  | nil => trivial
  | cons event events ih => exact ⟨rfl, ih (s.handle event)⟩

section Samples

def sampleManifest (vmid : Ulid) : VmManifest where
  apiVersion := 1
  id := vmid
  desired :=
    { metadata := ⟨"sample", .empty, .empty⟩
      compute := ⟨1, none, 512⟩
      storage := []
      networks := []
      placement := ⟨none, .empty, []⟩
      boot := ⟨true, none, none, none⟩
      cloudInit := none
      vsock := none }
  observed := none

/-- The sample manifest with another compute request. -/
def sizedManifest (vmid : Ulid) (vcpus : U32) (memoryBytes : U64) : VmManifest :=
  { sampleManifest vmid with
    desired := { (sampleManifest vmid).desired with compute := ⟨vcpus, none, memoryBytes⟩ } }

def sampleStatus (vms : List Ulid) : AgentStatus where
  hostname := "sample"
  vcpus := 4
  ram := 4096
  usedVcpus := 0
  usedRam := 0
  vms := vms
  metadata := ⟨.empty, .empty⟩

def agentOne : ActorId := ⟨1, 1⟩
def agentTwo : ActorId := ⟨1, 2⟩
def vmActorOne : ActorId := ⟨7, 1⟩

def discoversAgent (agentId : ActorId) : Event :=
  .agentActorDiscovered ⟨agentId⟩ ⟨false, true, ⟨0⟩⟩

def discoversVm (actorId : ActorId) : Event :=
  .vmActorDiscovered ⟨actorId⟩ ⟨false, true, ⟨0⟩⟩

def reportsFull (agentId : ActorId) (revision : U64) (vms : List Ulid) (now : Instant) : Event :=
  .agentUpdated ⟨agentId, ⟨agentId⟩, .full revision (sampleStatus vms), rfl, trivial⟩ now

def reportsVm (actorId : ActorId) (vmid : Ulid) (config : Option VmManifest) : Event :=
  .vmUpdated ⟨actorId⟩ ⟨vmid, config⟩ fun _ => 0

/-- A client create whose agent answers without an actor id. -/
def createsVm (vmid : Ulid) (now : Instant) : Event :=
  .createVM ⟨vmid, sampleManifest vmid⟩ ⟨now, .ok ⟨none, none⟩, true⟩

def deletesVm (actorId : ActorId) (vmid : Ulid) : Event :=
  .deleteVM vmid ⟨.ok (some ⟨actorId⟩), .ok ()⟩

def ticks (now : Instant) : Event := .reconcileVmPlacements now fun _ => ⟨now, true⟩

end Samples

end Odorobo.SchedulerActor
