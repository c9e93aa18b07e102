import Odorobo.SchedulerScheduling

/-! The message handlers and the link-death callback of the scheduler actor. What
a handler learns from outside (the clock, the outcome of a remote call) is part
of the event it handles; everything else is computed from its state. -/

namespace Odorobo.SchedulerActor

/-- What the discovery handler meets: whether the registered polling task, if
any, has finished; whether linking succeeds; the task it would spawn. -/
structure DiscoveryEnv where
  finished : Bool
  linked : Bool
  spawned : JoinHandle

/-- Whether a registered task is still running. -/
def updaterIsRunning (tasks : AHashMap ActorId JoinHandle) (actorId : ActorId)
    (env : DiscoveryEnv) : Bool :=
  tasks.contains actorId && !env.finished

def vmActorDiscovered (s : SchedulerActor) (actorRef : RemoteActorRef .vm) (env : DiscoveryEnv) :
    SchedulerActor :=
  if updaterIsRunning s.vmKeepaliveTasks actorRef.id env then s
  else
    let s := { s with vmKeepaliveTasks := s.vmKeepaliveTasks.erase actorRef.id }
    if env.linked then
      { s with
        actorKinds := s.actorKinds.insert actorRef.id .vm
        vmKeepaliveTasks := s.vmKeepaliveTasks.insert actorRef.id env.spawned }
    else s

def agentActorDiscovered (s : SchedulerActor) (actorRef : RemoteActorRef .agent)
    (env : DiscoveryEnv) : SchedulerActor :=
  if updaterIsRunning s.agentKeepaliveTasks actorRef.id env then s
  else
    let s := { s with agentKeepaliveTasks := s.agentKeepaliveTasks.erase actorRef.id }
    if env.linked then
      { s with
        actorKinds := s.actorKinds.insert actorRef.id .agent
        agentKeepaliveTasks := s.agentKeepaliveTasks.insert actorRef.id env.spawned }
    else s

/-- Record the manifest a VM actor reports and reconcile its placements. -/
def recordManifest (s : SchedulerActor) (vmid : Ulid) (manifest : VmManifest)
    (now : ActorId → Instant) : SchedulerActor :=
  let manifests := s.vmManifests.insert vmid manifest
  invalidatePendingResources
    { s with
      vmManifests := manifests
      vmPlacements := reconcileDiscoveredVm vmid now s.agentVmIndex manifests s.vmPlacements }

def vmUpdated (s : SchedulerActor) (actorRef : RemoteActorRef .vm) (data : GetVMInfoReply)
    (now : ActorId → Instant) : SchedulerActor :=
  let vmid := data.vmid
  let s := { s with vmActoridUlidMap := s.vmActoridUlidMap.insert actorRef.id vmid }
  let s := match data.config with
    | some manifest => s.recordManifest vmid manifest now
    | none => s
  { s with vmDataCache := s.vmDataCache.upsert vmid [] fun entries =>
      updateCachedVmEntry entries actorRef.id ⟨some actorRef⟩ }

def vmUpdaterStopped (s : SchedulerActor) (actorId : ActorId) : SchedulerActor :=
  cleanupVmActor { s with actorKinds := s.actorKinds.erase actorId } actorId

/-- A full snapshot is cached whole, indexed and reconciled. -/
def acceptFull (s : SchedulerActor) (msg : AgentUpdated) (revision : U64) (status : AgentStatus)
    (now : Instant) : SchedulerActor :=
  { s with
    agentVmIndex := s.agentVmIndex.insert msg.actorId status.vms.toFinset
    vmPlacements := reconcileAgentPlacements msg.actorId status now s.vmManifests s.vmPlacements
    pendingResourcesCache := none
    agentDataCache := s.agentDataCache.insert msg.actorId ⟨msg.actorRef, status, revision⟩ }

/-- A delta updates the cached status, the index and the placements. -/
def acceptDelta (s : SchedulerActor) (msg : AgentUpdated) (cached : CachedAgentActor)
    (added removed : List Ulid) (now : Instant) : SchedulerActor :=
  let applied := applyStatusUpdate cached.data msg.update
  { s with
    agentDataCache := s.agentDataCache.insert msg.actorId ⟨msg.actorRef, applied.1, applied.2⟩
    agentVmIndex := s.agentVmIndex.upsert msg.actorId ∅ fun vmids =>
      (vmids ∪ added.toFinset) \ removed.toFinset
    pendingResourcesCache := none
    vmPlacements :=
      reconcileAgentDelta msg.actorId added removed now s.vmManifests s.vmPlacements }

def agentUpdated (s : SchedulerActor) (msg : AgentUpdated) (now : Instant) : SchedulerActor :=
  match s.agentDataCache.get msg.actorId with
  | none =>
    match msg.update with
    | .full revision status => s.acceptFull msg revision status now
    | .delta .. => s
  | some cached =>
    if msg.update.revision ≤ cached.statusRevision then s
    else
      match msg.update with
      | .full revision status => s.acceptFull msg revision status now
      | .delta _ added removed _ _ => s.acceptDelta msg cached added removed now

def agentUpdaterStopped (s : SchedulerActor) (actorId : ActorId) : SchedulerActor :=
  cleanupAgentActor { s with actorKinds := s.actorKinds.erase actorId } actorId

/-- The callback runs only while the scheduler itself is alive. -/
def onLinkDied (s : SchedulerActor) (id : ActorId) : SchedulerActor :=
  let kept := { s with actorKinds := s.actorKinds.erase id }
  match s.actorKinds.get id with
  | some .agent => kept.cleanupAgentActor id
  | some .vm => kept.cleanupVmActor id
  | none => kept

/-- Push the pending placement and the placeholder of a dispatched create. -/
def reserve (s : SchedulerActor) (vmid : Ulid) (agentId : ActorId) (now : Instant) :
    SchedulerActor :=
  { s with
    vmPlacements := s.vmPlacements.upsert vmid [] fun entries =>
      entries ++ [pendingPlacement agentId now]
    vmDataCache := s.vmDataCache.upsert vmid [] fun entries => entries ++ [⟨none⟩] }

/-- The outcome of one `tell` to the chosen agent, and the clock at its push. -/
structure DispatchEnv where
  now : Instant
  sent : Bool

/-- One iteration of the re-creation loop. -/
def recreate (env : Ulid → DispatchEnv) (s : SchedulerActor) (vm : Ulid × VmManifest) :
    SchedulerActor :=
  match s.scheduleAgent ⟨vm.1, vm.2⟩ with
  | (.ok agent, s) =>
    let s := s.reserve vm.1 agent.id (env vm.1).now
    if (env vm.1).sent then s.invalidatePendingResources
    else
      { s with
        vmPlacements := s.vmPlacements.insert vm.1 []
        vmDataCache := s.vmDataCache.erase vm.1 }
  | (.error _, s) => s

theorem recreate_eq (env : Ulid → DispatchEnv) (s : SchedulerActor) (vm : Ulid × VmManifest) :
    s.recreate env vm =
      match s.bestAgent ⟨vm.1, vm.2⟩ with
      | none => s.pendingResources
      | some agent =>
        if (env vm.1).sent then
          (s.pendingResources.reserve vm.1 agent.id (env vm.1).now).invalidatePendingResources
        else
          { s.pendingResources.reserve vm.1 agent.id (env vm.1).now with
            vmPlacements :=
              (s.pendingResources.reserve vm.1 agent.id (env vm.1).now).vmPlacements.insert vm.1 []
            vmDataCache :=
              (s.pendingResources.reserve vm.1 agent.id (env vm.1).now).vmDataCache.erase vm.1 } := by
  unfold recreate scheduleAgent
  cases s.bestAgent ⟨vm.1, vm.2⟩ <;> rfl

def expireUnresolved (s : SchedulerActor) (now : Instant) : SchedulerActor :=
  let cleaned := cleanupUnresolvedVmCache now s.vmPlacements s.vmDataCache
  invalidatePendingResources { s with vmPlacements := cleaned.1, vmDataCache := cleaned.2 }

/-- The VMs with intent and no placement, as the loop snapshots them. -/
def unplacedVms (s : SchedulerActor) : List (Ulid × VmManifest) :=
  s.vmManifests.toList.filter fun e => (s.vmPlacements.get e.1).all List.isEmpty

def reconcileVmPlacements (s : SchedulerActor) (now : Instant) (env : Ulid → DispatchEnv) :
    SchedulerActor :=
  let s := s.expireUnresolved now
  s.unplacedVms.foldl (recreate env) s

/-- The clock at the reservation, the reply of the asked agent, and whether a VM
actor can be looked up after a failed request. -/
structure CreateEnv where
  now : Instant
  reply : Except String CreateVMReply
  actorExists : Bool

/-- Keep intent and reservation of a create that is about to be sent. -/
def reserveCreate (s : SchedulerActor) (msg : CreateVM) (agentId : ActorId) (now : Instant) :
    SchedulerActor :=
  reserve (invalidatePendingResources
    { s with vmManifests := s.vmManifests.insert msg.vmid msg.config }) msg.vmid agentId now

/-- The actor id of a reply, when it is there and decodes. -/
def replyActorId (reply : CreateVMReply) : Option ActorId := reply.actorId.bind ActorIdBytes.decode

/-- Settle a sent create with the answer of the agent. A failed request has no
reply to take an actor id from, so the rollback is given none. -/
def settleCreate (s : SchedulerActor) (msg : CreateVM) (env : CreateEnv) : SchedulerActor :=
  match env.reply with
  | .ok reply =>
    match replyActorId reply with
    | some actorId => { s with vmActoridUlidMap := s.vmActoridUlidMap.insert actorId msg.vmid }
    | none => s
  | .error _ => s.rollbackFailedCreate msg.vmid env.actorExists none

def createVM (s : SchedulerActor) (msg : CreateVM) (env : CreateEnv) :
    Except String CreateVMReply × SchedulerActor :=
  match s.vmManifests.get msg.vmid with
  | some existing =>
    if existing ≠ msg.config then (.error "conflicting create request for existing VM ID", s)
    else
      let actorId := (s.vmActoridUlidMap.toList.find? fun e => e.2 = msg.vmid).map fun e =>
        ActorIdBytes.encoded e.1
      (.ok ⟨some existing, actorId⟩, s)
  | none =>
    match s.scheduleAgent msg with
    | (.error error, s) => (.error error, s)
    | (.ok agent, s) => (env.reply, (s.reserveCreate msg agent.id env.now).settleCreate msg env)

theorem createVM_of_unknown {s : SchedulerActor} {msg : CreateVM} (env : CreateEnv)
    (h : s.vmManifests.get msg.vmid = none) :
    s.createVM msg env =
      match s.bestAgent msg with
      | none => (.error "No valid agents found.", s.pendingResources)
      | some agent =>
        (env.reply, (s.pendingResources.reserveCreate msg agent.id env.now).settleCreate msg env) := by
  unfold createVM scheduleAgent
  rw [h]
  cases s.bestAgent msg <;> rfl

theorem createVM_of_known {s : SchedulerActor} {msg : CreateVM} (env : CreateEnv)
    {existing : VmManifest} (h : s.vmManifests.get msg.vmid = some existing) :
    (s.createVM msg env).2 = s := by
  unfold createVM
  rw [h]
  dsimp only
  split <;> rfl

/-- The lookup of the VM actor and the outcome of the message sent to it. -/
structure StopEnv where
  lookup : Except String (Option (RemoteActorRef .vm))
  sent : Except String Unit

/-- Forward a stop to the VM actor, and drop its intent once that is sent. -/
def stopVM (s : SchedulerActor) (vmid : Ulid) (env : StopEnv) :
    Except String Unit × SchedulerActor :=
  match env.lookup with
  | .error error => (.error error, s)
  | .ok none => (.error "VM not found", s)
  | .ok (some _) =>
    match env.sent with
    | .error error => (.error error, s)
    | .ok () => (.ok (), s.removeVmIntent vmid)

def deleteVM (s : SchedulerActor) (vmid : Ulid) (env : StopEnv) :
    Except String Unit × SchedulerActor := s.stopVM vmid env

def shutdownVM (s : SchedulerActor) (vmid : Ulid) (env : StopEnv) :
    Except String Unit × SchedulerActor := s.stopVM vmid env

/-- The concatenated VM ids of the cached statuses. -/
def agentListVMs (s : SchedulerActor) : List Ulid :=
  s.agentDataCache.values.flatMap fun agent => agent.data.vms

/-- Everything the scheduler handles. `query` stands for `GetConsoleHistory`,
`SendConsoleInput`, `GetVMInfo`, `AgentListVMs` and `Ping`, which read at most. -/
inductive Event where
  | vmActorDiscovered (actorRef : RemoteActorRef .vm) (env : DiscoveryEnv)
  | agentActorDiscovered (actorRef : RemoteActorRef .agent) (env : DiscoveryEnv)
  | vmUpdated (actorRef : RemoteActorRef .vm) (data : GetVMInfoReply) (now : ActorId → Instant)
  | vmUpdaterStopped (actorId : ActorId)
  | agentUpdated (msg : AgentUpdated) (now : Instant)
  | agentUpdaterStopped (actorId : ActorId)
  | reconcileVmPlacements (now : Instant) (env : Ulid → DispatchEnv)
  | createVM (msg : CreateVM) (env : CreateEnv)
  | deleteVM (vmid : Ulid) (env : StopEnv)
  | shutdownVM (vmid : Ulid) (env : StopEnv)
  | linkDied (id : ActorId)
  | query

def handle (s : SchedulerActor) : Event → SchedulerActor
  | .vmActorDiscovered actorRef env => s.vmActorDiscovered actorRef env
  | .agentActorDiscovered actorRef env => s.agentActorDiscovered actorRef env
  | .vmUpdated actorRef data now => s.vmUpdated actorRef data now
  | .vmUpdaterStopped actorId => s.vmUpdaterStopped actorId
  | .agentUpdated msg now => s.agentUpdated msg now
  | .agentUpdaterStopped actorId => s.agentUpdaterStopped actorId
  | .reconcileVmPlacements now env => s.reconcileVmPlacements now env
  | .createVM msg env => (s.createVM msg env).2
  | .deleteVM vmid env => (s.deleteVM vmid env).2
  | .shutdownVM vmid env => (s.shutdownVM vmid env).2
  | .linkDied id => s.onLinkDied id
  | .query => s

end Odorobo.SchedulerActor
