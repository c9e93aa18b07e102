import Odorobo.SchedulerState

/-! Cache maintenance, placement reconciliation and actor cleanup, function by
function. `shrink_non_migrating_entries` only gives back spare capacity, which a
list does not have, so its calls do not appear. -/

namespace Odorobo.SchedulerActor

/-- Overwrite the first element that satisfies `p`. -/
def replaceFirst {α : Type} (p : α → Bool) (x : α) : List α → List α
  | [] => []
  | a :: as => if p a then x :: as else a :: replaceFirst p x as

/-- Whether the entry refers to the actor. -/
def isActor (actorId : ActorId) (entry : CachedVMActor) : Bool :=
  entry.actorRef.any fun actor => actor.id = actorId

/-- By actor id, then the first placeholder, then appended. -/
def updateCachedVmEntry (entries : List CachedVMActor) (actorId : ActorId)
    (cachedVm : CachedVMActor) : List CachedVMActor :=
  if entries.any (isActor actorId) then replaceFirst (isActor actorId) cachedVm entries
  else if entries.any (·.actorRef.isNone) then
    replaceFirst (·.actorRef.isNone) cachedVm entries
  else entries ++ [cachedVm]

/-- Whether the VM has a discovered actor. -/
def isDiscovered (dataCache : AHashMap Ulid (List CachedVMActor)) (vmid : Ulid) : Bool :=
  (dataCache.get vmid).any fun entries => entries.any (·.actorRef.isSome)

/-- Placements that expiry keeps: confirmed ones, those of a discovered VM, and
those still within the pending timeout. -/
def staysUnresolved (now : Instant) (discovered : Bool) (entry : VmPlacement) : Bool :=
  entry.lifecycle ≠ .pending || discovered ||
    durationSince now entry.createdAt < unresolvedVmCacheTimeout

def cleanupUnresolvedVmCache (now : Instant) (placements : AHashMap Ulid (List VmPlacement))
    (dataCache : AHashMap Ulid (List CachedVMActor)) :
    AHashMap Ulid (List VmPlacement) × AHashMap Ulid (List CachedVMActor) :=
  let kept := placements.mapValues fun vmid entries =>
    entries.filter (staysUnresolved now (isDiscovered dataCache vmid))
  let emptyVmids := (kept.toList.filter fun e => e.2.isEmpty).map Prod.fst
  let removeUnresolved := fun (cache : AHashMap Ulid (List CachedVMActor)) vmid =>
    if (cache.get vmid).any fun entries => entries.all (·.actorRef.isNone) then cache.erase vmid
    else cache
  (kept, emptyVmids.foldl removeUnresolved dataCache)

def pushUnseen (vmids : List Ulid) (vmid : Ulid) : List Ulid :=
  if vmid ∈ vmids then vmids else vmids ++ [vmid]

/-- Every VM that could be on an agent: reported, indexed, or placed there. -/
def placementVmIds (placements : AHashMap Ulid (List VmPlacement))
    (indexed : Option (Finset Ulid)) (agentId : ActorId) (observed : List Ulid) : List Ulid :=
  let placed := (placements.toList.filter fun e =>
    e.2.any fun entry => entry.agentId = agentId).map Prod.fst
  placed.foldl pushUnseen
    ((indexed.elim [] SortedVec.elements).foldl pushUnseen (observed.foldl pushUnseen []))

/-- Removes the manifest, the placements and the cache entry of a VM. -/
def removeVmState (s : SchedulerActor) (vmid : Ulid) : SchedulerActor :=
  { s with
    vmManifests := s.vmManifests.erase vmid
    vmPlacements := s.vmPlacements.erase vmid
    vmDataCache := s.vmDataCache.erase vmid }

/-- Removes VM intent and every actor-id association. -/
def removeVmIntent (s : SchedulerActor) (vmid : Ulid) : SchedulerActor :=
  let s := s.removeVmState vmid
  invalidatePendingResources
    { s with
      vmActoridUlidMap := s.vmActoridUlidMap.filterMap fun _ mapped =>
        if mapped ≠ vmid then some mapped else none
      agentVmIndex := s.agentVmIndex.mapValues fun _ vmids => vmids.erase vmid }

/-- Removes a departed actor from every VM cache entry, and the lists that this
leaves empty. -/
def removeVmActor (actorId : ActorId) (dataCache : AHashMap Ulid (List CachedVMActor)) :
    AHashMap Ulid (List CachedVMActor) :=
  dataCache.filterMap fun _ entries =>
    let kept := entries.filter fun entry => !isActor actorId entry
    if kept.isEmpty then none else some kept

/-- Removes the placements on a departed agent, keeping empty lists as intent. -/
def removeAgentPlacements (agentId : ActorId) (reachableVmids : Finset Ulid)
    (placements : AHashMap Ulid (List VmPlacement)) : AHashMap Ulid (List VmPlacement) :=
  placements.mapValues fun vmid entries =>
    entries.filter fun entry => entry.agentId ≠ agentId || vmid ∈ reachableVmids

/-- Rolls back optimistic create state only when no VM actor was created. -/
def rollbackFailedCreate (s : SchedulerActor) (vmid : Ulid) (actorExists : Bool)
    (actorId : Option ActorId) : SchedulerActor :=
  if actorExists then s
  else
    let s := match actorId with
      | some actorId =>
        if s.vmActoridUlidMap.get actorId = some vmid then
          { s with vmActoridUlidMap := s.vmActoridUlidMap.erase actorId }
        else s
      | none => s
    s.removeVmState vmid

/-- The indexed VMs of an agent that still have a discovered actor. -/
def reachableVmids (s : SchedulerActor) (agentId : ActorId) : Finset Ulid :=
  (s.indexOf agentId).filter fun vmid => isDiscovered s.vmDataCache vmid

/-- Aborts polling and removes all cache state owned by a departed agent. -/
def cleanupAgentActor (s : SchedulerActor) (actorId : ActorId) : SchedulerActor :=
  { s with
    agentKeepaliveTasks := s.agentKeepaliveTasks.erase actorId
    agentDataCache := s.agentDataCache.erase actorId
    agentVmIndex := s.agentVmIndex.erase actorId
    pendingResourcesCache := none
    vmPlacements := removeAgentPlacements actorId (s.reachableVmids actorId) s.vmPlacements }

/-- Placements that survive the loss of the last discovered actor of a VM. -/
def survivesVmLoss (index : AHashMap ActorId (Finset Ulid)) (vmid : Ulid)
    (entry : VmPlacement) : Bool :=
  entry.lifecycle = .pending || (index.get entry.agentId).any fun vmids => vmid ∈ vmids

/-- Aborts VM polling and makes an unrepresented VM placement recoverable. -/
def cleanupVmActor (s : SchedulerActor) (actorId : ActorId) : SchedulerActor :=
  let vmid := s.vmActoridUlidMap.get actorId
  let s := { s with
    vmKeepaliveTasks := s.vmKeepaliveTasks.erase actorId
    vmActoridUlidMap := s.vmActoridUlidMap.erase actorId
    pendingResourcesCache := none
    vmDataCache := removeVmActor actorId s.vmDataCache }
  match vmid with
  | none => s
  | some vmid =>
    if isDiscovered s.vmDataCache vmid then s
    else
      { s with vmPlacements := s.vmPlacements.modify vmid fun entries =>
          entries.filter (survivesVmLoss s.agentVmIndex vmid) }

def confirmedPlacement (agentId : ActorId) (now : Instant) : VmPlacement where
  agentId := agentId
  lifecycle := .running
  createdAt := now
  lastConfirmedAt := some now

def pendingPlacement (agentId : ActorId) (now : Instant) : VmPlacement where
  agentId := agentId
  lifecycle := .pending
  createdAt := now
  lastConfirmedAt := none

def confirm (now : Instant) (entry : VmPlacement) : VmPlacement :=
  { entry with lifecycle := .running, lastConfirmedAt := some now }

/-- Confirm the first entry of the agent, or push a running one. -/
def confirmOrPush (agentId : ActorId) (now : Instant) : List VmPlacement → List VmPlacement
  | [] => [confirmedPlacement agentId now]
  | entry :: entries =>
    if entry.agentId = agentId then confirm now entry :: entries
    else entry :: confirmOrPush agentId now entries

def reconcileAdded (agentId : ActorId) (now : Instant) (manifests : AHashMap Ulid VmManifest)
    (placements : AHashMap Ulid (List VmPlacement)) (vmid : Ulid) :
    AHashMap Ulid (List VmPlacement) :=
  if manifests.contains vmid then placements.upsert vmid [] (confirmOrPush agentId now)
  else placements

def reconcileRemoved (agentId : ActorId) (placements : AHashMap Ulid (List VmPlacement))
    (vmid : Ulid) : AHashMap Ulid (List VmPlacement) :=
  placements.modify vmid fun entries =>
    entries.filter fun entry => entry.agentId ≠ agentId || entry.lifecycle = .pending

/-- Additions confirm, removals drop confirmed placements only. -/
def reconcileAgentDelta (agentId : ActorId) (added removed : List Ulid) (now : Instant)
    (manifests : AHashMap Ulid VmManifest) (placements : AHashMap Ulid (List VmPlacement)) :
    AHashMap Ulid (List VmPlacement) :=
  removed.foldl (reconcileRemoved agentId)
    (added.foldl (reconcileAdded agentId now manifests) placements)

/-- Reconciles a discovered VM with every agent that already reports it; the
clock is read once for each of them. -/
def reconcileDiscoveredVm (vmid : Ulid) (now : ActorId → Instant)
    (agentVmIndex : AHashMap ActorId (Finset Ulid)) (manifests : AHashMap Ulid VmManifest)
    (placements : AHashMap Ulid (List VmPlacement)) : AHashMap Ulid (List VmPlacement) :=
  let agents := (agentVmIndex.toList.filter fun e => vmid ∈ e.2).map Prod.fst
  agents.foldl (fun placements agentId =>
    reconcileAgentDelta agentId [vmid] [] (now agentId) manifests placements) placements

/-- What a full snapshot does with one entry of a VM. -/
def reconcileEntry (agentId : ActorId) (now : Instant) (observed : Bool) (entry : VmPlacement) :
    Option VmPlacement :=
  if entry.agentId ≠ agentId then some entry
  else if observed then some (confirm now entry)
  else
    match entry.lifecycle with
    | .pending =>
      if durationSince now entry.createdAt < unresolvedVmCacheTimeout then some entry else none
    | .running =>
      if entry.lastConfirmedAt.any fun confirmed =>
          durationSince now confirmed < unconfirmedRunningPlacementTimeout
      then some entry else none

/-- Push a running placement for a reported VM without one on this agent. -/
def pushMissing (agentId : ActorId) (now : Instant)
    (placements : AHashMap Ulid (List VmPlacement)) (vmid : Ulid) :
    AHashMap Ulid (List VmPlacement) :=
  placements.upsert vmid [] fun entries => entries ++ [confirmedPlacement agentId now]

/-- Reconciles placements with a complete snapshot of one agent. -/
def reconcileAgentPlacements (agentId : ActorId) (status : AgentStatus) (now : Instant)
    (manifests : AHashMap Ulid VmManifest) (placements : AHashMap Ulid (List VmPlacement)) :
    AHashMap Ulid (List VmPlacement) :=
  let observed := status.vms.toFinset
  let missing := observed.filter fun vmid => manifests.contains vmid ∧
    ¬ (placements.get vmid).any fun entries => entries.any fun entry => entry.agentId = agentId
  let placements := (SortedVec.elements missing).foldl (pushMissing agentId now) placements
  placements.filterMap fun vmid entries =>
    let kept := entries.filterMap (reconcileEntry agentId now (vmid ∈ observed))
    if kept.isEmpty then none else some kept

end Odorobo.SchedulerActor
