import Odorobo.AgentMessages
import Odorobo.HashMap

/-! The in-memory cluster view of the scheduler actor: the latest agent status,
VM intent, desired and observed placements, and discovered VM actors. The tables
are hash maps and the handlers update several of them together. -/

namespace Odorobo

/-- A reading of the monotonic clock, in nanoseconds. -/
abbrev Instant := Nat

/-- `Instant::duration_since`, which is zero when the argument is later. -/
def durationSince (now earlier : Instant) : Nat := now - earlier

def seconds (n : Nat) : Nat := n * 1000000000

/-- Pending creates are given time to appear in an agent status update. -/
def unresolvedVmCacheTimeout : Nat := seconds 120

def unconfirmedRunningPlacementTimeout : Nat := seconds 30

/-- The cache domain that owns cleanup for a linked remote actor. -/
inductive CachedActorKind where
  | agent
  | vm
  deriving DecidableEq

/-- A reference to a remote actor of the given kind. -/
structure RemoteActorRef (kind : CachedActorKind) where
  id : ActorId
  deriving DecidableEq

/-- The handle of a spawned polling task. -/
structure JoinHandle where
  task : Nat
  deriving DecidableEq

structure CachedAgentActor where
  actorRef : RemoteActorRef .agent
  data : AgentStatus
  statusRevision : U64
  deriving DecidableEq

inductive VmLifecycle where
  | pending
  | running
  deriving DecidableEq

structure VmPlacement where
  agentId : ActorId
  lifecycle : VmLifecycle
  createdAt : Instant
  lastConfirmedAt : Option Instant
  deriving DecidableEq

/-- `actorRef = none` is a placement reserved before its VM actor is discovered. -/
structure CachedVMActor where
  actorRef : Option (RemoteActorRef .vm)
  deriving DecidableEq

/-- The resources of the `Pending` placements of an agent. -/
abbrev PendingResources := AHashMap ActorId (U32 × U64)

structure SchedulerActor where
  agentDataCache : AHashMap ActorId CachedAgentActor
  agentKeepaliveTasks : AHashMap ActorId JoinHandle
  vmActoridUlidMap : AHashMap ActorId Ulid
  vmManifests : AHashMap Ulid VmManifest
  vmPlacements : AHashMap Ulid (List VmPlacement)
  vmDataCache : AHashMap Ulid (List CachedVMActor)
  vmKeepaliveTasks : AHashMap ActorId JoinHandle
  pendingResourcesCache : Option PendingResources
  agentVmIndex : AHashMap ActorId (Finset Ulid)
  actorKinds : AHashMap ActorId CachedActorKind

namespace SchedulerActor

/-- `on_start`: every table is empty. -/
def onStart : SchedulerActor where
  agentDataCache := .empty
  agentKeepaliveTasks := .empty
  vmActoridUlidMap := .empty
  vmManifests := .empty
  vmPlacements := .empty
  vmDataCache := .empty
  vmKeepaliveTasks := .empty
  pendingResourcesCache := none
  agentVmIndex := .empty
  actorKinds := .empty

/-- Marks the pending totals stale after a relevant cache change. -/
def invalidatePendingResources (s : SchedulerActor) : SchedulerActor :=
  { s with pendingResourcesCache := none }

/-- The placement list of a VM, a missing list counting as empty. -/
def placementsOf (s : SchedulerActor) (vmid : Ulid) : List VmPlacement :=
  (s.vmPlacements.get vmid).getD []

/-- The VMs an agent is indexed as holding. -/
def indexOf (s : SchedulerActor) (agentId : ActorId) : Finset Ulid :=
  (s.agentVmIndex.get agentId).getD ∅

end SchedulerActor

/-! Client and internal messages. -/

structure CreateVM where
  vmid : Ulid
  config : VmManifest
  deriving DecidableEq

/-- A serialized actor id as its reader sees it: bytes that `ActorId::from_bytes`
decodes, or bytes it rejects. -/
inductive ActorIdBytes where
  | encoded (id : ActorId)
  | malformed
  deriving DecidableEq

/-- `ActorId::from_bytes`. -/
def ActorIdBytes.decode : ActorIdBytes → Option ActorId
  | encoded id => some id
  | malformed => none

structure CreateVMReply where
  config : Option VmManifest
  actorId : Option ActorIdBytes
  deriving DecidableEq

structure GetVMInfoReply where
  vmid : Ulid
  config : Option VmManifest
  deriving DecidableEq

/-- A status update forwarded by an updater task. The task reads `actor_id` off
the reference it polls, and an agent never reports a VM as added and removed in
one update. -/
structure AgentUpdated where
  actorId : ActorId
  actorRef : RemoteActorRef .agent
  update : AgentStatusUpdate
  id_eq : actorRef.id = actorId
  disjoint : update.Disjoint

end Odorobo
