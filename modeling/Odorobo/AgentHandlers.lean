import Odorobo.AgentActor
import Odorobo.Transition

/-! The message handlers of the agent actor that change its VMs. A handler runs
to its end before the next message is taken, so each is one step; what it learns
from outside, the actor it spawned and the answer that actor gave, is part of the
message. Every handler is a list of insertions and removals. -/

namespace Odorobo

structure MigrateVMReceive where
  vmid : Ulid
  config : VmManifest
  deriving DecidableEq

structure MigrateVMReceiveReply where
  listeningAddress : String
  error : Option String
  deriving DecidableEq

namespace AgentActor

/-- The cache entry of a spawned VM actor. -/
def cacheData (spawned : RemoteActorRef .vm) (config : VmManifest) : VMCacheData where
  actorRef := spawned
  config := config
  vcpus := config.desired.compute.vcpus
  memoryBytes := config.desired.compute.memoryBytes

def createVM (agent : AgentActor) (msg : CreateVM) (spawned : RemoteActorRef .vm) :
    CreateVMReply × AgentActor :=
  match agent.vms.get msg.vmid with
  | some existing => (⟨some existing.config, some (.encoded existing.actorRef.id)⟩, agent)
  | none =>
    (⟨some msg.config, some (.encoded spawned.id)⟩,
      agent.insertVm msg.vmid (cacheData spawned msg.config))

/-- A request to the spawned actor that fails is answered with an error. -/
def receiveReply (asked : Except String MigrateVMReceiveReply) : MigrateVMReceiveReply :=
  match asked with
  | .ok reply => reply
  | .error error => ⟨"", some ("failed to start migration receiver: " ++ error)⟩

def migrateVMReceive (agent : AgentActor) (msg : MigrateVMReceive) (spawned : RemoteActorRef .vm)
    (asked : Except String MigrateVMReceiveReply) : MigrateVMReceiveReply × AgentActor :=
  let agent := agent.insertVm msg.vmid (cacheData spawned msg.config)
  let reply := receiveReply asked
  if reply.error.isSome then
    if (agent.vms.get msg.vmid).any fun cache => cache.actorRef.id = spawned.id then
      (reply, (agent.removeVm msg.vmid).2)
    else (reply, agent)
  else (reply, agent)

def deleteVM (agent : AgentActor) (vmid : Ulid) : AgentActor := (agent.removeVm vmid).2

def removeAll (agent : AgentActor) (vmids : List Ulid) : AgentActor :=
  vmids.foldl (fun agent vmid => (agent.removeVm vmid).2) agent

def onLinkDied (agent : AgentActor) (id : ActorId) : AgentActor :=
  agent.removeAll ((agent.vms.toList.filter fun e => e.2.actorRef.id = id).map Prod.fst)

/-- What the agent handles. `query` stands for `ShutdownVM`, `GetVMInfo`,
`AgentListVMs`, `GetAgentStatus` and `Ping`, which change nothing of the agent. -/
inductive Message where
  | createVM (msg : CreateVM) (spawned : RemoteActorRef .vm)
  | migrateVMReceive (msg : MigrateVMReceive) (spawned : RemoteActorRef .vm)
      (asked : Except String MigrateVMReceiveReply)
  | deleteVM (vmid : Ulid)
  | linkDied (id : ActorId)
  | query

def handle (agent : AgentActor) : Message → AgentActor
  | .createVM msg spawned => (agent.createVM msg spawned).2
  | .migrateVMReceive msg spawned asked => (agent.migrateVMReceive msg spawned asked).2
  | .deleteVM vmid => agent.deleteVM vmid
  | .linkDied id => agent.onLinkDied id
  | .query => agent

/-- The same table of VMs, iterated in any order. -/
structure Rehash (agent agent' : AgentActor) : Prop where
  same : agent' = { agent with vms := agent'.vms }
  vms : agent'.vms.get = agent.vms.get

inductive Action where
  | handle (message : Message)
  | rehash

def Step (agent : AgentActor) : Action → AgentActor → Prop
  | .handle message, agent' => agent' = agent.handle message
  | .rehash, agent' => Rehash agent agent'

theorem insertVm_vms (agent : AgentActor) (vmid : Ulid) (cache : VMCacheData) :
    (agent.insertVm vmid cache).vms = agent.vms.insert vmid cache := by
  unfold insertVm
  cases agent.vms.get vmid <;> rfl

theorem removeVm_vms {agent : AgentActor} {vmid : Ulid} {previous : VMCacheData}
    (h : agent.vms.get vmid = some previous) :
    (agent.removeVm vmid).2.vms = agent.vms.erase vmid := by
  unfold removeVm
  rw [h]
  rfl

theorem get_insertVm (agent : AgentActor) (vmid : Ulid) (cache : VMCacheData) :
    (agent.insertVm vmid cache).vms.get vmid = some cache := by
  rw [insertVm_vms]
  exact AHashMap.get_insert_self _ _ _

/-- The entry of a failed receive is the one just inserted, so it is removed. -/
theorem migrateVMReceive_eq (agent : AgentActor) (msg : MigrateVMReceive)
    (spawned : RemoteActorRef .vm) (asked : Except String MigrateVMReceiveReply) :
    (agent.migrateVMReceive msg spawned asked).2 =
      if (receiveReply asked).error.isSome then
        ((agent.insertVm msg.vmid (cacheData spawned msg.config)).removeVm msg.vmid).2
      else agent.insertVm msg.vmid (cacheData spawned msg.config) := by
  unfold migrateVMReceive
  dsimp only
  rw [get_insertVm]
  split
  · rw [if_pos (by simp [cacheData])]
  · rfl

/-! Removals, one after the other. -/

theorem removeVm_of_unknown {agent : AgentActor} {vmid : Ulid} (h : agent.vms.get vmid = none) :
    (agent.removeVm vmid).2 = agent := by
  rw [removeVm, h]

/-- The rule of a removal loop. -/
theorem removeAll_rule {P : AgentActor → Prop} (kept : ∀ agent vmid, P agent → P (agent.removeVm vmid).2)
    (vmids : List Ulid) (agent : AgentActor) (start : P agent) : P (agent.removeAll vmids) := by
  induction vmids generalizing agent with
  | nil => exact start
  | cons vmid vmids ih => exact ih (agent.removeVm vmid).2 (kept agent vmid start)

/-- The rule of runs: what insertions and removals keep is kept by every handler
whose insertions are allowed. -/
theorem handle_rule {P : AgentActor → Prop} {agent : AgentActor} (message : Message) (start : P agent)
    (inserted : ∀ msg spawned, message = .createVM msg spawned → agent.vms.get msg.vmid = none →
      P (agent.insertVm msg.vmid (cacheData spawned msg.config)))
    (received : ∀ msg spawned asked, message = .migrateVMReceive msg spawned asked →
      P (agent.insertVm msg.vmid (cacheData spawned msg.config)))
    (removed : ∀ agent vmid, P agent → P (agent.removeVm vmid).2) : P (agent.handle message) := by
  cases message with
  | createVM msg spawned =>
    rw [handle, createVM]
    cases hget : agent.vms.get msg.vmid with
    | some existing => exact start
    | none => exact inserted msg spawned rfl hget
  | migrateVMReceive msg spawned asked =>
    have hinserted := received msg spawned asked rfl
    rw [handle, migrateVMReceive_eq]
    split
    · exact removed _ msg.vmid hinserted
    · exact hinserted
  | deleteVM vmid => exact removed agent vmid start
  | linkDied id => exact removeAll_rule removed _ agent start
  | query => exact start

/-! Concrete runs. -/

def runFrom : AgentActor → List Message → List (Action × AgentActor)
  | _, [] => []
  | agent, message :: messages => (.handle message, agent.handle message) :: runFrom (agent.handle message) messages

theorem isRun_runFrom (agent : AgentActor) (messages : List Message) :
    Transition.IsRun Step agent (runFrom agent messages) := by
  induction messages generalizing agent with
  | nil => trivial
  | cons message messages ih => exact ⟨rfl, ih (agent.handle message)⟩

end AgentActor

end Odorobo
