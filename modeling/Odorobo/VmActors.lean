import Odorobo.AgentHandlers
import Odorobo.Fallible
import Odorobo.SchedulerRuns
import Odorobo.VmConfig

/-! The VM actors of one agent. An actor is given the manifest when it starts; a
migration receiver starts without one, and the message that carries it later is
not kept. What the VM instance answers is part of the event, since nothing here
depends on how it came to its answer. -/

namespace Odorobo

/-- The receive socket and the configuration the migrated VM will have. -/
structure MigrationState where
  listeningAddress : String
  config : VmConfig
  deriving DecidableEq

structure PrepMigration where
  vmid : Ulid
  config : VmManifest
  deriving DecidableEq

/-- `instanceConfig` is the configuration that the VM instance keeps. -/
structure VMActor where
  vmid : Ulid
  instanceConfig : Option VmConfig
  migrationState : Option MigrationState
  manifest : Option VmManifest
  deriving DecidableEq

namespace VMActor

/-- The manifest is translated, the instance is spawned, and a console is
attached when there is a manifest. -/
def onStart (vmid : Ulid) (vmConfig : Option VmManifest) (spawn : Except String (Option VmConfig))
    (attach : Except String Unit) : Except String VMActor := do
  let _ ← vmConfig.mapM toVmConfig
  let instanceConfig ← spawn
  if vmConfig.isSome then attach
  return ⟨vmid, instanceConfig, none, vmConfig⟩

def getVMInfo (actor : VMActor) : GetVMInfoReply := ⟨actor.vmid, actor.manifest⟩

/-- An ongoing migration answers with its address; `received` is the address of
a new receiver. -/
def migrateVMReceive (actor : VMActor) (msg : MigrateVMReceive) (received : Except String String) :
    MigrateVMReceiveReply × VMActor :=
  match actor.migrationState with
  | some ongoing => (⟨ongoing.listeningAddress, none⟩, actor)
  | none =>
    match toVmConfig msg.config with
    | .error error => (⟨"", some error⟩, actor)
    | .ok config =>
      match received with
      | .error error => (⟨"", some error⟩, actor)
      | .ok address => (⟨address, none⟩, { actor with migrationState := some ⟨address, config⟩ })

def migrationFinished (actor : VMActor) : VMActor := { actor with migrationState := none }

/-- The instance keeps the translated manifest, also when its preparation fails. -/
def prepMigration (actor : VMActor) (msg : PrepMigration) : VMActor :=
  match toVmConfig msg.config with
  | .error _ => actor
  | .ok config => { actor with instanceConfig := some config }

end VMActor

/-- An agent, the arguments of the VM actors that are starting, and the VM actors
that run. -/
structure AgentNode where
  agent : AgentActor
  starting : AHashMap ActorId (Ulid × Option VmManifest)
  actors : AHashMap ActorId VMActor
  spawned : List ActorId

namespace AgentNode

def onStart (config : Config) (host : AgentActor.Host) : AgentNode :=
  ⟨AgentActor.onStart config host, .empty, .empty, []⟩

/-- Messages of the agent and of its VM actors, and what happens to these. `query`
stands for the messages that change nothing, `GetVMInfo` among them. -/
inductive Event where
  | createVM (msg : CreateVM) (id : ActorId)
  | migrateVMReceive (msg : MigrateVMReceive) (id : ActorId) (spawn : Except String (Option VmConfig))
      (received : Except String String)
  | deleteVM (vmid : Ulid)
  | linkDied (id : ActorId)
  | start (id : ActorId) (spawn : Except String (Option VmConfig)) (attach : Except String Unit)
  | receive (id : ActorId) (msg : MigrateVMReceive) (received : Except String String)
  | prepMigration (id : ActorId) (msg : PrepMigration)
  | migrationFinished (id : ActorId)
  | stop (id : ActorId)
  | query
  | rehash

/-- The agent waits for the answer of the receiver it spawns, so the actor starts
and answers within the handler; one that does not start answers with an error, and
one that answers with an error is killed. -/
def migrateVMReceive (x : AgentNode) (msg : MigrateVMReceive) (id : ActorId)
    (spawn : Except String (Option VmConfig)) (received : Except String String) : AgentNode :=
  match VMActor.onStart msg.vmid none spawn (.ok ()) with
  | .error error =>
    { x with
      agent := (x.agent.migrateVMReceive msg ⟨id⟩ (.error error)).2
      spawned := id :: x.spawned }
  | .ok actor =>
    let answer := actor.migrateVMReceive msg received
    { x with
      agent := (x.agent.migrateVMReceive msg ⟨id⟩ (.ok answer.1)).2
      actors := if answer.1.error.isSome then x.actors else x.actors.insert id answer.2
      spawned := id :: x.spawned }

/-- An actor gets an id that was not given out before. -/
def next (x : AgentNode) : Event → Option AgentNode
  | .createVM msg id =>
    match x.agent.vms.get msg.vmid with
    | some _ => some x
    | none =>
      if id ∈ x.spawned then none
      else some { x with
        agent := (x.agent.createVM msg ⟨id⟩).2
        starting := x.starting.insert id (msg.vmid, some msg.config)
        spawned := id :: x.spawned }
  | .migrateVMReceive msg id spawn received =>
    if id ∈ x.spawned then none else some (x.migrateVMReceive msg id spawn received)
  | .deleteVM vmid => some { x with agent := x.agent.deleteVM vmid }
  | .linkDied id => some { x with agent := x.agent.onLinkDied id }
  | .start id spawn attach =>
    match x.starting.get id with
    | none => none
    | some (vmid, config) =>
      match VMActor.onStart vmid config spawn attach with
      | .error _ => some { x with starting := x.starting.erase id }
      | .ok actor =>
        some { x with starting := x.starting.erase id, actors := x.actors.insert id actor }
  | .receive id msg received =>
    some { x with actors := x.actors.modify id fun actor => (actor.migrateVMReceive msg received).2 }
  | .prepMigration id msg =>
    some { x with actors := x.actors.modify id fun actor => actor.prepMigration msg }
  | .migrationFinished id => some { x with actors := x.actors.modify id VMActor.migrationFinished }
  | .stop id => some { x with actors := x.actors.erase id }
  | .query => some x
  | .rehash => none

def Step (x : AgentNode) (event : Event) (y : AgentNode) : Prop :=
  x.next event = some y ∨
    (event = .rehash ∧ AgentActor.Rehash x.agent y.agent ∧ y = { x with agent := y.agent })

/-- The actor of a VM answers with the VM and the manifest that the agent has. -/
def Agree (x : AgentNode) : Prop :=
  ∀ vmid cache, x.agent.vms.get vmid = some cache →
    ∀ actor, x.actors.get cache.actorRef.id = some actor →
      actor.getVMInfo = ⟨vmid, some cache.config⟩

/-- A migration that the receiver accepts. -/
def Accepts : Event → Prop
  | .migrateVMReceive msg _ spawn received =>
    spawn.isOk = true ∧ (toVmConfig msg.config).isOk = true ∧ received.isOk = true
  | _ => False

instance decidableAccepts : (event : Event) → Decidable (Accepts event)
  | .migrateVMReceive msg _ spawn received =>
    inferInstanceAs (Decidable (spawn.isOk = true ∧ (toVmConfig msg.config).isOk = true ∧
      received.isOk = true))
  | .createVM _ _ | .deleteVM _ | .linkDied _ | .start _ _ _ | .receive _ _ _ | .prepMigration _ _
  | .migrationFinished _ | .stop _ | .query | .rehash => inferInstanceAs (Decidable False)

/-! The replies of an actor depend on the two fields that no message changes. -/

theorem getVMInfo_onStart {vmid : Ulid} {vmConfig : Option VmManifest}
    {spawn : Except String (Option VmConfig)} {attach : Except String Unit} {actor : VMActor}
    (h : VMActor.onStart vmid vmConfig spawn attach = .ok actor) :
    actor.getVMInfo = ⟨vmid, vmConfig⟩ := by
  unfold VMActor.onStart at h
  simp only [Fallible.bind_eq_ok] at h
  obtain ⟨_, _, instanceConfig, _, h⟩ := h
  have hactor : (.ok ⟨vmid, instanceConfig, none, vmConfig⟩ : Except String VMActor) = .ok actor := by
    split at h
    · obtain ⟨_, _, h⟩ := Fallible.bind_eq_ok.mp h
      exact h
    · exact h
  rw [← Except.ok.inj hactor]
  rfl

theorem getVMInfo_migrateVMReceive (actor : VMActor) (msg : MigrateVMReceive)
    (received : Except String String) :
    (actor.migrateVMReceive msg received).2.getVMInfo = actor.getVMInfo := by
  unfold VMActor.migrateVMReceive
  repeat' split
  all_goals rfl

theorem getVMInfo_prepMigration (actor : VMActor) (msg : PrepMigration) :
    (actor.prepMigration msg).getVMInfo = actor.getVMInfo := by
  unfold VMActor.prepMigration
  split <;> rfl

/-- The VMs of the agent have actors of their own, which know them. -/
structure Tied (x : AgentNode) : Prop where
  agrees : x.Agree
  spawned : ∀ vmid cache, x.agent.vms.get vmid = some cache → cache.actorRef.id ∈ x.spawned
  starting : ∀ vmid cache, x.agent.vms.get vmid = some cache →
    ∀ args, x.starting.get cache.actorRef.id = some args → args = (vmid, some cache.config)
  begun : ∀ id args, x.starting.get id = some args → id ∈ x.spawned
  running : ∀ id actor, x.actors.get id = some actor → id ∈ x.spawned

section Tied

variable {x y : AgentNode}

/-- VMs may be lost, and actors may stop or take messages. -/
theorem Tied.shrink (h : Tied x)
    (hvms : ∀ vmid cache, y.agent.vms.get vmid = some cache → x.agent.vms.get vmid = some cache)
    (hactors : ∀ id actor, y.actors.get id = some actor →
      ∃ before, x.actors.get id = some before ∧ actor.getVMInfo = before.getVMInfo)
    (hstarting : ∀ id args, y.starting.get id = some args → x.starting.get id = some args)
    (hspawned : ∀ id ∈ x.spawned, id ∈ y.spawned) : Tied y where
  agrees vmid cache hget actor hactor := by
    obtain ⟨before, hbefore, hinfo⟩ := hactors _ actor hactor
    rw [hinfo]
    exact h.agrees vmid cache (hvms vmid cache hget) before hbefore
  spawned vmid cache hget := hspawned _ (h.spawned vmid cache (hvms vmid cache hget))
  starting vmid cache hget args hargs :=
    h.starting vmid cache (hvms vmid cache hget) args (hstarting _ args hargs)
  begun id args hargs := hspawned id (h.begun id args (hstarting id args hargs))
  running id actor hactor := by
    obtain ⟨before, hbefore, _⟩ := hactors id actor hactor
    exact hspawned id (h.running id before hbefore)

theorem get_removeVm {agent : AgentActor} {vmid vmid' : Ulid} {cache : VMCacheData}
    (h : (agent.removeVm vmid).2.vms.get vmid' = some cache) :
    vmid' ≠ vmid ∧ agent.vms.get vmid' = some cache := by
  cases hget : agent.vms.get vmid with
  | none =>
    rw [AgentActor.removeVm_of_unknown hget] at h
    refine ⟨?_, h⟩
    rintro rfl
    simp [hget] at h
  | some previous =>
    rw [AgentActor.removeVm_vms hget] at h
    exact (AHashMap.get_erase_eq_some _).mp h

/-- A receive that fails leaves no entry of the VM. -/
theorem get_failedReceive {agent : AgentActor} {msg : MigrateVMReceive} {id : ActorId}
    {asked : Except String MigrateVMReceiveReply}
    (herror : (AgentActor.receiveReply asked).error.isSome = true) {vmid : Ulid} {cache : VMCacheData}
    (h : (agent.migrateVMReceive msg ⟨id⟩ asked).2.vms.get vmid = some cache) :
    agent.vms.get vmid = some cache := by
  rw [AgentActor.migrateVMReceive_eq, if_pos herror] at h
  obtain ⟨hne, hget⟩ := get_removeVm h
  rwa [AgentActor.insertVm_vms, AHashMap.get_insert_ne _ _ hne] at hget

theorem Tied.keepActors (h : Tied x) {agent : AgentActor} {spawned : List ActorId}
    (hvms : ∀ vmid cache, agent.vms.get vmid = some cache → x.agent.vms.get vmid = some cache)
    (hspawned : ∀ id ∈ x.spawned, id ∈ spawned) :
    Tied { x with agent := agent, spawned := spawned } :=
  h.shrink hvms (fun _ actor hactor => ⟨actor, hactor, rfl⟩) (fun _ _ hargs => hargs) hspawned

theorem Tied.modify (h : Tied x) (id : ActorId) {f : VMActor → VMActor}
    (hf : ∀ actor, (f actor).getVMInfo = actor.getVMInfo) :
    Tied { x with actors := x.actors.modify id f } := by
  refine h.shrink (fun _ _ hget => hget) ?_ (fun _ _ hargs => hargs) (fun _ hmem => hmem)
  intro id' actor hactor
  change (x.actors.modify id f).get id' = some actor at hactor
  rw [AHashMap.get_modify] at hactor
  split at hactor
  · next heq =>
    obtain ⟨before, hbefore, rfl⟩ := Option.map_eq_some_iff.mp hactor
    exact ⟨before, heq ▸ hbefore, hf before⟩
  · exact ⟨actor, hactor, rfl⟩

/-- A created VM has an actor that no other VM has. -/
theorem Tied.created (h : Tied x) {msg : CreateVM} {id : ActorId} (hfresh : id ∉ x.spawned) :
    Tied { x with
      agent := x.agent.insertVm msg.vmid (AgentActor.cacheData ⟨id⟩ msg.config)
      starting := x.starting.insert id (msg.vmid, some msg.config)
      spawned := id :: x.spawned } := by
  have hsplit : ∀ vmid cache,
      (x.agent.insertVm msg.vmid (AgentActor.cacheData ⟨id⟩ msg.config)).vms.get vmid = some cache →
        (vmid = msg.vmid ∧ cache = AgentActor.cacheData ⟨id⟩ msg.config) ∨
          (x.agent.vms.get vmid = some cache ∧ cache.actorRef.id ≠ id) := by
    intro vmid cache hget
    rw [AgentActor.insertVm_vms, AHashMap.get_insert] at hget
    split at hget
    · next heq => exact Or.inl ⟨heq, (Option.some.inj hget).symm⟩
    · refine Or.inr ⟨hget, ?_⟩
      rintro rfl
      exact hfresh (h.spawned vmid cache hget)
  constructor
  · intro vmid cache hget actor hactor
    obtain ⟨rfl, rfl⟩ | ⟨hold, hne⟩ := hsplit vmid cache hget
    · exact absurd (h.running id actor hactor) hfresh
    · exact h.agrees vmid cache hold actor hactor
  · intro vmid cache hget
    obtain ⟨rfl, rfl⟩ | ⟨hold, hne⟩ := hsplit vmid cache hget
    · exact List.mem_cons_self
    · exact List.mem_cons_of_mem id (h.spawned vmid cache hold)
  · intro vmid cache hget args hargs
    obtain ⟨rfl, rfl⟩ | ⟨hold, hne⟩ := hsplit vmid cache hget
    · simpa [AgentActor.cacheData] using hargs.symm
    · apply h.starting vmid cache hold
      rwa [AHashMap.get_insert_ne _ _ hne] at hargs
  · intro id' args hargs
    change (x.starting.insert id _).get id' = some args at hargs
    rw [AHashMap.get_insert] at hargs
    split at hargs
    · next heq => exact heq ▸ List.mem_cons_self
    · exact List.mem_cons_of_mem id (h.begun id' args hargs)
  · intro id' actor hactor
    exact List.mem_cons_of_mem id (h.running id' actor hactor)

/-- The actor starts with the manifest it was spawned with. -/
theorem Tied.started (h : Tied x) {id : ActorId} {vmid : Ulid} {config : Option VmManifest}
    {actor : VMActor} (hargs : x.starting.get id = some (vmid, config))
    (hinfo : actor.getVMInfo = ⟨vmid, config⟩) :
    Tied { x with starting := x.starting.erase id, actors := x.actors.insert id actor } := by
  have herased : ∀ id' args, (x.starting.erase id).get id' = some args →
      x.starting.get id' = some args :=
    fun id' args hget => ((AHashMap.get_erase_eq_some _).mp hget).2
  constructor
  · intro vmid' cache hget actor' hactor
    change (x.actors.insert id actor).get cache.actorRef.id = some actor' at hactor
    rw [AHashMap.get_insert] at hactor
    split at hactor
    · next heq =>
      obtain ⟨rfl, rfl⟩ := Prod.mk.inj (h.starting vmid' cache hget _ (heq ▸ hargs))
      rw [← Option.some.inj hactor]
      exact hinfo
    · exact h.agrees vmid' cache hget actor' hactor
  · exact h.spawned
  · exact fun vmid' cache hget args hargs => h.starting vmid' cache hget args (herased _ _ hargs)
  · exact fun id' args hargs => h.begun id' args (herased _ _ hargs)
  · intro id' actor' hactor
    change (x.actors.insert id actor).get id' = some actor' at hactor
    rw [AHashMap.get_insert] at hactor
    split at hactor
    · next heq => exact heq ▸ h.begun id _ hargs
    · exact h.running id' actor' hactor

/-- A receiver starts without a manifest. -/
theorem onStart_receiver (vmid : Ulid) (spawn : Except String (Option VmConfig)) :
    VMActor.onStart vmid none spawn (.ok ()) =
      spawn.map fun instanceConfig => ⟨vmid, instanceConfig, none, none⟩ := by
  cases spawn <;> rfl

theorem Tied.received (h : Tied x) {msg : MigrateVMReceive} {id : ActorId}
    {spawn : Except String (Option VmConfig)} {received : Except String String}
    (hrefused : ¬ Accepts (.migrateVMReceive msg id spawn received)) :
    Tied (x.migrateVMReceive msg id spawn received) := by
  have hgiven : ∀ id' ∈ x.spawned, id' ∈ id :: x.spawned := fun _ => List.mem_cons_of_mem id
  rw [AgentNode.migrateVMReceive, onStart_receiver]
  cases hspawn : spawn with
  | error error => exact h.keepActors (fun _ _ => get_failedReceive rfl) hgiven
  | ok instanceConfig =>
    cases hconfig : toVmConfig msg.config with
    | error error =>
      simp only [Except.map, VMActor.migrateVMReceive, hconfig]
      exact h.keepActors (fun _ _ => get_failedReceive rfl) hgiven
    | ok config =>
      cases hreceived : received with
      | error error =>
        simp only [Except.map, VMActor.migrateVMReceive, hconfig]
        exact h.keepActors (fun _ _ => get_failedReceive rfl) hgiven
      | ok address =>
        rw [hspawn, hreceived] at hrefused
        exact absurd ⟨rfl, by rw [hconfig]; rfl, rfl⟩ hrefused

/-- An accepted migration is held by the agent with its manifest, and its actor
has none. -/
theorem not_agree_received {msg : MigrateVMReceive} {id : ActorId}
    {spawn : Except String (Option VmConfig)} {received : Except String String}
    (haccepts : Accepts (.migrateVMReceive msg id spawn received)) :
    ¬ (x.migrateVMReceive msg id spawn received).Agree := by
  intro hagree
  obtain ⟨hspawn, hconfig, hreceived⟩ := haccepts
  cases spawn with
  | error error => simp [Except.isOk, Except.toBool] at hspawn
  | ok instanceConfig =>
    cases received with
    | error error => simp [Except.isOk, Except.toBool] at hreceived
    | ok address =>
      cases htranslated : toVmConfig msg.config with
      | error error => simp [htranslated, Except.isOk, Except.toBool] at hconfig
      | ok config =>
        have hinserted := AgentActor.get_insertVm x.agent msg.vmid
          (AgentActor.cacheData ⟨id⟩ msg.config)
        simp only [AgentNode.migrateVMReceive, onStart_receiver, Except.map,
          VMActor.migrateVMReceive, htranslated] at hagree
        have hinfo := hagree msg.vmid (AgentActor.cacheData ⟨id⟩ msg.config) hinserted
          ⟨msg.vmid, instanceConfig, some ⟨address, config⟩, none⟩
          (AHashMap.get_insert_self _ _ _)
        simp [VMActor.getVMInfo] at hinfo

theorem Tied.next {event : Event} (h : Tied x) (hrefused : ¬ Accepts event)
    (hnext : x.next event = some y) : Tied y := by
  cases event with
  | createVM msg id =>
    cases hget : x.agent.vms.get msg.vmid with
    | some existing =>
      simp only [AgentNode.next, hget] at hnext
      exact Option.some.inj hnext ▸ h
    | none =>
      simp only [AgentNode.next, AgentActor.createVM, hget] at hnext
      split at hnext
      · simp at hnext
      · next hfresh =>
        rw [← Option.some.inj hnext]
        exact h.created hfresh
  | migrateVMReceive msg id spawn received =>
    simp only [AgentNode.next] at hnext
    split at hnext
    · simp at hnext
    · rw [← Option.some.inj hnext]
      exact h.received hrefused
  | deleteVM vmid =>
    rw [← Option.some.inj hnext]
    exact h.keepActors (fun _ _ hget => (get_removeVm hget).2) fun _ hmem => hmem
  | linkDied id =>
    rw [← Option.some.inj hnext]
    refine h.keepActors (fun vmid cache hget => ?_) fun _ hmem => hmem
    exact AgentActor.removeAll_rule
      (P := fun agent => agent.vms.get vmid = some cache → x.agent.vms.get vmid = some cache)
      (fun agent vmid' hagent hget => hagent (get_removeVm hget).2) _ x.agent (fun hget => hget) hget
  | start id spawn attach =>
    simp only [AgentNode.next] at hnext
    split at hnext
    · simp at hnext
    · next vmid config hargs =>
      split at hnext
      · rw [← Option.some.inj hnext]
        refine h.shrink (fun _ _ hget => hget) (fun _ actor hactor => ⟨actor, hactor, rfl⟩) ?_
          fun _ hmem => hmem
        exact fun id' args hget => ((AHashMap.get_erase_eq_some _).mp hget).2
      · next actor hstart =>
        rw [← Option.some.inj hnext]
        exact h.started hargs (getVMInfo_onStart hstart)
  | receive id msg received =>
    rw [← Option.some.inj hnext]
    exact h.modify id fun actor => getVMInfo_migrateVMReceive actor msg received
  | prepMigration id msg =>
    rw [← Option.some.inj hnext]
    exact h.modify id fun actor => getVMInfo_prepMigration actor msg
  | migrationFinished id =>
    rw [← Option.some.inj hnext]
    exact h.modify id fun actor => rfl
  | stop id =>
    rw [← Option.some.inj hnext]
    refine h.shrink (fun _ _ hget => hget) ?_ (fun _ _ hargs => hargs) fun _ hmem => hmem
    intro id' actor hactor
    exact ⟨actor, ((AHashMap.get_erase_eq_some _).mp hactor).2, rfl⟩
  | query => exact Option.some.inj hnext ▸ h
  | rehash => simp [AgentNode.next] at hnext

theorem Tied.step {event : Event} (h : Tied x) (hrefused : ¬ Accepts event)
    (hstep : Step x event y) : Tied y := by
  obtain hnext | ⟨_, hrehash, heq⟩ := hstep
  · exact h.next hrefused hnext
  · rw [heq]
    exact h.keepActors (fun vmid cache hget => by rwa [hrehash.vms] at hget) fun _ hmem => hmem

theorem not_agree_of_accepts {event : Event} (haccepts : Accepts event) (hstep : Step x event y) :
    ¬ y.Agree := by
  cases event with
  | migrateVMReceive msg id spawn received =>
    obtain hnext | ⟨hrehash, _⟩ := hstep
    · simp only [AgentNode.next] at hnext
      split at hnext
      · simp at hnext
      · rw [← Option.some.inj hnext]
        exact not_agree_received haccepts
    · simp at hrehash
  | _ => exact absurd haccepts not_false

theorem tied_onStart (config : Config) (host : AgentActor.Host) : Tied (onStart config host) := by
  constructor <;> simp [onStart, Agree, AgentActor.onStart]

end Tied

theorem vm_info_agrees_iff (config : Config) (host : AgentActor.Host) (run : List (Event × AgentNode))
    (hrun : Transition.IsRun Step (onStart config host) run) :
    Transition.AllStates Agree (onStart config host) run ↔
      Transition.AllSteps (fun _ event => ¬ Accepts event) (onStart config host) run := by
  constructor
  · intro hagree
    apply Transition.allSteps_of_states _ _ run hrun hagree
    intro x event y _ haccepts hstep
    exact not_agree_of_accepts (not_not.mp haccepts) hstep
  · intro hrefused
    have htied := Transition.allStates_of_step (fun _ _ _ h => h.step) _ run
      (tied_onStart config host) hrun hrefused
    exact Transition.allStates_mono (fun _ h => h.agrees) htied

section Samples

def sampleNode : AgentNode := onStart ⟨none, none⟩ ⟨4, 4096, none⟩

/-- A VM is created, its actor starts, and a migration of the VM comes in. -/
def migratingRun (received : Except String String) : List (Event × AgentNode) :=
  Transition.play next sampleNode
    [.createVM ⟨5, SchedulerActor.sizedManifest 5 1 1⟩ ⟨7, 1⟩, .start ⟨7, 1⟩ (.ok none) (.ok ()),
      .migrateVMReceive ⟨6, SchedulerActor.sizedManifest 6 3 1⟩ ⟨8, 1⟩ (.ok none) received]

theorem isRun_migratingRun (received : Except String String) :
    Transition.IsRun Step sampleNode (migratingRun received) :=
  Transition.isRun_play (fun _ _ _ => Or.inl) sampleNode _

end Samples

/-- The receive socket cannot be opened. -/
theorem vm_info_agrees_iff_refused :
    (migratingRun (.error "no free port")).length = 3 ∧
      Transition.AllStates Agree sampleNode (migratingRun (.error "no free port")) := by
  refine ⟨by decide +kernel, ?_⟩
  apply (vm_info_agrees_iff _ _ _ (isRun_migratingRun _)).mpr
  decide +kernel

/-- A VM that arrived by migration is reported without its manifest. -/
theorem vm_info_lost :
    ∃ run, Transition.IsRun Step sampleNode run ∧ ¬ Transition.AllStates Agree sampleNode run := by
  refine ⟨migratingRun (.ok "tcp:0.0.0.0:50000"), isRun_migratingRun _, ?_⟩
  intro hagree
  have hend := Transition.final_of_allStates _ _ hagree
  have hheld : ((Transition.final sampleNode (migratingRun (.ok "tcp:0.0.0.0:50000"))).agent.vms.get
      6).map (fun cache => cache.actorRef.id) = some ⟨8, 1⟩ := by
    decide +kernel
  have hinfo : ((Transition.final sampleNode (migratingRun (.ok "tcp:0.0.0.0:50000"))).actors.get
      ⟨8, 1⟩).map VMActor.getVMInfo = some ⟨6, none⟩ := by
    decide +kernel
  obtain ⟨cache, hcache, hid⟩ := Option.map_eq_some_iff.mp hheld
  obtain ⟨actor, hactor, hreply⟩ := Option.map_eq_some_iff.mp hinfo
  have hsame := hend 6 cache hcache actor (hid ▸ hactor)
  rw [hreply] at hsame
  simp at hsame

end AgentNode

end Odorobo
