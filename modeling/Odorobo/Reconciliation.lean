import Odorobo.AgentChoice
import Odorobo.Expiry

/-! What the reconciliation loop achieves. A tick that can send places every VM
it finds unplaced as soon as one agent could take them all: other agents may
take some of them first, which leaves only more room on that one. -/

namespace Odorobo.SchedulerActor

/-- What a list of VMs asks for together, in a quantity `f`. -/
def demand (f : Compute → Nat) (vms : List (Ulid × VmManifest)) : Nat :=
  (vms.map fun vm => f vm.2.desired.compute).sum

@[simp] theorem demand_cons (f : Compute → Nat) (vm : Ulid × VmManifest)
    (vms : List (Ulid × VmManifest)) :
    demand f (vm :: vms) = f vm.2.desired.compute + demand f vms := by
  simp [demand]

/-- Every required rule is about agents, and this agent follows it. -/
def AcceptsRules (agent : CachedAgentActor) (manifest : VmManifest) : Prop :=
  ∀ rule ∈ manifest.desired.placement.affinity, rule.strictness = .required →
    rule.affinityType = .agent ∧
      RuleHolds {(agent.data.metadata.labels, agent.data.metadata.annotations)} rule

/-- The agent could take all the VMs, beside what it runs and what is reserved on it. -/
structure CouldTake (s : SchedulerActor) (agent : CachedAgentActor)
    (vms : List (Ulid × VmManifest)) : Prop where
  rules : ∀ vm ∈ vms, AcceptsRules agent vm.2
  vcpus : agent.data.usedVcpus.val +
      load s.vmManifests s.vmPlacements agent.actorRef.id (fun request => request.vcpus.val) +
      demand (fun request => request.vcpus.val) vms ≤ (agentMaxVcpus agent).val
  memory : agent.data.usedRam.val +
      load s.vmManifests s.vmPlacements agent.actorRef.id (fun request => request.memoryBytes.val) +
      demand (fun request => request.memoryBytes.val) vms ≤ agent.data.ram.val

/-! The load of an agent through one iteration. -/

theorem load_eq_of_pendingCount {manifests : AHashMap Ulid VmManifest}
    {placements placements' : AHashMap Ulid (List VmPlacement)} {agentId : ActorId}
    (h : ∀ vmid, pendingCount agentId (entriesOf placements' vmid) =
      pendingCount agentId (entriesOf placements vmid)) (f : Compute → Nat) :
    load manifests placements' agentId f = load manifests placements agentId f := by
  have hleft : placements'.keys ⊆ placements'.keys ∪ placements.keys := Finset.subset_union_left
  have hright : placements.keys ⊆ placements'.keys ∪ placements.keys := Finset.subset_union_right
  rw [load_eq_sum agentId f hleft, load_eq_sum agentId f hright]
  simp only [h]

/-- A reservation elsewhere is no load. -/
theorem load_reserve_ne (manifests : AHashMap Ulid VmManifest)
    (placements : AHashMap Ulid (List VmPlacement)) (vmid : Ulid) {agentId other : ActorId}
    (hne : other ≠ agentId) (now : Instant) (f : Compute → Nat) :
    load manifests
        (placements.upsert vmid [] fun entries => entries ++ [pendingPlacement other now])
        agentId f =
      load manifests placements agentId f := by
  apply load_eq_of_pendingCount
  intro vmid'
  rw [entriesOf_upsert]
  split
  · have hother : isPendingOn agentId (pendingPlacement other now) = false := by
      simp [isPendingOn, pendingPlacement, hne]
    simp [pendingCount, List.countP_append, hother]
  · rfl

theorem load_recreate_le {env : Ulid → DispatchEnv} {s : SchedulerActor}
    {vm : Ulid × VmManifest} (unplaced : Unplaced s vm) (sent : (env vm.1).sent = true)
    (agentId : ActorId) (f : Compute → Nat) :
    load (s.recreate env vm).vmManifests (s.recreate env vm).vmPlacements agentId f ≤
      load s.vmManifests s.vmPlacements agentId f + f vm.2.desired.compute := by
  rw [recreate_eq]
  split
  · exact Nat.le_add_right _ _
  · next agent _ =>
    rw [if_pos sent]
    change load s.vmManifests (s.vmPlacements.upsert vm.1 [] fun entries =>
      entries ++ [pendingPlacement agent.id (env vm.1).now]) agentId f ≤ _
    by_cases hagent : agent.id = agentId
    · subst hagent
      rw [load_reserve unplaced.empty unplaced.intent (fun _ _ => rfl)]
    · rw [load_reserve_ne _ _ _ hagent]
      exact Nat.le_add_right _ _

theorem CouldTake.recreate {env : Ulid → DispatchEnv} {s : SchedulerActor}
    {agent : CachedAgentActor} {vm : Ulid × VmManifest} {vms : List (Ulid × VmManifest)}
    (h : CouldTake s agent (vm :: vms)) (unplaced : Unplaced s vm)
    (sent : (env vm.1).sent = true) : CouldTake (s.recreate env vm) agent vms := by
  have hload := load_recreate_le unplaced sent agent.actorRef.id
  have hvcpus := h.vcpus
  have hmemory := h.memory
  rw [demand_cons] at hvcpus hmemory
  refine ⟨fun other hother => h.rules other (List.mem_cons_of_mem vm hother), ?_, ?_⟩
  · have := hload fun request => request.vcpus.val
    omega
  · have := hload fun request => request.memoryBytes.val
    omega

/-! The choice at a turn. -/

/-- Sums that fit are not cut off anywhere in the capacity test. -/
theorem hasRoom_of_le {msg : CreateVM} {cached : CachedAgentActor}
    {pendingResources : PendingResources} {vcpus memory : Nat}
    (hpending : (pendingResources.get cached.actorRef.id).getD (0, 0) =
      (Saturating.clamp vcpus, Saturating.clamp memory))
    (hvcpus : cached.data.usedVcpus.val + vcpus + msg.config.desired.compute.vcpus.val ≤
      (agentMaxVcpus cached).val)
    (hmemory : cached.data.usedRam.val + memory + msg.config.desired.compute.memoryBytes.val ≤
      cached.data.ram.val) : hasRoom msg cached pendingResources = true := by
  unfold hasRoom hasCapacity
  rw [hpending]
  simp only [Bool.and_eq_true, decide_eq_true_eq, Fin.le_def, Saturating.val_add,
    Saturating.val_clamp]
  constructor <;> omega

theorem CouldTake.eligible {s : SchedulerActor} {agent : CachedAgentActor}
    {vm : Ulid × VmManifest} {vms : List (Ulid × VmManifest)}
    (h : CouldTake s agent (vm :: vms))
    (coherent : Coherent s.vmManifests s.vmPlacements s.pendingResourcesCache) :
    s.Eligible ⟨vm.1, vm.2⟩ agent := by
  have hvcpus := h.vcpus
  have hmemory := h.memory
  rw [demand_cons] at hvcpus hmemory
  refine ⟨?_, ?_⟩
  · apply hasRoom_of_le (totals_eq_loads coherent agent.actorRef.id)
    · dsimp only at hvcpus ⊢
      omega
    · dsimp only at hmemory ⊢
      omega
  · intro rule hrule hrequired
    obtain ⟨htype, hholds⟩ := h.rules vm List.mem_cons_self rule hrule hrequired
    rw [Follows, htype]
    exact hholds

end Odorobo.SchedulerActor
