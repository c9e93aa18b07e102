import Odorobo.SchedulerRuns

/-! The two views the scheduler keeps of an agent, its cached status and the
index of the VMs it reports. They have the same agents, and the index lists no
VM that the cached status does not list; an explicit stop drops a VM from the
index alone. -/

namespace Odorobo.SchedulerActor

structure AgentViews (cache : AHashMap ActorId CachedAgentActor)
    (index : AHashMap ActorId (Finset Ulid)) : Prop where
  agents : ∀ agentId, index.contains agentId = cache.contains agentId
  listed : ∀ agentId vmids cached, index.get agentId = some vmids →
    cache.get agentId = some cached → ∀ vmid ∈ vmids, vmid ∈ cached.data.vms

section Views

variable {cache : AHashMap ActorId CachedAgentActor} {index : AHashMap ActorId (Finset Ulid)}

/-- Both views of one agent are replaced together. -/
theorem AgentViews.insert (h : AgentViews cache index) (key : ActorId) {cached : CachedAgentActor}
    {vmids : Finset Ulid} (hlisted : ∀ vmid ∈ vmids, vmid ∈ cached.data.vms) :
    AgentViews (cache.insert key cached) (index.insert key vmids) where
  agents agentId := by
    rw [AHashMap.contains_insert, AHashMap.contains_insert, h.agents agentId]
  listed agentId vmids' cached' hindex hcache := by
    rw [AHashMap.get_insert] at hindex hcache
    by_cases hkey : agentId = key
    · rw [if_pos hkey] at hindex hcache
      rw [← Option.some.inj hindex, ← Option.some.inj hcache]
      exact hlisted
    · rw [if_neg hkey] at hindex hcache
      exact h.listed agentId vmids' cached' hindex hcache

theorem AgentViews.erase (h : AgentViews cache index) (key : ActorId) :
    AgentViews (cache.erase key) (index.erase key) where
  agents agentId := by
    rw [AHashMap.contains_erase, AHashMap.contains_erase, h.agents agentId]
  listed agentId vmids cached hindex hcache := by
    rw [AHashMap.get_erase_eq_some] at hindex hcache
    exact h.listed agentId vmids cached hindex.2 hcache.2

theorem AgentViews.stop (h : AgentViews cache index) (vmid : Ulid) :
    AgentViews cache (index.mapValues fun _ vmids => vmids.erase vmid) where
  agents agentId := by
    rw [AHashMap.contains_mapValues, h.agents agentId]
  listed agentId vmids cached hindex hcache other hother := by
    rw [AHashMap.get_mapValues, Option.map_eq_some_iff] at hindex
    obtain ⟨before, hbefore, rfl⟩ := hindex
    exact h.listed agentId before cached hbefore hcache other (Finset.mem_of_mem_erase hother)

theorem AgentViews.delta (h : AgentViews cache index) {key : ActorId} {cached : CachedAgentActor}
    (hcached : cache.get key = some cached) (actorRef : RemoteActorRef .agent) (revision : U64)
    (added removed : List Ulid) (usedVcpus : U32) (usedRam : U64) :
    let applied := applyStatusUpdate cached.data (.delta revision added removed usedVcpus usedRam)
    AgentViews (cache.insert key ⟨actorRef, applied.1, applied.2⟩)
      (index.upsert key ∅ fun vmids => (vmids ∪ added.toFinset) \ removed.toFinset) := by
  intro applied
  have hindexed : ∃ vmids, index.get key = some vmids := by
    rw [← AHashMap.contains_iff, h.agents key, AHashMap.contains_iff]
    exact ⟨cached, hcached⟩
  obtain ⟨vmids, hvmids⟩ := hindexed
  apply h.insert
  intro vmid hvmid
  rw [hvmids, Option.getD_some, Finset.mem_sdiff, Finset.mem_union, List.mem_toFinset,
    List.mem_toFinset] at hvmid
  cases hvmid.1 with
  | inl hold =>
    exact mem_applyMembership_of_kept (h.listed key vmids cached hvmids hcached vmid hold) hvmid.2
  | inr hadded => exact mem_applyMembership_of_added hadded

/-- An indexed VM is listed by the cached status of the agent. -/
theorem AgentViews.cached_of_indexed (h : AgentViews cache index) {agentId : ActorId}
    {vmids : Finset Ulid} (hindex : index.get agentId = some vmids) {vmid : Ulid}
    (hmem : vmid ∈ vmids) : ∃ cached, cache.get agentId = some cached ∧ vmid ∈ cached.data.vms := by
  have hcached : ∃ cached, cache.get agentId = some cached := by
    rw [← AHashMap.contains_iff, ← h.agents agentId, AHashMap.contains_iff]
    exact ⟨vmids, hindex⟩
  obtain ⟨cached, hcached⟩ := hcached
  exact ⟨cached, hcached, h.listed agentId vmids cached hindex hcached vmid hmem⟩

end Views

theorem agentViews_outcome {s t : SchedulerActor} {event : Event} (outcome : Outcome s event t)
    (h : AgentViews s.agentDataCache s.agentVmIndex) :
    AgentViews t.agentDataCache t.agentVmIndex := by
  cases outcome with
  | watch => exact h
  | vmUpdated actorRef data now =>
    rw [vmUpdated_eq]
    exact h
  | vmLost event kinds id =>
    rw [cleanupVmActor_eq]
    exact h
  | agentLost event kinds id => exact h.erase id
  | full msg now revision status =>
    apply h.insert msg.actorId
    intro vmid hvmid
    exact List.mem_toFinset.mp hvmid
  | delta msg now cached revision added removed usedVcpus usedRam hcached hnewer hupdate =>
    unfold acceptDelta
    rw [hupdate]
    exact h.delta hcached msg.actorRef revision added removed usedVcpus usedRam
  | tick now env =>
    have hframe := reconcile_frame s now env
    rw [hframe.agentDataCache, hframe.agentVmIndex]
    exact h
  | unscheduled => exact h
  | created msg env agent =>
    have hframe := created_frame s msg env agent.id
    rw [hframe.agentDataCache, hframe.agentVmIndex]
    exact h
  | stopped event vmid => exact h.stop vmid

theorem agentViews_rehash {s t : SchedulerActor} (hr : Rehash s t)
    (h : AgentViews s.agentDataCache s.agentVmIndex) :
    AgentViews t.agentDataCache t.agentVmIndex where
  agents agentId := by
    rw [AHashMap.contains, AHashMap.contains, hr.agentVmIndex, hr.agentDataCache]
    exact h.agents agentId
  listed := by
    rw [hr.agentVmIndex, hr.agentDataCache]
    exact h.listed

theorem reachable_agentViews {s : SchedulerActor} (h : Reachable s) :
    AgentViews s.agentDataCache s.agentVmIndex := by
  apply h.rule (P := fun s => AgentViews s.agentDataCache s.agentVmIndex)
  · exact ⟨fun _ => rfl, by simp [onStart]⟩
  · exact fun s event t houtcome hs => agentViews_outcome houtcome hs
  · exact fun s t hr hs => agentViews_rehash hr hs

end Odorobo.SchedulerActor
