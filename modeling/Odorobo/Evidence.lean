import Odorobo.Capacity
import Odorobo.Reservations
import Odorobo.RunningPlacements

/-! What a dispatch knows. Placements alone decide whether a VM is created: the
agent index is an observation and discovered actors are not consulted. The index
agrees with the placements of VMs with intent unless a client creates a VM that
an agent already reports. -/

namespace Odorobo.SchedulerActor

theorem RunningOn.of_mem {placements placements' : AHashMap Ulid (List VmPlacement)} {vmid : Ulid}
    {agentId : ActorId} (h : RunningOn placements vmid agentId)
    (kept : ∀ entry ∈ entriesOf placements vmid, entry.agentId = agentId →
      entry.lifecycle = .running → entry ∈ entriesOf placements' vmid) :
    RunningOn placements' vmid agentId := by
  obtain ⟨entry, hmem, hagent, hrunning⟩ := h
  exact ⟨entry, kept entry hmem hagent hrunning, hagent, hrunning⟩

section Steps

variable {s : SchedulerActor}

end Steps

/-- Every discovered VM has intent. -/
def DiscoveredKnown (manifests : AHashMap Ulid VmManifest)
    (dataCache : AHashMap Ulid (List CachedVMActor)) : Prop :=
  ∀ vmid, isDiscovered dataCache vmid = true → manifests.contains vmid = true

theorem isDiscovered_mono {dataCache dataCache' : AHashMap Ulid (List CachedVMActor)} {vmid : Ulid}
    (hle : ∀ actorId,
      occurrences dataCache' vmid actorId ≤ occurrences dataCache vmid actorId)
    (h : isDiscovered dataCache' vmid = true) : isDiscovered dataCache vmid = true := by
  rw [isDiscovered_iff] at h ⊢
  obtain ⟨actorId, hpos⟩ := h
  have hbound := hle actorId
  exact ⟨actorId, by omega⟩

section Discovered

variable {manifests : AHashMap Ulid VmManifest} {dataCache : AHashMap Ulid (List CachedVMActor)}

theorem DiscoveredKnown.shrink (h : DiscoveredKnown manifests dataCache)
    {dataCache' : AHashMap Ulid (List CachedVMActor)} (hle : ∀ vmid actorId,
      occurrences dataCache' vmid actorId ≤ occurrences dataCache vmid actorId) :
    DiscoveredKnown manifests dataCache' :=
  fun vmid hd => h vmid (isDiscovered_mono (hle vmid) hd)

theorem DiscoveredKnown.learn (h : DiscoveredKnown manifests dataCache) (key : Ulid)
    (manifest : VmManifest) : DiscoveredKnown (manifests.insert key manifest) dataCache := by
  intro vmid hd
  rw [AHashMap.contains_insert, h vmid hd, Bool.or_true]

theorem DiscoveredKnown.updated (h : DiscoveredKnown manifests dataCache)
    (actorRef : RemoteActorRef .vm) (key : Ulid) (manifest : VmManifest) :
    DiscoveredKnown (manifests.insert key manifest) (dataCache.upsert key [] fun entries =>
      updateCachedVmEntry entries actorRef.id ⟨some actorRef⟩) := by
  intro vmid hd
  by_cases hvmid : vmid = key
  · simp [AHashMap.contains_insert, hvmid]
  · have hold : isDiscovered dataCache vmid = true := by
      apply isDiscovered_mono _ hd
      intro actorId
      rw [occurrences_updated, if_neg (fun hboth => hvmid hboth.1)]
    exact h.learn key manifest vmid hold

end Discovered

end Odorobo.SchedulerActor
