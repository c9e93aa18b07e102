import Odorobo.PendingTotals
import Odorobo.RunningMax
import Mathlib.Algebra.Order.BigOperators.Group.Finset

/-! Room at dispatch. The chosen agent has passed the capacity test with exact
pending totals, and a create reserves nothing besides its own request, so the
recorded reservations of the agent fit beside its reported usage. -/

namespace Odorobo.SchedulerActor

/-- Agents are cached under the id of the reference they are cached with. -/
def AgentsKeyed (cache : AHashMap ActorId CachedAgentActor) : Prop :=
  ∀ agentId cached, cache.get agentId = some cached → cached.actorRef.id = agentId

theorem AgentsKeyed.insert {cache : AHashMap ActorId CachedAgentActor} (h : AgentsKeyed cache)
    (key : ActorId) {cached : CachedAgentActor} (hid : cached.actorRef.id = key) :
    AgentsKeyed (cache.insert key cached) := by
  intro agentId other hget
  rw [AHashMap.get_insert] at hget
  split at hget
  · next heq =>
    rw [← Option.some.inj hget, hid, heq]
  · exact h agentId other hget

theorem AgentsKeyed.erase {cache : AHashMap ActorId CachedAgentActor} (h : AgentsKeyed cache)
    (key : ActorId) : AgentsKeyed (cache.erase key) := by
  intro agentId cached hget
  exact h agentId cached ((AHashMap.get_erase_eq_some _).mp hget).2

theorem agentsKeyed_outcome {s t : SchedulerActor} {event : Event} (outcome : Outcome s event t)
    (h : AgentsKeyed s.agentDataCache) : AgentsKeyed t.agentDataCache := by
  cases agentDataCache_outcome outcome with
  | kept hsame => exact hsame ▸ h
  | lost id herased => exact herased ▸ h.erase id
  | updated msg now cached hevent href hfull hinserted =>
    rw [hinserted]
    exact h.insert msg.actorId (href ▸ msg.id_eq)

theorem reachable_agentsKeyed {s : SchedulerActor} (h : Reachable s) :
    AgentsKeyed s.agentDataCache := by
  apply h.rule (P := fun s => AgentsKeyed s.agentDataCache)
  · intro agentId cached hget
    simp [onStart] at hget
  · exact fun s event t houtcome hs => agentsKeyed_outcome houtcome hs
  · intro s t hr hs agentId cached hget
    rw [hr.agentDataCache] at hget
    exact hs agentId cached hget

/-! The choice of an agent. -/

/-- The capacity test an agent has to pass. -/
def hasRoom (msg : CreateVM) (agent : CachedAgentActor) (pendingResources : PendingResources) :
    Bool :=
  let pending := (pendingResources.get agent.actorRef.id).getD (0, 0)
  hasCapacity (agentMaxVcpus agent) (Saturating.add agent.data.usedVcpus pending.1)
    msg.config.desired.compute.vcpus agent.data.ram
    (Saturating.add agent.data.usedRam pending.2) msg.config.desired.compute.memoryBytes

theorem hasRoom_of_exceeds {s : SchedulerActor} {msg : CreateVM} {agent : CachedAgentActor}
    {pendingResources : PendingResources} {best : AgentScore}
    (h : (s.scoreAgent msg agent pendingResources).exceeds best = true) :
    hasRoom msg agent pendingResources = true := by
  by_contra hnone
  have hrejected : s.scoreAgent msg agent pendingResources = .rejected := by
    unfold scoreAgent
    exact if_neg hnone
  rw [hrejected, AgentScore.not_rejected_exceeds] at h
  simp at h

/-- The loop is a running maximum of the scores. -/
theorem betterAgent_eq (s : SchedulerActor) (msg : CreateVM) (pendingResources : PendingResources) :
    s.betterAgent msg pendingResources = RunningMax.step CachedAgentActor.actorRef
      (fun agent => s.scoreAgent msg agent pendingResources) AgentScore.exceeds := rfl

theorem exceeds_of_bestAgent {s : SchedulerActor} {msg : CreateVM} {agent : RemoteActorRef .agent}
    (h : s.bestAgent msg = some agent) :
    ∃ cached ∈ s.agentDataCache.values, cached.actorRef = agent ∧
      ∃ beaten, (s.scoreAgent msg cached s.pendingTotals).exceeds beaten = true := by
  rw [bestAgent, betterAgent_eq] at h
  cases RunningMax.exceeds_of_foldl_step h with
  | inl hnone => simp at hnone
  | inr hsome => exact hsome

/-- A chosen agent is cached under its id and has room. -/
theorem bestAgent_spec {s : SchedulerActor} {msg : CreateVM} {agent : RemoteActorRef .agent}
    (keyed : AgentsKeyed s.agentDataCache) (h : s.bestAgent msg = some agent) :
    ∃ cached, s.agentDataCache.get agent.id = some cached ∧ cached.actorRef = agent ∧
      hasRoom msg cached s.pendingTotals = true := by
  obtain ⟨cached, hmem, rfl, best, hexceeds⟩ := exceeds_of_bestAgent h
  obtain ⟨agentId, hget⟩ := (AHashMap.mem_values _ _).mp hmem
  have hid := keyed agentId cached hget
  exact ⟨cached, hid ▸ hget, rfl, hasRoom_of_exceeds hexceeds⟩

/-! Exact arithmetic. -/

/-- The demand an agent still has to be given room for. -/
def Fits (cached : CachedAgentActor) (vcpus memory : Nat) : Prop :=
  (cached.data.vcpus.val < 2 ^ 31 → cached.data.usedVcpus.val + vcpus ≤ 2 * cached.data.vcpus.val) ∧
    (cached.data.ram.val < 2 ^ 64 - 1 → cached.data.usedRam.val + memory ≤ cached.data.ram.val)

theorem val_agentMaxVcpus (cached : CachedAgentActor) (h : cached.data.vcpus.val < 2 ^ 31) :
    (agentMaxVcpus cached).val = 2 * cached.data.vcpus.val := by
  have hnum : vcpuOverprovisionmentNumerator.val = 2 := rfl
  have hden : vcpuOverprovisionmentDenominator.val = 1 := rfl
  simp only [agentMaxVcpus, Saturating.val_mul, hnum, hden]
  omega

/-- No excess hides behind a saturated sum. -/
theorem fits_of_hasRoom {msg : CreateVM} {cached : CachedAgentActor}
    {pendingResources : PendingResources} {vcpus memory : Nat}
    (hpending : (pendingResources.get cached.actorRef.id).getD (0, 0) =
      (Saturating.clamp vcpus, Saturating.clamp memory))
    (h : hasRoom msg cached pendingResources = true) :
    Fits cached (vcpus + msg.config.desired.compute.vcpus.val)
      (memory + msg.config.desired.compute.memoryBytes.val) := by
  unfold hasRoom hasCapacity at h
  rw [hpending] at h
  simp only [Bool.and_eq_true, decide_eq_true_eq, Fin.le_def, Saturating.val_add,
    Saturating.val_clamp] at h
  refine ⟨?_, ?_⟩
  · intro hvcpus
    rw [val_agentMaxVcpus cached hvcpus] at h
    omega
  · intro hram
    omega

/-- Coherent totals are the summed demands. -/
theorem totals_eq_loads {s : SchedulerActor}
    (h : Coherent s.vmManifests s.vmPlacements s.pendingResourcesCache) (agentId : ActorId) :
    (s.pendingTotals.get agentId).getD (0, 0) =
      (Saturating.clamp (load s.vmManifests s.vmPlacements agentId fun r => r.vcpus.val),
        Saturating.clamp (load s.vmManifests s.vmPlacements agentId fun r => r.memoryBytes.val)) := by
  rw [pendingTotals_exact h, pendingResourcesByAgent_eq_loads]
  split
  · next hcount =>
    have hzero : ∀ f, load s.vmManifests s.vmPlacements agentId f = 0 := by
      intro f
      apply Finset.sum_eq_zero
      intro vmid hvmid
      have hterm := (Finset.sum_eq_zero_iff.mp hcount) vmid hvmid
      cases hget : s.vmManifests.get vmid with
      | none => rfl
      | some manifest =>
        rw [hget] at hterm
        simp only [Option.elim_some, mul_one] at hterm ⊢
        rw [hterm, Nat.zero_mul]
    rw [hzero, hzero]
    rfl
  · rfl

/-! The reservation. -/

/-- A reservation adds the request of its VM, which had no placement before. -/
theorem load_reserve {manifests manifests' : AHashMap Ulid VmManifest}
    {placements : AHashMap Ulid (List VmPlacement)} {vmid : Ulid} {manifest : VmManifest}
    (hempty : entriesOf placements vmid = []) (hnew : manifests'.get vmid = some manifest)
    (hold : ∀ other, other ≠ vmid → manifests'.get other = manifests.get other)
    (agentId : ActorId) (now : Instant) (f : Compute → Nat) :
    load manifests'
        (placements.upsert vmid [] fun entries => entries ++ [pendingPlacement agentId now])
        agentId f =
      load manifests placements agentId f + f manifest.desired.compute := by
  have hmem : vmid ∈ insert vmid placements.keys := Finset.mem_insert_self vmid _
  have hkeys : (placements.upsert vmid [] fun entries =>
      entries ++ [pendingPlacement agentId now]).keys ⊆ insert vmid placements.keys := by
    intro other hother
    rw [AHashMap.mem_keys, ← AHashMap.contains_iff, AHashMap.contains_upsert, Bool.or_eq_true,
      decide_eq_true_eq, AHashMap.contains_iff, ← AHashMap.mem_keys] at hother
    exact Finset.mem_insert.mpr hother
  have hothers : ∀ other ∈ (insert vmid placements.keys).erase vmid,
      ((manifests'.get other).elim 0 fun m => pendingCount agentId
        (entriesOf (placements.upsert vmid [] fun entries =>
          entries ++ [pendingPlacement agentId now]) other) * f m.desired.compute) =
      (manifests.get other).elim 0 fun m =>
        pendingCount agentId (entriesOf placements other) * f m.desired.compute := by
    intro other hother
    have hne := Finset.ne_of_mem_erase hother
    rw [hold other hne, entriesOf_upsert, if_neg hne]
  rw [load_eq_sum agentId f hkeys, load_eq_sum agentId f (Finset.subset_insert vmid _),
    ← Finset.add_sum_erase _ _ hmem, ← Finset.add_sum_erase _ _ hmem,
    Finset.sum_congr rfl hothers, hnew, entriesOf_upsert, if_pos rfl, hempty]
  have hnone : ((manifests.get vmid).elim 0 fun m =>
      pendingCount agentId [] * f m.desired.compute) = 0 := by
    cases manifests.get vmid <;> simp [pendingCount]
  have hone : pendingCount agentId ([] ++ [pendingPlacement agentId now]) = 1 := by
    simp [pendingCount, isPendingOn, pendingPlacement]
  rw [hnone, hone, Option.elim_some]
  omega

/-- What the reservation of a dispatch records. -/
structure Reserves (d : Dispatch) : Prop where
  empty : entriesOf d.before.vmPlacements d.request.vmid = []
  intent : d.reserved.vmManifests.get d.request.vmid = some d.request.config
  others : ∀ vmid, vmid ≠ d.request.vmid →
    d.reserved.vmManifests.get vmid = d.before.vmManifests.get vmid
  pushed : ∃ now, d.reserved.vmPlacements = d.before.vmPlacements.upsert d.request.vmid []
    fun entries => entries ++ [pendingPlacement d.agent.id now]
  agents : d.reserved.agentDataCache = d.before.agentDataCache

theorem reserves_of_dispatch {s : SchedulerActor} (h : Reachable s) {event : Event} {d : Dispatch}
    (hd : d ∈ s.dispatches event) : Reserves d := by
  obtain ⟨request, agent, before, reserved⟩ := d
  obtain ⟨hcall, hbest, hreserved⟩ := mem_dispatches hd
  dsimp only at hcall hreserved
  cases mem_scheduleCalls hcall with
  | inl hcreate =>
    obtain ⟨hbefore, hunknown, env, rfl⟩ := hcreate
    subst hreserved hbefore
    refine ⟨?_, AHashMap.get_insert_self _ _ _, ?_, ⟨env.now, rfl⟩, rfl⟩
    · exact (reachable_store h).entriesOf_unknown hunknown
    · exact fun vmid hne => AHashMap.get_insert_ne _ _ hne
  | inr hloop =>
    obtain ⟨now, env, rfl, hmem⟩ := hloop
    have hunplaced := ((reconcile_rule (P := fun _ => True) s now env trivial
      fun _ _ _ _ => trivial).2 _ hmem).2
    subst hreserved
    exact ⟨hunplaced.empty, hunplaced.intent, fun _ _ => rfl, ⟨(env _).now, rfl⟩, rfl⟩

def vcpusOf (s : SchedulerActor) (vmid : Ulid) : Nat :=
  (s.vmManifests.get vmid).elim 0 fun manifest => manifest.desired.compute.vcpus.val

def memoryOf (s : SchedulerActor) (vmid : Ulid) : Nat :=
  (s.vmManifests.get vmid).elim 0 fun manifest => manifest.desired.compute.memoryBytes.val

/-- The VMs whose manifest has a pending placement on the agent. -/
def pendingVms (s : SchedulerActor) (agentId : ActorId) : Finset Ulid :=
  s.vmManifests.keys.filter fun vmid =>
    ∃ entry ∈ s.placementsOf vmid, entry.agentId = agentId ∧ entry.lifecycle = .pending

/-- Counting VMs gives at most what counting placements gives. -/
theorem sum_pendingVms_le (s : SchedulerActor) (agentId : ActorId) :
    ∑ vmid ∈ s.pendingVms agentId, s.vcpusOf vmid ≤
      load s.vmManifests s.vmPlacements agentId fun request => request.vcpus.val := by
  have hrange : s.vmPlacements.keys ⊆ s.vmPlacements.keys ∪ s.pendingVms agentId :=
    Finset.subset_union_left
  rw [load_eq_sum agentId _ hrange]
  apply le_trans _ (Finset.sum_le_sum_of_subset Finset.subset_union_right)
  apply Finset.sum_le_sum
  intro vmid hvmid
  obtain ⟨entry, hentry, hagent, hpending⟩ := (Finset.mem_filter.mp hvmid).2
  have hcount : 0 < pendingCount agentId (entriesOf s.vmPlacements vmid) := by
    rw [pendingCount, List.countP_pos_iff]
    exact ⟨entry, hentry, by simp [isPendingOn, hagent, hpending]⟩
  rw [vcpusOf]
  cases s.vmManifests.get vmid with
  | none => simp
  | some manifest => exact Nat.le_mul_of_pos_left _ hcount

theorem load_memory (s : SchedulerActor) (agentId : ActorId) :
    load s.vmManifests s.vmPlacements agentId (fun request => request.memoryBytes.val) =
      ∑ vmid ∈ s.vmPlacements.keys,
        pendingCount agentId (s.placementsOf vmid) * s.memoryOf vmid := by
  apply Finset.sum_congr rfl
  intro vmid _
  rw [memoryOf, placementsOf_eq]
  cases s.vmManifests.get vmid <;> simp

theorem no_overcommit_at_dispatch {s : SchedulerActor} (h : Reachable s) {event : Event}
    {d : Dispatch} (hd : d ∈ s.dispatches event) :
    ∃ cached, d.reserved.agentDataCache.get d.agent.id = some cached ∧
      (cached.data.vcpus.val < 2 ^ 31 → cached.data.ram.val < 2 ^ 64 - 1 →
        cached.data.usedVcpus.val +
            ∑ vmid ∈ d.reserved.pendingVms d.agent.id, d.reserved.vcpusOf vmid ≤
          2 * cached.data.vcpus.val ∧
        cached.data.usedRam.val +
            ∑ vmid ∈ d.reserved.vmPlacements.keys,
              pendingCount d.agent.id (d.reserved.placementsOf vmid) * d.reserved.memoryOf vmid ≤
          cached.data.ram.val) := by
  obtain ⟨hcall, hbest, _⟩ := mem_dispatches hd
  have hreserves := reserves_of_dispatch h hd
  have hcoherent := coherent_of_call h hcall
  have hagents : AgentsKeyed s.agentDataCache := reachable_agentsKeyed h
  have hkeyed : AgentsKeyed d.before.agentDataCache :=
    scheduleCalls_rule (P := fun t => AgentsKeyed t.agentDataCache) hagents (fun _ => hagents)
      (fun env t vm ht _ => (recreate_frame env t vm).agentDataCache ▸ ht) hcall
  obtain ⟨cached, hget, href, hroom⟩ := bestAgent_spec hkeyed hbest
  have hfits := fits_of_hasRoom (totals_eq_loads hcoherent cached.actorRef.id) hroom
  obtain ⟨now, hpushed⟩ := hreserves.pushed
  have hload : ∀ f, load d.reserved.vmManifests d.reserved.vmPlacements d.agent.id f =
      load d.before.vmManifests d.before.vmPlacements d.agent.id f +
        f d.request.config.desired.compute := by
    intro f
    rw [hpushed]
    exact load_reserve hreserves.empty hreserves.intent hreserves.others d.agent.id now f
  have hvms := sum_pendingVms_le d.reserved d.agent.id
  rw [hload] at hvms
  refine ⟨cached, hreserves.agents ▸ hget, ?_⟩
  intro hvcpus hram
  rw [href] at hfits
  have hcpu := hfits.1 hvcpus
  have hmemory := hfits.2 hram
  rw [← load_memory, hload]
  exact ⟨by omega, hmemory⟩

/-- Two VMs are re-created in one tick on an agent that went away and came back. -/
theorem no_overcommit_at_dispatch_tick :
    let s := handleAll [reportsFull agentOne 0 [] 0, createsVm 5 1, createsVm 6 1,
      .agentUpdaterStopped agentOne, reportsFull agentOne 0 [] 2]
    ∃ d ∈ s.dispatches (ticks 3), d.request.vmid = 6 ∧
      ∃ cached, d.reserved.agentDataCache.get d.agent.id = some cached ∧
        cached.data.usedVcpus.val +
            ∑ vmid ∈ d.reserved.pendingVms d.agent.id, d.reserved.vcpusOf vmid ≤
          2 * cached.data.vcpus.val := by
  intro s
  have hsome : ((s.dispatches (ticks 3)).any fun d => d.request.vmid = 6 &&
      (d.reserved.agentDataCache.get d.agent.id).all fun cached =>
        cached.data.vcpus.val < 2 ^ 31 && cached.data.ram.val < 2 ^ 64 - 1) = true := by
    decide +kernel
  obtain ⟨d, hd, hsix⟩ := List.any_eq_true.mp hsome
  rw [Bool.and_eq_true, decide_eq_true_eq] at hsix
  obtain ⟨cached, hget, hfits⟩ := no_overcommit_at_dispatch (reachable_handleAll _) hd
  have hbounds := hsix.2
  rw [hget, Option.all_some, Bool.and_eq_true, decide_eq_true_eq, decide_eq_true_eq] at hbounds
  exact ⟨d, hd, hsix.1, cached, hget, (hfits hbounds.1 hbounds.2).1⟩

end Odorobo.SchedulerActor
