import Odorobo.VmAttribution

/-! Anchors of running placements. Whoever reported a running placement is still
there to report its end: its agent is cached, or an actor of its VM is
discovered. The loss of an agent retains what only a VM actor vouches for, and
the loss of the last actor drops what only it vouched for. -/

namespace Odorobo.SchedulerActor

/-- A running placement has its agent cached or its VM discovered. -/
def Anchored (placements : AHashMap Ulid (List VmPlacement))
    (cache : AHashMap ActorId CachedAgentActor)
    (dataCache : AHashMap Ulid (List CachedVMActor)) : Prop :=
  ∀ vmid, ∀ entry ∈ entriesOf placements vmid, entry.lifecycle = .running →
    cache.contains entry.agentId = true ∨ isDiscovered dataCache vmid = true

theorem isDiscovered_congr {dataCache dataCache' : AHashMap Ulid (List CachedVMActor)}
    {vmid : Ulid} (heq : ∀ actorId,
      occurrences dataCache' vmid actorId = occurrences dataCache vmid actorId) :
    isDiscovered dataCache' vmid = isDiscovered dataCache vmid := by
  rw [Bool.eq_iff_iff, isDiscovered_iff, isDiscovered_iff]
  simp only [heq]

section Anchoring

variable {placements placements' : AHashMap Ulid (List VmPlacement)}
  {cache cache' : AHashMap ActorId CachedAgentActor}
  {dataCache dataCache' : AHashMap Ulid (List CachedVMActor)}

/-- New running entries must bring their anchor; old ones keep theirs when no
agent and no discovery is lost. -/
theorem Anchored.grow (h : Anchored placements cache dataCache)
    (hcache : ∀ agentId, cache.contains agentId = true → cache'.contains agentId = true)
    (hdata : ∀ vmid, isDiscovered dataCache vmid = true → isDiscovered dataCache' vmid = true)
    (hentries : ∀ vmid, ∀ entry ∈ entriesOf placements' vmid, entry.lifecycle = .running →
      entry ∈ entriesOf placements vmid ∨ cache'.contains entry.agentId = true) :
    Anchored placements' cache' dataCache' := by
  intro vmid entry hmem hrunning
  cases hentries vmid entry hmem hrunning with
  | inr hnew => exact Or.inl hnew
  | inl hold =>
    cases h vmid entry hold hrunning with
    | inl hcached => exact Or.inl (hcache entry.agentId hcached)
    | inr hdiscovered => exact Or.inr (hdata vmid hdiscovered)

/-- A reservation pushes a pending entry and a placeholder. -/
theorem Anchored.reserve (h : Anchored placements cache dataCache) (key : Ulid)
    (agentId : ActorId) (now : Instant) :
    Anchored (placements.upsert key [] fun entries => entries ++ [pendingPlacement agentId now])
      cache (dataCache.upsert key [] fun entries => entries ++ [⟨none⟩]) := by
  have hdata : ∀ vmid, isDiscovered (dataCache.upsert key [] fun entries => entries ++ [⟨none⟩])
      vmid = isDiscovered dataCache vmid := fun vmid =>
    isDiscovered_congr fun actorId => occurrences_placeholder dataCache key vmid actorId
  apply h.grow (fun _ hcached => hcached) (fun vmid hd => hdata vmid ▸ hd)
  intro vmid entry hmem hrunning
  rw [entriesOf_upsert] at hmem
  by_cases hvmid : vmid = key
  · rw [if_pos hvmid, List.mem_append, List.mem_singleton] at hmem
    cases hmem with
    | inl hold => exact Or.inl hold
    | inr hnew => simp [hnew, pendingPlacement] at hrunning
  · rw [if_neg hvmid] at hmem
    exact Or.inl hmem

/-- The actors of a VM may be forgotten together with its placements. -/
theorem Anchored.unplace (h : Anchored placements cache dataCache) (key : Ulid)
    (hentries : ∀ vmid, entriesOf placements' vmid =
      if vmid = key then [] else entriesOf placements vmid) :
    Anchored placements' cache (dataCache.erase key) := by
  intro vmid entry hmem hrunning
  rw [hentries] at hmem
  by_cases hvmid : vmid = key
  · simp [hvmid] at hmem
  · rw [if_neg hvmid] at hmem
    have hkept : isDiscovered (dataCache.erase key) vmid = isDiscovered dataCache vmid := by
      apply isDiscovered_congr
      intro actorId
      rw [occurrences_erase, if_neg hvmid]
    rw [hkept]
    exact h vmid entry hmem hrunning

end Anchoring

section Outcomes

variable {s : SchedulerActor}

theorem anchored_vmUpdated (views : AgentViews s.agentDataCache s.agentVmIndex)
    (actorRef : RemoteActorRef .vm) (data : GetVMInfoReply) (now : ActorId → Instant)
    (h : Anchored s.vmPlacements s.agentDataCache s.vmDataCache) :
    Anchored (s.reportedPlacements data now) s.agentDataCache
      (s.vmDataCache.upsert data.vmid [] fun entries =>
        updateCachedVmEntry entries actorRef.id ⟨some actorRef⟩) := by
  apply h.grow (fun _ hcached => hcached)
  · intro vmid hdiscovered
    rw [isDiscovered_iff] at hdiscovered ⊢
    obtain ⟨actorId, hpos⟩ := hdiscovered
    refine ⟨actorId, ?_⟩
    rw [occurrences_updated]
    split <;> omega
  · intro vmid entry hmem _
    cases mem_reportedPlacements hmem with
    | inl hold => exact Or.inl hold
    | inr hreported =>
      obtain ⟨vmids, hindex, _⟩ := hreported
      right
      rw [← views.agents, AHashMap.contains_iff]
      exact ⟨vmids, hindex⟩

/-- An actor that leaves takes the discovery of its own VM with it, no other. -/
theorem isDiscovered_removed {owner : ActorId → Ulid}
    (attributed : Attributed owner s.vmActoridUlidMap s.vmDataCache) (id : ActorId) {vmid : Ulid}
    (hother : s.vmActoridUlidMap.get id ≠ some vmid) :
    isDiscovered (removeVmActor id s.vmDataCache) vmid = isDiscovered s.vmDataCache vmid := by
  apply isDiscovered_congr
  intro actorId
  rw [occurrences_removed]
  by_cases hactor : actorId = id
  · rw [if_pos hactor, hactor]
    by_contra hpos
    exact hother (attributed.mapped vmid id (by omega))
  · rw [if_neg hactor]

theorem anchored_vmLost {owner : ActorId → Ulid}
    (views : AgentViews s.agentDataCache s.agentVmIndex)
    (attributed : Attributed owner s.vmActoridUlidMap s.vmDataCache) (id : ActorId)
    (h : Anchored s.vmPlacements s.agentDataCache s.vmDataCache) :
    Anchored (s.placementsAfterVmLoss id) s.agentDataCache (removeVmActor id s.vmDataCache) := by
  intro vmid entry hmem hrunning
  by_cases hmapped : s.vmActoridUlidMap.get id = some vmid
  · by_cases hdiscovered : isDiscovered (removeVmActor id s.vmDataCache) vmid = true
    · exact Or.inr hdiscovered
    · left
      rw [placementsAfterVmLoss, hmapped] at hmem
      dsimp only at hmem
      rw [if_neg hdiscovered, entriesOf_modify, if_pos rfl, List.mem_filter] at hmem
      have hindexed : (s.agentVmIndex.get entry.agentId).any (fun vmids => vmid ∈ vmids) = true := by
        simpa [survivesVmLoss, hrunning] using hmem.2
      obtain ⟨vmids, hindex, _⟩ := (Option.any_eq_true _ _).mp hindexed
      rw [← views.agents, AHashMap.contains_iff]
      exact ⟨vmids, hindex⟩
  · have hentries : entry ∈ entriesOf s.vmPlacements vmid := by
      unfold placementsAfterVmLoss at hmem
      cases hget : s.vmActoridUlidMap.get id with
      | none => simpa [hget] using hmem
      | some lost =>
        have hne : vmid ≠ lost := fun heq => hmapped (heq ▸ hget)
        rw [hget] at hmem
        dsimp only at hmem
        split at hmem
        · exact hmem
        · rwa [entriesOf_modify, if_neg hne] at hmem
    rw [isDiscovered_removed attributed id hmapped]
    exact h vmid entry hentries hrunning

theorem anchored_agentLost (id : ActorId)
    (h : Anchored s.vmPlacements s.agentDataCache s.vmDataCache) :
    Anchored (removeAgentPlacements id (s.reachableVmids id) s.vmPlacements)
      (s.agentDataCache.erase id) s.vmDataCache := by
  intro vmid entry hmem hrunning
  rw [entriesOf_removeAgentPlacements, List.mem_filter] at hmem
  by_cases hid : entry.agentId = id
  · right
    have hreachable : vmid ∈ s.reachableVmids id := by simpa [hid] using hmem.2
    exact (Finset.mem_filter.mp hreachable).2
  · cases h vmid entry hmem.1 hrunning with
    | inr hdiscovered => exact Or.inr hdiscovered
    | inl hcached =>
      left
      rw [AHashMap.contains_erase]
      simp [hid, hcached]

theorem contains_insert_of_contains {V : Type} {m : AHashMap ActorId V} {agentId : ActorId}
    (h : m.contains agentId = true) (key : ActorId) (v : V) :
    (m.insert key v).contains agentId = true := by
  rw [AHashMap.contains_insert, h, Bool.or_true]

theorem anchored_full (msg : AgentUpdated) (revision : U64) (status : AgentStatus) (now : Instant)
    (h : Anchored s.vmPlacements s.agentDataCache s.vmDataCache) :
    Anchored (s.acceptFull msg revision status now).vmPlacements
      (s.acceptFull msg revision status now).agentDataCache s.vmDataCache := by
  apply h.grow (fun _ hcached => contains_insert_of_contains hcached _ _) (fun _ hd => hd)
  intro vmid entry hmem _
  have hself : (s.acceptFull msg revision status now).agentDataCache.contains msg.actorId = true := by
    simp [acceptFull, AHashMap.contains_insert]
  rw [acceptFull, entriesOf_reconcileAgentPlacements, List.mem_filterMap] at hmem
  obtain ⟨before, hbefore, hsome⟩ := hmem
  cases reconcileEntry_eq_some hsome with
  | inr hconfirmed =>
    right
    have hagent : entry.agentId = msg.actorId := by
      rw [hconfirmed.2.2]
      exact hconfirmed.1
    rw [hagent]
    exact hself
  | inl heq =>
    rw [heq]
    split at hbefore
    · cases List.mem_append.mp hbefore with
      | inl hold => exact Or.inl hold
      | inr hnew =>
        right
        rw [List.mem_singleton.mp hnew]
        exact hself
    · exact Or.inl hbefore

theorem anchored_delta (msg : AgentUpdated) (cached : CachedAgentActor) (added removed : List Ulid)
    (now : Instant) (h : Anchored s.vmPlacements s.agentDataCache s.vmDataCache) :
    Anchored (s.acceptDelta msg cached added removed now).vmPlacements
      (s.acceptDelta msg cached added removed now).agentDataCache s.vmDataCache := by
  apply h.grow (fun _ hcached => contains_insert_of_contains hcached _ _) (fun _ hd => hd)
  intro vmid entry hmem _
  rw [acceptDelta, entriesOf_reconcileAgentDelta] at hmem
  have hconfirmed : entry ∈ (if vmid ∈ added ∧ s.vmManifests.contains vmid then
      confirmOrPush msg.actorId now (entriesOf s.vmPlacements vmid)
      else entriesOf s.vmPlacements vmid) := by
    dsimp only at hmem
    split at hmem
    · exact List.mem_of_mem_filter hmem
    · exact hmem
  split at hconfirmed
  · cases mem_confirmOrPush hconfirmed with
    | inl hold => exact Or.inl hold
    | inr hagent =>
      right
      rw [hagent]
      simp [AHashMap.contains_insert]
  · exact Or.inl hconfirmed

theorem anchored_recreate {env : Ulid → DispatchEnv} {vm : Ulid × VmManifest}
    (h : Anchored s.vmPlacements s.agentDataCache s.vmDataCache) :
    Anchored (s.recreate env vm).vmPlacements (s.recreate env vm).agentDataCache
      (s.recreate env vm).vmDataCache := by
  rw [recreate_eq]
  split
  · exact h
  · next agent hagent =>
    split
    · exact h.reserve vm.1 agent.id _
    · exact (h.reserve vm.1 agent.id (env vm.1).now).unplace vm.1 fun vmid =>
        entriesOf_insert _ vm.1 vmid []

theorem anchored_created (msg : CreateVM) (env : CreateEnv) (agentId : ActorId)
    (h : Anchored s.vmPlacements s.agentDataCache s.vmDataCache) :
    let t := (s.pendingResources.reserveCreate msg agentId env.now).settleCreate msg env
    Anchored t.vmPlacements t.agentDataCache t.vmDataCache := by
  have hreserved := h.reserve msg.vmid agentId env.now
  apply settleCreate_rule (P := fun t => Anchored t.vmPlacements t.agentDataCache t.vmDataCache)
  · exact hreserved
  · exact fun _ _ _ _ => hreserved
  · exact hreserved.unplace msg.vmid fun vmid => entriesOf_erase _ msg.vmid vmid

theorem anchored_expired (now : Instant)
    (h : Anchored s.vmPlacements s.agentDataCache s.vmDataCache) :
    Anchored (s.expireUnresolved now).vmPlacements s.agentDataCache
      (s.expireUnresolved now).vmDataCache := by
  have hdata : ∀ vmid, isDiscovered (s.expireUnresolved now).vmDataCache vmid =
      isDiscovered s.vmDataCache vmid := fun vmid =>
    isDiscovered_congr fun actorId =>
      occurrences_expired s.vmDataCache vmid actorId now s.vmPlacements
  apply h.grow (fun _ hcached => hcached) (fun vmid hd => hdata vmid ▸ hd)
  intro vmid entry hmem _
  left
  change entry ∈ entriesOf (cleanupUnresolvedVmCache now s.vmPlacements s.vmDataCache).1 vmid at hmem
  rw [entriesOf_cleanupUnresolved] at hmem
  exact List.mem_of_mem_filter hmem

theorem anchored_outcome {owner : ActorId → Ulid} {t : SchedulerActor} {event : Event}
    (outcome : Outcome s event t) (views : AgentViews s.agentDataCache s.agentVmIndex)
    (attributed : Attributed owner s.vmActoridUlidMap s.vmDataCache)
    (h : Anchored s.vmPlacements s.agentDataCache s.vmDataCache) :
    Anchored t.vmPlacements t.agentDataCache t.vmDataCache := by
  cases outcome with
  | watch => exact h
  | vmUpdated actorRef data now =>
    rw [vmUpdated_eq]
    exact anchored_vmUpdated views actorRef data now h
  | vmLost event kinds id =>
    rw [cleanupVmActor_eq]
    exact anchored_vmLost (s := { s with actorKinds := kinds }) views attributed id h
  | agentLost event kinds id => exact anchored_agentLost id h
  | full msg now revision status => exact anchored_full msg revision status now h
  | delta msg now cached revision added removed =>
    exact anchored_delta msg cached added removed now h
  | tick now env =>
    exact (reconcile_rule
      (P := fun t => Anchored t.vmPlacements t.agentDataCache t.vmDataCache) s now env
      (anchored_expired now h) fun t vm ht _ => anchored_recreate ht).1
  | unscheduled => exact h
  | created msg env agent => exact anchored_created msg env agent.id h
  | stopped event vmid => exact h.unplace vmid fun other => entriesOf_erase _ vmid other

end Outcomes

/-! Whole runs. -/

structure Watchful (owner : ActorId → Ulid) (s : SchedulerActor) : Prop where
  views : AgentViews s.agentDataCache s.agentVmIndex
  attributed : Attributed owner s.vmActoridUlidMap s.vmDataCache
  anchored : Anchored s.vmPlacements s.agentDataCache s.vmDataCache

theorem watchful_onStart (owner : ActorId → Ulid) : Watchful owner onStart where
  views := ⟨fun _ => rfl, by simp [onStart]⟩
  attributed := ⟨by simp [onStart, occurrences, actorsOf], by simp [onStart, occurrences, actorsOf],
    by simp [onStart]⟩
  anchored := by
    intro vmid entry hmem
    simp [onStart, entriesOf] at hmem

theorem watchful_rehash {owner : ActorId → Ulid} {s t : SchedulerActor} (hr : Rehash s t)
    (h : Watchful owner s) : Watchful owner t where
  views := agentViews_rehash hr h.views
  attributed := by
    have hdata : ∀ vmid actorId,
        occurrences t.vmDataCache vmid actorId = occurrences s.vmDataCache vmid actorId := by
      intro vmid actorId
      unfold occurrences actorsOf
      rw [hr.vmDataCache]
    refine ⟨?_, (h.attributed.congr hdata).once, ?_⟩
    · rw [hr.vmActoridUlidMap]
      exact (h.attributed.congr hdata).mapped
    · rw [hr.vmActoridUlidMap]
      exact h.attributed.owned
  anchored := by
    intro vmid entry hmem hrunning
    rw [entriesOf_congr (congrFun hr.vmPlacements vmid)] at hmem
    rw [AHashMap.contains, hr.agentDataCache, isDiscovered, hr.vmDataCache]
    exact h.anchored vmid entry hmem hrunning

theorem watchful_of_reachable {owner : ActorId → Ulid} {s : SchedulerActor}
    (h : OwnedReachable owner s) : Watchful owner s := by
  apply Transition.Reachable.invariant h (watchful_onStart owner)
  intro s action t hs hstep
  cases action with
  | handle event =>
    have houtcome := handle_outcome s event
    rw [show t = s.handle event from hstep.1]
    exact ⟨agentViews_outcome houtcome hs.views,
      attributed_outcome houtcome (hstep.2 event rfl) hs.attributed,
      anchored_outcome houtcome hs.views hs.attributed hs.anchored⟩
  | rehash => exact watchful_rehash hstep.1 hs

/-- Where occurrences under one VM account for all, they are counted there. -/
theorem countP_values {dataCache : AHashMap Ulid (List CachedVMActor)} {vmid : Ulid}
    {actorId : ActorId} (h : ∀ other, other ≠ vmid → occurrences dataCache other actorId = 0) :
    dataCache.values.flatten.countP (isActor actorId) = occurrences dataCache vmid actorId := by
  have hterm : ∀ other, ((dataCache.get other).elim 0 fun entries =>
      entries.countP (isActor actorId)) = occurrences dataCache other actorId := by
    intro other
    unfold occurrences actorsOf
    cases dataCache.get other <;> simp
  have hsum := AHashMap.sum_toList dataCache fun _ entries => entries.countP (isActor actorId)
  rw [List.countP_flatten, AHashMap.values, List.map_map]
  change (dataCache.toList.map fun e => e.2.countP (isActor actorId)).sum = _
  rw [hsum]
  simp only [hterm]
  apply Finset.sum_eq_single vmid
  · intro other _ hne
    exact h other hne
  · intro habsent
    have hnone : dataCache.get vmid = none := by
      rw [← AHashMap.contains_eq_false, ← Bool.not_eq_true, AHashMap.contains_iff,
        ← AHashMap.mem_keys]
      exact habsent
    unfold occurrences actorsOf
    rw [hnone]
    rfl

theorem no_vm_stranded {owner : ActorId → Ulid} {s : SchedulerActor}
    (h : OwnedReachable owner s) :
    (∀ vmid entries, s.vmPlacements.get vmid = some entries → ∀ entry ∈ entries,
      entry.lifecycle = .running →
        s.agentDataCache.contains entry.agentId = true ∨ isDiscovered s.vmDataCache vmid = true) ∧
    ∀ vmid entries, s.vmDataCache.get vmid = some entries → ∀ cachedVm ∈ entries,
      ∀ actor, cachedVm.actorRef = some actor →
        s.vmActoridUlidMap.get actor.id = some vmid ∧
          s.vmDataCache.values.flatten.countP (isActor actor.id) = 1 := by
  have hwatchful := watchful_of_reachable h
  refine ⟨?_, ?_⟩
  · intro vmid entries hget entry hmem
    apply hwatchful.anchored vmid entry
    rw [entriesOf, hget]
    exact hmem
  · intro vmid entries hget cachedVm hmem actor hactor
    have hpos : 0 < occurrences s.vmDataCache vmid actor.id := by
      rw [occurrences, List.countP_pos_iff]
      refine ⟨cachedVm, ?_, by simp [isActor, hactor]⟩
      rw [actorsOf, hget]
      exact hmem
    have hmapped := hwatchful.attributed.mapped vmid actor.id hpos
    refine ⟨hmapped, ?_⟩
    have hothers : ∀ other, other ≠ vmid → occurrences s.vmDataCache other actor.id = 0 := by
      intro other hne
      by_contra hother
      have hmapped' := hwatchful.attributed.mapped other actor.id (by omega)
      rw [hmapped] at hmapped'
      exact hne (Option.some.inj hmapped').symm
    have honce := hwatchful.attributed.once vmid actor.id
    rw [countP_values hothers]
    omega

theorem ownedReachable_foldl {owner : ActorId → Ulid} (events : List Event)
    (hreports : ∀ event ∈ events, Reports owner event) {s : SchedulerActor}
    (h : OwnedReachable owner s) : OwnedReachable owner (events.foldl handle s) := by
  induction events generalizing s with
  | nil => exact h
  | cons event events ih =>
    rw [List.forall_mem_cons] at hreports
    apply ih hreports.2
    apply h.tail (l := .handle event)
    refine ⟨rfl, ?_⟩
    rintro other ⟨⟩
    exact hreports.1

/-- An agent is lost while an actor of its VM is still discovered. -/
theorem no_vm_stranded_agent_lost :
    let s := handleAll [reportsVm vmActorOne 5 (some (sampleManifest 5)),
      reportsFull agentOne 1 [5] 0, .agentUpdaterStopped agentOne]
    s.agentDataCache.contains agentOne = false ∧
      s.vmPlacements.get 5 = some [confirmedPlacement agentOne 0] ∧
      isDiscovered s.vmDataCache 5 = true := by
  intro s
  have hlost : s.agentDataCache.contains agentOne = false := by decide +kernel
  have hplaced : s.vmPlacements.get 5 = some [confirmedPlacement agentOne 0] := by decide +kernel
  have hreachable : OwnedReachable (fun _ => 5) s := by
    apply ownedReachable_foldl _ _ (Transition.Reachable.refl onStart)
    intro event hevent
    simp only [List.mem_cons, List.not_mem_nil, or_false] at hevent
    rcases hevent with rfl | rfl | rfl
    · rfl
    · trivial
    · trivial
  have hanchor := (no_vm_stranded hreachable).1 5 _ hplaced _ (List.mem_singleton.mpr rfl) rfl
  refine ⟨hlost, hplaced, ?_⟩
  cases hanchor with
  | inl hcached =>
    have hcached : s.agentDataCache.contains agentOne = true := hcached
    rw [hlost] at hcached
    simp at hcached
  | inr hdiscovered => exact hdiscovered

end Odorobo.SchedulerActor
