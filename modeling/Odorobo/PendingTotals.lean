import Odorobo.PlacementStore

/-! Exactness of the pending totals. The totals of an agent are sums over the
manifests of its pending placements, cut off at the word size, so they depend on
the contents of the two tables and not on how they are iterated. From this the
lazy cache is coherent in every reachable state, and an agent that passes the
capacity test has room for the reservation made on it. -/

namespace Odorobo.SchedulerActor

def isPendingOn (agentId : ActorId) (entry : VmPlacement) : Bool :=
  entry.agentId = agentId && entry.lifecycle = .pending

def pendingCount (agentId : ActorId) (entries : List VmPlacement) : Nat :=
  entries.countP (isPendingOn agentId)

/-- The totals of a list of requests; an agent without requests has no entry. -/
def totals (requests : List Compute) : Option (U32 × U64) :=
  if requests.length = 0 then none
  else some (Saturating.clamp (requests.map fun request => request.vcpus.val).sum,
    Saturating.clamp (requests.map fun request => request.memoryBytes.val).sum)

theorem totals_snoc (requests : List Compute) (request : Compute) :
    some (Saturating.add ((totals requests).getD (0, 0)).1 request.vcpus,
        Saturating.add ((totals requests).getD (0, 0)).2 request.memoryBytes) =
      totals (requests ++ [request]) := by
  have hzero : ∀ {n : Nat} [NeZero n], (0 : Fin n) = Saturating.clamp 0 := by
    intro n _
    apply Fin.ext
    simp
  cases requests with
  | nil =>
    simp only [totals, List.length_nil, ↓reduceIte, Option.getD_none, List.nil_append,
      List.length_singleton, one_ne_zero, List.map_cons, List.map_nil, List.sum_cons,
      List.sum_nil]
    rw [hzero, hzero, Saturating.add_clamp, Saturating.add_clamp]
    simp
  | cons first rest => simp [totals, Saturating.add_clamp, Nat.add_assoc]

theorem get_addPending (manifest : VmManifest) (resources : PendingResources)
    (entry : VmPlacement) (agentId : ActorId) :
    (addPending manifest resources entry).get agentId =
      if isPendingOn agentId entry then
        some (Saturating.add ((resources.get agentId).getD (0, 0)).1 manifest.desired.compute.vcpus,
          Saturating.add ((resources.get agentId).getD (0, 0)).2
            manifest.desired.compute.memoryBytes)
      else resources.get agentId := by
  unfold addPending
  by_cases hpending : entry.lifecycle = .pending
  · rw [if_pos hpending, AHashMap.get_upsert]
    by_cases hagent : agentId = entry.agentId
    · simp [isPendingOn, hpending, hagent]
    · have hother : ¬ entry.agentId = agentId := fun h => hagent h.symm
      simp [isPendingOn, hagent, hother]
  · simp [isPendingOn, hpending]

/-- The requests the pending entries of one VM make of an agent. -/
def requestsOf (manifests : AHashMap Ulid VmManifest) (agentId : ActorId)
    (vm : Ulid × List VmPlacement) : List Compute :=
  (manifests.get vm.1).elim [] fun manifest =>
    List.replicate (pendingCount agentId vm.2) manifest.desired.compute

theorem get_foldl_addPending (manifest : VmManifest) (agentId : ActorId)
    (entries : List VmPlacement) (resources : PendingResources) (requests : List Compute)
    (h : resources.get agentId = totals requests) :
    (entries.foldl (addPending manifest) resources).get agentId =
      totals (requests ++
        List.replicate (pendingCount agentId entries) manifest.desired.compute) := by
  induction entries generalizing resources requests with
  | nil => simpa [pendingCount] using h
  | cons entry entries ih =>
    by_cases hpending : isPendingOn agentId entry = true
    · have hnext : (addPending manifest resources entry).get agentId =
          totals (requests ++ [manifest.desired.compute]) := by
        rw [get_addPending, if_pos hpending, h, totals_snoc]
      have hcount : pendingCount agentId (entry :: entries) = pendingCount agentId entries + 1 :=
        List.countP_cons_of_pos hpending
      rw [List.foldl_cons, ih _ _ hnext, hcount, List.replicate_succ, List.append_assoc,
        List.singleton_append]
    · have hnext : (addPending manifest resources entry).get agentId = totals requests := by
        rw [get_addPending, if_neg hpending, h]
      have hcount : pendingCount agentId (entry :: entries) = pendingCount agentId entries :=
        List.countP_cons_of_neg hpending
      rw [List.foldl_cons, ih _ _ hnext, hcount]

theorem get_foldl_addPlacements (manifests : AHashMap Ulid VmManifest) (agentId : ActorId)
    (vms : List (Ulid × List VmPlacement)) (resources : PendingResources)
    (requests : List Compute) (h : resources.get agentId = totals requests) :
    (vms.foldl (addPlacements manifests) resources).get agentId =
      totals (requests ++ vms.flatMap (requestsOf manifests agentId)) := by
  induction vms generalizing resources requests with
  | nil => simpa using h
  | cons vm vms ih =>
    rw [List.foldl_cons, List.flatMap_cons, ← List.append_assoc]
    apply ih
    rw [requestsOf, addPlacements]
    cases manifests.get vm.1 with
    | none => simpa using h
    | some manifest => exact get_foldl_addPending manifest agentId vm.2 resources requests h

theorem get_pendingResourcesByAgent (manifests : AHashMap Ulid VmManifest)
    (placements : AHashMap Ulid (List VmPlacement)) (agentId : ActorId) :
    (pendingResourcesByAgent manifests placements).get agentId =
      totals (placements.toList.flatMap (requestsOf manifests agentId)) := by
  have hempty : (AHashMap.empty : PendingResources).get agentId = totals [] := by
    simp [totals]
  simpa [pendingResourcesByAgent] using
    get_foldl_addPlacements manifests agentId placements.toList .empty [] hempty

/-! The totals as sums over the table. -/

/-- The summed demand of the pending placements on an agent, in a quantity `f`. -/
def load (manifests : AHashMap Ulid VmManifest) (placements : AHashMap Ulid (List VmPlacement))
    (agentId : ActorId) (f : Compute → Nat) : Nat :=
  ∑ vmid ∈ placements.keys, (manifests.get vmid).elim 0 fun manifest =>
    pendingCount agentId (entriesOf placements vmid) * f manifest.desired.compute

theorem sum_requests (manifests : AHashMap Ulid VmManifest)
    (placements : AHashMap Ulid (List VmPlacement)) (agentId : ActorId) (f : Compute → Nat) :
    ((placements.toList.flatMap (requestsOf manifests agentId)).map f).sum =
      load manifests placements agentId f := by
  have hflat : ∀ vms : List (Ulid × List VmPlacement),
      ((vms.flatMap (requestsOf manifests agentId)).map f).sum =
        (vms.map fun vm => (manifests.get vm.1).elim 0 fun manifest =>
          pendingCount agentId vm.2 * f manifest.desired.compute).sum := by
    intro vms
    induction vms with
    | nil => rfl
    | cons vm vms ih =>
      rw [List.flatMap_cons, List.map_append, List.sum_append, ih, List.map_cons, List.sum_cons,
        requestsOf]
      cases manifests.get vm.1 <;> simp
  rw [hflat, AHashMap.sum_toList placements fun vmid entries =>
    (manifests.get vmid).elim 0 fun manifest =>
      pendingCount agentId entries * f manifest.desired.compute]
  apply Finset.sum_congr rfl
  intro vmid hvmid
  obtain ⟨entries, hget⟩ := (AHashMap.mem_keys _ _).mp hvmid
  rw [hget, entriesOf, hget]
  rfl

/-- Enlarging the range of the sum adds VMs without placements. -/
theorem load_eq_sum {manifests : AHashMap Ulid VmManifest}
    {placements : AHashMap Ulid (List VmPlacement)} (agentId : ActorId) (f : Compute → Nat)
    {range : Finset Ulid} (h : placements.keys ⊆ range) :
    load manifests placements agentId f =
      ∑ vmid ∈ range, (manifests.get vmid).elim 0 fun manifest =>
        pendingCount agentId (entriesOf placements vmid) * f manifest.desired.compute := by
  apply Finset.sum_subset h
  intro vmid _ hnot
  have hempty : entriesOf placements vmid = [] := by
    apply entriesOf_of_not_contains
    rw [AHashMap.contains_iff, ← AHashMap.mem_keys]
    exact hnot
  rw [hempty]
  cases manifests.get vmid <;> simp [pendingCount]

theorem load_congr {manifests manifests' : AHashMap Ulid VmManifest}
    {placements placements' : AHashMap Ulid (List VmPlacement)}
    (hmanifests : manifests'.get = manifests.get)
    (hentries : ∀ vmid, entriesOf placements' vmid = entriesOf placements vmid)
    (agentId : ActorId) (f : Compute → Nat) :
    load manifests' placements' agentId f = load manifests placements agentId f := by
  have hleft : placements'.keys ⊆ placements'.keys ∪ placements.keys :=
    Finset.subset_union_left
  have hright : placements.keys ⊆ placements'.keys ∪ placements.keys :=
    Finset.subset_union_right
  rw [load_eq_sum agentId f hleft, load_eq_sum agentId f hright, hmanifests]
  simp only [hentries]

theorem pendingResourcesByAgent_eq_loads (manifests : AHashMap Ulid VmManifest)
    (placements : AHashMap Ulid (List VmPlacement)) (agentId : ActorId) :
    (pendingResourcesByAgent manifests placements).get agentId =
      if load manifests placements agentId (fun _ => 1) = 0 then none
      else some
        (Saturating.clamp (load manifests placements agentId fun request => request.vcpus.val),
          Saturating.clamp
            (load manifests placements agentId fun request => request.memoryBytes.val)) := by
  have hlength : (placements.toList.flatMap (requestsOf manifests agentId)).length =
      load manifests placements agentId fun _ => 1 := by
    rw [← sum_requests]
    simp
  rw [get_pendingResourcesByAgent, totals, hlength, sum_requests, sum_requests]

/-- Only the contents of the two tables matter to the totals. -/
theorem pendingResourcesByAgent_congr {manifests manifests' : AHashMap Ulid VmManifest}
    {placements placements' : AHashMap Ulid (List VmPlacement)}
    (hmanifests : manifests'.get = manifests.get)
    (hentries : ∀ vmid, entriesOf placements' vmid = entriesOf placements vmid) :
    (pendingResourcesByAgent manifests' placements').get =
      (pendingResourcesByAgent manifests placements).get := by
  funext agentId
  rw [pendingResourcesByAgent_eq_loads, pendingResourcesByAgent_eq_loads]
  simp only [load_congr hmanifests hentries]

/-! Coherence of the cache. -/

/-- A filled cache holds the totals of the current tables. -/
def Coherent (manifests : AHashMap Ulid VmManifest)
    (placements : AHashMap Ulid (List VmPlacement)) (cache : Option PendingResources) : Prop :=
  ∀ cached, cache = some cached →
    cached.get = (pendingResourcesByAgent manifests placements).get

theorem coherent_none (manifests : AHashMap Ulid VmManifest)
    (placements : AHashMap Ulid (List VmPlacement)) : Coherent manifests placements none := by
  simp [Coherent]

theorem pendingTotals_exact {s : SchedulerActor}
    (h : Coherent s.vmManifests s.vmPlacements s.pendingResourcesCache) :
    s.pendingTotals.get = (pendingResourcesByAgent s.vmManifests s.vmPlacements).get := by
  unfold pendingTotals
  split
  · next cached hcached => exact h cached hcached
  · rfl

theorem coherent_pendingResources {s : SchedulerActor}
    (h : Coherent s.vmManifests s.vmPlacements s.pendingResourcesCache) :
    Coherent s.vmManifests s.vmPlacements (some s.pendingTotals) := by
  intro cached hcached
  rw [← Option.some.inj hcached]
  exact pendingTotals_exact h

/-- The branch of a failed `tell` keeps the filled cache: it puts back the empty
list that was there before the reservation. -/
theorem coherent_recreate {env : Ulid → DispatchEnv} {s : SchedulerActor} {vm : Ulid × VmManifest}
    (h : Coherent s.vmManifests s.vmPlacements s.pendingResourcesCache)
    (unplaced : Unplaced s vm) :
    Coherent (s.recreate env vm).vmManifests (s.recreate env vm).vmPlacements
      (s.recreate env vm).pendingResourcesCache := by
  have hfilled := coherent_pendingResources h
  rw [recreate_eq]
  split
  · exact hfilled
  · next agent hagent =>
    split
    · exact coherent_none _ _
    · intro cached hcached
      rw [hfilled cached hcached]
      apply (pendingResourcesByAgent_congr rfl _).symm
      intro vmid
      change entriesOf ((s.vmPlacements.upsert vm.1 [] _).insert vm.1 []) vmid = _
      rw [entriesOf_insert, entriesOf_upsert]
      by_cases hvm : vmid = vm.1
      · rw [if_pos hvm, hvm]
        exact unplaced.empty.symm
      · rw [if_neg hvm, if_neg hvm]

theorem coherent_outcome {s t : SchedulerActor} {event : Event} (outcome : Outcome s event t)
    (h : Coherent s.vmManifests s.vmPlacements s.pendingResourcesCache) :
    Coherent t.vmManifests t.vmPlacements t.pendingResourcesCache := by
  cases outcome with
  | watch => exact h
  | vmUpdated actorRef data now =>
    rw [vmUpdated_eq]
    unfold reportedManifests reportedPlacements
    cases data.config with
    | none => exact h
    | some manifest => exact coherent_none _ _
  | vmLost event kinds id =>
    rw [cleanupVmActor_eq]
    exact coherent_none _ _
  | agentLost => exact coherent_none _ _
  | full => exact coherent_none _ _
  | delta => exact coherent_none _ _
  | tick now env =>
    exact (reconcile_rule
      (P := fun t => Coherent t.vmManifests t.vmPlacements t.pendingResourcesCache) s now env
      (coherent_none _ _) fun t vm ht hvm => coherent_recreate ht hvm).1
  | unscheduled => exact coherent_pendingResources (s := s) h
  | created msg env agent =>
    exact settleCreate_rule
      (P := fun t => Coherent t.vmManifests t.vmPlacements t.pendingResourcesCache)
      (coherent_none _ _) (fun _ _ _ _ => coherent_none _ _) (coherent_none _ _)
  | stopped => exact coherent_none _ _

theorem coherent_rehash {s t : SchedulerActor} (hr : Rehash s t)
    (h : Coherent s.vmManifests s.vmPlacements s.pendingResourcesCache) :
    Coherent t.vmManifests t.vmPlacements t.pendingResourcesCache := by
  intro cached hcached
  have hcaches := hr.pendingResourcesCache
  rw [hcached, Option.map_some, eq_comm, Option.map_eq_some_iff] at hcaches
  obtain ⟨before, hbefore, hget⟩ := hcaches
  rw [← hget, h before hbefore]
  apply (pendingResourcesByAgent_congr hr.vmManifests _).symm
  intro vmid
  exact entriesOf_congr (congrFun hr.vmPlacements vmid)

theorem reachable_coherent {s : SchedulerActor} (h : Reachable s) :
    Coherent s.vmManifests s.vmPlacements s.pendingResourcesCache := by
  apply h.rule (P := fun s => Coherent s.vmManifests s.vmPlacements s.pendingResourcesCache)
  · exact coherent_none _ _
  · exact fun s event t houtcome hs => coherent_outcome houtcome hs
  · exact fun s t hr hs => coherent_rehash hr hs

theorem coherent_of_call {s t : SchedulerActor} (h : Reachable s) {event : Event} {msg : CreateVM}
    (hcall : (t, msg) ∈ s.scheduleCalls event) :
    Coherent t.vmManifests t.vmPlacements t.pendingResourcesCache := by
  apply scheduleCalls_rule
    (P := fun t => Coherent t.vmManifests t.vmPlacements t.pendingResourcesCache)
    (reachable_coherent h) _ _ hcall
  · exact fun now => coherent_none _ _
  · exact fun env t vm ht hvm => coherent_recreate ht hvm

theorem pending_cache_exact {s : SchedulerActor} (h : Reachable s) :
    (∀ cached, s.pendingResourcesCache = some cached →
      cached.get = (pendingResourcesByAgent s.vmManifests s.vmPlacements).get) ∧
    ∀ event t msg, (t, msg) ∈ s.scheduleCalls event →
      t.pendingTotals.get = (pendingResourcesByAgent t.vmManifests t.vmPlacements).get :=
  ⟨reachable_coherent h, fun _ _ _ hcall => pendingTotals_exact (coherent_of_call h hcall)⟩

/-- A create that no agent can take leaves the cache filled. -/
theorem pending_cache_exact_unschedulable :
    let s := handleAll [reportsFull agentOne 0 [] 0, createsVm 5 1, .createVM
      ⟨6, { sampleManifest 6 with desired := { (sampleManifest 6).desired with
        compute := ⟨9, none, 512⟩ } }⟩ ⟨2, .ok ⟨none, none⟩, true⟩]
    ∃ cached, s.pendingResourcesCache = some cached ∧ cached.get agentOne = some (1, 512) ∧
      (pendingResourcesByAgent s.vmManifests s.vmPlacements).get agentOne = some (1, 512) := by
  intro s
  have hsome : s.pendingResourcesCache.isSome = true := by decide +kernel
  obtain ⟨cached, hcached⟩ := Option.isSome_iff_exists.mp hsome
  have hget : (s.pendingResourcesCache.bind fun cached => cached.get agentOne) =
      some (1, 512) := by decide +kernel
  have hcoherent := (pending_cache_exact (reachable_handleAll _)).1 cached hcached
  rw [hcached, Option.bind_some] at hget
  exact ⟨cached, hcached, hget, hcoherent ▸ hget⟩

end Odorobo.SchedulerActor
