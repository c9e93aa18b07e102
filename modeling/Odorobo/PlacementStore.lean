import Odorobo.PlacementEffects

/-! The representation invariant of the placement store: placements exist only
for VMs with intent, an agent has at most one entry for a VM, and an entry is
pending and unconfirmed or running and confirmed. Uniqueness of the create
handler's unconditional push rests on the first clause. -/

namespace Odorobo

def VmPlacement.LifecycleOk (entry : VmPlacement) : Prop :=
  (entry.lifecycle = .pending ∧ entry.lastConfirmedAt = none) ∨
    (entry.lifecycle = .running ∧ ∃ t, entry.lastConfirmedAt = some t)

namespace SchedulerActor

structure WellPlaced (entries : List VmPlacement) : Prop where
  unique : (entries.map VmPlacement.agentId).Nodup
  lifecycle : ∀ entry ∈ entries, entry.LifecycleOk

theorem wellPlaced_nil : WellPlaced [] := ⟨by simp, by simp⟩

theorem lifecycleOk_confirmed (agentId : ActorId) (now : Instant) :
    (confirmedPlacement agentId now).LifecycleOk := Or.inr ⟨rfl, now, rfl⟩

theorem lifecycleOk_confirm (now : Instant) (entry : VmPlacement) :
    (confirm now entry).LifecycleOk := Or.inr ⟨rfl, now, rfl⟩

theorem lifecycleOk_pending (agentId : ActorId) (now : Instant) :
    (pendingPlacement agentId now).LifecycleOk := Or.inl ⟨rfl, rfl⟩

theorem WellPlaced.filter {entries : List VmPlacement} (h : WellPlaced entries)
    (p : VmPlacement → Bool) : WellPlaced (entries.filter p) where
  unique := (List.filter_sublist.map VmPlacement.agentId).nodup h.unique
  lifecycle entry hmem := h.lifecycle entry (List.mem_of_mem_filter hmem)

theorem WellPlaced.push {entries : List VmPlacement} (h : WellPlaced entries)
    {entry : VmPlacement} (ok : entry.LifecycleOk) (absent : hasAgent entry.agentId entries = false) :
    WellPlaced (entries ++ [entry]) where
  unique := by
    have habsent : ∀ other ∈ entries, other.agentId ≠ entry.agentId := by
      simpa [hasAgent] using absent
    rw [List.map_append, List.nodup_append]
    refine ⟨h.unique, by simp, ?_⟩
    intro a ha b hb
    obtain ⟨other, hother, rfl⟩ := List.mem_map.mp ha
    simp only [List.map_cons, List.map_nil, List.mem_singleton] at hb
    rw [hb]
    exact habsent other hother
  lifecycle other hmem := by
    rw [List.mem_append, List.mem_singleton] at hmem
    cases hmem with
    | inl hold => exact h.lifecycle other hold
    | inr hnew => exact hnew ▸ ok

theorem mem_map_confirmOrPush {agentId other : ActorId} {now : Instant}
    {entries : List VmPlacement}
    (h : other ∈ (confirmOrPush agentId now entries).map VmPlacement.agentId) :
    other = agentId ∨ other ∈ entries.map VmPlacement.agentId := by
  obtain ⟨entry, hmem, rfl⟩ := List.mem_map.mp h
  cases mem_confirmOrPush hmem with
  | inl hold => exact Or.inr (List.mem_map_of_mem hold)
  | inr hagent => exact Or.inl hagent

theorem WellPlaced.confirmOrPush {entries : List VmPlacement} (h : WellPlaced entries)
    (agentId : ActorId) (now : Instant) : WellPlaced (confirmOrPush agentId now entries) := by
  induction entries with
  | nil =>
    refine ⟨by simp [SchedulerActor.confirmOrPush], ?_⟩
    intro entry hmem
    rw [SchedulerActor.confirmOrPush, List.mem_singleton] at hmem
    exact hmem ▸ lifecycleOk_confirmed agentId now
  | cons first entries ih =>
    have hunique := h.unique
    rw [List.map_cons, List.nodup_cons] at hunique
    have hrest : WellPlaced entries :=
      ⟨hunique.2, fun entry hmem => h.lifecycle entry (List.mem_cons_of_mem first hmem)⟩
    by_cases heq : first.agentId = agentId
    · rw [SchedulerActor.confirmOrPush, if_pos heq]
      refine ⟨h.unique, ?_⟩
      intro entry hmem
      rw [List.mem_cons] at hmem
      cases hmem with
      | inl hfirst => exact hfirst ▸ lifecycleOk_confirm now first
      | inr hlater => exact hrest.lifecycle entry hlater
    · rw [SchedulerActor.confirmOrPush, if_neg heq]
      have hih := ih hrest
      refine ⟨?_, ?_⟩
      · rw [List.map_cons, List.nodup_cons]
        refine ⟨?_, hih.unique⟩
        intro hmem
        cases mem_map_confirmOrPush hmem with
        | inl hsame => exact heq hsame
        | inr hold => exact hunique.1 hold
      · intro entry hmem
        rw [List.mem_cons] at hmem
        cases hmem with
        | inl hfirst => exact hfirst ▸ h.lifecycle first List.mem_cons_self
        | inr hlater => exact hih.lifecycle entry hlater

theorem reconcileEntry_agentId {agentId : ActorId} {now : Instant} {observed : Bool}
    {entry entry' : VmPlacement} (h : reconcileEntry agentId now observed entry = some entry') :
    entry'.agentId = entry.agentId := by
  cases reconcileEntry_eq_some h with
  | inl heq => rw [heq]
  | inr hconfirmed => rw [hconfirmed.2.2]; rfl

theorem map_filterMap_sublist (agentId : ActorId) (now : Instant) (observed : Bool)
    (entries : List VmPlacement) :
    ((entries.filterMap (reconcileEntry agentId now observed)).map VmPlacement.agentId).Sublist
      (entries.map VmPlacement.agentId) := by
  induction entries with
  | nil => simp
  | cons entry entries ih =>
    rw [List.filterMap_cons]
    split
    · exact ih.cons _
    · next entry' h =>
      rw [List.map_cons, List.map_cons, reconcileEntry_agentId h]
      exact ih.cons_cons _

theorem WellPlaced.reconcile {entries : List VmPlacement} (h : WellPlaced entries)
    (agentId : ActorId) (now : Instant) (observed : Bool) :
    WellPlaced (entries.filterMap (reconcileEntry agentId now observed)) where
  unique := (map_filterMap_sublist agentId now observed entries).nodup h.unique
  lifecycle entry' hmem := by
    obtain ⟨entry, hentry, hsome⟩ := List.mem_filterMap.mp hmem
    cases reconcileEntry_eq_some hsome with
    | inl heq => exact heq ▸ h.lifecycle entry hentry
    | inr hconfirmed => exact hconfirmed.2.2 ▸ lifecycleOk_confirm now entry

/-! The store. -/

structure PlacementStore (manifests : AHashMap Ulid VmManifest)
    (placements : AHashMap Ulid (List VmPlacement)) : Prop where
  known : ∀ vmid, placements.contains vmid = true → manifests.contains vmid = true
  placed : ∀ vmid, WellPlaced (entriesOf placements vmid)

theorem entriesOf_of_not_contains {placements : AHashMap Ulid (List VmPlacement)} {vmid : Ulid}
    (h : ¬ placements.contains vmid = true) : entriesOf placements vmid = [] := by
  rw [Bool.not_eq_true, AHashMap.contains_eq_false] at h
  rw [entriesOf, h]
  rfl

theorem PlacementStore.entriesOf_unknown {manifests : AHashMap Ulid VmManifest}
    {placements : AHashMap Ulid (List VmPlacement)} (h : PlacementStore manifests placements)
    {vmid : Ulid} (unknown : manifests.get vmid = none) : entriesOf placements vmid = [] := by
  apply entriesOf_of_not_contains
  intro hcontains
  have hknown := h.known vmid hcontains
  rw [AHashMap.contains, unknown] at hknown
  simp at hknown

section Store

variable {manifests : AHashMap Ulid VmManifest} {placements : AHashMap Ulid (List VmPlacement)}

theorem PlacementStore.mapValues (h : PlacementStore manifests placements)
    (p : Ulid → VmPlacement → Bool) :
    PlacementStore manifests
      (placements.mapValues fun vmid entries => entries.filter (p vmid)) where
  known vmid hcontains := h.known vmid (by simpa using hcontains)
  placed vmid := by
    rw [entriesOf_mapValues_filter]
    exact (h.placed vmid).filter _

theorem PlacementStore.modify (h : PlacementStore manifests placements) (key : Ulid)
    (p : VmPlacement → Bool) :
    PlacementStore manifests (placements.modify key (List.filter p)) where
  known vmid hcontains := h.known vmid (by simpa using hcontains)
  placed vmid := by
    rw [entriesOf_modify]
    split
    · exact (h.placed vmid).filter p
    · exact h.placed vmid

/-- Writing a well-placed list for a VM with intent keeps the store. -/
theorem PlacementStore.insert (h : PlacementStore manifests placements) {key : Ulid}
    (known : manifests.contains key = true) {entries : List VmPlacement}
    (ok : WellPlaced entries) : PlacementStore manifests (placements.insert key entries) where
  known vmid hcontains := by
    rw [AHashMap.contains_insert, Bool.or_eq_true, decide_eq_true_eq] at hcontains
    cases hcontains with
    | inl heq => exact heq ▸ known
    | inr hold => exact h.known vmid hold
  placed vmid := by
    rw [entriesOf_insert]
    split
    · exact ok
    · exact h.placed vmid

theorem PlacementStore.erase (h : PlacementStore manifests placements) (key : Ulid) :
    PlacementStore (manifests.erase key) (placements.erase key) where
  known vmid hcontains := by
    rw [AHashMap.contains_erase, Bool.and_eq_true] at hcontains ⊢
    exact ⟨hcontains.1, h.known vmid hcontains.2⟩
  placed vmid := by
    rw [entriesOf_erase]
    split
    · exact wellPlaced_nil
    · exact h.placed vmid

theorem PlacementStore.learn (h : PlacementStore manifests placements) (key : Ulid)
    (manifest : VmManifest) : PlacementStore (manifests.insert key manifest) placements where
  known vmid hcontains := by
    rw [AHashMap.contains_insert, h.known vmid hcontains, Bool.or_true]
  placed := h.placed

theorem PlacementStore.delta (h : PlacementStore manifests placements) (agentId : ActorId)
    (added removed : List Ulid) (now : Instant) :
    PlacementStore manifests
      (reconcileAgentDelta agentId added removed now manifests placements) := by
  have hadded : PlacementStore manifests
      (added.foldl (reconcileAdded agentId now manifests) placements) := by
    induction added generalizing placements with
    | nil => exact h
    | cons key added ih =>
      apply ih
      unfold reconcileAdded
      split
      · next hknown =>
        exact h.insert hknown ((h.placed key).confirmOrPush agentId now)
      · exact h
  unfold reconcileAgentDelta
  generalize added.foldl (reconcileAdded agentId now manifests) placements = confirmed at hadded
  induction removed generalizing confirmed with
  | nil => exact hadded
  | cons key removed ih => exact ih _ (hadded.modify key _)

theorem PlacementStore.discovered (h : PlacementStore manifests placements) (vmid : Ulid)
    (now : ActorId → Instant) (agentVmIndex : AHashMap ActorId (Finset Ulid)) :
    PlacementStore manifests
      (reconcileDiscoveredVm vmid now agentVmIndex manifests placements) := by
  unfold reconcileDiscoveredVm
  dsimp only
  generalize (agentVmIndex.toList.filter _).map Prod.fst = agents
  induction agents generalizing placements with
  | nil => exact h
  | cons agentId agents ih => exact ih (h.delta agentId [vmid] [] (now agentId))

theorem contains_foldl_pushMissing {agentId : ActorId} {now : Instant} {missing : List Ulid}
    {vmid : Ulid} (h : (missing.foldl (pushMissing agentId now) placements).contains vmid = true) :
    vmid ∈ missing ∨ placements.contains vmid = true := by
  induction missing generalizing placements with
  | nil => exact Or.inr h
  | cons key missing ih =>
    have hrest := ih h
    rw [pushMissing, AHashMap.contains_upsert, Bool.or_eq_true, decide_eq_true_eq] at hrest
    rw [List.mem_cons]
    tauto

theorem PlacementStore.snapshot (h : PlacementStore manifests placements) (agentId : ActorId)
    (status : AgentStatus) (now : Instant) :
    PlacementStore manifests
      (reconcileAgentPlacements agentId status now manifests placements) where
  known vmid hcontains := by
    have hpushed := contains_foldl_pushMissing (AHashMap.contains_of_contains_filterMap hcontains)
    rw [SortedVec.mem_elements, Finset.mem_filter] at hpushed
    cases hpushed with
    | inl hmissing => exact hmissing.2.1
    | inr hold => exact h.known vmid hold
  placed vmid := by
    rw [entriesOf_reconcileAgentPlacements]
    apply WellPlaced.reconcile
    split
    · next hmissing =>
      exact (h.placed vmid).push (lifecycleOk_confirmed agentId now) hmissing.2.2
    · exact h.placed vmid

end Store

/-! Every event keeps it. -/

theorem store_afterVmLoss {s : SchedulerActor}
    (h : PlacementStore s.vmManifests s.vmPlacements) (id : ActorId) :
    PlacementStore s.vmManifests (s.placementsAfterVmLoss id) := by
  unfold placementsAfterVmLoss
  split
  · exact h
  · split
    · exact h
    · exact h.modify _ _

theorem store_recreate {env : Ulid → DispatchEnv} {s : SchedulerActor} {vm : Ulid × VmManifest}
    (h : PlacementStore s.vmManifests s.vmPlacements) (unplaced : Unplaced s vm) :
    PlacementStore (s.recreate env vm).vmManifests (s.recreate env vm).vmPlacements := by
  have hknown : s.vmManifests.contains vm.1 = true :=
    (AHashMap.contains_iff _ _).mpr ⟨vm.2, unplaced.intent⟩
  have hempty : (s.vmPlacements.get vm.1).getD [] = [] := unplaced.empty
  have hreserved : ∀ agentId now, PlacementStore s.vmManifests
      (s.vmPlacements.upsert vm.1 [] fun entries => entries ++ [pendingPlacement agentId now]) := by
    intro agentId now
    apply h.insert hknown
    rw [hempty]
    exact wellPlaced_nil.push (lifecycleOk_pending agentId now) rfl
  rw [recreate_eq]
  split
  · exact h
  · next agent hagent =>
    split
    · exact hreserved agent.id _
    · exact (hreserved agent.id (env vm.1).now).insert hknown wellPlaced_nil

theorem store_reserveCreate {s : SchedulerActor} (h : PlacementStore s.vmManifests s.vmPlacements)
    (msg : CreateVM) (unknown : s.vmManifests.get msg.vmid = none) (agentId : ActorId)
    (now : Instant) :
    PlacementStore (s.reserveCreate msg agentId now).vmManifests
      (s.reserveCreate msg agentId now).vmPlacements := by
  have hempty : (s.vmPlacements.get msg.vmid).getD [] = [] := h.entriesOf_unknown unknown
  apply (h.learn msg.vmid msg.config).insert
  · rw [AHashMap.contains_insert]
    simp
  · change WellPlaced ((s.vmPlacements.get msg.vmid).getD [] ++ _)
    rw [hempty]
    exact wellPlaced_nil.push (lifecycleOk_pending agentId now) rfl

theorem store_settleCreate {s : SchedulerActor} (h : PlacementStore s.vmManifests s.vmPlacements)
    (msg : CreateVM) (env : CreateEnv) :
    PlacementStore (s.settleCreate msg env).vmManifests (s.settleCreate msg env).vmPlacements :=
  settleCreate_rule (P := fun t => PlacementStore t.vmManifests t.vmPlacements) h
    (fun _ _ _ _ => h) (h.erase msg.vmid)

theorem store_outcome {s t : SchedulerActor} {event : Event} (outcome : Outcome s event t)
    (h : PlacementStore s.vmManifests s.vmPlacements) :
    PlacementStore t.vmManifests t.vmPlacements := by
  cases outcome with
  | watch => exact h
  | vmUpdated actorRef data now =>
    rw [vmUpdated_eq]
    unfold reportedManifests reportedPlacements
    cases data.config with
    | none => exact h
    | some manifest =>
      exact (h.learn data.vmid manifest).discovered data.vmid now s.agentVmIndex
  | vmLost event kinds id =>
    rw [cleanupVmActor_eq]
    exact store_afterVmLoss (s := { s with actorKinds := kinds }) h id
  | agentLost event kinds id =>
    exact h.mapValues fun vmid entry =>
      entry.agentId ≠ id || vmid ∈ s.reachableVmids id
  | full msg now revision status => exact h.snapshot msg.actorId status now
  | delta msg now cached revision added removed =>
    exact h.delta msg.actorId added removed now
  | tick now env =>
    apply (reconcile_rule
      (P := fun t => PlacementStore t.vmManifests t.vmPlacements) s now env ?_ ?_).1
    · exact h.mapValues fun vmid => staysUnresolved now (isDiscovered s.vmDataCache vmid)
    · exact fun t vm ht hvm => store_recreate ht hvm
  | unscheduled => exact h
  | created msg env agent unknown =>
    exact store_settleCreate
      (store_reserveCreate (s := s.pendingResources) h msg unknown agent.id env.now) msg env
  | stopped event vmid => exact h.erase vmid

theorem store_rehash {s t : SchedulerActor} (hr : Rehash s t)
    (h : PlacementStore s.vmManifests s.vmPlacements) :
    PlacementStore t.vmManifests t.vmPlacements where
  known vmid := by
    have hknown := h.known vmid
    rw [AHashMap.contains, AHashMap.contains, hr.vmPlacements, hr.vmManifests]
    exact hknown
  placed vmid := by
    rw [entriesOf, hr.vmPlacements]
    exact h.placed vmid

theorem reachable_store {s : SchedulerActor} (h : Reachable s) :
    PlacementStore s.vmManifests s.vmPlacements := by
  apply h.rule (P := fun s => PlacementStore s.vmManifests s.vmPlacements)
  · exact ⟨by simp [onStart, AHashMap.contains], fun _ => wellPlaced_nil⟩
  · exact fun s event t houtcome hs => store_outcome houtcome hs
  · exact fun s t hr hs => store_rehash hr hs

theorem placement_store_invariant {s : SchedulerActor} (h : Reachable s) :
    (∀ vmid, s.vmPlacements.contains vmid = true → s.vmManifests.contains vmid = true) ∧
      ∀ vmid entries, s.vmPlacements.get vmid = some entries →
        (entries.map VmPlacement.agentId).Nodup ∧
          ∀ entry ∈ entries,
            (entry.lifecycle = .pending ∧ entry.lastConfirmedAt = none) ∨
              (entry.lifecycle = .running ∧ ∃ t, entry.lastConfirmedAt = some t) := by
  have hstore := reachable_store h
  refine ⟨hstore.known, ?_⟩
  intro vmid entries hget
  have hplaced := hstore.placed vmid
  rw [entriesOf, hget, Option.getD_some] at hplaced
  exact ⟨hplaced.unique, hplaced.lifecycle⟩

/-- A VM pending on one agent is discovered on another: both entries are there. -/
theorem placement_store_invariant_two_agents :
    let s := handleAll [reportsFull agentOne 0 [] 0, createsVm 5 1, reportsFull agentTwo 3 [5] 2]
    s.vmPlacements.get 5 = some [pendingPlacement agentOne 1, confirmedPlacement agentTwo 2] ∧
      ((s.placementsOf 5).map VmPlacement.agentId).Nodup := by
  intro s
  have hentries : s.vmPlacements.get 5 =
      some [pendingPlacement agentOne 1, confirmedPlacement agentTwo 2] := by
    decide +kernel
  have hunique := ((placement_store_invariant (reachable_handleAll _)).2 5 _ hentries).1
  refine ⟨hentries, ?_⟩
  rw [placementsOf, hentries]
  exact hunique

end SchedulerActor

end Odorobo
