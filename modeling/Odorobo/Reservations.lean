import Odorobo.AgentViews
import Odorobo.PlacementStore

/-! The life of a pending reservation. Every filter of the placement lists is
wide enough to keep it until it is confirmed, its time is over, its agent is
lost or its VM is stopped. -/

namespace Odorobo.SchedulerActor

/-- The VM has a pending placement on the agent, created at `created`. -/
def PendingAt (placements : AHashMap Ulid (List VmPlacement)) (vmid : Ulid) (agentId : ActorId)
    (created : Instant) : Prop :=
  ∃ entry ∈ entriesOf placements vmid,
    entry.agentId = agentId ∧ entry.lifecycle = .pending ∧ entry.createdAt = created

def RunningOn (placements : AHashMap Ulid (List VmPlacement)) (vmid : Ulid) (agentId : ActorId) :
    Prop :=
  ∃ entry ∈ entriesOf placements vmid, entry.agentId = agentId ∧ entry.lifecycle = .running

theorem PendingAt.congr {placements placements' : AHashMap Ulid (List VmPlacement)} {vmid : Ulid}
    {agentId : ActorId} {created : Instant} (h : PendingAt placements vmid agentId created)
    (heq : entriesOf placements' vmid = entriesOf placements vmid) :
    PendingAt placements' vmid agentId created := by
  unfold PendingAt
  rw [heq]
  exact h

/-- A filter that spares the pending entries of an agent keeps a reservation. -/
theorem PendingAt.filter {placements placements' : AHashMap Ulid (List VmPlacement)} {vmid : Ulid}
    {agentId : ActorId} {created : Instant} (h : PendingAt placements vmid agentId created)
    {p : VmPlacement → Bool} (heq : entriesOf placements' vmid = (entriesOf placements vmid).filter p)
    (spared : ∀ entry, entry.agentId = agentId → entry.lifecycle = .pending →
      entry.createdAt = created → p entry = true) :
    PendingAt placements' vmid agentId created := by
  obtain ⟨entry, hmem, hagent, hpending, hcreated⟩ := h
  refine ⟨entry, ?_, hagent, hpending, hcreated⟩
  rw [heq, List.mem_filter]
  exact ⟨hmem, spared entry hagent hpending hcreated⟩

/-! Confirmation. -/

/-- Once running, an entry stays running through further confirmations. -/
theorem exists_running_foldl {agentId : ActorId} (now : ActorId → Instant) (agents : List ActorId)
    {entries : List VmPlacement}
    (h : ∃ entry ∈ entries, entry.agentId = agentId ∧ entry.lifecycle = .running) :
    ∃ entry ∈ agents.foldl (fun entries other => confirmOrPush other (now other) entries) entries,
      entry.agentId = agentId ∧ entry.lifecycle = .running := by
  induction agents generalizing entries with
  | nil => exact h
  | cons other agents ih =>
    apply ih
    obtain ⟨entry, hmem, hagent, hrunning⟩ := h
    by_cases hother : agentId = other
    · rw [hother]
      exact exists_running_confirmOrPush other (now other) entries
    · have hne : entry.agentId ≠ other := fun heq => hother (hagent.symm.trans heq)
      exact ⟨entry, mem_confirmOrPush_of_ne hmem hne, hagent, hrunning⟩

theorem exists_running_of_mem {agentId : ActorId} (now : ActorId → Instant)
    {agents : List ActorId} (h : agentId ∈ agents) (entries : List VmPlacement) :
    ∃ entry ∈ agents.foldl (fun entries other => confirmOrPush other (now other) entries) entries,
      entry.agentId = agentId ∧ entry.lifecycle = .running := by
  induction agents generalizing entries with
  | nil => simp at h
  | cons other agents ih =>
    rw [List.foldl_cons]
    by_cases hother : agentId = other
    · apply exists_running_foldl
      rw [hother]
      exact exists_running_confirmOrPush other (now other) entries
    · exact ih (by simpa [hother] using h) _

theorem mem_foldl_confirm_of_ne {agentId : ActorId} (now : ActorId → Instant)
    {agents : List ActorId} (h : agentId ∉ agents) {entries : List VmPlacement}
    {entry : VmPlacement} (hmem : entry ∈ entries) (hagent : entry.agentId = agentId) :
    entry ∈ agents.foldl (fun entries other => confirmOrPush other (now other) entries) entries := by
  induction agents generalizing entries with
  | nil => exact hmem
  | cons other agents ih =>
    rw [List.mem_cons, not_or] at h
    exact ih h.2 (mem_confirmOrPush_of_ne hmem (hagent ▸ h.1))

/-- Confirmations by other agents keep an entry; one by its agent runs it. -/
theorem foldl_confirm_cases {agentId : ActorId} (now : ActorId → Instant) (agents : List ActorId)
    {entries : List VmPlacement} {entry : VmPlacement} (hmem : entry ∈ entries)
    (hagent : entry.agentId = agentId) :
    (agentId ∉ agents ∧
      entry ∈ agents.foldl (fun entries other => confirmOrPush other (now other) entries) entries) ∨
    (agentId ∈ agents ∧
      ∃ entry ∈ agents.foldl (fun entries other => confirmOrPush other (now other) entries) entries,
        entry.agentId = agentId ∧ entry.lifecycle = .running) := by
  by_cases h : agentId ∈ agents
  · exact Or.inr ⟨h, exists_running_of_mem now h entries⟩
  · exact Or.inl ⟨h, mem_foldl_confirm_of_ne now h hmem hagent⟩

/-! What releases a reservation. -/

inductive Released (s : SchedulerActor) (event : Event) (t : SchedulerActor) (vmid : Ulid)
    (agentId : ActorId) (created : Instant) : Prop where
  | confirmed (cached : CachedAgentActor) : RunningOn t.vmPlacements vmid agentId →
      t.agentDataCache.get agentId = some cached → vmid ∈ cached.data.vms →
      Released s event t vmid agentId created
  | expired (now : Instant) (env : Ulid → DispatchEnv) :
      event = .reconcileVmPlacements now env → created + seconds 120 ≤ now →
      isDiscovered s.vmDataCache vmid = false → Released s event t vmid agentId created
  | omitted (msg : AgentUpdated) (now : Instant) (revision : U64) (status : AgentStatus) :
      event = .agentUpdated msg now → msg.actorId = agentId →
      msg.update = .full revision status → vmid ∉ status.vms → created + seconds 120 ≤ now →
      Released s event t vmid agentId created
  | agentLost : event = .agentUpdaterStopped agentId ∨
        (event = .linkDied agentId ∧ s.actorKinds.get agentId = some .agent) →
      Released s event t vmid agentId created
  | stopped (env : StopEnv) : event = .deleteVM vmid env ∨ event = .shutdownVM vmid env →
      (s.stopVM vmid env).1 = .ok () → Released s event t vmid agentId created

theorem timeout_of_not_lt {now created : Nat}
    (h : ¬ durationSince now created < unresolvedVmCacheTimeout) : created + seconds 120 ≤ now := by
  unfold durationSince unresolvedVmCacheTimeout seconds at h
  unfold seconds
  omega

section Release

variable {s : SchedulerActor} {vmid : Ulid} {agentId : ActorId} {created : Instant}

theorem pending_vmUpdated (views : AgentViews s.agentDataCache s.agentVmIndex)
    (actorRef : RemoteActorRef .vm) (data : GetVMInfoReply) (now : ActorId → Instant)
    (h : PendingAt s.vmPlacements vmid agentId created) :
    PendingAt (s.vmUpdated actorRef data now).vmPlacements vmid agentId created ∨
      Released s (.vmUpdated actorRef data now) (s.vmUpdated actorRef data now) vmid agentId
        created := by
  have hentries := entriesOf_reportedPlacements s data now vmid
  rw [vmUpdated_eq]
  by_cases hreported : data.config.isSome = true ∧ vmid = data.vmid
  · rw [if_pos hreported] at hentries
    obtain ⟨entry, hmem, hagent, hpending, hcreated⟩ := h
    cases foldl_confirm_cases now (reportingAgents s.agentVmIndex data.vmid) hmem hagent with
    | inl hkept =>
      left
      refine ⟨entry, ?_, hagent, hpending, hcreated⟩
      dsimp only
      rw [hentries]
      exact hkept.2
    | inr hrun =>
      right
      obtain ⟨vmids, hindex, hmember⟩ := mem_reportingAgents.mp hrun.1
      obtain ⟨cached, hcached, hlisted⟩ := views.cached_of_indexed hindex hmember
      refine .confirmed cached ?_ hcached (hreported.2 ▸ hlisted)
      unfold RunningOn
      dsimp only
      rw [hentries]
      exact hrun.2
  · left
    exact h.congr (hentries.trans (if_neg hreported))

theorem pending_afterVmLoss (id : ActorId) (h : PendingAt s.vmPlacements vmid agentId created) :
    PendingAt (s.placementsAfterVmLoss id) vmid agentId created := by
  unfold placementsAfterVmLoss
  split
  · exact h
  · next lost hlost =>
    split
    · exact h
    · by_cases hvmid : vmid = lost
      · apply h.filter (by rw [entriesOf_modify, if_pos hvmid])
        intro entry _ hpending _
        simp [survivesVmLoss, hpending]
      · apply h.congr
        rw [entriesOf_modify, if_neg hvmid]

theorem pending_agentLost {event : Event} (kinds : AHashMap ActorId CachedActorKind) (id : ActorId)
    (hevent : event = .agentUpdaterStopped id ∨
      (event = .linkDied id ∧ s.actorKinds.get id = some .agent))
    (h : PendingAt s.vmPlacements vmid agentId created) :
    PendingAt (cleanupAgentActor { s with actorKinds := kinds } id).vmPlacements vmid agentId
        created ∨
      Released s event (cleanupAgentActor { s with actorKinds := kinds } id) vmid agentId
        created := by
  by_cases hid : agentId = id
  · right
    rw [hid]
    exact .agentLost hevent
  · left
    apply h.filter (entriesOf_removeAgentPlacements id _ s.vmPlacements vmid)
    intro entry hagent _ _
    simp [hagent, hid]

theorem pending_full (msg : AgentUpdated) (now : Instant) (revision : U64) (status : AgentStatus)
    (hupdate : msg.update = .full revision status)
    (h : PendingAt s.vmPlacements vmid agentId created) :
    PendingAt (s.acceptFull msg revision status now).vmPlacements vmid agentId created ∨
      Released s (.agentUpdated msg now) (s.acceptFull msg revision status now) vmid agentId
        created := by
  obtain ⟨entry, hmem, hagent, hpending, hcreated⟩ := h
  have hentries : entriesOf (s.acceptFull msg revision status now).vmPlacements vmid = _ :=
    entriesOf_reconcileAgentPlacements msg.actorId status now s.vmManifests s.vmPlacements vmid
  have hlater : ∀ entry' : VmPlacement,
      reconcileEntry msg.actorId now (decide (vmid ∈ status.vms)) entry = some entry' →
      entry' ∈ entriesOf (s.acceptFull msg revision status now).vmPlacements vmid := by
    intro entry' hsome
    rw [hentries, List.mem_filterMap]
    refine ⟨entry, ?_, hsome⟩
    split
    · exact List.mem_append_left _ hmem
    · exact hmem
  by_cases hid : agentId = msg.actorId
  · by_cases hlisted : vmid ∈ status.vms
    · right
      have hconfirm := hlater (confirm now entry) (by simp [reconcileEntry, hagent, hid, hlisted])
      exact .confirmed ⟨msg.actorRef, status, revision⟩ ⟨confirm now entry, hconfirm, hagent, rfl⟩
        (hid ▸ AHashMap.get_insert_self _ _ _) hlisted
    · by_cases hyoung : durationSince now entry.createdAt < unresolvedVmCacheTimeout
      · left
        have hkept := hlater entry (by
          simp [reconcileEntry, hagent, hid, hlisted, hpending, hyoung])
        exact ⟨entry, hkept, hagent, hpending, hcreated⟩
      · right
        rw [hcreated] at hyoung
        exact .omitted msg now revision status rfl hid.symm hupdate hlisted
          (timeout_of_not_lt hyoung)
  · left
    have hkept := hlater entry (by simp [reconcileEntry, hagent, hid])
    exact ⟨entry, hkept, hagent, hpending, hcreated⟩

theorem pending_delta (msg : AgentUpdated) (now : Instant) (cached : CachedAgentActor)
    (revision : U64) (added removed : List Ulid) (usedVcpus : U32) (usedRam : U64)
    (hupdate : msg.update = .delta revision added removed usedVcpus usedRam)
    (h : PendingAt s.vmPlacements vmid agentId created) :
    PendingAt (s.acceptDelta msg cached added removed now).vmPlacements vmid agentId created ∨
      Released s (.agentUpdated msg now) (s.acceptDelta msg cached added removed now) vmid agentId
        created := by
  have hentries : entriesOf (s.acceptDelta msg cached added removed now).vmPlacements vmid = _ :=
    entriesOf_reconcileAgentDelta msg.actorId added removed now s.vmManifests s.vmPlacements vmid
  have hdisjoint : vmid ∈ added → vmid ∉ removed := by
    have hmsg := msg.disjoint
    rw [hupdate] at hmsg
    exact hmsg vmid
  -- A removal spares pending entries, so only an addition can take the reservation away.
  by_cases hadded : vmid ∈ added ∧ s.vmManifests.contains vmid = true
  · rw [if_pos hadded, if_neg (hdisjoint hadded.1)] at hentries
    by_cases hid : agentId = msg.actorId
    · right
      obtain ⟨entry, hmem, hrun⟩ :=
        exists_running_confirmOrPush msg.actorId now (entriesOf s.vmPlacements vmid)
      have happlied : vmid ∈ (applyStatusUpdate cached.data msg.update).1.vms := by
        rw [hupdate]
        exact mem_applyMembership_of_added hadded.1
      have hcached : (s.acceptDelta msg cached added removed now).agentDataCache.get agentId =
          some ⟨msg.actorRef, (applyStatusUpdate cached.data msg.update).1,
            (applyStatusUpdate cached.data msg.update).2⟩ := by
        rw [hid]
        exact AHashMap.get_insert_self _ _ _
      exact .confirmed _ ⟨entry, hentries ▸ hmem, hid ▸ hrun⟩ hcached happlied
    · left
      obtain ⟨entry, hmem, hagent, hpending, hcreated⟩ := h
      have hne : entry.agentId ≠ msg.actorId := fun heq => hid (hagent.symm.trans heq)
      exact ⟨entry, hentries ▸ mem_confirmOrPush_of_ne hmem hne, hagent, hpending, hcreated⟩
  · left
    rw [if_neg hadded] at hentries
    by_cases hremoved : vmid ∈ removed
    · rw [if_pos hremoved] at hentries
      apply h.filter hentries
      intro entry _ hpending _
      simp [survivesRemoval, hpending]
    · rw [if_neg hremoved] at hentries
      exact h.congr hentries

/-- A VM with a reservation is not unplaced, so the loop does not touch it. -/
theorem pending_recreate {env : Ulid → DispatchEnv} {t : SchedulerActor} {vm : Ulid × VmManifest}
    (h : PendingAt t.vmPlacements vmid agentId created) (unplaced : Unplaced t vm) :
    PendingAt (t.recreate env vm).vmPlacements vmid agentId created := by
  by_cases hvm : vmid = vm.1
  · obtain ⟨entry, hmem, _⟩ := h
    have hempty : entriesOf t.vmPlacements vm.1 = [] := unplaced.empty
    rw [hvm, hempty] at hmem
    simp at hmem
  · exact h.congr (entriesOf_congr (recreate_vmPlacements_ne env t vm hvm))

theorem pending_tick (now : Instant) (env : Ulid → DispatchEnv)
    (h : PendingAt s.vmPlacements vmid agentId created) :
    PendingAt (s.reconcileVmPlacements now env).vmPlacements vmid agentId created ∨
      Released s (.reconcileVmPlacements now env) (s.reconcileVmPlacements now env) vmid agentId
        created := by
  by_cases hexpired : created + seconds 120 ≤ now ∧ isDiscovered s.vmDataCache vmid = false
  · exact Or.inr (.expired now env rfl hexpired.1 hexpired.2)
  · left
    have hkept : PendingAt (s.expireUnresolved now).vmPlacements vmid agentId created := by
      apply h.filter (entriesOf_cleanupUnresolved now s.vmPlacements s.vmDataCache vmid)
      intro entry _ _ hcreated
      unfold staysUnresolved
      rw [hcreated]
      by_cases hdiscovered : isDiscovered s.vmDataCache vmid = true
      · simp [hdiscovered]
      · have hyoung : durationSince now created < unresolvedVmCacheTimeout := by
          by_contra hold
          exact hexpired ⟨timeout_of_not_lt hold, by simpa using hdiscovered⟩
        simp [hyoung]
    exact (reconcile_rule (P := fun t => PendingAt t.vmPlacements vmid agentId created) s now env
      hkept fun t vm ht hvm => pending_recreate ht hvm).1

theorem pending_created (store : PlacementStore s.vmManifests s.vmPlacements) (msg : CreateVM)
    (env : CreateEnv) (chosen : ActorId) (unknown : s.vmManifests.get msg.vmid = none)
    (h : PendingAt s.vmPlacements vmid agentId created) :
    PendingAt ((s.pendingResources.reserveCreate msg chosen env.now).settleCreate msg env).vmPlacements
      vmid agentId created := by
  have hne : vmid ≠ msg.vmid := by
    intro heq
    obtain ⟨entry, hmem, _⟩ := h
    rw [heq, store.entriesOf_unknown unknown] at hmem
    simp at hmem
  exact h.congr (created_vmPlacements_ne s msg env chosen hne)

theorem pending_outcome {event : Event} {t : SchedulerActor} (outcome : Outcome s event t)
    (views : AgentViews s.agentDataCache s.agentVmIndex)
    (store : PlacementStore s.vmManifests s.vmPlacements)
    (h : PendingAt s.vmPlacements vmid agentId created) :
    PendingAt t.vmPlacements vmid agentId created ∨ Released s event t vmid agentId created := by
  cases outcome with
  | watch => exact Or.inl h
  | vmUpdated actorRef data now => exact pending_vmUpdated views actorRef data now h
  | vmLost event kinds id =>
    rw [cleanupVmActor_eq]
    exact Or.inl (pending_afterVmLoss (s := { s with actorKinds := kinds }) id h)
  | agentLost event kinds id hevent => exact pending_agentLost kinds id hevent h
  | full msg now revision status hupdate => exact pending_full msg now revision status hupdate h
  | delta msg now cached revision added removed usedVcpus usedRam _ _ hupdate =>
    exact pending_delta msg now cached revision added removed usedVcpus usedRam hupdate h
  | tick now env => exact pending_tick now env h
  | unscheduled => exact Or.inl h
  | created msg env agent unknown =>
    exact Or.inl (pending_created store msg env agent.id unknown h)
  | stopped event stopped env hevent hok =>
    by_cases hvmid : vmid = stopped
    · right
      subst hvmid
      exact .stopped env hevent hok
    · left
      apply h.congr
      exact (entriesOf_erase s.vmPlacements stopped vmid).trans (if_neg hvmid)

end Release

theorem reservation_never_dropped_early {s : SchedulerActor} (h : Reachable s) (event : Event)
    {vmid : Ulid} {agentId : ActorId} {created : Instant}
    (before : PendingAt s.vmPlacements vmid agentId created)
    (after : ∀ later, ¬ PendingAt (s.handle event).vmPlacements vmid agentId later) :
    Released s event (s.handle event) vmid agentId created := by
  have hcases := pending_outcome (handle_outcome s event) (reachable_agentViews h)
    (reachable_store h) before
  cases hcases with
  | inl hkept => exact absurd hkept (after created)
  | inr hreleased => exact hreleased

/-- A snapshot that still omits the VM after 120 s drops the reservation. -/
theorem reservation_never_dropped_early_omitted :
    let s := handleAll [reportsFull agentOne 0 [] 0, createsVm 5 1]
    PendingAt s.vmPlacements 5 agentOne 1 ∧
      Released s (reportsFull agentOne 1 [] (1 + seconds 120))
        (s.handle (reportsFull agentOne 1 [] (1 + seconds 120))) 5 agentOne 1 := by
  intro s
  have hbefore : PendingAt s.vmPlacements 5 agentOne 1 := by
    have hentries : entriesOf s.vmPlacements 5 = [pendingPlacement agentOne 1] := by
      decide +kernel
    exact ⟨pendingPlacement agentOne 1, by simp [hentries], rfl, rfl, rfl⟩
  have hafter : entriesOf (s.handle (reportsFull agentOne 1 [] (1 + seconds 120))).vmPlacements 5 =
      [] := by
    decide +kernel
  refine ⟨hbefore, reservation_never_dropped_early (reachable_handleAll _) _ hbefore ?_⟩
  intro later hpending
  obtain ⟨entry, hmem, _⟩ := hpending
  rw [hafter] at hmem
  simp at hmem

end Odorobo.SchedulerActor
