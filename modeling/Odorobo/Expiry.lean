import Odorobo.AgentUpdates
import Odorobo.RunningPlacements

/-! What a periodic tick leaves behind. Pending placements expire at the tick
itself. Running ones do not: their expiry is decided only while a full snapshot
is handled, and one that is omitted there within its grace period is unlisted
from then on and never looked at again. -/

namespace Odorobo.SchedulerActor

/-- A running placement on a cached agent that no longer reports the VM. -/
structure StaleRunning (now : Instant) (s : SchedulerActor) (vmid : Ulid) (entry : VmPlacement) :
    Prop where
  running : entry.lifecycle = .running
  cached : s.agentDataCache.contains entry.agentId = true
  unlisted : vmid ∉ s.indexOf entry.agentId
  unconfirmed : ∃ confirmed, entry.lastConfirmedAt = some confirmed ∧
    unconfirmedRunningPlacementTimeout ≤ durationSince now confirmed

/-- An old reservation of a VM without a discovered actor. -/
structure StalePending (now : Instant) (s : SchedulerActor) (vmid : Ulid) (entry : VmPlacement) :
    Prop where
  pending : entry.lifecycle = .pending
  undiscovered : isDiscovered s.vmDataCache vmid = false
  unresolved : unresolvedVmCacheTimeout ≤ durationSince now entry.createdAt

/-- Whenever a tick is handled in this state, no placement that it found and
left is stale. The clock does not go back while it is handled. -/
def Expires (s : SchedulerActor) : Prop :=
  ∀ now env, (∀ vmid, now ≤ (env vmid).now) →
    ∀ vmid, ∀ entry ∈ s.placementsOf vmid,
      entry ∈ (s.reconcileVmPlacements now env).placementsOf vmid →
        ¬ StaleRunning now (s.reconcileVmPlacements now env) vmid entry ∧
          ¬ StalePending now (s.reconcileVmPlacements now env) vmid entry

/-- A snapshot that is accepted leaves out only VMs whose running placement on
the agent has gone without confirmation for the grace period. -/
def OmitsUnconfirmedOnly (s : SchedulerActor) (action : Action) : Prop :=
  ∀ msg now revision status, action = .handle (.agentUpdated msg now) →
    msg.update = .full revision status → s.accepts msg = true →
    ∀ vmid, ∀ entry ∈ s.placementsOf vmid, entry.agentId = msg.actorId →
      entry.lifecycle = .running → vmid ∉ status.vms →
        ∀ confirmed, entry.lastConfirmedAt = some confirmed →
          unconfirmedRunningPlacementTimeout ≤ durationSince now confirmed

/-! The loop of a tick, VM by VM. -/

/-- A VM that was placed is left alone; one that was not gets at most the
reservation pushed for it. -/
structure Replaced (env : Ulid → DispatchEnv) (s t : SchedulerActor) (vmid : Ulid) : Prop where
  placed : s.placementsOf vmid ≠ [] → t.placementsOf vmid = s.placementsOf vmid ∧
    t.vmDataCache.get vmid = s.vmDataCache.get vmid
  unplaced : s.placementsOf vmid = [] → ∀ entry ∈ t.placementsOf vmid,
    ∃ agentId, entry = pendingPlacement agentId (env vmid).now

theorem mem_placementsOf_recreate {env : Ulid → DispatchEnv} {s : SchedulerActor}
    {vm : Ulid × VmManifest} (unplaced : Unplaced s vm) {entry : VmPlacement}
    (h : entry ∈ (s.recreate env vm).placementsOf vm.1) :
    ∃ agentId, entry = pendingPlacement agentId (env vm.1).now := by
  have hempty : entriesOf s.vmPlacements vm.1 = [] := unplaced.empty
  rw [placementsOf_eq, recreate_eq] at h
  split at h
  · rw [show s.pendingResources.vmPlacements = s.vmPlacements from rfl, hempty] at h
    simp at h
  · next agent hbest =>
    refine ⟨agent.id, ?_⟩
    split at h
    · change entry ∈ entriesOf (s.vmPlacements.upsert vm.1 [] _) vm.1 at h
      rw [entriesOf_upsert, if_pos rfl, hempty] at h
      simpa using h
    · rw [entriesOf_insert, if_pos rfl] at h
      simp at h

theorem Replaced.recreate {env : Ulid → DispatchEnv} {s t : SchedulerActor} {vmid : Ulid}
    (h : Replaced env s t vmid) {vm : Ulid × VmManifest} (unplaced : Unplaced t vm) :
    Replaced env s (t.recreate env vm) vmid := by
  by_cases hvm : vmid = vm.1
  · subst hvm
    refine ⟨?_, fun _ entry hentry => mem_placementsOf_recreate unplaced hentry⟩
    intro hplaced
    have hsame := (h.placed hplaced).1
    rw [unplaced.empty] at hsame
    exact absurd hsame.symm hplaced
  · have hentries : (t.recreate env vm).placementsOf vmid = t.placementsOf vmid :=
      entriesOf_congr (recreate_vmPlacements_ne env t vm hvm)
    refine ⟨?_, ?_⟩
    · intro hplaced
      rw [hentries, recreate_vmDataCache_ne env t vm hvm]
      exact h.placed hplaced
    · rw [hentries]
      exact h.unplaced

theorem replaced_reconcile (s : SchedulerActor) (now : Instant) (env : Ulid → DispatchEnv)
    (vmid : Ulid) :
    Replaced env (s.expireUnresolved now) (s.reconcileVmPlacements now env) vmid := by
  apply (reconcile_rule (P := fun t => Replaced env (s.expireUnresolved now) t vmid) s now env
    ?_ fun t vm ht hvm => ht.recreate hvm).1
  refine ⟨fun _ => ⟨rfl, rfl⟩, ?_⟩
  intro hempty entry hentry
  rw [hempty] at hentry
  simp at hentry

theorem isDiscovered_expired (s : SchedulerActor) (now : Instant) (vmid : Ulid) :
    isDiscovered (s.expireUnresolved now).vmDataCache vmid = isDiscovered s.vmDataCache vmid :=
  isDiscovered_congr fun actorId =>
    occurrences_expired s.vmDataCache vmid actorId now s.vmPlacements

theorem placementsOf_expired (s : SchedulerActor) (now : Instant) (vmid : Ulid) :
    (s.expireUnresolved now).placementsOf vmid =
      (s.placementsOf vmid).filter (staysUnresolved now (isDiscovered s.vmDataCache vmid)) :=
  entriesOf_cleanupUnresolved now s.vmPlacements s.vmDataCache vmid

/-- A placement pushed by the loop is younger than the tick. -/
theorem durationSince_eq_zero {now created : Nat} (h : now ≤ created) :
    durationSince now created = 0 := by
  unfold durationSince
  omega

theorem not_stalePending {s : SchedulerActor} {now : Instant} {env : Ulid → DispatchEnv}
    (clock : ∀ vmid, now ≤ (env vmid).now) {vmid : Ulid} {entry : VmPlacement}
    (hleft : entry ∈ (s.reconcileVmPlacements now env).placementsOf vmid) :
    ¬ StalePending now (s.reconcileVmPlacements now env) vmid entry := by
  intro hstale
  have hold := hstale.unresolved
  by_cases hempty : (s.expireUnresolved now).placementsOf vmid = []
  · obtain ⟨agentId, rfl⟩ := (replaced_reconcile s now env vmid).unplaced hempty entry hleft
    have hyoung : durationSince now (pendingPlacement agentId (env vmid).now).createdAt = 0 :=
      durationSince_eq_zero (clock vmid)
    rw [hyoung] at hold
    exact absurd hold (by decide)
  · obtain ⟨hsame, hdata⟩ := (replaced_reconcile s now env vmid).placed hempty
    have hundiscovered : isDiscovered s.vmDataCache vmid = false := by
      rw [← isDiscovered_expired s now vmid, isDiscovered, ← hdata]
      exact hstale.undiscovered
    rw [hsame, placementsOf_expired, List.mem_filter] at hleft
    have hkept := hleft.2
    rw [staysUnresolved, hstale.pending, hundiscovered] at hkept
    have hrecent : durationSince now entry.createdAt < unresolvedVmCacheTimeout := by
      simpa using hkept
    exact absurd hold (not_le.mpr hrecent)

/-- A tick does not touch running placements. -/
theorem mem_reconcile_of_running {s : SchedulerActor} {now : Instant} {env : Ulid → DispatchEnv}
    {vmid : Ulid} {entry : VmPlacement} (h : entry ∈ s.placementsOf vmid)
    (running : entry.lifecycle = .running) :
    entry ∈ (s.reconcileVmPlacements now env).placementsOf vmid := by
  have hexpired : entry ∈ (s.expireUnresolved now).placementsOf vmid := by
    rw [placementsOf_expired, List.mem_filter]
    exact ⟨h, by simp [staysUnresolved, running]⟩
  rw [((replaced_reconcile s now env vmid).placed (List.ne_nil_of_mem hexpired)).1]
  exact hexpired

/-! Running placements are listed. -/

/-- A running placement on a cached agent is in the index of the agent. -/
def Accounted (placements : AHashMap Ulid (List VmPlacement))
    (cache : AHashMap ActorId CachedAgentActor) (index : AHashMap ActorId (Finset Ulid)) : Prop :=
  ∀ vmid, ∀ entry ∈ entriesOf placements vmid, entry.lifecycle = .running →
    cache.contains entry.agentId = true → vmid ∈ (index.get entry.agentId).getD ∅

theorem expires_of_accounted {s : SchedulerActor}
    (h : Accounted s.vmPlacements s.agentDataCache s.agentVmIndex) : Expires s := by
  intro now env clock vmid entry hbefore hleft
  refine ⟨?_, not_stalePending clock hleft⟩
  intro hstale
  have hframe := reconcile_frame s now env
  have hcached := hstale.cached
  have hunlisted := hstale.unlisted
  rw [indexOf, hframe.agentVmIndex] at hunlisted
  rw [hframe.agentDataCache] at hcached
  exact hunlisted (h vmid entry hbefore hstale.running hcached)

section Accounting

variable {placements placements' : AHashMap Ulid (List VmPlacement)}
  {cache cache' : AHashMap ActorId CachedAgentActor} {index index' : AHashMap ActorId (Finset Ulid)}

/-- The views of agents stay and no running entry is new. -/
theorem Accounted.shrink (h : Accounted placements cache index)
    (hentries : ∀ vmid, ∀ entry ∈ entriesOf placements' vmid, entry.lifecycle = .running →
      entry ∈ entriesOf placements vmid) : Accounted placements' cache index :=
  fun vmid entry hmem hrunning => h vmid entry (hentries vmid entry hmem hrunning) hrunning

/-- The views of one agent are replaced. -/
theorem Accounted.replace (h : Accounted placements cache index) (key : ActorId)
    (cached : CachedAgentActor) (vmids : Finset Ulid)
    (hentries : ∀ vmid, ∀ entry ∈ entriesOf placements' vmid, entry.lifecycle = .running →
      if entry.agentId = key then vmid ∈ vmids else entry ∈ entriesOf placements vmid) :
    Accounted placements' (cache.insert key cached) (index.insert key vmids) := by
  intro vmid entry hmem hrunning hcontains
  have hentry := hentries vmid entry hmem hrunning
  rw [AHashMap.get_insert]
  by_cases hkey : entry.agentId = key
  · rw [if_pos hkey] at hentry ⊢
    exact hentry
  · rw [if_neg hkey] at hentry ⊢
    rw [AHashMap.contains, AHashMap.get_insert_ne _ _ hkey] at hcontains
    exact h vmid entry hentry hrunning hcontains

theorem Accounted.lose (h : Accounted placements cache index) (key : ActorId)
    (hentries : ∀ vmid, ∀ entry ∈ entriesOf placements' vmid, entry ∈ entriesOf placements vmid) :
    Accounted placements' (cache.erase key) (index.erase key) := by
  intro vmid entry hmem hrunning hcontains
  rw [AHashMap.contains_erase, Bool.and_eq_true, decide_eq_true_eq] at hcontains
  rw [AHashMap.get_erase_ne _ hcontains.1]
  exact h vmid entry (hentries vmid entry hmem) hrunning hcontains.2

theorem Accounted.stop (h : Accounted placements cache index) (key : Ulid) :
    Accounted (placements.erase key) cache (index.mapValues fun _ vmids => vmids.erase key) := by
  intro vmid entry hmem hrunning hcontains
  rw [entriesOf_erase] at hmem
  by_cases hkey : vmid = key
  · simp [hkey] at hmem
  · rw [if_neg hkey] at hmem
    have hlisted := h vmid entry hmem hrunning hcontains
    rw [AHashMap.get_mapValues]
    cases hget : index.get entry.agentId with
    | none => simp [hget] at hlisted
    | some vmids =>
      rw [hget, Option.getD_some] at hlisted
      exact Finset.mem_erase.mpr ⟨hkey, hlisted⟩

end Accounting

section Steps

variable {s : SchedulerActor}

theorem accounted_vmUpdated (data : GetVMInfoReply) (now : ActorId → Instant)
    (h : Accounted s.vmPlacements s.agentDataCache s.agentVmIndex) :
    Accounted (s.reportedPlacements data now) s.agentDataCache s.agentVmIndex := by
  intro vmid entry hmem hrunning hcached
  cases mem_reportedPlacements hmem with
  | inl hold => exact h vmid entry hold hrunning hcached
  | inr hreported =>
    obtain ⟨vmids, hindex, hlisted⟩ := hreported
    rw [hindex]
    exact hlisted

theorem mem_placementsAfterVmLoss {id : ActorId} {vmid : Ulid} {entry : VmPlacement}
    (h : entry ∈ entriesOf (s.placementsAfterVmLoss id) vmid) :
    entry ∈ entriesOf s.vmPlacements vmid := by
  unfold placementsAfterVmLoss at h
  split at h
  · exact h
  · split at h
    · exact h
    · rw [entriesOf_modify] at h
      split at h
      · exact List.mem_of_mem_filter h
      · exact h

/-- What a snapshot keeps of an entry it does not report: another agent's, one
still pending, or one within its grace period. -/
theorem omitted_of_reconcileEntry {agentId : ActorId} {now : Instant} {entry entry' : VmPlacement}
    (h : reconcileEntry agentId now false entry = some entry') (hagent : entry.agentId = agentId)
    (running : entry.lifecycle = .running) :
    ∃ confirmed, entry.lastConfirmedAt = some confirmed ∧
      durationSince now confirmed < unconfirmedRunningPlacementTimeout := by
  simp only [reconcileEntry, hagent, running, ne_eq, not_true_eq_false, if_false,
    Bool.false_eq_true, Option.ite_none_right_eq_some] at h
  simpa [Option.any_eq_true] using h.1

theorem accounted_full (msg : AgentUpdated) (revision : U64) (status : AgentStatus) (now : Instant)
    (h : Accounted s.vmPlacements s.agentDataCache s.agentVmIndex)
    (omits : ∀ vmid, ∀ entry ∈ s.placementsOf vmid, entry.agentId = msg.actorId →
      entry.lifecycle = .running → vmid ∉ status.vms →
        ∀ confirmed, entry.lastConfirmedAt = some confirmed →
          unconfirmedRunningPlacementTimeout ≤ durationSince now confirmed) :
    Accounted (s.acceptFull msg revision status now).vmPlacements
      (s.acceptFull msg revision status now).agentDataCache
      (s.acceptFull msg revision status now).agentVmIndex := by
  apply h.replace msg.actorId
  intro vmid entry hmem hrunning
  rw [acceptFull, entriesOf_reconcileAgentPlacements, List.mem_filterMap] at hmem
  obtain ⟨before, hbefore, hsome⟩ := hmem
  by_cases hlisted : vmid ∈ status.vms
  · split
    · exact List.mem_toFinset.mpr hlisted
    · next hother =>
      -- An entry of another agent is neither confirmed nor new.
      cases reconcileEntry_eq_some hsome with
      | inr hconfirmed =>
        have hagent : entry.agentId = msg.actorId := by
          rw [hconfirmed.2.2]
          exact hconfirmed.1
        exact absurd hagent hother
      | inl heq =>
        rw [heq] at hother ⊢
        split at hbefore
        · cases List.mem_append.mp hbefore with
          | inl hold => exact hold
          | inr hnew =>
            rw [List.mem_singleton.mp hnew] at hother
            exact absurd rfl hother
        · exact hbefore
  · rw [if_neg (fun hmissing => hlisted hmissing.1)] at hbefore
    rw [decide_eq_false hlisted] at hsome
    have heq : entry = before := by
      cases reconcileEntry_eq_some hsome with
      | inl heq => exact heq
      | inr hconfirmed => simp at hconfirmed
    subst heq
    split
    · next hagent =>
      obtain ⟨confirmed, hconfirmed, hrecent⟩ := omitted_of_reconcileEntry hsome hagent hrunning
      have hold := omits vmid entry hbefore hagent hrunning hlisted confirmed hconfirmed
      exact absurd hold (not_le.mpr hrecent)
    · exact hbefore

theorem accounted_delta (msg : AgentUpdated) (cached : CachedAgentActor)
    (added removed : List Ulid) (now : Instant)
    (hcached : s.agentDataCache.get msg.actorId = some cached)
    (h : Accounted s.vmPlacements s.agentDataCache s.agentVmIndex) :
    Accounted (s.acceptDelta msg cached added removed now).vmPlacements
      (s.acceptDelta msg cached added removed now).agentDataCache
      (s.acceptDelta msg cached added removed now).agentVmIndex := by
  have hknown : s.agentDataCache.contains msg.actorId = true :=
    (AHashMap.contains_iff _ _).mpr ⟨cached, hcached⟩
  apply h.replace msg.actorId
  intro vmid entry hmem hrunning
  rw [acceptDelta, entriesOf_reconcileAgentDelta] at hmem
  by_cases hremoved : vmid ∈ removed
  · rw [if_pos hremoved, List.mem_filter] at hmem
    have hother : entry.agentId ≠ msg.actorId := by
      simpa [survivesRemoval, hrunning] using hmem.2
    rw [if_neg hother]
    split at hmem
    · exact (mem_confirmOrPush hmem.1).resolve_right hother
    · exact hmem.1
  · rw [if_neg hremoved] at hmem
    rw [Finset.mem_sdiff, Finset.mem_union, List.mem_toFinset, List.mem_toFinset]
    split at hmem
    · next hadded =>
      split
      · exact ⟨Or.inr hadded.1, hremoved⟩
      · next hother => exact (mem_confirmOrPush hmem).resolve_right hother
    · split
      · next hagent =>
        have hlisted := h vmid entry hmem hrunning (hagent ▸ hknown)
        rw [hagent] at hlisted
        exact ⟨Or.inl hlisted, hremoved⟩
      · exact hmem

/-- The loop and a create push pending entries only. -/
theorem mem_reserved_running {key vmid : Ulid} {agentId : ActorId} {now : Instant}
    {placements : AHashMap Ulid (List VmPlacement)} {entry : VmPlacement}
    (h : entry ∈ entriesOf (placements.upsert key [] fun entries =>
      entries ++ [pendingPlacement agentId now]) vmid) (running : entry.lifecycle = .running) :
    entry ∈ entriesOf placements vmid := by
  rw [entriesOf_upsert] at h
  split at h
  · rw [List.mem_append, List.mem_singleton] at h
    cases h with
    | inl hold => exact hold
    | inr hnew => simp [hnew, pendingPlacement] at running
  · exact h

theorem mem_created_running {msg : CreateVM} {env : CreateEnv} {agentId : ActorId} {vmid : Ulid}
    {entry : VmPlacement}
    (h : entry ∈ entriesOf ((s.pendingResources.reserveCreate msg agentId env.now).settleCreate msg
      env).vmPlacements vmid) (running : entry.lifecycle = .running) :
    entry ∈ entriesOf s.vmPlacements vmid := by
  revert h
  apply settleCreate_rule (P := fun t =>
    entry ∈ entriesOf t.vmPlacements vmid → entry ∈ entriesOf s.vmPlacements vmid)
  · exact fun h => mem_reserved_running h running
  · exact fun _ _ _ _ h => mem_reserved_running h running
  · intro h
    change entry ∈ entriesOf (AHashMap.erase _ msg.vmid) vmid at h
    rw [entriesOf_erase] at h
    split at h
    · simp at h
    · exact mem_reserved_running h running

theorem mem_reconcile_running {now : Instant} {env : Ulid → DispatchEnv} {vmid : Ulid}
    {entry : VmPlacement} (h : entry ∈ (s.reconcileVmPlacements now env).placementsOf vmid)
    (running : entry.lifecycle = .running) : entry ∈ s.placementsOf vmid := by
  have hloop := replaced_reconcile s now env vmid
  by_cases hempty : (s.expireUnresolved now).placementsOf vmid = []
  · obtain ⟨agentId, rfl⟩ := hloop.unplaced hempty entry h
    simp [pendingPlacement] at running
  · rw [(hloop.placed hempty).1, placementsOf_expired] at h
    exact List.mem_of_mem_filter h

theorem accounted_outcome {t : SchedulerActor} {event : Event} (outcome : Outcome s event t)
    (h : Accounted s.vmPlacements s.agentDataCache s.agentVmIndex)
    (omits : ∀ msg now revision status, event = .agentUpdated msg now →
      msg.update = .full revision status →
      ∀ vmid, ∀ entry ∈ s.placementsOf vmid, entry.agentId = msg.actorId →
        entry.lifecycle = .running → vmid ∉ status.vms →
          ∀ confirmed, entry.lastConfirmedAt = some confirmed →
            unconfirmedRunningPlacementTimeout ≤ durationSince now confirmed) :
    Accounted t.vmPlacements t.agentDataCache t.agentVmIndex := by
  cases outcome with
  | watch => exact h
  | vmUpdated actorRef data now =>
    rw [vmUpdated_eq]
    exact accounted_vmUpdated data now h
  | vmLost event kinds id =>
    rw [cleanupVmActor_eq]
    exact h.shrink fun vmid entry hmem _ =>
      mem_placementsAfterVmLoss (s := { s with actorKinds := kinds }) hmem
  | agentLost event kinds id =>
    apply h.lose id
    intro vmid entry hmem
    rw [cleanupAgentActor, entriesOf_removeAgentPlacements] at hmem
    exact List.mem_of_mem_filter hmem
  | full msg now revision status hupdate =>
    exact accounted_full msg revision status now h (omits msg now revision status rfl hupdate)
  | delta msg now cached revision added removed usedVcpus usedRam hcached =>
    exact accounted_delta msg cached added removed now hcached h
  | tick now env =>
    have hframe := reconcile_frame s now env
    rw [hframe.agentDataCache, hframe.agentVmIndex]
    exact h.shrink fun vmid entry hmem hrunning => mem_reconcile_running hmem hrunning
  | unscheduled => exact h
  | created msg env agent =>
    have hframe := created_frame s msg env agent.id
    rw [hframe.agentDataCache, hframe.agentVmIndex]
    exact h.shrink fun vmid entry hmem hrunning => mem_created_running hmem hrunning
  | stopped event vmid => exact h.stop vmid

end Steps

theorem accounted_step {s t : SchedulerActor} {action : Action}
    (h : Accounted s.vmPlacements s.agentDataCache s.agentVmIndex)
    (omits : OmitsUnconfirmedOnly s action) (hstep : Step s action t) :
    Accounted t.vmPlacements t.agentDataCache t.agentVmIndex := by
  cases action with
  | handle event =>
    rw [show t = s.handle event from hstep]
    by_cases hrejected : ∃ msg now, event = .agentUpdated msg now ∧ s.accepts msg = false
    · obtain ⟨msg, now, rfl, hrejected⟩ := hrejected
      rw [handle, agentUpdated_rejected hrejected]
      exact h
    · apply accounted_outcome (handle_outcome s event) h
      rintro msg now revision status rfl hupdate
      refine omits msg now revision status rfl hupdate ?_
      by_contra haccepts
      exact hrejected ⟨msg, now, rfl, by simpa using haccepts⟩
  | rehash =>
    have hr : Rehash s t := hstep
    intro vmid entry hmem
    rw [entriesOf_congr (congrFun hr.vmPlacements vmid)] at hmem
    rw [AHashMap.contains, hr.agentDataCache, hr.agentVmIndex]
    exact h vmid entry hmem

/-! A snapshot that leaves out a recently confirmed VM strands its placement. -/

theorem mem_acceptFull_omitted {s : SchedulerActor} {msg : AgentUpdated} {revision : U64}
    {status : AgentStatus} {now : Instant} {vmid : Ulid} {entry : VmPlacement}
    (hmem : entry ∈ s.placementsOf vmid) (hagent : entry.agentId = msg.actorId)
    (running : entry.lifecycle = .running) (hlisted : vmid ∉ status.vms) {confirmed : Instant}
    (hconfirmed : entry.lastConfirmedAt = some confirmed)
    (recent : durationSince now confirmed < unconfirmedRunningPlacementTimeout) :
    entry ∈ (s.acceptFull msg revision status now).placementsOf vmid := by
  rw [placementsOf_eq, acceptFull, entriesOf_reconcileAgentPlacements, List.mem_filterMap]
  refine ⟨entry, ?_, ?_⟩
  · rw [if_neg (fun hmissing => hlisted hmissing.1)]
    exact hmem
  · simp [reconcileEntry, hagent, running, hlisted, hconfirmed, recent]

theorem not_expires_of_stranded {s : SchedulerActor} {vmid : Ulid} {entry : VmPlacement}
    (hmem : entry ∈ s.placementsOf vmid) (running : entry.lifecycle = .running)
    (cached : s.agentDataCache.contains entry.agentId = true)
    (unlisted : vmid ∉ s.indexOf entry.agentId) {confirmed : Instant}
    (hconfirmed : entry.lastConfirmedAt = some confirmed) : ¬ Expires s := by
  intro hexpires
  let now : Instant := confirmed + unconfirmedRunningPlacementTimeout
  let env : Ulid → DispatchEnv := fun _ => ⟨now, true⟩
  have hframe := reconcile_frame s now env
  apply (hexpires now env (fun _ => le_rfl) vmid entry hmem
    (mem_reconcile_of_running hmem running)).1
  refine ⟨running, ?_, ?_, confirmed, hconfirmed, ?_⟩
  · rw [hframe.agentDataCache]
    exact cached
  · rw [indexOf, hframe.agentVmIndex]
    exact unlisted
  · exact (Nat.add_sub_cancel_left confirmed unconfirmedRunningPlacementTimeout).ge

theorem accounted_onStart :
    Accounted onStart.vmPlacements onStart.agentDataCache onStart.agentVmIndex := by
  intro vmid entry hmem
  simp [onStart, entriesOf] at hmem

theorem stale_placements_expire_iff (run : List (Action × SchedulerActor))
    (hrun : Transition.IsRun Step onStart run) :
    Transition.AllStates Expires onStart run ↔
      Transition.AllSteps OmitsUnconfirmedOnly onStart run := by
  constructor
  · intro hexpires
    apply Transition.allSteps_of_states _ _ run hrun hexpires
    intro s action t _ hstrands hstep ht
    unfold OmitsUnconfirmedOnly at hstrands
    push Not at hstrands
    obtain ⟨msg, now, revision, status, rfl, hupdate, haccepts, vmid, entry, hmem, hagent,
      hrunning, hlisted, confirmed, hconfirmed, hrecent⟩ := hstrands
    have hfull : t = s.acceptFull msg revision status now := by
      rw [show t = s.handle (.agentUpdated msg now) from hstep]
      exact agentUpdated_full haccepts hupdate now
    rw [hfull] at ht
    refine not_expires_of_stranded (mem_acceptFull_omitted hmem hagent hrunning hlisted hconfirmed
      hrecent) hrunning ?_ ?_ hconfirmed ht
    · simp [acceptFull, AHashMap.contains_insert, hagent]
    · simp [indexOf, acceptFull, hagent, hlisted]
  · intro homits
    have haccounted := Transition.allStates_of_step
      (P := fun s => Accounted s.vmPlacements s.agentDataCache s.agentVmIndex)
      (fun s action t hs => accounted_step hs) onStart run accounted_onStart hrun homits
    exact Transition.allStates_mono (fun s hs => expires_of_accounted hs) haccounted

/-- A reservation made at the first instant is gone after a tick at two minutes;
the loop has made a new one. -/
theorem stale_placements_expire_iff_pending :
    let events := [reportsFull agentOne 0 [] 0, createsVm 5 1]
    let s := handleAll events
    Transition.AllStates Expires onStart (runFrom onStart events) ∧
      s.placementsOf 5 = [pendingPlacement agentOne 1] ∧
      (s.handle (ticks (seconds 121))).placementsOf 5 =
        [pendingPlacement agentOne (seconds 121)] := by
  intro events s
  refine ⟨?_, by decide +kernel, by decide +kernel⟩
  apply (stale_placements_expire_iff _ (isRun_runFrom onStart events)).mpr
  refine ⟨?_, ?_, trivial⟩
  · rintro msg now revision status - - - vmid entry hmem
    simp [onStart, placementsOf] at hmem
  · rintro msg now revision status hevent
    simp [createsVm] at hevent

/-- VM 5 runs, and ten seconds after its last confirmation a snapshot leaves it
out. Its placement is kept by the grace period; the tick fifty seconds later
leaves it too, though no agent reports the VM. -/
theorem stale_running_never_expires :
    let s := handleAll [reportsFull agentOne 0 [] 0, createsVm 5 1, reportsFull agentOne 1 [5] 2,
      reportsFull agentOne 2 [] (seconds 10)]
    let entry : VmPlacement := ⟨agentOne, .running, 1, some 2⟩
    Reachable s ∧ s.placementsOf 5 = [entry] ∧
      (s.handle (ticks (seconds 60))).placementsOf 5 = [entry] ∧
      StaleRunning (seconds 60) (s.handle (ticks (seconds 60))) 5 entry ∧ ¬ Expires s := by
  intro s entry
  have hentries : s.placementsOf 5 = [entry] := by decide +kernel
  refine ⟨reachable_handleAll _, hentries, by decide +kernel, ?_, ?_⟩
  · exact ⟨rfl, by decide +kernel, by decide +kernel, 2, rfl, by decide⟩
  · refine @not_expires_of_stranded s 5 entry ?_ rfl (by decide +kernel)
      (by decide +kernel) 2 rfl
    rw [hentries]
    exact List.mem_singleton.mpr rfl

end Odorobo.SchedulerActor
