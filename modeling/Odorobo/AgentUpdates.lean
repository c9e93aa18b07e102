import Odorobo.KeyedList
import Odorobo.PlacementEffects

/-! Which agent updates are applied, and to what. An agent that is not cached is
introduced by a full snapshot only; afterwards an update must carry a newer
revision. What is applied concerns the views and the placements of its own agent. -/

namespace Odorobo

def AgentStatusUpdate.isFull : AgentStatusUpdate → Bool
  | full .. => true
  | delta .. => false

namespace SchedulerActor

def accepts (s : SchedulerActor) (msg : AgentUpdated) : Bool :=
  match s.agentDataCache.get msg.actorId with
  | none => msg.update.isFull
  | some cached => cached.statusRevision < msg.update.revision

theorem accepts_congr {s t : SchedulerActor} {msg : AgentUpdated}
    (h : t.agentDataCache.get msg.actorId = s.agentDataCache.get msg.actorId) :
    t.accepts msg = s.accepts msg := by
  rw [accepts, accepts, h]

theorem agentUpdated_rejected {s : SchedulerActor} {msg : AgentUpdated}
    (h : s.accepts msg = false) (now : Instant) : s.agentUpdated msg now = s := by
  unfold accepts at h
  unfold SchedulerActor.agentUpdated
  cases hget : s.agentDataCache.get msg.actorId with
  | none =>
    cases hupdate : msg.update with
    | full revision status => simp [hget, hupdate, AgentStatusUpdate.isFull] at h
    | delta => rfl
  | some cached =>
    have hold : msg.update.revision ≤ cached.statusRevision := by simpa [hget] using h
    dsimp only
    rw [if_pos hold]

theorem agentUpdated_full {s : SchedulerActor} {msg : AgentUpdated} (h : s.accepts msg = true)
    {revision : U64} {status : AgentStatus} (hupdate : msg.update = .full revision status)
    (now : Instant) : s.agentUpdated msg now = s.acceptFull msg revision status now := by
  unfold accepts at h
  unfold SchedulerActor.agentUpdated
  cases hget : s.agentDataCache.get msg.actorId with
  | none => rw [hupdate]
  | some cached =>
    have hnew : cached.statusRevision < msg.update.revision := by simpa [hget] using h
    dsimp only
    rw [if_neg (not_le.mpr hnew), hupdate]

theorem agentUpdated_delta {s : SchedulerActor} {msg : AgentUpdated} (h : s.accepts msg = true)
    {revision : U64} {added removed : List Ulid} {usedVcpus : U32} {usedRam : U64}
    (hupdate : msg.update = .delta revision added removed usedVcpus usedRam) (now : Instant) :
    ∃ cached, s.agentDataCache.get msg.actorId = some cached ∧
      s.agentUpdated msg now = s.acceptDelta msg cached added removed now := by
  unfold accepts at h
  unfold SchedulerActor.agentUpdated
  cases hget : s.agentDataCache.get msg.actorId with
  | none => simp [hget, hupdate, AgentStatusUpdate.isFull] at h
  | some cached =>
    have hnew : cached.statusRevision < msg.update.revision := by simpa [hget] using h
    refine ⟨cached, rfl, ?_⟩
    dsimp only
    rw [if_neg (not_le.mpr hnew), hupdate]

/-- An accepted update is a snapshot, or a delta for a cached agent. -/
theorem accepted_cases {s : SchedulerActor} {msg : AgentUpdated} (h : s.accepts msg = true)
    (now : Instant) :
    (∃ revision status, msg.update = .full revision status ∧
      s.agentUpdated msg now = s.acceptFull msg revision status now) ∨
    ∃ cached revision added removed usedVcpus usedRam,
      msg.update = .delta revision added removed usedVcpus usedRam ∧
      s.agentDataCache.get msg.actorId = some cached ∧
      s.agentUpdated msg now = s.acceptDelta msg cached added removed now := by
  cases hupdate : msg.update with
  | full revision status =>
    exact Or.inl ⟨revision, status, rfl, agentUpdated_full h hupdate now⟩
  | delta revision added removed usedVcpus usedRam =>
    obtain ⟨cached, hcached, heq⟩ := agentUpdated_delta h hupdate now
    exact Or.inr ⟨cached, revision, added, removed, usedVcpus, usedRam, rfl, hcached, heq⟩

/-- What holds before an update and after each kind of accepted one. -/
theorem agentUpdated_rule {P : SchedulerActor → Prop} {s : SchedulerActor} {msg : AgentUpdated}
    {now : Instant} (rejected : P s)
    (full : ∀ revision status, P (s.acceptFull msg revision status now))
    (delta : ∀ cached added removed, P (s.acceptDelta msg cached added removed now)) :
    P (s.agentUpdated msg now) := by
  cases haccepts : s.accepts msg with
  | false =>
    rw [agentUpdated_rejected haccepts]
    exact rejected
  | true =>
    obtain ⟨revision, status, _, heq⟩ | ⟨cached, _, added, removed, _, _, _, _, heq⟩ :=
      accepted_cases haccepts now
    · rw [heq]
      exact full revision status
    · rw [heq]
      exact delta cached added removed

/-! The tables after an update. -/

theorem agentUpdated_vmManifests (s : SchedulerActor) (msg : AgentUpdated) (now : Instant) :
    (s.agentUpdated msg now).vmManifests = s.vmManifests :=
  agentUpdated_rule (P := fun t => t.vmManifests = s.vmManifests) rfl (fun _ _ => rfl)
    fun _ _ _ => rfl

theorem agentUpdated_vmDataCache (s : SchedulerActor) (msg : AgentUpdated) (now : Instant) :
    (s.agentUpdated msg now).vmDataCache = s.vmDataCache :=
  agentUpdated_rule (P := fun t => t.vmDataCache = s.vmDataCache) rfl (fun _ _ => rfl)
    fun _ _ _ => rfl

/-- An update concerns the views of its own agent. -/
theorem agentUpdated_views_ne (s : SchedulerActor) (msg : AgentUpdated) (now : Instant)
    {agentId : ActorId} (hne : agentId ≠ msg.actorId) :
    (s.agentUpdated msg now).agentDataCache.get agentId = s.agentDataCache.get agentId ∧
      (s.agentUpdated msg now).agentVmIndex.get agentId = s.agentVmIndex.get agentId := by
  apply agentUpdated_rule (P := fun t => t.agentDataCache.get agentId = s.agentDataCache.get agentId ∧
    t.agentVmIndex.get agentId = s.agentVmIndex.get agentId)
  · exact ⟨rfl, rfl⟩
  · intro revision status
    exact ⟨AHashMap.get_insert_ne _ _ hne, AHashMap.get_insert_ne _ _ hne⟩
  · intro cached added removed
    exact ⟨AHashMap.get_insert_ne _ _ hne, AHashMap.get_insert_ne _ _ hne⟩

/-- Nothing but the views of its own agent decides what they become. -/
theorem agentUpdated_views_congr {s t : SchedulerActor} {msg : AgentUpdated} (now : Instant)
    (hcache : t.agentDataCache.get msg.actorId = s.agentDataCache.get msg.actorId)
    (hindex : t.agentVmIndex.get msg.actorId = s.agentVmIndex.get msg.actorId) :
    (t.agentUpdated msg now).agentDataCache.get msg.actorId =
        (s.agentUpdated msg now).agentDataCache.get msg.actorId ∧
      (t.agentUpdated msg now).agentVmIndex.get msg.actorId =
        (s.agentUpdated msg now).agentVmIndex.get msg.actorId := by
  cases haccepts : s.accepts msg with
  | false =>
    rw [agentUpdated_rejected haccepts,
      agentUpdated_rejected ((accepts_congr hcache).trans haccepts)]
    exact ⟨hcache, hindex⟩
  | true =>
    have haccepts' : t.accepts msg = true := (accepts_congr hcache).trans haccepts
    cases hupdate : msg.update with
    | full revision status =>
      rw [agentUpdated_full haccepts hupdate, agentUpdated_full haccepts' hupdate]
      simp [acceptFull]
    | delta revision added removed usedVcpus usedRam =>
      obtain ⟨cached, hcached, heq⟩ := agentUpdated_delta haccepts hupdate now
      obtain ⟨cached', hcached', heq'⟩ := agentUpdated_delta haccepts' hupdate now
      have hsame : cached' = cached := by
        rw [hcache, hcached] at hcached'
        exact (Option.some.inj hcached').symm
      rw [heq, heq', hsame]
      simp [acceptDelta, AHashMap.get_upsert, hindex]

/-- Whether the agent is indexed as holding the VM after an accepted update. -/
def lists (update : AgentStatusUpdate) (vmid : Ulid) (listed : Prop) : Prop :=
  match update with
  | .full _ status => vmid ∈ status.vms
  | .delta _ added removed _ _ => (listed ∨ vmid ∈ added) ∧ vmid ∉ removed

theorem mem_indexOf_agentUpdated {s : SchedulerActor} {msg : AgentUpdated}
    (h : s.accepts msg = true) (now : Instant) (vmid : Ulid) :
    vmid ∈ (s.agentUpdated msg now).indexOf msg.actorId ↔
      lists msg.update vmid (vmid ∈ s.indexOf msg.actorId) := by
  unfold indexOf
  obtain ⟨_, _, hupdate, heq⟩ | ⟨_, _, _, _, _, _, hupdate, _, heq⟩ := accepted_cases h now
  · rw [heq, hupdate]
    simp [acceptFull, lists]
  · rw [heq, hupdate]
    simp [acceptDelta, lists, AHashMap.get_upsert]

/-! The placement list of one VM after an update. -/

/-- What a snapshot that lists the VM, or does not, makes of its entries. -/
def snapshotEntries (agentId : ActorId) (now : Instant) (listed known : Bool)
    (entries : List VmPlacement) : List VmPlacement :=
  (if (listed ∧ known) ∧ KeyedList.part VmPlacement.agentId agentId entries = [] then
    entries ++ [confirmedPlacement agentId now]
  else entries).filterMap (reconcileEntry agentId now listed)

def deltaEntries (agentId : ActorId) (now : Instant) (added removed known : Bool)
    (entries : List VmPlacement) : List VmPlacement :=
  let confirmed := if added ∧ known then confirmOrPush agentId now entries else entries
  if removed then confirmed.filter (survivesRemoval agentId) else confirmed

def updateEntries (msg : AgentUpdated) (now : Instant) (known : Bool) (vmid : Ulid) :
    List VmPlacement → List VmPlacement :=
  match msg.update with
  | .full _ status => snapshotEntries msg.actorId now (status.vms.contains vmid) known
  | .delta _ added removed _ _ =>
    deltaEntries msg.actorId now (added.contains vmid) (removed.contains vmid) known

theorem placementsOf_agentUpdated {s : SchedulerActor} {msg : AgentUpdated}
    (h : s.accepts msg = true) (now : Instant) (vmid : Ulid) :
    (s.agentUpdated msg now).placementsOf vmid =
      updateEntries msg now (s.vmManifests.contains vmid) vmid (s.placementsOf vmid) := by
  unfold updateEntries
  obtain ⟨_, status, hupdate, heq⟩ | ⟨_, _, added, removed, _, _, hupdate, _, heq⟩ :=
    accepted_cases h now
  · have habsent : ∀ entries, hasAgent msg.actorId entries = false ↔
        KeyedList.part VmPlacement.agentId msg.actorId entries = [] := by
      simp [hasAgent, KeyedList.part_eq_nil]
    rw [heq, hupdate, placementsOf_eq, acceptFull, entriesOf_reconcileAgentPlacements]
    simp only [snapshotEntries, List.contains_eq_mem, decide_eq_true_eq, ← habsent, and_assoc]
    rfl
  · rw [heq, hupdate, placementsOf_eq, acceptDelta, entriesOf_reconcileAgentDelta]
    simp only [deltaEntries, List.contains_eq_mem, decide_eq_true_eq]
    rfl

theorem localTo_confirmOrPush (agentId : ActorId) (now : Instant) :
    KeyedList.LocalTo VmPlacement.agentId agentId (confirmOrPush agentId now) where
  others entries := by
    induction entries with
    | nil => simp [KeyedList.rest, confirmOrPush, confirmedPlacement]
    | cons entry entries ih =>
      unfold KeyedList.rest at ih ⊢
      by_cases h : entry.agentId = agentId
      · simp [confirmOrPush, h, confirm]
      · simpa [confirmOrPush, h] using ih
  own entries := by
    induction entries with
    | nil => simp [KeyedList.part, confirmOrPush, confirmedPlacement]
    | cons entry entries ih =>
      unfold KeyedList.part at ih ⊢
      by_cases h : entry.agentId = agentId
      · simp [confirmOrPush, h, confirm]
      · simpa [confirmOrPush, h] using ih

theorem localTo_snapshotEntries (agentId : ActorId) (now : Instant) (listed known : Bool) :
    KeyedList.LocalTo VmPlacement.agentId agentId (snapshotEntries agentId now listed known) := by
  have hagent : (confirmedPlacement agentId now).agentId = agentId := rfl
  have hpush := KeyedList.localTo_push hagent (listed = true ∧ known = true)
  have hreconcile : KeyedList.LocalTo VmPlacement.agentId agentId
      (List.filterMap (reconcileEntry agentId now listed)) := by
    apply KeyedList.localTo_filterMap
    · intro entry hne
      simp [reconcileEntry, hne]
    · intro entry entry' hagent hsome
      cases reconcileEntry_eq_some hsome with
      | inl heq => rw [heq, hagent]
      | inr hconfirmed => rw [hconfirmed.2.2, ← hagent]; rfl
  exact hreconcile.comp hpush

theorem localTo_deltaEntries (agentId : ActorId) (now : Instant) (added removed known : Bool) :
    KeyedList.LocalTo VmPlacement.agentId agentId
      (deltaEntries agentId now added removed known) := by
  have hconfirmed := KeyedList.LocalTo.ite (added = true ∧ known = true)
    (localTo_confirmOrPush agentId now) (KeyedList.localTo_id agentId)
  have hfilter : KeyedList.LocalTo VmPlacement.agentId agentId
      (List.filter (survivesRemoval agentId)) := by
    apply KeyedList.localTo_filter
    intro entry hne
    simp [survivesRemoval, hne]
  exact KeyedList.LocalTo.ite (removed = true) (hfilter.comp hconfirmed) hconfirmed

theorem localTo_updateEntries (msg : AgentUpdated) (now : Instant) (known : Bool) (vmid : Ulid) :
    KeyedList.LocalTo VmPlacement.agentId msg.actorId (updateEntries msg now known vmid) := by
  unfold updateEntries
  split
  · exact localTo_snapshotEntries _ _ _ _
  · exact localTo_deltaEntries _ _ _ _ _

end SchedulerActor

end Odorobo
