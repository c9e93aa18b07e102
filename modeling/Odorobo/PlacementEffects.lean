import Odorobo.SchedulerRuns

/-! What each cache function does to the placement list of one VM. A missing
list counts as empty, so these equations hold whether or not the function drops
emptied keys; which keys remain is a separate question, answered by `contains`. -/

namespace Odorobo.SchedulerActor

def entriesOf (placements : AHashMap Ulid (List VmPlacement)) (vmid : Ulid) : List VmPlacement :=
  (placements.get vmid).getD []

theorem placementsOf_eq (s : SchedulerActor) (vmid : Ulid) :
    s.placementsOf vmid = entriesOf s.vmPlacements vmid := rfl

theorem entriesOf_congr {placements placements' : AHashMap Ulid (List VmPlacement)} {vmid : Ulid}
    (h : placements'.get vmid = placements.get vmid) :
    entriesOf placements' vmid = entriesOf placements vmid := by
  rw [entriesOf, entriesOf, h]

theorem entriesOf_insert (placements : AHashMap Ulid (List VmPlacement)) (key vmid : Ulid)
    (entries : List VmPlacement) :
    entriesOf (placements.insert key entries) vmid =
      if vmid = key then entries else entriesOf placements vmid := by
  rw [entriesOf, AHashMap.get_insert]
  split <;> rfl

theorem entriesOf_erase (placements : AHashMap Ulid (List VmPlacement)) (key vmid : Ulid) :
    entriesOf (placements.erase key) vmid =
      if vmid = key then [] else entriesOf placements vmid := by
  rw [entriesOf, AHashMap.get_erase]
  split <;> rfl

theorem entriesOf_upsert (placements : AHashMap Ulid (List VmPlacement)) (key vmid : Ulid)
    (f : List VmPlacement → List VmPlacement) :
    entriesOf (placements.upsert key [] f) vmid =
      if vmid = key then f (entriesOf placements vmid) else entriesOf placements vmid := by
  rw [entriesOf, AHashMap.get_upsert]
  split
  · next h => rw [h, Option.getD_some, entriesOf]
  · rfl

theorem entriesOf_modify (placements : AHashMap Ulid (List VmPlacement)) (key vmid : Ulid)
    (p : VmPlacement → Bool) :
    entriesOf (placements.modify key (List.filter p)) vmid =
      if vmid = key then (entriesOf placements vmid).filter p else entriesOf placements vmid := by
  rw [entriesOf, AHashMap.get_modify]
  split
  · next h =>
    rw [h, entriesOf]
    cases placements.get key <;> rfl
  · rfl

theorem entriesOf_mapValues_filter (placements : AHashMap Ulid (List VmPlacement))
    (p : Ulid → VmPlacement → Bool) (vmid : Ulid) :
    entriesOf (placements.mapValues fun vmid entries => entries.filter (p vmid)) vmid =
      (entriesOf placements vmid).filter (p vmid) := by
  rw [entriesOf, AHashMap.get_mapValues, entriesOf]
  cases placements.get vmid <;> rfl

theorem entriesOf_removeAgentPlacements (agentId : ActorId) (reachable : Finset Ulid)
    (placements : AHashMap Ulid (List VmPlacement)) (vmid : Ulid) :
    entriesOf (removeAgentPlacements agentId reachable placements) vmid =
      (entriesOf placements vmid).filter fun entry =>
        entry.agentId ≠ agentId || vmid ∈ reachable :=
  entriesOf_mapValues_filter placements _ vmid

theorem entriesOf_cleanupUnresolved (now : Instant) (placements : AHashMap Ulid (List VmPlacement))
    (dataCache : AHashMap Ulid (List CachedVMActor)) (vmid : Ulid) :
    entriesOf (cleanupUnresolvedVmCache now placements dataCache).1 vmid =
      (entriesOf placements vmid).filter (staysUnresolved now (isDiscovered dataCache vmid)) :=
  entriesOf_mapValues_filter placements _ vmid

/-- A create touches the placements of its own VM only. -/
theorem created_vmPlacements_ne (s : SchedulerActor) (msg : CreateVM) (env : CreateEnv)
    (agentId : ActorId) {vmid : Ulid} (hne : vmid ≠ msg.vmid) :
    entriesOf ((s.pendingResources.reserveCreate msg agentId env.now).settleCreate msg
      env).vmPlacements vmid = entriesOf s.vmPlacements vmid := by
  have hreserved : entriesOf (s.pendingResources.reserveCreate msg agentId env.now).vmPlacements
      vmid = entriesOf s.vmPlacements vmid :=
    (entriesOf_upsert s.vmPlacements msg.vmid vmid _).trans (if_neg hne)
  apply settleCreate_rule (P := fun t => entriesOf t.vmPlacements vmid = entriesOf s.vmPlacements vmid)
  · exact hreserved
  · exact fun _ _ _ _ => hreserved
  · exact ((entriesOf_erase _ msg.vmid vmid).trans (if_neg hne)).trans hreserved

/-! Deltas. -/

theorem confirmOrPush_idem (agentId : ActorId) (now : Instant) (entries : List VmPlacement) :
    confirmOrPush agentId now (confirmOrPush agentId now entries) =
      confirmOrPush agentId now entries := by
  induction entries with
  | nil => simp [confirmOrPush, confirmedPlacement, confirm]
  | cons entry entries ih =>
    by_cases h : entry.agentId = agentId
    · simp [confirmOrPush, h, confirm]
    · simp [confirmOrPush, h, ih]

theorem mem_confirmOrPush {agentId : ActorId} {now : Instant} {entries : List VmPlacement}
    {entry : VmPlacement} (h : entry ∈ confirmOrPush agentId now entries) :
    entry ∈ entries ∨ entry.agentId = agentId := by
  induction entries with
  | nil =>
    rw [confirmOrPush, List.mem_singleton] at h
    rw [h]
    exact Or.inr rfl
  | cons first entries ih =>
    rw [confirmOrPush] at h
    by_cases hfirst : first.agentId = agentId
    · rw [if_pos hfirst, List.mem_cons] at h
      cases h with
      | inl heq =>
        rw [heq]
        exact Or.inr hfirst
      | inr hlater => exact Or.inl (List.mem_cons_of_mem first hlater)
    · rw [if_neg hfirst, List.mem_cons] at h
      cases h with
      | inl heq =>
        rw [heq]
        exact Or.inl List.mem_cons_self
      | inr hlater =>
        cases ih hlater with
        | inl hold => exact Or.inl (List.mem_cons_of_mem first hold)
        | inr hagent => exact Or.inr hagent

/-- Confirming one agent leaves the entries of the others alone. -/
theorem mem_confirmOrPush_of_ne {agentId : ActorId} {now : Instant} {entries : List VmPlacement}
    {entry : VmPlacement} (hmem : entry ∈ entries) (hne : entry.agentId ≠ agentId) :
    entry ∈ confirmOrPush agentId now entries := by
  induction entries with
  | nil => simp at hmem
  | cons first entries ih =>
    rw [confirmOrPush]
    by_cases hfirst : first.agentId = agentId
    · rw [if_pos hfirst]
      cases List.mem_cons.mp hmem with
      | inl heq => exact absurd (heq ▸ hfirst) hne
      | inr hlater => exact List.mem_cons_of_mem _ hlater
    · rw [if_neg hfirst]
      cases List.mem_cons.mp hmem with
      | inl heq => exact heq ▸ List.mem_cons_self
      | inr hlater => exact List.mem_cons_of_mem _ (ih hlater)

theorem exists_running_confirmOrPush (agentId : ActorId) (now : Instant)
    (entries : List VmPlacement) :
    ∃ entry ∈ confirmOrPush agentId now entries,
      entry.agentId = agentId ∧ entry.lifecycle = .running := by
  induction entries with
  | nil => exact ⟨_, List.mem_singleton.mpr rfl, rfl, rfl⟩
  | cons first entries ih =>
    rw [confirmOrPush]
    by_cases hfirst : first.agentId = agentId
    · rw [if_pos hfirst]
      exact ⟨confirm now first, List.mem_cons_self, hfirst, rfl⟩
    · rw [if_neg hfirst]
      obtain ⟨entry, hmem, hentry⟩ := ih
      exact ⟨entry, List.mem_cons_of_mem _ hmem, hentry⟩

theorem entriesOf_reconcileAdded (agentId : ActorId) (now : Instant)
    (manifests : AHashMap Ulid VmManifest) (placements : AHashMap Ulid (List VmPlacement))
    (key vmid : Ulid) :
    entriesOf (reconcileAdded agentId now manifests placements key) vmid =
      if vmid = key ∧ manifests.contains vmid then
        confirmOrPush agentId now (entriesOf placements vmid)
      else entriesOf placements vmid := by
  unfold reconcileAdded
  by_cases hkey : vmid = key
  · subst hkey
    by_cases hknown : manifests.contains vmid = true
    · simp [hknown, entriesOf_upsert]
    · simp [hknown]
  · split
    · simp [hkey, entriesOf_upsert]
    · simp [hkey]

/-- Confirming the same VM twice at one clock reading is confirming it once, so
only membership in the added list matters. -/
theorem entriesOf_foldl_added (agentId : ActorId) (now : Instant)
    (manifests : AHashMap Ulid VmManifest) (added : List Ulid)
    (placements : AHashMap Ulid (List VmPlacement)) (vmid : Ulid) :
    entriesOf (added.foldl (reconcileAdded agentId now manifests) placements) vmid =
      if vmid ∈ added ∧ manifests.contains vmid then
        confirmOrPush agentId now (entriesOf placements vmid)
      else entriesOf placements vmid := by
  induction added generalizing placements with
  | nil => simp
  | cons key added ih =>
    rw [List.foldl_cons, ih, entriesOf_reconcileAdded]
    by_cases hknown : manifests.contains vmid = true
    · by_cases hkey : vmid = key
      · subst hkey
        by_cases hmem : vmid ∈ added <;> simp [hknown, hmem, confirmOrPush_idem]
      · simp [hknown, hkey]
    · simp [hknown]

def survivesRemoval (agentId : ActorId) (entry : VmPlacement) : Bool :=
  entry.agentId ≠ agentId || entry.lifecycle = .pending

theorem entriesOf_foldl_removed (agentId : ActorId) (removed : List Ulid)
    (placements : AHashMap Ulid (List VmPlacement)) (vmid : Ulid) :
    entriesOf (removed.foldl (reconcileRemoved agentId) placements) vmid =
      if vmid ∈ removed then (entriesOf placements vmid).filter (survivesRemoval agentId)
      else entriesOf placements vmid := by
  induction removed generalizing placements with
  | nil => simp
  | cons key removed ih =>
    have hstep : entriesOf (reconcileRemoved agentId placements key) vmid =
        if vmid = key then (entriesOf placements vmid).filter (survivesRemoval agentId)
        else entriesOf placements vmid :=
      entriesOf_modify placements key vmid (survivesRemoval agentId)
    rw [List.foldl_cons, ih, hstep]
    by_cases hkey : vmid = key
    · subst hkey
      by_cases hmem : vmid ∈ removed <;> simp [hmem]
    · simp [hkey]

theorem entriesOf_reconcileAgentDelta (agentId : ActorId) (added removed : List Ulid)
    (now : Instant) (manifests : AHashMap Ulid VmManifest)
    (placements : AHashMap Ulid (List VmPlacement)) (vmid : Ulid) :
    entriesOf (reconcileAgentDelta agentId added removed now manifests placements) vmid =
      let confirmed := if vmid ∈ added ∧ manifests.contains vmid then
          confirmOrPush agentId now (entriesOf placements vmid)
        else entriesOf placements vmid
      if vmid ∈ removed then confirmed.filter (survivesRemoval agentId) else confirmed := by
  rw [reconcileAgentDelta, entriesOf_foldl_removed, entriesOf_foldl_added]

/-! Discovery. -/

/-- The agents that already report a VM. -/
def reportingAgents (agentVmIndex : AHashMap ActorId (Finset Ulid)) (vmid : Ulid) :
    List ActorId :=
  (agentVmIndex.toList.filter fun e => vmid ∈ e.2).map Prod.fst

theorem mem_reportingAgents {agentVmIndex : AHashMap ActorId (Finset Ulid)} {vmid : Ulid}
    {agentId : ActorId} :
    agentId ∈ reportingAgents agentVmIndex vmid ↔
      ∃ vmids, agentVmIndex.get agentId = some vmids ∧ vmid ∈ vmids := by
  simp [reportingAgents, AHashMap.mem_toList]

theorem entriesOf_reconcileDiscoveredVm (key : Ulid) (now : ActorId → Instant)
    (agentVmIndex : AHashMap ActorId (Finset Ulid)) (manifests : AHashMap Ulid VmManifest)
    (placements : AHashMap Ulid (List VmPlacement)) (vmid : Ulid)
    (known : manifests.contains key = true) :
    entriesOf (reconcileDiscoveredVm key now agentVmIndex manifests placements) vmid =
      if vmid = key then
        (reportingAgents agentVmIndex key).foldl
          (fun entries agentId => confirmOrPush agentId (now agentId) entries)
          (entriesOf placements vmid)
      else entriesOf placements vmid := by
  unfold reconcileDiscoveredVm
  change entriesOf ((reportingAgents agentVmIndex key).foldl _ placements) vmid = _
  generalize reportingAgents agentVmIndex key = agents
  induction agents generalizing placements with
  | nil => simp
  | cons agentId agents ih =>
    rw [List.foldl_cons, ih, entriesOf_reconcileAgentDelta]
    by_cases hkey : vmid = key
    · subst hkey
      simp [known]
    · simp [hkey]

theorem mem_foldl_confirmOrPush {now : ActorId → Instant} {agents : List ActorId}
    {entries : List VmPlacement} {entry : VmPlacement}
    (h : entry ∈ agents.foldl (fun entries other => confirmOrPush other (now other) entries)
      entries) : entry ∈ entries ∨ entry.agentId ∈ agents := by
  induction agents generalizing entries with
  | nil => exact Or.inl h
  | cons agentId agents ih =>
    cases ih h with
    | inr hlater => exact Or.inr (List.mem_cons_of_mem agentId hlater)
    | inl hfirst =>
      cases mem_confirmOrPush hfirst with
      | inl hold => exact Or.inl hold
      | inr heq =>
        rw [heq]
        exact Or.inr List.mem_cons_self

/-- A report with a manifest confirms its VM on the agents that index it. -/
theorem entriesOf_reportedPlacements (s : SchedulerActor) (data : GetVMInfoReply)
    (now : ActorId → Instant) (vmid : Ulid) :
    entriesOf (s.reportedPlacements data now) vmid =
      if data.config.isSome = true ∧ vmid = data.vmid then
        (reportingAgents s.agentVmIndex data.vmid).foldl
          (fun entries agentId => confirmOrPush agentId (now agentId) entries)
          (entriesOf s.vmPlacements vmid)
      else entriesOf s.vmPlacements vmid := by
  unfold reportedPlacements
  cases data.config with
  | none => simp
  | some manifest =>
    have hknown : (s.vmManifests.insert data.vmid manifest).contains data.vmid = true := by
      simp [AHashMap.contains_insert]
    rw [Option.elim_some, entriesOf_reconcileDiscoveredVm _ _ _ _ _ _ hknown]
    simp

theorem mem_reportedPlacements {s : SchedulerActor} {data : GetVMInfoReply}
    {now : ActorId → Instant} {vmid : Ulid} {entry : VmPlacement}
    (h : entry ∈ entriesOf (s.reportedPlacements data now) vmid) :
    entry ∈ entriesOf s.vmPlacements vmid ∨
      ∃ vmids, s.agentVmIndex.get entry.agentId = some vmids ∧ vmid ∈ vmids := by
  rw [entriesOf_reportedPlacements] at h
  split at h
  · next hreported =>
    cases mem_foldl_confirmOrPush h with
    | inl hold => exact Or.inl hold
    | inr hagent => exact Or.inr (hreported.2 ▸ mem_reportingAgents.mp hagent)
  · exact Or.inl h

/-! Full snapshots. -/

theorem entriesOf_foldl_pushMissing (agentId : ActorId) (now : Instant) (missing : List Ulid)
    (distinct : missing.Nodup) (placements : AHashMap Ulid (List VmPlacement)) (vmid : Ulid) :
    entriesOf (missing.foldl (pushMissing agentId now) placements) vmid =
      if vmid ∈ missing then entriesOf placements vmid ++ [confirmedPlacement agentId now]
      else entriesOf placements vmid := by
  induction missing generalizing placements with
  | nil => simp
  | cons key missing ih =>
    rw [List.nodup_cons] at distinct
    have hstep : entriesOf (pushMissing agentId now placements key) vmid =
        if vmid = key then entriesOf placements vmid ++ [confirmedPlacement agentId now]
        else entriesOf placements vmid := entriesOf_upsert placements key vmid _
    rw [List.foldl_cons, ih distinct.2, hstep]
    by_cases hkey : vmid = key
    · subst hkey
      simp [distinct.1]
    · simp [hkey]

/-- A snapshot keeps an entry as it is, confirms it, or drops it. -/
theorem reconcileEntry_eq_some {agentId : ActorId} {now : Instant} {observed : Bool}
    {entry entry' : VmPlacement} (h : reconcileEntry agentId now observed entry = some entry') :
    entry' = entry ∨ (entry.agentId = agentId ∧ observed = true ∧ entry' = confirm now entry) := by
  unfold reconcileEntry at h
  split at h
  · exact Or.inl (by simpa using h.symm)
  · next hagent =>
    split at h
    · next hobserved =>
      exact Or.inr ⟨not_not.mp hagent, hobserved, by simpa using h.symm⟩
    · split at h <;> (split at h <;> simp_all)

/-- Whether the list has an entry of the agent. -/
def hasAgent (agentId : ActorId) (entries : List VmPlacement) : Bool :=
  entries.any fun entry => entry.agentId = agentId

/-- A reported VM with intent and no entry on the agent gains one; then every
entry of the agent is confirmed, kept through its grace period or dropped. -/
theorem entriesOf_reconcileAgentPlacements (agentId : ActorId) (status : AgentStatus)
    (now : Instant) (manifests : AHashMap Ulid VmManifest)
    (placements : AHashMap Ulid (List VmPlacement)) (vmid : Ulid) :
    entriesOf (reconcileAgentPlacements agentId status now manifests placements) vmid =
      let entries := entriesOf placements vmid
      (if vmid ∈ status.vms ∧ manifests.contains vmid ∧ hasAgent agentId entries = false then
        entries ++ [confirmedPlacement agentId now]
      else entries).filterMap (reconcileEntry agentId now (decide (vmid ∈ status.vms))) := by
  unfold reconcileAgentPlacements
  dsimp only
  rw [entriesOf, AHashMap.get_filterMap]
  generalize hmissing : SortedVec.elements (status.vms.toFinset.filter fun vmid =>
    manifests.contains vmid ∧ ¬ (placements.get vmid).any fun entries =>
      entries.any fun entry => entry.agentId = agentId) = missing
  have hdistinct : missing.Nodup := by
    rw [← hmissing]
    exact SortedVec.nodup_elements _
  have hmem : vmid ∈ missing ↔ vmid ∈ status.vms ∧ manifests.contains vmid ∧
      hasAgent agentId (entriesOf placements vmid) = false := by
    rw [← hmissing, SortedVec.mem_elements, Finset.mem_filter, List.mem_toFinset, hasAgent,
      entriesOf]
    cases placements.get vmid <;> simp
  have hpushed := entriesOf_foldl_pushMissing agentId now missing hdistinct placements vmid
  simp only [hmem] at hpushed
  simp only [← hpushed, List.mem_toFinset]
  generalize missing.foldl (pushMissing agentId now) placements = pushed
  rw [entriesOf]
  cases pushed.get vmid with
  | none => rfl
  | some entries =>
    simp only [Option.bind_some, Option.getD_some]
    split
    · next h => simpa using h.symm
    · rfl

end Odorobo.SchedulerActor
