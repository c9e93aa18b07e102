import Odorobo.AgentIsolation

/-! A VM report and an agent update in either order. Both feed the placements of
the VM: the report confirms it on every agent already indexed as holding it, the
update confirms it or withdraws it. The orders differ only when the update
withdraws the VM, because the report then counts as a confirmation in one order
and finds nothing to confirm in the other. -/

namespace Odorobo.SchedulerActor

/-- When the update withdraws the VM from an agent indexed as holding it, the
report before it must have had nothing to confirm: its placement there is
confirmed at this very reading (for a snapshot), or is not a reservation (for a
delta). -/
def Settled (s : SchedulerActor) (vmid : Ulid) (msg : AgentUpdated) (now : Instant) : Prop :=
  vmid ∈ s.indexOf msg.actorId →
    match msg.update with
    | .full _ status => vmid ∉ status.vms → ∃ entry ∈ s.placementsOf vmid,
        entry.agentId = msg.actorId ∧ entry.lifecycle = .running ∧
          entry.lastConfirmedAt = some now
    | .delta _ _ removed _ _ => vmid ∈ removed → ∀ entry ∈ s.placementsOf vmid,
        entry.agentId = msg.actorId → entry.lifecycle = .running

theorem mem_reportingAgents_iff {agentVmIndex : AHashMap ActorId (Finset Ulid)} {vmid : Ulid}
    {agentId : ActorId} :
    agentId ∈ reportingAgents agentVmIndex vmid ↔ vmid ∈ (agentVmIndex.get agentId).getD ∅ := by
  rw [mem_reportingAgents]
  cases agentVmIndex.get agentId <;> simp

/-- A report confirms the VM on each reporting agent. -/
def reportEntries (agents : List ActorId) (now : Instant) (entries : List VmPlacement) :
    List VmPlacement :=
  agents.foldl (fun entries agentId => confirmOrPush agentId now entries) entries

theorem part_reportEntries (agents : List ActorId) (now : Instant) (agentId : ActorId)
    (entries : List VmPlacement) :
    placedOn agentId (reportEntries agents now entries) =
      if agentId ∈ agents then confirmOrPush agentId now (placedOn agentId entries)
      else placedOn agentId entries := by
  unfold reportEntries
  induction agents generalizing entries with
  | nil => simp
  | cons first agents ih =>
    rw [List.foldl_cons, ih]
    by_cases hfirst : agentId = first
    · subst hfirst
      have hown := (localTo_confirmOrPush agentId now).own entries
      by_cases hmem : agentId ∈ agents
      · simp [hmem, placedOn, hown, confirmOrPush_idem]
      · simp [hmem, placedOn, hown]
    · have hother := (localTo_confirmOrPush first now).part_ne hfirst entries
      simp [hfirst, placedOn, hother]

theorem placementsOf_vmUpdated (s : SchedulerActor) (actorRef : RemoteActorRef .vm) (key : Ulid)
    (manifest : VmManifest) (now : Instant) (vmid : Ulid) :
    (s.vmUpdated actorRef ⟨key, some manifest⟩ fun _ => now).placementsOf vmid =
      if vmid = key then
        reportEntries (reportingAgents s.agentVmIndex key) now (s.placementsOf vmid)
      else s.placementsOf vmid := by
  have hentries := entriesOf_reportedPlacements s ⟨key, some manifest⟩ (fun _ => now) vmid
  simp only [Option.isSome_some, true_and] at hentries
  rw [vmUpdated_eq]
  exact hentries

theorem vmUpdated_views (s : SchedulerActor) (actorRef : RemoteActorRef .vm)
    (data : GetVMInfoReply) (now : ActorId → Instant) :
    (s.vmUpdated actorRef data now).agentDataCache = s.agentDataCache ∧
      (s.vmUpdated actorRef data now).agentVmIndex = s.agentVmIndex := by
  rw [vmUpdated_eq]
  exact ⟨rfl, rfl⟩

/-! One agent's entries. There is at most one. -/

theorem placedOn_cases {entries : List VmPlacement} (h : WellPlaced entries) (agentId : ActorId) :
    placedOn agentId entries = [] ∨
      ∃ entry, entry.agentId = agentId ∧ placedOn agentId entries = [entry] := by
  cases hpart : placedOn agentId entries with
  | nil => exact Or.inl rfl
  | cons entry rest =>
    have hsub : (entry :: rest).Sublist entries := hpart ▸ List.filter_sublist
    have hagent : ∀ other ∈ entry :: rest, other.agentId = agentId := by
      intro other hother
      rw [← hpart] at hother
      simpa using (List.mem_filter.mp hother).2
    have hunique := (hsub.map VmPlacement.agentId).nodup h.unique
    cases rest with
    | nil => exact Or.inr ⟨entry, hagent entry List.mem_cons_self, rfl⟩
    | cons second rest =>
      have hfirst := hagent entry List.mem_cons_self
      have hsecond := hagent second (by simp)
      simp [hfirst, hsecond] at hunique

theorem durationSince_self (now : Nat) : durationSince now now = 0 := Nat.sub_self now

section OneAgent

variable (agentId : ActorId) (now : Instant)

/-- A snapshot that lists the VM and a report end in the same confirmation. -/
theorem snapshot_listed_comm (listed known : Bool) {entries : List VmPlacement}
    (h : entries = [] ∨ ∃ entry, entry.agentId = agentId ∧ entries = [entry]) :
    snapshotEntries agentId now true true
        (if listed then confirmOrPush agentId now entries else entries) =
      confirmOrPush agentId now (snapshotEntries agentId now true known entries) := by
  obtain rfl | ⟨entry, hagent, rfl⟩ := h
  · cases listed <;> cases known <;>
      simp [snapshotEntries, confirmOrPush, KeyedList.part, reconcileEntry, confirmedPlacement,
        confirm]
  · cases listed <;> cases known <;>
      simp [snapshotEntries, confirmOrPush, KeyedList.part, reconcileEntry, hagent, confirm]

theorem confirm_eq_self_iff {now : Instant} {entry : VmPlacement} :
    confirm now entry = entry ↔ entry.lifecycle = .running ∧ entry.lastConfirmedAt = some now := by
  constructor
  · intro hsame
    rw [← hsame]
    exact ⟨rfl, rfl⟩
  · rintro ⟨hrunning, hconfirmed⟩
    rw [confirm, ← hrunning, ← hconfirmed]

/-- What was confirmed just now has not expired. -/
theorem reconcileEntry_confirm {entry : VmPlacement} (hagent : entry.agentId = agentId) :
    reconcileEntry agentId now false (confirm now entry) = some (confirm now entry) := by
  simp [reconcileEntry, confirm, hagent, durationSince_self, unconfirmedRunningPlacementTimeout,
    seconds]

theorem reconcileEntry_eq_confirm_iff {entry : VmPlacement} (hagent : entry.agentId = agentId) :
    reconcileEntry agentId now false entry = some (confirm now entry) ↔
      confirm now entry = entry := by
  constructor
  · intro hsome
    cases reconcileEntry_eq_some hsome with
    | inl heq => exact heq
    | inr hobserved => simp at hobserved
  · intro hsame
    have hkeeps := reconcileEntry_confirm agentId now hagent
    rwa [hsame] at hkeeps ⊢

/-- A snapshot that leaves the VM out keeps what a report has just confirmed. -/
theorem snapshot_omitted_comm_iff (listed known : Bool) {entries : List VmPlacement}
    (h : entries = [] ∨ ∃ entry, entry.agentId = agentId ∧ entries = [entry]) :
    snapshotEntries agentId now false true
        (if listed then confirmOrPush agentId now entries else entries) =
      snapshotEntries agentId now false known entries ↔
    (listed = true → ∃ entry ∈ entries, entry.lifecycle = .running ∧
      entry.lastConfirmedAt = some now) := by
  cases listed with
  | false => simp [snapshotEntries]
  | true =>
    obtain rfl | ⟨entry, hagent, rfl⟩ := h
    · have hnew : reconcileEntry agentId now false (confirmedPlacement agentId now) =
          some (confirmedPlacement agentId now) :=
        reconcileEntry_confirm agentId now (show (confirmedPlacement agentId now).agentId = _ from rfl)
      simp [snapshotEntries, confirmOrPush, hnew]
    · have hleft : snapshotEntries agentId now false true
          (if true then confirmOrPush agentId now [entry] else [entry]) = [confirm now entry] := by
        simp [snapshotEntries, confirmOrPush, hagent, reconcileEntry_confirm agentId now hagent]
      have hright : snapshotEntries agentId now false known [entry] =
          (reconcileEntry agentId now false entry).toList := by
        simp only [snapshotEntries, Bool.false_eq_true, false_and, if_false]
        cases hentry : reconcileEntry agentId now false entry <;> simp [hentry]
      rw [hleft, hright, eq_comm, Option.toList_eq_singleton_iff,
        reconcileEntry_eq_confirm_iff agentId now hagent, confirm_eq_self_iff]
      simp

theorem delta_added_comm (listed known : Bool) (entries : List VmPlacement) :
    deltaEntries agentId now true false true
        (if listed then confirmOrPush agentId now entries else entries) =
      confirmOrPush agentId now (deltaEntries agentId now true false known entries) := by
  cases listed <;> cases known <;> simp [deltaEntries, confirmOrPush_idem]

theorem delta_other_comm (listed known : Bool) (entries : List VmPlacement) :
    deltaEntries agentId now false false true
        (if listed then confirmOrPush agentId now entries else entries) =
      if listed then confirmOrPush agentId now (deltaEntries agentId now false false known entries)
      else deltaEntries agentId now false false known entries := by
  cases listed <;> simp [deltaEntries]

/-- A removal drops what a report has just confirmed, and keeps a reservation. -/
theorem delta_removed_comm_iff (listed known : Bool) {entries : List VmPlacement}
    (h : entries = [] ∨ ∃ entry, entry.agentId = agentId ∧ entries = [entry]) :
    deltaEntries agentId now false true true
        (if listed then confirmOrPush agentId now entries else entries) =
      deltaEntries agentId now false true known entries ↔
    (listed = true → ∀ entry ∈ entries, entry.lifecycle = .running) := by
  cases listed with
  | false => simp [deltaEntries]
  | true =>
    obtain rfl | ⟨entry, hagent, rfl⟩ := h
    · simp [deltaEntries, confirmOrPush, survivesRemoval, confirmedPlacement]
    · cases hlifecycle : entry.lifecycle <;>
        simp [deltaEntries, confirmOrPush, survivesRemoval, hagent, confirm, hlifecycle]

end OneAgent

/-! The two orders. -/

section Orders

variable {s : SchedulerActor} {actorRef : RemoteActorRef .vm} {vmid : Ulid} {manifest : VmManifest}
  {msg : AgentUpdated} {now : Instant}

/-- The report first, then the update. -/
def reportThenUpdate (s : SchedulerActor) (actorRef : RemoteActorRef .vm) (vmid : Ulid)
    (manifest : VmManifest) (msg : AgentUpdated) (now : Instant) : SchedulerActor :=
  (s.vmUpdated actorRef ⟨vmid, some manifest⟩ fun _ => now).agentUpdated msg now

/-- The update first, then the report. -/
def updateThenReport (s : SchedulerActor) (actorRef : RemoteActorRef .vm) (vmid : Ulid)
    (manifest : VmManifest) (msg : AgentUpdated) (now : Instant) : SchedulerActor :=
  (s.agentUpdated msg now).vmUpdated actorRef ⟨vmid, some manifest⟩ fun _ => now

/-- Intent, actors and views never depend on the order. -/
theorem tables_comm (s : SchedulerActor) (actorRef : RemoteActorRef .vm) (vmid : Ulid)
    (manifest : VmManifest) (msg : AgentUpdated) (now : Instant) :
    let t := reportThenUpdate s actorRef vmid manifest msg now
    let u := updateThenReport s actorRef vmid manifest msg now
    u.vmManifests.get = t.vmManifests.get ∧ u.vmDataCache.get = t.vmDataCache.get ∧
      u.agentVmIndex.get = t.agentVmIndex.get ∧ u.agentDataCache.get = t.agentDataCache.get := by
  intro t u
  have hviews := vmUpdated_views s actorRef ⟨vmid, some manifest⟩ fun _ => now
  have hviews' := vmUpdated_views (s.agentUpdated msg now) actorRef ⟨vmid, some manifest⟩ fun _ => now
  have hcomm : ∀ agentId, u.agentDataCache.get agentId = t.agentDataCache.get agentId ∧
      u.agentVmIndex.get agentId = t.agentVmIndex.get agentId := by
    intro agentId
    rw [show u.agentDataCache = (s.agentUpdated msg now).agentDataCache from hviews'.1,
      show u.agentVmIndex = (s.agentUpdated msg now).agentVmIndex from hviews'.2]
    by_cases hagent : agentId = msg.actorId
    · rw [hagent]
      have hsame := agentUpdated_views_congr now (congrArg (·.get msg.actorId) hviews.1)
        (congrArg (·.get msg.actorId) hviews.2)
      exact ⟨hsame.1.symm, hsame.2.symm⟩
    · have hs := agentUpdated_views_ne s msg now hagent
      have ht := agentUpdated_views_ne
        (s.vmUpdated actorRef ⟨vmid, some manifest⟩ fun _ => now) msg now hagent
      rw [hviews.1, hviews.2] at ht
      exact ⟨hs.1.trans ht.1.symm, hs.2.trans ht.2.symm⟩
  refine ⟨?_, ?_, funext fun id => (hcomm id).2, funext fun id => (hcomm id).1⟩
  · simp only [t, u, reportThenUpdate, updateThenReport, agentUpdated_vmManifests, vmUpdated_eq,
      reportedManifests, Option.elim_some]
  · simp only [t, u, reportThenUpdate, updateThenReport, agentUpdated_vmDataCache, vmUpdated_eq]

theorem accepts_after_report (haccepts : s.accepts msg = true) :
    (s.vmUpdated actorRef ⟨vmid, some manifest⟩ fun _ => now).accepts msg = true := by
  rw [← haccepts]
  exact accepts_congr (congrArg (·.get msg.actorId) (vmUpdated_views s actorRef _ _).1)

theorem placementsOf_reportThenUpdate (haccepts : s.accepts msg = true) (other : Ulid) :
    (reportThenUpdate s actorRef vmid manifest msg now).placementsOf other =
      if other = vmid then updateEntries msg now true vmid
        (reportEntries (reportingAgents s.agentVmIndex vmid) now (s.placementsOf vmid))
      else updateEntries msg now (s.vmManifests.contains other) other (s.placementsOf other) := by
  rw [reportThenUpdate, placementsOf_agentUpdated (accepts_after_report haccepts),
    placementsOf_vmUpdated]
  have hknown : (s.vmUpdated actorRef ⟨vmid, some manifest⟩ fun _ => now).vmManifests.contains other =
      (decide (other = vmid) || s.vmManifests.contains other) := by
    rw [vmUpdated_eq]
    exact AHashMap.contains_insert _ _ _ _
  rw [hknown]
  by_cases hvm : other = vmid
  · subst hvm
    simp
  · simp [hvm]

theorem placementsOf_updateThenReport (haccepts : s.accepts msg = true) (other : Ulid) :
    (updateThenReport s actorRef vmid manifest msg now).placementsOf other =
      if other = vmid then
        reportEntries (reportingAgents (s.agentUpdated msg now).agentVmIndex vmid) now
          (updateEntries msg now (s.vmManifests.contains vmid) vmid (s.placementsOf vmid))
      else updateEntries msg now (s.vmManifests.contains other) other (s.placementsOf other) := by
  rw [updateThenReport, placementsOf_vmUpdated, placementsOf_agentUpdated haccepts]
  by_cases hvm : other = vmid
  · subst hvm
    simp
  · simp [hvm]

/-- The entries of the VM on the updating agent, in either order. -/
theorem settled_iff (haccepts : s.accepts msg = true)
    (store : PlacementStore s.vmManifests s.vmPlacements) :
    placedOn msg.actorId ((reportThenUpdate s actorRef vmid manifest msg now).placementsOf vmid) =
        placedOn msg.actorId
          ((updateThenReport s actorRef vmid manifest msg now).placementsOf vmid) ↔
      Settled s vmid msg now := by
  have hown : ∀ known entries, placedOn msg.actorId (updateEntries msg now known vmid entries) =
      updateEntries msg now known vmid (placedOn msg.actorId entries) := fun known =>
    (localTo_updateEntries msg now known vmid).own
  have hlisted : msg.actorId ∈ reportingAgents s.agentVmIndex vmid ↔
      vmid ∈ s.indexOf msg.actorId := mem_reportingAgents_iff
  have hlists : msg.actorId ∈ reportingAgents (s.agentUpdated msg now).agentVmIndex vmid ↔
      lists msg.update vmid (vmid ∈ s.indexOf msg.actorId) :=
    mem_reportingAgents_iff.trans (mem_indexOf_agentUpdated haccepts now vmid)
  have hentries : placedOn msg.actorId (s.placementsOf vmid) = [] ∨
      ∃ entry, entry.agentId = msg.actorId ∧
        placedOn msg.actorId (s.placementsOf vmid) = [entry] :=
    placedOn_cases (store.placed vmid) msg.actorId
  have hmem : ∀ entry, entry ∈ placedOn msg.actorId (s.placementsOf vmid) ↔
      entry ∈ s.placementsOf vmid ∧ entry.agentId = msg.actorId := by
    intro entry
    simp [placedOn, KeyedList.part]
  rw [placementsOf_reportThenUpdate haccepts, placementsOf_updateThenReport haccepts, if_pos rfl,
    if_pos rfl, part_reportEntries, hown, hown, part_reportEntries]
  simp only [hlisted, Settled]
  generalize placedOn msg.actorId (s.placementsOf vmid) = entries at hentries hmem
  cases hupdate : msg.update with
  | full revision status =>
    have hafter : msg.actorId ∈ reportingAgents (s.agentUpdated msg now).agentVmIndex vmid ↔
        vmid ∈ status.vms := by simpa only [hupdate, lists] using hlists
    simp only [updateEntries, hupdate, hafter]
    by_cases hvms : vmid ∈ status.vms
    · have hcomm := snapshot_listed_comm msg.actorId now
        (decide (vmid ∈ s.indexOf msg.actorId))
        (s.vmManifests.contains vmid) hentries
      simpa [hvms] using hcomm
    · have hcomm := snapshot_omitted_comm_iff msg.actorId now
        (decide (vmid ∈ s.indexOf msg.actorId))
        (s.vmManifests.contains vmid) hentries
      simpa [hvms, hmem, and_assoc] using hcomm
  | delta revision added removed usedVcpus usedRam =>
    have hdisjoint : ∀ vmid ∈ added, vmid ∉ removed := by
      have hmsg := msg.disjoint
      rwa [hupdate] at hmsg
    have hafter : msg.actorId ∈ reportingAgents (s.agentUpdated msg now).agentVmIndex vmid ↔
        (vmid ∈ s.indexOf msg.actorId ∨ vmid ∈ added) ∧ vmid ∉ removed := by
      simpa only [hupdate, lists] using hlists
    simp only [updateEntries, hupdate, hafter]
    by_cases hremoved : vmid ∈ removed
    · have hadded : vmid ∉ added := fun hmem => hdisjoint vmid hmem hremoved
      have hcomm := delta_removed_comm_iff msg.actorId now
        (decide (vmid ∈ s.indexOf msg.actorId))
        (s.vmManifests.contains vmid) hentries
      simpa [hremoved, hadded, hmem] using hcomm
    · by_cases hadded : vmid ∈ added
      · have hcomm := delta_added_comm msg.actorId now
          (decide (vmid ∈ s.indexOf msg.actorId)) (s.vmManifests.contains vmid) entries
        simpa [hremoved, hadded] using hcomm
      · have hcomm := delta_other_comm msg.actorId now
          (decide (vmid ∈ s.indexOf msg.actorId)) (s.vmManifests.contains vmid) entries
        simpa [hremoved, hadded] using hcomm

/-- Off the updating agent the two orders do the same. -/
theorem placedOn_comm (haccepts : s.accepts msg = true) {agentId : ActorId}
    (hne : agentId ≠ msg.actorId) :
    placedOn agentId ((reportThenUpdate s actorRef vmid manifest msg now).placementsOf vmid) =
      placedOn agentId
        ((updateThenReport s actorRef vmid manifest msg now).placementsOf vmid) := by
  have hother : ∀ known entries, placedOn agentId (updateEntries msg now known vmid entries) =
      placedOn agentId entries := fun known =>
    (localTo_updateEntries msg now known vmid).part_ne hne
  have hsame : agentId ∈ reportingAgents (s.agentUpdated msg now).agentVmIndex vmid ↔
      agentId ∈ reportingAgents s.agentVmIndex vmid := by
    rw [mem_reportingAgents_iff, mem_reportingAgents_iff,
      (agentUpdated_views_ne s msg now hne).2]
  rw [placementsOf_reportThenUpdate haccepts, placementsOf_updateThenReport haccepts, if_pos rfl,
    if_pos rfl, part_reportEntries, hother, hother, part_reportEntries]
  simp only [hsame]

end Orders

theorem eq_of_perm_placedOn {entries entries' : List VmPlacement} {agentId : ActorId}
    (h : WellPlaced entries) :
    (placedOn agentId entries).Perm (placedOn agentId entries') ↔
      placedOn agentId entries = placedOn agentId entries' := by
  cases placedOn_cases h agentId with
  | inl hnil =>
    rw [hnil, List.nil_perm]
    exact eq_comm
  | inr hone =>
    obtain ⟨entry, _, heq⟩ := hone
    rw [heq, List.singleton_perm]

theorem discovery_commutes_iff {s : SchedulerActor} (h : Reachable s)
    (actorRef : RemoteActorRef .vm) (vmid : Ulid) (manifest : VmManifest) (msg : AgentUpdated)
    (now : Instant) (haccepts : s.accepts msg = true) :
    Agrees (reportThenUpdate s actorRef vmid manifest msg now)
        (updateThenReport s actorRef vmid manifest msg now) ↔ Settled s vmid msg now := by
  have hstore := reachable_store h
  have hreached : Reachable (reportThenUpdate s actorRef vmid manifest msg now) :=
    (h.handle (.vmUpdated actorRef ⟨vmid, some manifest⟩ fun _ => now)).handle
      (.agentUpdated msg now)
  have hplaced : WellPlaced
      ((reportThenUpdate s actorRef vmid manifest msg now).placementsOf vmid) :=
    (reachable_store hreached).placed vmid
  have hperm : ((reportThenUpdate s actorRef vmid manifest msg now).placementsOf vmid).Perm
      ((updateThenReport s actorRef vmid manifest msg now).placementsOf vmid) ↔
        Settled s vmid msg now := by
    rw [← @settled_iff s actorRef vmid manifest msg now haccepts hstore,
      ← eq_of_perm_placedOn hplaced]
    exact KeyedList.perm_iff_part fun agentId hne => placedOn_comm haccepts hne
  constructor
  · intro hagrees
    exact hperm.mp (hagrees.vmPlacements vmid)
  · intro hsettled
    obtain ⟨hmanifests, hdata, hindex, hcache⟩ := tables_comm s actorRef vmid manifest msg now
    refine ⟨hmanifests, hdata, hindex, hcache, ?_⟩
    intro other
    by_cases hvm : other = vmid
    · rw [hvm]
      exact hperm.mpr hsettled
    · rw [placementsOf_reportThenUpdate haccepts, placementsOf_updateThenReport haccepts,
        if_neg hvm, if_neg hvm]

/-- The agent's first snapshot lists a VM whose actor is discovered at the same
time. -/
theorem discovery_commutes_iff_first_snapshot :
    let s := handleAll [reportsFull agentTwo 0 [] 0]
    let msg : AgentUpdated := ⟨agentOne, ⟨agentOne⟩, .full 0 (sampleStatus [5]), rfl, trivial⟩
    (updateThenReport s ⟨vmActorOne⟩ 5 (sampleManifest 5) msg 3).placementsOf 5 =
        [confirmedPlacement agentOne 3] ∧
      Agrees (reportThenUpdate s ⟨vmActorOne⟩ 5 (sampleManifest 5) msg 3)
        (updateThenReport s ⟨vmActorOne⟩ 5 (sampleManifest 5) msg 3) := by
  intro s msg
  refine ⟨by decide +kernel, ?_⟩
  apply (discovery_commutes_iff (reachable_handleAll _) ⟨vmActorOne⟩ 5 (sampleManifest 5) msg 3
    (by decide +kernel)).mpr
  intro hlisted
  exact absurd hlisted (by decide +kernel)

/-- VM 5 runs on an agent that then reports, in a snapshot a minute later, that
it is gone, while a report of the VM actor is under way. Handled after the
report, the snapshot leaves the placement, confirmed at that reading; handled
before it, the placement is expired. -/
theorem discovery_does_not_commute :
    let s := handleAll [reportsFull agentOne 0 [] 0, createsVm 5 1, reportsFull agentOne 1 [5] 2]
    let msg : AgentUpdated := ⟨agentOne, ⟨agentOne⟩, .full 2 (sampleStatus []), rfl, trivial⟩
    Reachable s ∧ s.accepts msg = true ∧
      (reportThenUpdate s ⟨vmActorOne⟩ 5 (sampleManifest 5) msg (seconds 60)).placementsOf 5 =
        [⟨agentOne, .running, 1, some (seconds 60)⟩] ∧
      (updateThenReport s ⟨vmActorOne⟩ 5 (sampleManifest 5) msg (seconds 60)).placementsOf 5 = [] ∧
      ¬ Agrees (reportThenUpdate s ⟨vmActorOne⟩ 5 (sampleManifest 5) msg (seconds 60))
        (updateThenReport s ⟨vmActorOne⟩ 5 (sampleManifest 5) msg (seconds 60)) := by
  intro s msg
  have hfirst : (reportThenUpdate s ⟨vmActorOne⟩ 5 (sampleManifest 5) msg
      (seconds 60)).placementsOf 5 = [⟨agentOne, .running, 1, some (seconds 60)⟩] := by
    decide +kernel
  have hsecond : (updateThenReport s ⟨vmActorOne⟩ 5 (sampleManifest 5) msg
      (seconds 60)).placementsOf 5 = [] := by
    decide +kernel
  refine ⟨reachable_handleAll _, by decide +kernel, hfirst, hsecond, ?_⟩
  intro hagrees
  have hperm := hagrees.vmPlacements 5
  rw [hfirst, hsecond] at hperm
  exact absurd hperm.length_eq (by decide)

end Odorobo.SchedulerActor
