import Odorobo.Evidence
import Odorobo.Expiry

/-! VMs that an agent is seen to run. Nothing but the loss of the agent, a stop
that was sent, or an update of the agent without the VM ends this, whatever else
is handled in between and however often the placements are reconciled. -/

namespace Odorobo.SchedulerActor

/-- Placed on the agent, confirmed, and listed by it. -/
structure Hosted (s : SchedulerActor) (vmid : Ulid) (agentId : ActorId) : Prop where
  placed : RunningOn s.vmPlacements vmid agentId
  listed : vmid ∈ s.indexOf agentId

/-- What the scheduler takes for the end of a hosted VM. -/
inductive EndsHosting (s : SchedulerActor) (vmid : Ulid) (agentId : ActorId) : Action → Prop where
  | updaterStopped : EndsHosting s vmid agentId (.handle (.agentUpdaterStopped agentId))
  | linkDied (kind : s.actorKinds.get agentId = some .agent) :
      EndsHosting s vmid agentId (.handle (.linkDied agentId))
  | deleted (env : StopEnv) (sent : (s.stopVM vmid env).1 = .ok ()) :
      EndsHosting s vmid agentId (.handle (.deleteVM vmid env))
  | shutDown (env : StopEnv) (sent : (s.stopVM vmid env).1 = .ok ()) :
      EndsHosting s vmid agentId (.handle (.shutdownVM vmid env))
  | unlisted (msg : AgentUpdated) (now : Instant) (sender : msg.actorId = agentId)
      (accepted : s.accepts msg = true) (omitted : ¬ lists msg.update vmid True) :
      EndsHosting s vmid agentId (.handle (.agentUpdated msg now))

theorem mem_indexOf {s : SchedulerActor} {vmid : Ulid} {agentId : ActorId} :
    vmid ∈ s.indexOf agentId ↔ ∃ vmids, s.agentVmIndex.get agentId = some vmids ∧ vmid ∈ vmids := by
  unfold indexOf
  cases s.agentVmIndex.get agentId <;> simp

section Steps

variable {s t : SchedulerActor} {vmid : Ulid} {agentId : ActorId}

/-- What matters to a hosted VM: its running entries, and the VMs of the agent. -/
theorem Hosted.of_mem (h : Hosted s vmid agentId)
    (kept : ∀ entry ∈ s.placementsOf vmid, entry.agentId = agentId → entry.lifecycle = .running →
      entry ∈ t.placementsOf vmid)
    (index : t.agentVmIndex.get agentId = s.agentVmIndex.get agentId) :
    Hosted t vmid agentId := by
  refine ⟨h.placed.of_mem kept, ?_⟩
  rw [mem_indexOf, index, ← mem_indexOf]
  exact h.listed

theorem Hosted.known (h : Hosted s vmid agentId)
    (store : PlacementStore s.vmManifests s.vmPlacements) :
    ∃ manifest, s.vmManifests.get vmid = some manifest := by
  rw [← Option.ne_none_iff_exists']
  intro hunknown
  obtain ⟨entry, hmem, _⟩ := h.placed
  rw [store.entriesOf_unknown hunknown] at hmem
  simp at hmem

/-! Updates of agents. -/

/-- A snapshot that lists the VM confirms what it finds of its agent. -/
theorem exists_running_snapshotEntries {now : Instant} {known : Bool} {entries : List VmPlacement}
    (h : ∃ entry ∈ entries, entry.agentId = agentId ∧ entry.lifecycle = .running) :
    ∃ entry ∈ snapshotEntries agentId now true known entries,
      entry.agentId = agentId ∧ entry.lifecycle = .running := by
  obtain ⟨entry, hmem, hagent, _⟩ := h
  have hpart : KeyedList.part VmPlacement.agentId agentId entries ≠ [] := by
    rw [Ne, KeyedList.part_eq_nil]
    exact fun hnone => hnone entry hmem hagent
  refine ⟨confirm now entry, ?_, hagent, rfl⟩
  rw [snapshotEntries, if_neg fun hpush => hpart hpush.2, List.mem_filterMap]
  exact ⟨entry, hmem, by simp [reconcileEntry, hagent]⟩

theorem exists_running_deltaEntries {now : Instant} {added known : Bool}
    {entries : List VmPlacement}
    (h : ∃ entry ∈ entries, entry.agentId = agentId ∧ entry.lifecycle = .running) :
    ∃ entry ∈ deltaEntries agentId now added false known entries,
      entry.agentId = agentId ∧ entry.lifecycle = .running := by
  unfold deltaEntries
  dsimp only
  rw [if_neg (by simp)]
  split
  · exact exists_running_confirmOrPush agentId now entries
  · exact h

theorem mem_updateEntries_of_ne {msg : AgentUpdated} {now : Instant} {known : Bool}
    {entries : List VmPlacement} {entry : VmPlacement} (hmem : entry ∈ entries)
    (hne : entry.agentId ≠ msg.actorId) : entry ∈ updateEntries msg now known vmid entries := by
  have hrest : entry ∈ KeyedList.rest VmPlacement.agentId msg.actorId entries :=
    List.mem_filter.mpr ⟨hmem, by simpa using hne⟩
  rw [← (localTo_updateEntries msg now known vmid).others entries] at hrest
  exact List.mem_of_mem_filter hrest

theorem Hosted.agentUpdated (h : Hosted s vmid agentId) (msg : AgentUpdated) (now : Instant)
    (stays : ¬ EndsHosting s vmid agentId (.handle (.agentUpdated msg now))) :
    Hosted (s.agentUpdated msg now) vmid agentId := by
  cases haccepts : s.accepts msg with
  | false =>
    rw [agentUpdated_rejected haccepts]
    exact h
  | true =>
    by_cases hsender : msg.actorId = agentId
    · have hlists : lists msg.update vmid True := by
        by_contra homitted
        exact stays (.unlisted msg now hsender haccepts homitted)
      have hlisted : lists msg.update vmid (vmid ∈ s.indexOf msg.actorId) := by
        rw [hsender]
        simpa [h.listed] using hlists
      refine ⟨?_, hsender ▸ (mem_indexOf_agentUpdated haccepts now vmid).mpr hlisted⟩
      obtain ⟨entry, hmem, hentry⟩ := h.placed
      unfold RunningOn
      rw [← placementsOf_eq, placementsOf_agentUpdated haccepts, updateEntries]
      cases hupdate : msg.update with
      | full revision status =>
        rw [hupdate] at hlists
        have hin : status.vms.contains vmid = true := by simpa [lists] using hlists
        dsimp only
        rw [hsender, hin]
        exact exists_running_snapshotEntries ⟨entry, hmem, hentry⟩
      | delta revision added removed usedVcpus usedRam =>
        rw [hupdate] at hlists
        have hout : removed.contains vmid = false := by simpa [lists] using hlists
        dsimp only
        rw [hsender, hout]
        exact exists_running_deltaEntries ⟨entry, hmem, hentry⟩
    · apply h.of_mem _ (agentUpdated_views_ne s msg now (Ne.symm hsender)).2
      intro entry hmem hagent _
      rw [placementsOf_agentUpdated haccepts]
      exact mem_updateEntries_of_ne hmem (hagent ▸ Ne.symm hsender)

/-! The other events. -/

theorem Hosted.vmUpdated (h : Hosted s vmid agentId) (actorRef : RemoteActorRef .vm)
    (data : GetVMInfoReply) (now : ActorId → Instant) :
    Hosted (s.vmUpdated actorRef data now) vmid agentId := by
  rw [vmUpdated_eq]
  refine ⟨?_, h.listed⟩
  unfold RunningOn
  rw [entriesOf_reportedPlacements]
  split
  · exact exists_running_foldl now _ h.placed
  · exact h.placed

theorem Hosted.vmLost (h : Hosted s vmid agentId) (kinds : AHashMap ActorId CachedActorKind)
    (id : ActorId) : Hosted (cleanupVmActor { s with actorKinds := kinds } id) vmid agentId := by
  obtain ⟨vmids, hindex, hmem⟩ := mem_indexOf.mp h.listed
  rw [cleanupVmActor_eq]
  refine ⟨h.placed.of_mem ?_, h.listed⟩
  intro entry hentry hagent _
  unfold placementsAfterVmLoss
  split
  · exact hentry
  · split
    · exact hentry
    · rw [entriesOf_modify]
      split
      · next lost _ _ heq =>
        subst heq
        refine List.mem_filter.mpr ⟨hentry, ?_⟩
        simp [survivesVmLoss, hagent, hindex, hmem]
      · exact hentry

theorem Hosted.agentLost (h : Hosted s vmid agentId) (kinds : AHashMap ActorId CachedActorKind)
    {id : ActorId} (hne : agentId ≠ id) :
    Hosted (cleanupAgentActor { s with actorKinds := kinds } id) vmid agentId := by
  apply h.of_mem _ (AHashMap.get_erase_ne _ hne)
  intro entry hmem hagent _
  rw [placementsOf_eq, cleanupAgentActor, entriesOf_removeAgentPlacements, List.mem_filter]
  exact ⟨hmem, by simp [hagent, hne]⟩

/-- A running entry does not expire, so the loop does not look at the VM. -/
theorem Hosted.expired (h : Hosted s vmid agentId) (now : Instant) :
    Hosted (s.expireUnresolved now) vmid agentId := by
  refine ⟨h.placed.of_mem ?_, h.listed⟩
  intro entry hmem _ hrunning
  rw [← placementsOf_eq, placementsOf_expired, List.mem_filter]
  exact ⟨hmem, by simp [staysUnresolved, hrunning]⟩

theorem Hosted.placementsOf_ne_nil (h : Hosted s vmid agentId) : s.placementsOf vmid ≠ [] := by
  obtain ⟨entry, hmem, _⟩ := h.placed
  exact List.ne_nil_of_mem hmem

theorem Hosted.reconciled (h : Hosted s vmid agentId) (now : Instant)
    (env : Ulid → DispatchEnv) : Hosted (s.reconcileVmPlacements now env) vmid agentId := by
  have hplaced := (replaced_reconcile s now env vmid).placed (h.expired now).placementsOf_ne_nil
  apply (h.expired now).of_mem
  · intro entry hmem _ _
    rw [hplaced.1]
    exact hmem
  · rw [(reconcile_frame s now env).agentVmIndex]
    rfl

theorem Hosted.created (h : Hosted s vmid agentId)
    (store : PlacementStore s.vmManifests s.vmPlacements) {msg : CreateVM} (env : CreateEnv)
    (agent : RemoteActorRef .agent) (unknown : s.vmManifests.get msg.vmid = none) :
    Hosted ((s.pendingResources.reserveCreate msg agent.id env.now).settleCreate msg env) vmid
      agentId := by
  have hne : vmid ≠ msg.vmid := by
    rintro rfl
    obtain ⟨manifest, hknown⟩ := h.known store
    simp [unknown] at hknown
  apply h.of_mem
  · intro entry hmem _ _
    rw [placementsOf_eq, created_vmPlacements_ne s msg env agent.id hne]
    exact hmem
  · rw [(created_frame s msg env agent.id).agentVmIndex]

theorem Hosted.stopped (h : Hosted s vmid agentId) {other : Ulid} (hne : vmid ≠ other) :
    Hosted (s.removeVmIntent other) vmid agentId := by
  refine ⟨h.placed.of_mem ?_, ?_⟩
  · intro entry hmem _ _
    change entry ∈ entriesOf (s.vmPlacements.erase other) vmid
    rw [entriesOf_erase, if_neg hne]
    exact hmem
  · obtain ⟨vmids, hindex, hmem⟩ := mem_indexOf.mp h.listed
    rw [mem_indexOf]
    refine ⟨vmids.erase other, ?_, Finset.mem_erase.mpr ⟨hne, hmem⟩⟩
    change (s.agentVmIndex.mapValues _).get agentId = _
    rw [AHashMap.get_mapValues, hindex, Option.map_some]

theorem hosted_outcome {event : Event} (outcome : Outcome s event t)
    (store : PlacementStore s.vmManifests s.vmPlacements) (h : Hosted s vmid agentId)
    (stays : ¬ EndsHosting s vmid agentId (.handle event))
    (other : ∀ msg now, event ≠ .agentUpdated msg now) : Hosted t vmid agentId := by
  cases outcome with
  | watch => exact ⟨h.placed, h.listed⟩
  | vmUpdated actorRef data now => exact h.vmUpdated actorRef data now
  | vmLost event kinds id => exact h.vmLost kinds id
  | agentLost event kinds id hevent =>
    apply h.agentLost kinds
    rintro rfl
    obtain rfl | ⟨rfl, hkind⟩ := hevent
    · exact stays .updaterStopped
    · exact stays (.linkDied hkind)
  | full msg now => exact absurd rfl (other msg now)
  | delta msg now => exact absurd rfl (other msg now)
  | tick now env => exact h.reconciled now env
  | unscheduled => exact ⟨h.placed, h.listed⟩
  | created msg env agent hunknown => exact h.created store env agent hunknown
  | stopped event stopped env hevent hok =>
    apply h.stopped
    rintro rfl
    obtain rfl | rfl := hevent
    · exact stays (.deleted env hok)
    · exact stays (.shutDown env hok)

theorem hosted_step (store : PlacementStore s.vmManifests s.vmPlacements) {action : Action}
    (h : Hosted s vmid agentId) (stays : ¬ EndsHosting s vmid agentId action)
    (step : Step s action t) : Hosted t vmid agentId := by
  cases action with
  | rehash =>
    apply h.of_mem _ (congrFun step.agentVmIndex agentId)
    intro entry hmem _ _
    rw [placementsOf_eq, entriesOf_congr (congrFun step.vmPlacements vmid)]
    exact hmem
  | handle event =>
    rw [show t = s.handle event from step]
    by_cases hupdate : ∃ msg now, event = .agentUpdated msg now
    · obtain ⟨msg, now, rfl⟩ := hupdate
      exact h.agentUpdated msg now stays
    · apply hosted_outcome (handle_outcome s event) store h stays
      exact fun msg now heq => hupdate ⟨msg, now, heq⟩

/-! The converse, and what is sent meanwhile. -/

theorem stopVM_of_ok {env : StopEnv} (h : (s.stopVM vmid env).1 = .ok ()) :
    (s.stopVM vmid env).2 = s.removeVmIntent vmid := by
  unfold stopVM at h ⊢
  cases hlookup : env.lookup with
  | error e => simp [hlookup] at h
  | ok found =>
    cases found with
    | none => simp [hlookup] at h
    | some actorRef =>
      cases hsent : env.sent with
      | error e => simp [hlookup, hsent] at h
      | ok _ => rfl

theorem not_hosted_removeVmIntent : ¬ Hosted (s.removeVmIntent vmid) vmid agentId := by
  intro hosted
  obtain ⟨entry, hmem, _⟩ := hosted.placed
  change entry ∈ entriesOf (s.vmPlacements.erase vmid) vmid at hmem
  rw [entriesOf_erase, if_pos rfl] at hmem
  simp at hmem

theorem not_hosted_agentLost (kinds : AHashMap ActorId CachedActorKind) :
    ¬ Hosted (cleanupAgentActor { s with actorKinds := kinds } agentId) vmid agentId := by
  intro hosted
  obtain ⟨vmids, hindex, _⟩ := mem_indexOf.mp hosted.listed
  change (s.agentVmIndex.erase agentId).get agentId = _ at hindex
  rw [AHashMap.get_erase_self] at hindex
  simp at hindex

theorem EndsHosting.not_hosted {action : Action} (h : EndsHosting s vmid agentId action)
    (hosted : Hosted s vmid agentId) (step : Step s action t) : ¬ Hosted t vmid agentId := by
  cases h with
  | updaterStopped =>
    rw [show t = s.agentUpdaterStopped agentId from step]
    exact not_hosted_agentLost _
  | linkDied kind =>
    rw [show t = s.onLinkDied agentId from step, onLinkDied, kind]
    exact not_hosted_agentLost _
  | deleted env sent =>
    rw [show t = (s.stopVM vmid env).2 from step, stopVM_of_ok sent]
    exact not_hosted_removeVmIntent
  | shutDown env sent =>
    rw [show t = (s.stopVM vmid env).2 from step, stopVM_of_ok sent]
    exact not_hosted_removeVmIntent
  | unlisted msg now sender accepted omitted =>
    rw [show t = s.agentUpdated msg now from step]
    intro hosted'
    have hlisted := hosted'.listed
    rw [← sender, mem_indexOf_agentUpdated accepted, sender] at hlisted
    exact omitted (by simpa [hosted.listed] using hlisted)

/-- Neither a client nor the loop has a hosted VM created once more. -/
theorem Hosted.not_dispatched (h : Hosted s vmid agentId)
    (store : PlacementStore s.vmManifests s.vmPlacements) {event : Event} {d : Dispatch}
    (hd : d ∈ s.dispatches event) : d.request.vmid ≠ vmid := by
  intro heq
  cases mem_scheduleCalls (mem_dispatches hd).1 with
  | inl hcreate =>
    obtain ⟨_, hunknown, _⟩ := hcreate
    obtain ⟨manifest, hknown⟩ := h.known store
    rw [heq, hknown] at hunknown
    cases hunknown
  | inr hloop =>
    obtain ⟨now, env, rfl, hcall⟩ := hloop
    have hrule := reconcile_rule (P := fun t => Hosted t vmid agentId) s now env (h.expired now)
      (fun t vm ht hvm => ?_)
    · obtain ⟨hhosted, hunplaced⟩ := hrule.2 _ hcall
      exact hhosted.placementsOf_ne_nil (heq ▸ hunplaced.empty)
    · have hne : vmid ≠ vm.1 := by
        rintro rfl
        exact ht.placementsOf_ne_nil hvm.empty
      apply ht.of_mem
      · intro entry hmem _ _
        rw [placementsOf_eq, entriesOf_congr (recreate_vmPlacements_ne env t vm hne)]
        exact hmem
      · rw [(recreate_frame env t vm).agentVmIndex]

end Steps

theorem hosted_until_ended {s : SchedulerActor} (h : Reachable s) {vmid : Ulid} {agentId : ActorId}
    (hosted : Hosted s vmid agentId) (run : List (Action × SchedulerActor))
    (isRun : Transition.IsRun Step s run) :
    (Transition.AllStates (fun t => Hosted t vmid agentId) s run ↔
      Transition.AllSteps (fun t action => ¬ EndsHosting t vmid agentId action) s run) ∧
    (Transition.AllStates (fun t => Hosted t vmid agentId) s run →
      Transition.AllSteps (fun t action => ∀ event, action = .handle event →
        ∀ d ∈ t.dispatches event, d.request.vmid ≠ vmid) s run) := by
  have kept : ∀ t action u, Reachable t ∧ Hosted t vmid agentId →
      ¬ EndsHosting t vmid agentId action → Step t action u →
        Reachable u ∧ Hosted u vmid agentId := by
    intro t action u ht hstays hstep
    exact ⟨ht.1.tail hstep, hosted_step (reachable_store ht.1) ht.2 hstays hstep⟩
  refine ⟨⟨?_, ?_⟩, ?_⟩
  · apply Transition.allSteps_of_invariant kept _ s run ⟨h, hosted⟩ isRun
    intro t action u ht hends hstep
    exact (not_not.mp hends).not_hosted ht.2 hstep
  · intro hstays
    have hboth := Transition.allStates_of_step kept s run ⟨h, hosted⟩ isRun hstays
    exact Transition.allStates_mono (fun _ ht => ht.2) hboth
  · intro hall
    have hreachable : Transition.AllStates Reachable s run :=
      Transition.allStates_of_step (fun _ _ _ ht _ hstep => ht.tail hstep) s run h isRun
        (Transition.allSteps_true s run)
    apply Transition.allSteps_of_allStates
      (P := fun t => Reachable t ∧ Hosted t vmid agentId) _ s run
      ((Transition.allStates_and_iff s run).mpr ⟨hreachable, hall⟩)
    intro t action ht event _ d hd
    exact ht.2.not_dispatched (reachable_store ht.1) hd

/-- The VM actor is lost and the placements are reconciled twice, long after. -/
theorem hosted_until_ended_vm_actor_lost :
    let s := handleAll [reportsFull agentOne 0 [] 0, createsVm 5 1, reportsFull agentOne 1 [5] 2]
    let events := [ticks (seconds 500), .vmUpdaterStopped vmActorOne, ticks (seconds 900)]
    Hosted s 5 agentOne ∧ Transition.AllStates (fun t => Hosted t 5 agentOne) s (runFrom s events) ∧
      Transition.AllSteps (fun t action => ∀ event, action = .handle event →
        ∀ d ∈ t.dispatches event, d.request.vmid ≠ 5) s (runFrom s events) := by
  intro s events
  have hosted : Hosted s 5 agentOne := by
    refine ⟨?_, by decide +kernel⟩
    have hplaced : (s.placementsOf 5).any (fun entry =>
        entry.agentId = agentOne && entry.lifecycle = .running) = true := by decide +kernel
    simpa [RunningOn, placementsOf_eq] using hplaced
  have hrun := hosted_until_ended (reachable_handleAll _) hosted (runFrom s events)
    (isRun_runFrom s events)
  have hstays : Transition.AllSteps (fun t action => ¬ EndsHosting t 5 agentOne action) s
      (runFrom s events) := by
    refine ⟨?_, ?_, ?_, trivial⟩ <;> · intro hends; cases hends
  have hall := hrun.1.mpr hstays
  exact ⟨hosted, hall, hrun.2 hall⟩

end Odorobo.SchedulerActor
