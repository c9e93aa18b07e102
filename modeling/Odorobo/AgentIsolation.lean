import Odorobo.AgentUpdates
import Odorobo.PlacementStore

/-! Agents do not disturb each other. Every update and the loss of an agent act
on placement lists locally to that agent, so what other agents hold stays in
place, and updates of two agents can be handled in either order. -/

namespace Odorobo.SchedulerActor

/-- The entries of a list that are on the agent. -/
abbrev placedOn (agentId : ActorId) : List VmPlacement → List VmPlacement :=
  KeyedList.part VmPlacement.agentId agentId

/-- The entries of a list that are on other agents. -/
abbrev elsewhere (agentId : ActorId) : List VmPlacement → List VmPlacement :=
  KeyedList.rest VmPlacement.agentId agentId

/-- Every placement off the agent is as it was, in the same order. -/
def Undisturbed (agentId : ActorId) (s t : SchedulerActor) : Prop :=
  ∀ vmid, elsewhere agentId (t.placementsOf vmid) = elsewhere agentId (s.placementsOf vmid)

/-- The same intent, actors, views and placements, up to the order of entries. -/
structure Agrees (s t : SchedulerActor) : Prop where
  vmManifests : t.vmManifests.get = s.vmManifests.get
  vmDataCache : t.vmDataCache.get = s.vmDataCache.get
  agentVmIndex : t.agentVmIndex.get = s.agentVmIndex.get
  agentDataCache : t.agentDataCache.get = s.agentDataCache.get
  vmPlacements : ∀ vmid, (s.placementsOf vmid).Perm (t.placementsOf vmid)

theorem undisturbed_agentUpdated (s : SchedulerActor) (msg : AgentUpdated) (now : Instant) :
    Undisturbed msg.actorId s (s.agentUpdated msg now) := by
  intro vmid
  cases haccepts : s.accepts msg with
  | false => rw [agentUpdated_rejected haccepts]
  | true =>
    rw [placementsOf_agentUpdated haccepts]
    exact (localTo_updateEntries msg now _ vmid).others _

theorem undisturbed_cleanupAgentActor (s : SchedulerActor) (agentId : ActorId) :
    Undisturbed agentId s (s.cleanupAgentActor agentId) := by
  intro vmid
  have hlocal : KeyedList.LocalTo VmPlacement.agentId agentId
      (List.filter fun entry => entry.agentId ≠ agentId || vmid ∈ s.reachableVmids agentId) := by
    apply KeyedList.localTo_filter
    intro entry hne
    simp [hne]
  rw [placementsOf_eq, cleanupAgentActor, entriesOf_removeAgentPlacements]
  exact hlocal.others _

theorem Undisturbed.placedOn {agentId other : ActorId} {s t : SchedulerActor}
    (h : Undisturbed agentId s t) (hne : other ≠ agentId) (vmid : Ulid) :
    placedOn other (t.placementsOf vmid) = placedOn other (s.placementsOf vmid) := by
  calc
    SchedulerActor.placedOn other (t.placementsOf vmid) =
        SchedulerActor.placedOn other (elsewhere agentId (t.placementsOf vmid)) :=
      (KeyedList.part_rest hne _).symm
    _ = SchedulerActor.placedOn other (elsewhere agentId (s.placementsOf vmid)) := by rw [h vmid]
    _ = SchedulerActor.placedOn other (s.placementsOf vmid) := KeyedList.part_rest hne _

/-- Whether an update is accepted, and what it then does, is the same after an
update of another agent. -/
theorem placementsOf_agentUpdated_twice {s : SchedulerActor} {first second : AgentUpdated}
    (hne : first.actorId ≠ second.actorId) (now : Instant) (vmid : Ulid) :
    ((s.agentUpdated first now).agentUpdated second now).placementsOf vmid =
      if s.accepts second then
        updateEntries second now (s.vmManifests.contains vmid) vmid
          ((s.agentUpdated first now).placementsOf vmid)
      else (s.agentUpdated first now).placementsOf vmid := by
  have haccepts : (s.agentUpdated first now).accepts second = s.accepts second :=
    accepts_congr (agentUpdated_views_ne s first now hne.symm).1
  split
  · next hsecond =>
    rw [placementsOf_agentUpdated (haccepts.trans hsecond), agentUpdated_vmManifests]
  · next hsecond =>
    rw [agentUpdated_rejected (haccepts.trans (Bool.not_eq_true _ ▸ hsecond))]

theorem placements_agentUpdated_comm (s : SchedulerActor) {first second : AgentUpdated}
    (hne : first.actorId ≠ second.actorId) (now : Instant) (vmid : Ulid) :
    (((s.agentUpdated first now).agentUpdated second now).placementsOf vmid).Perm
      (((s.agentUpdated second now).agentUpdated first now).placementsOf vmid) := by
  have hfirst := localTo_updateEntries first now (s.vmManifests.contains vmid) vmid
  have hsecond := localTo_updateEntries second now (s.vmManifests.contains vmid) vmid
  rw [placementsOf_agentUpdated_twice hne, placementsOf_agentUpdated_twice hne.symm]
  cases h : s.accepts first with
  | false =>
    rw [agentUpdated_rejected h]
    cases h' : s.accepts second with
    | false =>
      rw [agentUpdated_rejected h']
      exact List.Perm.refl _
    | true =>
      rw [placementsOf_agentUpdated h']
      exact List.Perm.refl _
  | true =>
    cases h' : s.accepts second with
    | false =>
      rw [agentUpdated_rejected h', placementsOf_agentUpdated h]
      exact List.Perm.refl _
    | true =>
      rw [placementsOf_agentUpdated h, placementsOf_agentUpdated h']
      exact hsecond.comm hfirst hne.symm _

theorem views_agentUpdated_comm (s : SchedulerActor) {first second : AgentUpdated}
    (hne : first.actorId ≠ second.actorId) (now : Instant) (agentId : ActorId) :
    let t := (s.agentUpdated first now).agentUpdated second now
    let u := (s.agentUpdated second now).agentUpdated first now
    u.agentDataCache.get agentId = t.agentDataCache.get agentId ∧
      u.agentVmIndex.get agentId = t.agentVmIndex.get agentId := by
  intro t u
  -- The views of an agent after both are those after its own update alone.
  have hown : ∀ {msg other : AgentUpdated}, msg.actorId ≠ other.actorId →
      ((s.agentUpdated other now).agentUpdated msg now).agentDataCache.get msg.actorId =
          ((s.agentUpdated msg now).agentUpdated other now).agentDataCache.get msg.actorId ∧
        ((s.agentUpdated other now).agentUpdated msg now).agentVmIndex.get msg.actorId =
          ((s.agentUpdated msg now).agentUpdated other now).agentVmIndex.get msg.actorId := by
    intro msg other hother
    have hbefore := agentUpdated_views_ne s other now hother
    have hafter := agentUpdated_views_ne (s.agentUpdated msg now) other now hother
    have hsame := agentUpdated_views_congr now hbefore.1 hbefore.2
    exact ⟨hsame.1.trans hafter.1.symm, hsame.2.trans hafter.2.symm⟩
  by_cases hfirst : agentId = first.actorId
  · rw [hfirst]
    exact hown hne
  · by_cases hsecond : agentId = second.actorId
    · rw [hsecond]
      have hviews := hown hne.symm
      exact ⟨hviews.1.symm, hviews.2.symm⟩
    · have ht := agentUpdated_views_ne (s.agentUpdated first now) second now hsecond
      have ht' := agentUpdated_views_ne s first now hfirst
      have hu := agentUpdated_views_ne (s.agentUpdated second now) first now hfirst
      have hu' := agentUpdated_views_ne s second now hsecond
      exact ⟨(hu.1.trans hu'.1).trans (ht.1.trans ht'.1).symm,
        (hu.2.trans hu'.2).trans (ht.2.trans ht'.2).symm⟩

theorem agents_do_not_disturb (s : SchedulerActor) {agentId other : ActorId}
    (hne : agentId ≠ other) :
    (∀ msg now, msg.actorId = agentId →
      Undisturbed agentId s (s.agentUpdated msg now) ∧
        ∀ vmid, placedOn other ((s.agentUpdated msg now).placementsOf vmid) =
          placedOn other (s.placementsOf vmid)) ∧
    (Undisturbed agentId s (s.cleanupAgentActor agentId) ∧
      ∀ vmid, placedOn other ((s.cleanupAgentActor agentId).placementsOf vmid) =
        placedOn other (s.placementsOf vmid)) ∧
    ∀ msg msg' now, msg.actorId = agentId → msg'.actorId = other →
      Agrees ((s.agentUpdated msg now).agentUpdated msg' now)
        ((s.agentUpdated msg' now).agentUpdated msg now) := by
  refine ⟨?_, ?_, ?_⟩
  · rintro msg now rfl
    have hupdated := undisturbed_agentUpdated s msg now
    exact ⟨hupdated, fun vmid => hupdated.placedOn hne.symm vmid⟩
  · have hcleaned := undisturbed_cleanupAgentActor s agentId
    exact ⟨hcleaned, fun vmid => hcleaned.placedOn hne.symm vmid⟩
  · rintro msg msg' now rfl rfl
    have hviews := views_agentUpdated_comm s hne now
    refine ⟨?_, ?_, ?_, ?_, placements_agentUpdated_comm s hne now⟩
    · simp only [agentUpdated_vmManifests]
    · simp only [agentUpdated_vmDataCache]
    · exact funext fun id => (hviews id).2
    · exact funext fun id => (hviews id).1

/-- VM 5 migrates from one agent to the other: the source reports that it is
gone while the destination reports it. -/
theorem agents_do_not_disturb_migration :
    let s := handleAll [reportsFull agentOne 0 [] 0, createsVm 5 1, reportsFull agentOne 1 [5] 2]
    let source : AgentUpdated := ⟨agentOne, ⟨agentOne⟩, .delta 2 [] [5] 0 0, rfl, by
      simp [AgentStatusUpdate.Disjoint]⟩
    let destination : AgentUpdated := ⟨agentTwo, ⟨agentTwo⟩, .full 3 (sampleStatus [5]), rfl, trivial⟩
    PlacementStore s.vmManifests s.vmPlacements ∧
      ((s.agentUpdated destination 4).agentUpdated source 4).placementsOf 5 =
        [confirmedPlacement agentTwo 4] ∧
      Agrees ((s.agentUpdated source 4).agentUpdated destination 4)
        ((s.agentUpdated destination 4).agentUpdated source 4) := by
  intro s source destination
  have hne : agentOne ≠ agentTwo := by decide
  exact ⟨reachable_store (reachable_handleAll _), by decide +kernel,
    (agents_do_not_disturb s hne).2.2 source destination 4 rfl rfl⟩

end Odorobo.SchedulerActor
