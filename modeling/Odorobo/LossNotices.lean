import Odorobo.PlacementEffects

/-! The death of a linked actor is usually noticed twice, by the link and by the
polling task. The second notice finds the tables already cleaned. For a VM this
changes nothing; for an agent the index that says which placements to retain is
gone by then. -/

namespace Odorobo.SchedulerActor

/-- Equal contents of the tables that describe placements and actors. -/
structure SameView (s t : SchedulerActor) : Prop where
  vmPlacements : t.vmPlacements.get = s.vmPlacements.get
  vmManifests : t.vmManifests.get = s.vmManifests.get
  vmDataCache : t.vmDataCache.get = s.vmDataCache.get
  vmActoridUlidMap : t.vmActoridUlidMap.get = s.vmActoridUlidMap.get
  agentDataCache : t.agentDataCache.get = s.agentDataCache.get
  agentVmIndex : t.agentVmIndex.get = s.agentVmIndex.get
  actorKinds : t.actorKinds.get = s.actorKinds.get

/-- The message the polling task of an actor sends when it gives up. -/
def updaterStopped (kind : CachedActorKind) (actorId : ActorId) : Event :=
  match kind with
  | .agent => .agentUpdaterStopped actorId
  | .vm => .vmUpdaterStopped actorId

theorem get_erase_erase {V : Type} (m : AHashMap ActorId V) (key : ActorId) :
    ((m.erase key).erase key).get = (m.erase key).get := by
  funext other
  rw [AHashMap.get_erase, AHashMap.get_erase]
  by_cases h : other = key <;> simp [h]

/-- A link death of an actor of no known kind only tidies the kinds. -/
theorem sameView_onLinkDied_unknown {s : SchedulerActor} {id : ActorId}
    (h : s.actorKinds.get id = none) : SameView s (s.onLinkDied id) := by
  have hkinds : (s.actorKinds.erase id).get = s.actorKinds.get := by
    funext other
    rw [AHashMap.get_erase]
    by_cases hother : other = id
    · rw [if_pos hother, hother, h]
    · rw [if_neg hother]
  unfold onLinkDied
  rw [h]
  exact ⟨rfl, rfl, rfl, rfl, rfl, rfl, hkinds⟩

/-- The stop message first: it takes the kind with it. -/
theorem sameView_stopped_linkDied (s : SchedulerActor) (kind : CachedActorKind) (id : ActorId) :
    SameView (s.handle (updaterStopped kind id))
      ((s.handle (updaterStopped kind id)).handle (.linkDied id)) := by
  apply sameView_onLinkDied_unknown
  cases kind with
  | agent => exact AHashMap.get_erase_self _ _
  | vm =>
    change (cleanupVmActor _ id).actorKinds.get id = none
    rw [cleanupVmActor_eq]
    exact AHashMap.get_erase_self _ _

theorem get_removeVmActor_twice (id : ActorId) (dataCache : AHashMap Ulid (List CachedVMActor)) :
    (removeVmActor id (removeVmActor id dataCache)).get = (removeVmActor id dataCache).get := by
  funext vmid
  unfold removeVmActor
  rw [AHashMap.get_filterMap, AHashMap.get_filterMap]
  cases dataCache.get vmid with
  | none => rfl
  | some entries =>
    simp only [Option.bind_some]
    by_cases hempty : (entries.filter fun entry => !isActor id entry).isEmpty = true
    · simp [hempty]
    · rw [if_neg hempty, Option.bind_some, List.filter_filter]
      simp only [Bool.and_self]
      rw [if_neg hempty]

theorem sameView_cleanupVmActor_twice (s : SchedulerActor) (id : ActorId)
    (kinds : AHashMap ActorId CachedActorKind) (hkinds : kinds.get = s.actorKinds.get) :
    SameView (s.cleanupVmActor id)
      (cleanupVmActor { s.cleanupVmActor id with actorKinds := kinds } id) := by
  have hplacements :
      placementsAfterVmLoss { s.cleanupVmActor id with actorKinds := kinds } id =
        (s.cleanupVmActor id).vmPlacements := by
    unfold placementsAfterVmLoss
    rw [cleanupVmActor_eq]
    simp only [AHashMap.get_erase_self]
  rw [cleanupVmActor_eq { s.cleanupVmActor id with actorKinds := kinds } id, hplacements]
  rw [cleanupVmActor_eq]
  exact ⟨rfl, rfl, get_removeVmActor_twice id _, get_erase_erase _ id, rfl, rfl, hkinds⟩

/-! Agents. -/

/-- The agent holds a placement of a VM it is indexed for and that still has a
discovered actor: the placement that the first notice retains. -/
def Retains (s : SchedulerActor) (agentId : ActorId) : Prop :=
  ∃ vmid ∈ s.reachableVmids agentId, ∃ entry ∈ s.placementsOf vmid, entry.agentId = agentId

/-- The second cleanup retains nothing, whatever the first one retained. -/
theorem get_cleanupAgent_twice (s : SchedulerActor) (id : ActorId)
    (kinds : AHashMap ActorId CachedActorKind) (vmid : Ulid) :
    (cleanupAgentActor { s.cleanupAgentActor id with actorKinds := kinds } id).vmPlacements.get
        vmid =
      ((s.cleanupAgentActor id).vmPlacements.get vmid).map
        (List.filter fun entry => entry.agentId ≠ id) := by
  have hnone : reachableVmids { s.cleanupAgentActor id with actorKinds := kinds } id = ∅ := by
    unfold reachableVmids indexOf cleanupAgentActor
    simp
  change (removeAgentPlacements id
    (reachableVmids { s.cleanupAgentActor id with actorKinds := kinds } id)
    (s.cleanupAgentActor id).vmPlacements).get vmid = _
  rw [removeAgentPlacements, AHashMap.get_mapValues, hnone]
  simp

theorem entriesOf_cleanupAgent_twice (s : SchedulerActor) (id : ActorId)
    (kinds : AHashMap ActorId CachedActorKind) (vmid : Ulid) :
    entriesOf (cleanupAgentActor { s.cleanupAgentActor id with actorKinds := kinds } id).vmPlacements
        vmid =
      (entriesOf (s.cleanupAgentActor id).vmPlacements vmid).filter
        fun entry => entry.agentId ≠ id := by
  rw [entriesOf, get_cleanupAgent_twice, entriesOf]
  cases (s.cleanupAgentActor id).vmPlacements.get vmid <;> rfl

theorem sameView_cleanupAgent_twice_iff (s : SchedulerActor) (id : ActorId)
    (kinds : AHashMap ActorId CachedActorKind) (hkinds : kinds.get = s.actorKinds.get) :
    SameView (s.cleanupAgentActor id)
        (cleanupAgentActor { s.cleanupAgentActor id with actorKinds := kinds } id) ↔
      ¬ s.Retains id := by
  constructor
  · rintro hsame ⟨vmid, hreachable, entry, hmem, hagent⟩
    have hfirst : entry ∈ entriesOf (s.cleanupAgentActor id).vmPlacements vmid := by
      change entry ∈ entriesOf (removeAgentPlacements id (s.reachableVmids id) s.vmPlacements) vmid
      rw [entriesOf_removeAgentPlacements, List.mem_filter]
      exact ⟨hmem, by simp [hreachable]⟩
    have hsecond := entriesOf_cleanupAgent_twice s id kinds vmid
    rw [entriesOf_congr (congrFun hsame.vmPlacements vmid)] at hsecond
    rw [hsecond, List.mem_filter] at hfirst
    simp [hagent] at hfirst
  · intro hretains
    refine ⟨?_, rfl, rfl, rfl, get_erase_erase _ id, get_erase_erase _ id, hkinds⟩
    funext vmid
    rw [get_cleanupAgent_twice]
    cases hget : (s.cleanupAgentActor id).vmPlacements.get vmid with
    | none => rfl
    | some entries =>
      rw [Option.map_some, List.filter_eq_self.mpr]
      intro entry hentry
      have hmem : entry ∈ entriesOf (removeAgentPlacements id (s.reachableVmids id) s.vmPlacements)
          vmid := by
        change entry ∈ entriesOf (s.cleanupAgentActor id).vmPlacements vmid
        rw [entriesOf, hget]
        exact hentry
      rw [entriesOf_removeAgentPlacements, List.mem_filter] at hmem
      by_contra hagent
      have heq : entry.agentId = id := by simpa using hagent
      have hreachable : vmid ∈ s.reachableVmids id := by simpa [heq] using hmem.2
      exact hretains ⟨vmid, hreachable, entry, hmem.1, heq⟩

/-- The link first, for an actor of a known kind. -/
theorem sameView_linkDied_stopped_iff {s : SchedulerActor} {kind : CachedActorKind} {id : ActorId}
    (known : s.actorKinds.get id = some kind) :
    SameView (s.handle (.linkDied id))
        ((s.handle (.linkDied id)).handle (updaterStopped kind id)) ↔
      (kind = .agent → ¬ s.Retains id) := by
  have hkinds := get_erase_erase s.actorKinds id
  cases kind with
  | agent =>
    have hfirst : s.handle (.linkDied id) =
        cleanupAgentActor { s with actorKinds := s.actorKinds.erase id } id := by
      simp [handle, onLinkDied, known]
    rw [hfirst]
    simp only [true_implies]
    exact sameView_cleanupAgent_twice_iff { s with actorKinds := s.actorKinds.erase id } id
      ((s.actorKinds.erase id).erase id) hkinds
  | vm =>
    have hfirst : s.handle (.linkDied id) =
        cleanupVmActor { s with actorKinds := s.actorKinds.erase id } id := by
      simp [handle, onLinkDied, known]
    have hsecond : (cleanupVmActor { s with actorKinds := s.actorKinds.erase id } id).actorKinds =
        s.actorKinds.erase id := by
      rw [cleanupVmActor_eq]
    have hsame := sameView_cleanupVmActor_twice { s with actorKinds := s.actorKinds.erase id } id
      ((s.actorKinds.erase id).erase id) hkinds
    rw [hfirst]
    simp only [handle, updaterStopped, vmUpdaterStopped, hsecond]
    exact ⟨fun _ hagent => by simp at hagent, fun _ => hsame⟩

theorem loss_notices_idempotent_iff {s : SchedulerActor} {kind : CachedActorKind} {id : ActorId}
    (known : s.actorKinds.get id = some kind) :
    (SameView (s.handle (.linkDied id))
        ((s.handle (.linkDied id)).handle (updaterStopped kind id)) ∧
      SameView (s.handle (updaterStopped kind id))
        ((s.handle (updaterStopped kind id)).handle (.linkDied id))) ↔
      (kind = .agent → ∀ vmid ∈ s.indexOf id, isDiscovered s.vmDataCache vmid = true →
        ∀ entry ∈ s.placementsOf vmid, entry.agentId ≠ id) := by
  have hretains : ¬ s.Retains id ↔ ∀ vmid ∈ s.indexOf id,
      isDiscovered s.vmDataCache vmid = true →
        ∀ entry ∈ s.placementsOf vmid, entry.agentId ≠ id := by
    simp only [Retains, reachableVmids, Finset.mem_filter, not_exists, not_and, and_imp]
  rw [sameView_linkDied_stopped_iff known, hretains]
  exact and_iff_left (sameView_stopped_linkDied s kind id)

/-- An agent that reports nothing: its notices may come in either order. -/
theorem loss_notices_idempotent_iff_idle_agent :
    let s := handleAll [discoversAgent agentOne, reportsFull agentOne 0 [] 0]
    SameView (s.handle (.linkDied agentOne))
      ((s.handle (.linkDied agentOne)).handle (.agentUpdaterStopped agentOne)) := by
  intro s
  have hknown : s.actorKinds.get agentOne = some .agent := by decide +kernel
  have hindex : s.indexOf agentOne = ∅ := by decide +kernel
  apply ((loss_notices_idempotent_iff hknown).mpr _).1
  intro _ vmid hvmid
  rw [hindex] at hvmid
  simp at hvmid

/-- An agent reports a VM whose actor is discovered too. Its link dies while the
stop message of its polling task is queued: the link callback retains the
placement, the queued message drops it. -/
theorem loss_notices_not_idempotent :
    ∃ s, Reachable s ∧ s.actorKinds.get agentOne = some .agent ∧
      (s.handle (.linkDied agentOne)).placementsOf 5 = [confirmedPlacement agentOne 0] ∧
      ((s.handle (.linkDied agentOne)).handle (.agentUpdaterStopped agentOne)).placementsOf 5 = [] ∧
      ¬ SameView (s.handle (.linkDied agentOne))
        ((s.handle (.linkDied agentOne)).handle (.agentUpdaterStopped agentOne)) := by
  have hfirst : ((handleAll [discoversAgent agentOne, discoversVm vmActorOne,
      reportsVm vmActorOne 5 (some (sampleManifest 5)), reportsFull agentOne 1 [5] 0]).handle
      (.linkDied agentOne)).placementsOf 5 = [confirmedPlacement agentOne 0] := by
    decide +kernel
  have hsecond : (((handleAll [discoversAgent agentOne, discoversVm vmActorOne,
      reportsVm vmActorOne 5 (some (sampleManifest 5)), reportsFull agentOne 1 [5] 0]).handle
      (.linkDied agentOne)).handle (.agentUpdaterStopped agentOne)).placementsOf 5 = [] := by
    decide +kernel
  refine ⟨_, reachable_handleAll _, by decide +kernel, hfirst, hsecond, ?_⟩
  intro hsame
  have hentries := entriesOf_congr (congrFun hsame.vmPlacements 5)
  rw [← placementsOf_eq, ← placementsOf_eq, hfirst, hsecond] at hentries
  simp at hentries

end Odorobo.SchedulerActor
