import Odorobo.LossNotices
import Odorobo.VmAttribution

/-! The registry of polling tasks and actor kinds. A task is registered only for
an actor whose kind is known, and a known kind lasts until its actor is lost;
only updates make new cache entries. -/

namespace Odorobo.SchedulerActor

/-- An actor is a VM actor or an agent, and messages about it say which. -/
def Event.OfKind (kindOf : ActorId → CachedActorKind) : Event → Prop
  | .vmActorDiscovered actorRef _ => kindOf actorRef.id = .vm
  | .agentActorDiscovered actorRef _ => kindOf actorRef.id = .agent
  | .vmUpdated actorRef _ _ => kindOf actorRef.id = .vm
  | .vmUpdaterStopped actorId => kindOf actorId = .vm
  | .agentUpdated msg _ => kindOf msg.actorId = .agent
  | .agentUpdaterStopped actorId => kindOf actorId = .agent
  | _ => True

/-- Discovery and loss change the registry. -/
def Event.isLifecycle : Event → Bool
  | .vmActorDiscovered .. => true
  | .agentActorDiscovered .. => true
  | .vmUpdaterStopped _ => true
  | .agentUpdaterStopped _ => true
  | .linkDied _ => true
  | _ => false

structure SameRegistry (s t : SchedulerActor) : Prop where
  actorKinds : t.actorKinds = s.actorKinds
  vmKeepaliveTasks : t.vmKeepaliveTasks = s.vmKeepaliveTasks
  agentKeepaliveTasks : t.agentKeepaliveTasks = s.agentKeepaliveTasks

theorem Frame.registry {s t : SchedulerActor} (h : Frame s t) : SameRegistry s t :=
  ⟨h.actorKinds, h.vmKeepaliveTasks, h.agentKeepaliveTasks⟩

theorem agentUpdated_registry (s : SchedulerActor) (msg : AgentUpdated) (now : Instant) :
    SameRegistry s (s.agentUpdated msg now) := by
  unfold SchedulerActor.agentUpdated
  split
  · split <;> exact ⟨rfl, rfl, rfl⟩
  · split
    · exact ⟨rfl, rfl, rfl⟩
    · split <;> exact ⟨rfl, rfl, rfl⟩

theorem createVM_registry (s : SchedulerActor) (msg : CreateVM) (env : CreateEnv) :
    SameRegistry s (s.createVM msg env).2 := by
  cases h : s.vmManifests.get msg.vmid with
  | some existing =>
    rw [createVM_of_known env h]
    exact ⟨rfl, rfl, rfl⟩
  | none =>
    rw [createVM_of_unknown env h]
    split
    · exact ⟨rfl, rfl, rfl⟩
    · next agent _ => exact (created_frame s msg env agent.id).registry

theorem stopVM_registry (s : SchedulerActor) (vmid : Ulid) (env : StopEnv) :
    SameRegistry s (s.stopVM vmid env).2 := by
  unfold stopVM
  split
  · exact ⟨rfl, rfl, rfl⟩
  · exact ⟨rfl, rfl, rfl⟩
  · split <;> exact ⟨rfl, rfl, rfl⟩

theorem handle_registry (s : SchedulerActor) {event : Event} (h : event.isLifecycle = false) :
    SameRegistry s (s.handle event) := by
  cases event with
  | vmUpdated actorRef data now =>
    change SameRegistry s (s.vmUpdated actorRef data now)
    rw [vmUpdated_eq]
    exact ⟨rfl, rfl, rfl⟩
  | agentUpdated msg now => exact agentUpdated_registry s msg now
  | reconcileVmPlacements now env => exact (reconcile_frame s now env).registry
  | createVM msg env => exact createVM_registry s msg env
  | deleteVM vmid env => exact stopVM_registry s vmid env
  | shutdownVM vmid env => exact stopVM_registry s vmid env
  | query => exact ⟨rfl, rfl, rfl⟩
  | _ => simp [Event.isLifecycle] at h

/-- Tasks are registered for actors whose kind is known, and kinds are right. -/
structure Registered (kindOf : ActorId → CachedActorKind) (s : SchedulerActor) : Prop where
  kinds : ∀ actorId kind, s.actorKinds.get actorId = some kind → kindOf actorId = kind
  vmTasks : ∀ actorId, s.vmKeepaliveTasks.contains actorId = true →
    s.actorKinds.get actorId = some .vm
  agentTasks : ∀ actorId, s.agentKeepaliveTasks.contains actorId = true →
    s.actorKinds.get actorId = some .agent

section Registry

variable {kindOf : ActorId → CachedActorKind} {s : SchedulerActor}

/-- The registry fields an invariant of this module reads. -/
theorem Registered.of_same (h : Registered kindOf s) {t : SchedulerActor}
    (same : SameRegistry s t) : Registered kindOf t where
  kinds := same.actorKinds ▸ h.kinds
  vmTasks := same.actorKinds ▸ same.vmKeepaliveTasks ▸ h.vmTasks
  agentTasks := same.actorKinds ▸ same.agentKeepaliveTasks ▸ h.agentTasks

/-- A loss erases the kind of an actor together with its task. -/
theorem Registered.lose (h : Registered kindOf s) {id : ActorId} {t : SchedulerActor}
    (hkinds : t.actorKinds = s.actorKinds.erase id)
    (hvm : ∀ actorId, t.vmKeepaliveTasks.contains actorId = true →
      actorId ≠ id ∧ s.vmKeepaliveTasks.contains actorId = true)
    (hagent : ∀ actorId, t.agentKeepaliveTasks.contains actorId = true →
      actorId ≠ id ∧ s.agentKeepaliveTasks.contains actorId = true) : Registered kindOf t where
  kinds actorId kind hget := by
    rw [hkinds, AHashMap.get_erase_eq_some] at hget
    exact h.kinds actorId kind hget.2
  vmTasks actorId htask := by
    have hold := hvm actorId htask
    rw [hkinds, AHashMap.get_erase_ne _ hold.1]
    exact h.vmTasks actorId hold.2
  agentTasks actorId htask := by
    have hold := hagent actorId htask
    rw [hkinds, AHashMap.get_erase_ne _ hold.1]
    exact h.agentTasks actorId hold.2

/-- A kind that is recorded again is the kind it was. -/
theorem Registered.get_insert (h : Registered kindOf s) {id actorId : ActorId}
    {kind known : CachedActorKind} (hkind : kindOf id = kind)
    (hget : s.actorKinds.get actorId = some known) :
    (s.actorKinds.insert id kind).get actorId = some known := by
  rw [AHashMap.get_insert]
  by_cases hid : actorId = id
  · rw [if_pos hid, ← h.kinds actorId known hget, hid, hkind]
  · rw [if_neg hid, hget]

theorem Registered.vmTask_ne (h : Registered kindOf s) {id actorId : ActorId}
    (hkind : kindOf id = .agent) (htask : s.vmKeepaliveTasks.contains actorId = true) :
    actorId ≠ id := by
  intro hid
  have hwrong := h.kinds actorId .vm (h.vmTasks actorId htask)
  rw [hid, hkind] at hwrong
  simp at hwrong

theorem Registered.agentTask_ne (h : Registered kindOf s) {id actorId : ActorId}
    (hkind : kindOf id = .vm) (htask : s.agentKeepaliveTasks.contains actorId = true) :
    actorId ≠ id := by
  intro hid
  have hwrong := h.kinds actorId .agent (h.agentTasks actorId htask)
  rw [hid, hkind] at hwrong
  simp at hwrong

/-- A discovery records the kind of an actor together with its task. -/
theorem Registered.learn (h : Registered kindOf s) {id : ActorId} {kind : CachedActorKind}
    (hkind : kindOf id = kind) {t : SchedulerActor}
    (hkinds : t.actorKinds = s.actorKinds.insert id kind)
    (hvm : ∀ actorId, t.vmKeepaliveTasks.contains actorId = true →
      (actorId = id ∧ kind = .vm) ∨ s.vmKeepaliveTasks.contains actorId = true)
    (hagent : ∀ actorId, t.agentKeepaliveTasks.contains actorId = true →
      (actorId = id ∧ kind = .agent) ∨ s.agentKeepaliveTasks.contains actorId = true) :
    Registered kindOf t where
  kinds actorId known hget := by
    rw [hkinds, AHashMap.get_insert] at hget
    by_cases hid : actorId = id
    · rw [if_pos hid] at hget
      rw [hid, hkind]
      exact Option.some.inj hget
    · rw [if_neg hid] at hget
      exact h.kinds actorId known hget
  vmTasks actorId htask := by
    rw [hkinds]
    cases hvm actorId htask with
    | inl hnew => rw [hnew.1, hnew.2, AHashMap.get_insert_self]
    | inr hold => exact h.get_insert hkind (h.vmTasks actorId hold)
  agentTasks actorId htask := by
    rw [hkinds]
    cases hagent actorId htask with
    | inl hnew => rw [hnew.1, hnew.2, AHashMap.get_insert_self]
    | inr hold => exact h.get_insert hkind (h.agentTasks actorId hold)

theorem contains_of_erase {tasks : AHashMap ActorId JoinHandle} {id actorId : ActorId}
    (htask : (tasks.erase id).contains actorId = true) : tasks.contains actorId = true := by
  rw [AHashMap.contains_erase, Bool.and_eq_true] at htask
  exact htask.2

/-- The table of tasks after a discovery. -/
theorem contains_of_spawn {tasks : AHashMap ActorId JoinHandle} {id actorId : ActorId}
    {task : JoinHandle} (htask : ((tasks.erase id).insert id task).contains actorId = true) :
    actorId = id ∨ tasks.contains actorId = true := by
  rw [AHashMap.contains_insert, Bool.or_eq_true, decide_eq_true_eq] at htask
  exact htask.imp_right contains_of_erase

theorem registered_vmDiscovered (h : Registered kindOf s) (actorRef : RemoteActorRef .vm)
    (env : DiscoveryEnv) (hkind : kindOf actorRef.id = .vm) :
    Registered kindOf (s.vmActorDiscovered actorRef env) := by
  unfold SchedulerActor.vmActorDiscovered
  dsimp only
  split
  · exact h
  · split
    · apply h.learn hkind rfl
      · exact fun actorId htask => (contains_of_spawn htask).imp_left fun hid => ⟨hid, rfl⟩
      · exact fun actorId htask => Or.inr htask
    · exact ⟨h.kinds, fun actorId htask => h.vmTasks actorId (contains_of_erase htask),
        h.agentTasks⟩

theorem registered_agentDiscovered (h : Registered kindOf s) (actorRef : RemoteActorRef .agent)
    (env : DiscoveryEnv) (hkind : kindOf actorRef.id = .agent) :
    Registered kindOf (s.agentActorDiscovered actorRef env) := by
  unfold SchedulerActor.agentActorDiscovered
  dsimp only
  split
  · exact h
  · split
    · apply h.learn hkind rfl
      · exact fun actorId htask => Or.inr htask
      · exact fun actorId htask => (contains_of_spawn htask).imp_left fun hid => ⟨hid, rfl⟩
    · exact ⟨h.kinds, h.vmTasks,
        fun actorId htask => h.agentTasks actorId (contains_of_erase htask)⟩

/-- The loss of a VM actor, by either notice. -/
theorem registered_vmLost (h : Registered kindOf s) {id : ActorId}
    (hkind : kindOf id = .vm) :
    Registered kindOf (cleanupVmActor { s with actorKinds := s.actorKinds.erase id } id) := by
  rw [cleanupVmActor_eq]
  apply h.lose rfl
  · intro actorId htask
    dsimp only at htask
    rw [AHashMap.contains_erase, Bool.and_eq_true, decide_eq_true_eq] at htask
    exact htask
  · exact fun actorId htask => ⟨h.agentTask_ne hkind htask, htask⟩

theorem registered_agentLost (h : Registered kindOf s) {id : ActorId}
    (hkind : kindOf id = .agent) :
    Registered kindOf (cleanupAgentActor { s with actorKinds := s.actorKinds.erase id } id) := by
  apply h.lose rfl
  · exact fun actorId htask => ⟨h.vmTask_ne hkind htask, htask⟩
  · intro actorId htask
    change (s.agentKeepaliveTasks.erase id).contains actorId = true at htask
    rw [AHashMap.contains_erase, Bool.and_eq_true, decide_eq_true_eq] at htask
    exact htask

theorem registered_linkDied (h : Registered kindOf s) (id : ActorId) :
    Registered kindOf (s.onLinkDied id) := by
  unfold onLinkDied
  dsimp only
  split
  · next hget => exact registered_agentLost h (h.kinds id .agent hget)
  · next hget => exact registered_vmLost h (h.kinds id .vm hget)
  · next hget =>
    apply h.lose rfl
    · intro actorId htask
      refine ⟨?_, htask⟩
      intro hid
      have hkind := h.vmTasks actorId htask
      rw [hid, hget] at hkind
      simp at hkind
    · intro actorId htask
      refine ⟨?_, htask⟩
      intro hid
      have hkind := h.agentTasks actorId htask
      rw [hid, hget] at hkind
      simp at hkind

theorem registered_handle (h : Registered kindOf s) {event : Event}
    (hkind : event.OfKind kindOf) : Registered kindOf (s.handle event) := by
  cases event with
  | vmActorDiscovered actorRef env => exact registered_vmDiscovered h actorRef env hkind
  | agentActorDiscovered actorRef env => exact registered_agentDiscovered h actorRef env hkind
  | vmUpdaterStopped actorId => exact registered_vmLost h hkind
  | agentUpdaterStopped actorId => exact registered_agentLost h hkind
  | linkDied id => exact registered_linkDied h id
  | _ => exact h.of_same (handle_registry s rfl)

/-! A known kind lasts until its actor is lost. -/

theorem get_vmActorDiscovered (h : Registered kindOf s) (actorRef : RemoteActorRef .vm)
    (env : DiscoveryEnv) (hkind : kindOf actorRef.id = .vm) {id : ActorId}
    {kind : CachedActorKind} (hget : s.actorKinds.get id = some kind) :
    (s.vmActorDiscovered actorRef env).actorKinds.get id = some kind := by
  unfold SchedulerActor.vmActorDiscovered
  dsimp only
  split
  · exact hget
  · split
    · exact h.get_insert hkind hget
    · exact hget

theorem get_agentActorDiscovered (h : Registered kindOf s) (actorRef : RemoteActorRef .agent)
    (env : DiscoveryEnv) (hkind : kindOf actorRef.id = .agent) {id : ActorId}
    {kind : CachedActorKind} (hget : s.actorKinds.get id = some kind) :
    (s.agentActorDiscovered actorRef env).actorKinds.get id = some kind := by
  unfold SchedulerActor.agentActorDiscovered
  dsimp only
  split
  · exact hget
  · split
    · exact h.get_insert hkind hget
    · exact hget

theorem kind_kept (h : Registered kindOf s) {event : Event} (hkind : event.OfKind kindOf)
    {id : ActorId} {kind : CachedActorKind} (hget : s.actorKinds.get id = some kind) :
    (s.handle event).actorKinds.get id = some kind ∨
      event = .linkDied id ∨ event = updaterStopped kind id := by
  have hid : kindOf id = kind := h.kinds id kind hget
  cases event with
  | vmActorDiscovered actorRef env =>
    exact Or.inl (get_vmActorDiscovered h actorRef env hkind hget)
  | agentActorDiscovered actorRef env =>
    exact Or.inl (get_agentActorDiscovered h actorRef env hkind hget)
  | vmUpdaterStopped other =>
    by_cases heq : id = other
    · right
      right
      rw [← heq] at hkind
      rw [← hid, hkind, heq]
      rfl
    · left
      change (cleanupVmActor _ other).actorKinds.get id = some kind
      rw [cleanupVmActor_eq]
      exact (AHashMap.get_erase_ne _ heq).trans hget
  | agentUpdaterStopped other =>
    by_cases heq : id = other
    · right
      right
      rw [← heq] at hkind
      rw [← hid, hkind, heq]
      rfl
    · left
      exact (AHashMap.get_erase_ne _ heq).trans hget
  | linkDied other =>
    by_cases heq : id = other
    · exact Or.inr (Or.inl (heq ▸ rfl))
    · left
      have herased : (s.actorKinds.erase other).get id = some kind :=
        (AHashMap.get_erase_ne _ heq).trans hget
      change (s.onLinkDied other).actorKinds.get id = some kind
      unfold onLinkDied
      dsimp only
      split
      · exact herased
      · rw [cleanupVmActor_eq]
        exact herased
      · exact herased
  | _ =>
    left
    rw [(handle_registry s rfl).actorKinds]
    exact hget

theorem agentDataCache_stopped (id : ActorId) :
    (s.handle (.agentUpdaterStopped id)).agentDataCache.contains id = false := by
  change (s.agentDataCache.erase id).contains id = false
  simp [AHashMap.contains_erase]

theorem agentDataCache_lost {event : Event} {id : ActorId}
    (hget : s.actorKinds.get id = some .agent)
    (hevent : event = .linkDied id ∨ event = updaterStopped .agent id) :
    (s.handle event).agentDataCache.contains id = false := by
  cases hevent with
  | inl hlink =>
    have hlost : s.handle event = s.handle (.agentUpdaterStopped id) := by
      simp [hlink, handle, onLinkDied, hget, SchedulerActor.agentUpdaterStopped]
    rw [hlost]
    exact agentDataCache_stopped id
  | inr hstop =>
    rw [hstop]
    exact agentDataCache_stopped id

theorem occurrences_stopped (id : ActorId) (vmid : Ulid) :
    occurrences (s.handle (.vmUpdaterStopped id)).vmDataCache vmid id = 0 := by
  change occurrences (cleanupVmActor _ id).vmDataCache vmid id = 0
  rw [cleanupVmActor_eq]
  dsimp only
  rw [occurrences_removed, if_pos rfl]

theorem occurrences_lost {event : Event} {id : ActorId} (hget : s.actorKinds.get id = some .vm)
    (hevent : event = .linkDied id ∨ event = updaterStopped .vm id) (vmid : Ulid) :
    occurrences (s.handle event).vmDataCache vmid id = 0 := by
  cases hevent with
  | inl hlink =>
    have hlost : s.handle event = s.handle (.vmUpdaterStopped id) := by
      simp [hlink, handle, onLinkDied, hget, SchedulerActor.vmUpdaterStopped]
    rw [hlost]
    exact occurrences_stopped id vmid
  | inr hstop =>
    rw [hstop]
    exact occurrences_stopped id vmid

end Registry

/-! New cache entries come from updates. -/

theorem cached_of_outcome {s t : SchedulerActor} {event : Event} (outcome : Outcome s event t)
    {agentId : ActorId} (h : t.agentDataCache.contains agentId = true) :
    s.agentDataCache.contains agentId = true ∨ ∃ msg now revision status,
      event = .agentUpdated msg now ∧ msg.update = .full revision status ∧
        msg.actorId = agentId := by
  cases agentDataCache_outcome outcome with
  | kept hsame => exact Or.inl (hsame ▸ h)
  | lost id herased =>
    rw [herased, AHashMap.contains_erase, Bool.and_eq_true] at h
    exact Or.inl h.2
  | updated msg now cached hevent href hfull hinserted =>
    rw [hinserted, AHashMap.contains_insert, Bool.or_eq_true, decide_eq_true_eq] at h
    cases h with
    | inl heq =>
      cases hfull with
      | inl hfull =>
        obtain ⟨revision, status, hupdate⟩ := hfull
        exact Or.inr ⟨msg, now, revision, status, hevent, hupdate, heq.symm⟩
      | inr hknown => exact Or.inl (heq ▸ hknown)
    | inr hold => exact Or.inl hold

/-- Only a report of a VM actor stores it. -/
theorem occurrences_outcome_le {s t : SchedulerActor} {event : Event} (outcome : Outcome s event t)
    (vmid : Ulid) (actorId : ActorId) :
    occurrences t.vmDataCache vmid actorId ≤ occurrences s.vmDataCache vmid actorId ∨
      ∃ actorRef data now, event = .vmUpdated actorRef data now ∧ actorRef.id = actorId := by
  cases outcome with
  | watch => exact Or.inl le_rfl
  | vmUpdated actorRef data now =>
    rw [vmUpdated_eq]
    dsimp only
    rw [occurrences_updated]
    by_cases hactor : actorId = actorRef.id
    · exact Or.inr ⟨actorRef, data, now, rfl, hactor.symm⟩
    · left
      rw [if_neg (fun hboth => hactor hboth.2)]
  | vmLost event kinds id =>
    left
    rw [cleanupVmActor_eq]
    dsimp only
    rw [occurrences_removed]
    split <;> omega
  | agentLost => exact Or.inl le_rfl
  | full => exact Or.inl le_rfl
  | delta => exact Or.inl le_rfl
  | tick now env =>
    left
    apply (reconcile_rule (P := fun t => occurrences t.vmDataCache vmid actorId ≤
      occurrences s.vmDataCache vmid actorId) s now env ?_ ?_).1
    · exact (occurrences_expired s.vmDataCache vmid actorId now s.vmPlacements).le
    · exact fun t vm ht _ => (occurrences_recreate_le env t vm vmid actorId).trans ht
  | unscheduled => exact Or.inl le_rfl
  | created msg env agent =>
    exact Or.inl (occurrences_created_le s msg env agent.id vmid actorId)
  | stopped event stopped => exact Or.inl (occurrences_erase_le _ stopped vmid actorId)

end Odorobo.SchedulerActor
