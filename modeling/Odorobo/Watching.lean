import Odorobo.Registry

/-! Watched actors. The scheduler shares its mailbox with the polling tasks it
spawns: it can abort a task, not recall what the task has sent. Here messages of
tasks wait in the mailbox and are handled in any order. A cache entry is watched
while a task is registered for its actor, or its kind is known to the link
callback, or a stop notice for it is waiting. -/

namespace Odorobo

open SchedulerActor

/-- Messages that polling tasks send. -/
def SchedulerActor.Event.isPolled : Event → Bool
  | .vmUpdated .. => true
  | .vmUpdaterStopped _ => true
  | .agentUpdated .. => true
  | .agentUpdaterStopped _ => true
  | _ => false

structure Inbox where
  scheduler : SchedulerActor
  queued : List Event

namespace Inbox

def onStart : Inbox := ⟨SchedulerActor.onStart, []⟩

/-- `send` puts a message of a task in the mailbox, `deliver` handles a waiting
one, and `direct` handles what comes from elsewhere. -/
inductive Delivery where
  | send (event : Event)
  | deliver (position : Nat)
  | direct (event : Event)
  | rehash

def Step (kindOf : ActorId → CachedActorKind) (x : Inbox) : Delivery → Inbox → Prop
  | .send event, y => event.isPolled = true ∧ event.OfKind kindOf ∧
      y = ⟨x.scheduler, x.queued ++ [event]⟩
  | .deliver position, y => ∃ event, x.queued[position]? = some event ∧
      y = ⟨x.scheduler.handle event, x.queued.eraseIdx position⟩
  | .direct event, y => event.isPolled = false ∧ event.OfKind kindOf ∧
      y = ⟨x.scheduler.handle event, x.queued⟩
  | .rehash, y => Rehash x.scheduler y.scheduler ∧ y.queued = x.queued

def AgentWatched (x : Inbox) (agentId : ActorId) : Prop :=
  x.scheduler.agentKeepaliveTasks.contains agentId = true ∨
    x.scheduler.actorKinds.contains agentId = true ∨ .agentUpdaterStopped agentId ∈ x.queued

def VmWatched (x : Inbox) (actorId : ActorId) : Prop :=
  x.scheduler.vmKeepaliveTasks.contains actorId = true ∨
    x.scheduler.actorKinds.contains actorId = true ∨ .vmUpdaterStopped actorId ∈ x.queued

/-- Every cached agent and every discovered VM actor is watched. -/
structure Watched (x : Inbox) : Prop where
  agents : ∀ agentId, x.scheduler.agentDataCache.contains agentId = true → x.AgentWatched agentId
  vms : ∀ vmid entries, x.scheduler.vmDataCache.get vmid = some entries →
    ∀ cachedVm ∈ entries, ∀ actor, cachedVm.actorRef = some actor → x.VmWatched actor.id

/-- The updates that make new cache entries come from watched actors. -/
def FromWatched (x : Inbox) (event : Event) : Prop :=
  (∀ actorRef data now, event = .vmUpdated actorRef data now → x.VmWatched actorRef.id) ∧
    ∀ msg now revision status, event = .agentUpdated msg now → msg.update = .full revision status →
      x.scheduler.agentDataCache.contains msg.actorId = false → x.AgentWatched msg.actorId

def DeliversFromWatched (x : Inbox) (delivery : Delivery) : Prop :=
  ∀ position event, delivery = .deliver position → x.queued[position]? = some event →
    x.FromWatched event

/-! Stored actors, as counted. -/

theorem vmWatched_iff (x : Inbox) :
    (∀ vmid entries, x.scheduler.vmDataCache.get vmid = some entries →
      ∀ cachedVm ∈ entries, ∀ actor, cachedVm.actorRef = some actor → x.VmWatched actor.id) ↔
    ∀ vmid actorId, 0 < occurrences x.scheduler.vmDataCache vmid actorId → x.VmWatched actorId := by
  constructor
  · intro h vmid actorId hpos
    rw [occurrences, List.countP_pos_iff] at hpos
    obtain ⟨cachedVm, hmem, hactor⟩ := hpos
    unfold actorsOf at hmem
    cases hget : x.scheduler.vmDataCache.get vmid with
    | none => simp [hget] at hmem
    | some entries =>
      rw [hget, Option.getD_some] at hmem
      unfold isActor at hactor
      cases href : cachedVm.actorRef with
      | none => simp [href] at hactor
      | some actor =>
        have hid : actor.id = actorId := by simpa [href] using hactor
        exact hid ▸ h vmid entries hget cachedVm hmem actor href
  · intro h vmid entries hget cachedVm hmem actor href
    apply h vmid
    rw [occurrences, List.countP_pos_iff]
    refine ⟨cachedVm, ?_, by simp [isActor, href]⟩
    rw [actorsOf, hget]
    exact hmem

/-! The invariant behind the watch. -/

structure Typed (kindOf : ActorId → CachedActorKind) (x : Inbox) : Prop where
  registered : Registered kindOf x.scheduler
  queued : ∀ event ∈ x.queued, event.OfKind kindOf
  agents : ∀ agentId, x.scheduler.agentDataCache.contains agentId = true → kindOf agentId = .agent
  vms : ∀ vmid actorId, 0 < occurrences x.scheduler.vmDataCache vmid actorId →
    kindOf actorId = .vm

section Steps

variable {kindOf : ActorId → CachedActorKind} {x : Inbox}

theorem agentWatched_iff (h : Typed kindOf x) {agentId : ActorId} (hkind : kindOf agentId = .agent) :
    x.AgentWatched agentId ↔ x.scheduler.actorKinds.get agentId = some .agent ∨
      .agentUpdaterStopped agentId ∈ x.queued := by
  constructor
  · intro hwatched
    cases hwatched with
    | inl htask => exact Or.inl (h.registered.agentTasks agentId htask)
    | inr hrest =>
      cases hrest with
      | inl hkinds =>
        obtain ⟨kind, hget⟩ := (AHashMap.contains_iff _ _).mp hkinds
        have hsame := h.registered.kinds agentId kind hget
        rw [hkind] at hsame
        exact Or.inl (hsame ▸ hget)
      | inr hqueued => exact Or.inr hqueued
  · intro hwatched
    cases hwatched with
    | inl hget => exact Or.inr (Or.inl ((AHashMap.contains_iff _ _).mpr ⟨.agent, hget⟩))
    | inr hqueued => exact Or.inr (Or.inr hqueued)

theorem vmWatched_kind_iff (h : Typed kindOf x) {actorId : ActorId} (hkind : kindOf actorId = .vm) :
    x.VmWatched actorId ↔ x.scheduler.actorKinds.get actorId = some .vm ∨
      .vmUpdaterStopped actorId ∈ x.queued := by
  constructor
  · intro hwatched
    cases hwatched with
    | inl htask => exact Or.inl (h.registered.vmTasks actorId htask)
    | inr hrest =>
      cases hrest with
      | inl hkinds =>
        obtain ⟨kind, hget⟩ := (AHashMap.contains_iff _ _).mp hkinds
        have hsame := h.registered.kinds actorId kind hget
        rw [hkind] at hsame
        exact Or.inl (hsame ▸ hget)
      | inr hqueued => exact Or.inr hqueued
  · intro hwatched
    cases hwatched with
    | inl hget => exact Or.inr (Or.inl ((AHashMap.contains_iff _ _).mpr ⟨.vm, hget⟩))
    | inr hqueued => exact Or.inr (Or.inr hqueued)

theorem typed_handle (h : Typed kindOf x) {event : Event} (hkind : event.OfKind kindOf)
    {queued : List Event} (hqueued : ∀ other ∈ queued, other ∈ x.queued) :
    Typed kindOf ⟨x.scheduler.handle event, queued⟩ where
  registered := registered_handle h.registered hkind
  queued other hmem := h.queued other (hqueued other hmem)
  agents agentId hcached := by
    cases cached_of_outcome (handle_outcome x.scheduler event) hcached with
    | inl hold => exact h.agents agentId hold
    | inr hnew =>
      obtain ⟨msg, now, revision, status, rfl, _, rfl⟩ := hnew
      exact hkind
  vms vmid actorId hpos := by
    dsimp only at hpos
    cases occurrences_outcome_le (handle_outcome x.scheduler event) vmid actorId with
    | inl hle => exact h.vms vmid actorId (by omega)
    | inr hnew =>
      obtain ⟨actorRef, data, now, rfl, rfl⟩ := hnew
      exact hkind

/-- Handling an event keeps the watch on every entry that is left, when the new
entries were watched before. -/
theorem agentWatched_handle (h : Typed kindOf x) (hw : Watched x) {event : Event}
    (hkind : event.OfKind kindOf) (hfrom : x.FromWatched event) {queued : List Event}
    (hqueued : ∀ other ∈ queued, other ∈ x.queued)
    (hkept : ∀ other ∈ x.queued, other ≠ event → other ∈ queued) {agentId : ActorId}
    (hcached : (x.scheduler.handle event).agentDataCache.contains agentId = true) :
    AgentWatched ⟨x.scheduler.handle event, queued⟩ agentId := by
  have htyped := typed_handle h hkind hqueued
  have hbefore : x.AgentWatched agentId := by
    cases cached_of_outcome (handle_outcome x.scheduler event) hcached with
    | inl hold => exact hw.agents agentId hold
    | inr hnew =>
      obtain ⟨msg, now, revision, status, hevent, hupdate, rfl⟩ := hnew
      by_cases hold : x.scheduler.agentDataCache.contains msg.actorId = true
      · exact hw.agents msg.actorId hold
      · exact hfrom.2 msg now revision status hevent hupdate (by simpa using hold)
  have hagent := htyped.agents agentId hcached
  rw [agentWatched_iff htyped hagent]
  rw [agentWatched_iff h hagent] at hbefore
  cases hbefore with
  | inl hget =>
    cases kind_kept h.registered hkind hget with
    | inl hstays => exact Or.inl hstays
    | inr hlost =>
      have hgone := agentDataCache_lost hget hlost
      rw [hgone] at hcached
      simp at hcached
  | inr hnotice =>
    by_cases heq : Event.agentUpdaterStopped agentId = event
    · rw [← heq, agentDataCache_stopped] at hcached
      simp at hcached
    · exact Or.inr (hkept _ hnotice heq)

theorem vmWatched_handle (h : Typed kindOf x) (hw : Watched x) {event : Event}
    (hkind : event.OfKind kindOf) (hfrom : x.FromWatched event) {queued : List Event}
    (hqueued : ∀ other ∈ queued, other ∈ x.queued)
    (hkept : ∀ other ∈ x.queued, other ≠ event → other ∈ queued) {vmid : Ulid}
    {actorId : ActorId}
    (hpos : 0 < occurrences (x.scheduler.handle event).vmDataCache vmid actorId) :
    VmWatched ⟨x.scheduler.handle event, queued⟩ actorId := by
  have htyped := typed_handle h hkind hqueued
  have hbefore : x.VmWatched actorId := by
    cases occurrences_outcome_le (handle_outcome x.scheduler event) vmid actorId with
    | inl hle => exact (vmWatched_iff x).mp hw.vms vmid actorId (by omega)
    | inr hnew =>
      obtain ⟨actorRef, data, now, hevent, rfl⟩ := hnew
      exact hfrom.1 actorRef data now hevent
  have hvm := htyped.vms vmid actorId hpos
  rw [vmWatched_kind_iff htyped hvm]
  rw [vmWatched_kind_iff h hvm] at hbefore
  cases hbefore with
  | inl hget =>
    cases kind_kept h.registered hkind hget with
    | inl hstays => exact Or.inl hstays
    | inr hlost =>
      have hgone := occurrences_lost hget hlost vmid
      omega
  | inr hnotice =>
    by_cases heq : Event.vmUpdaterStopped actorId = event
    · have hgone := occurrences_stopped (s := x.scheduler) actorId vmid
      rw [heq] at hgone
      omega
    · exact Or.inr (hkept _ hnotice heq)

theorem watched_handle (h : Typed kindOf x) (hw : Watched x) {event : Event}
    (hkind : event.OfKind kindOf) (hfrom : x.FromWatched event) {queued : List Event}
    (hqueued : ∀ other ∈ queued, other ∈ x.queued)
    (hkept : ∀ other ∈ x.queued, other ≠ event → other ∈ queued) :
    Watched ⟨x.scheduler.handle event, queued⟩ where
  agents _ hcached := agentWatched_handle h hw hkind hfrom hqueued hkept hcached
  vms := by
    rw [vmWatched_iff]
    exact fun vmid actorId hpos => vmWatched_handle h hw hkind hfrom hqueued hkept hpos

theorem fromWatched_direct (x : Inbox) {event : Event} (h : event.isPolled = false) :
    x.FromWatched event := by
  refine ⟨?_, ?_⟩
  · rintro actorRef data now rfl
    simp [Event.isPolled] at h
  · rintro msg now revision status rfl
    simp [Event.isPolled] at h

theorem mem_eraseIdx_of_ne {queued : List Event} {position : Nat} {event other : Event}
    (hget : queued[position]? = some event) (hmem : other ∈ queued) (hne : other ≠ event) :
    other ∈ queued.eraseIdx position := by
  rw [List.mem_eraseIdx_iff_getElem]
  obtain ⟨index, hindex, rfl⟩ := List.mem_iff_getElem.mp hmem
  refine ⟨index, hindex, ?_, rfl⟩
  intro heq
  rw [← heq, List.getElem?_eq_getElem hindex] at hget
  exact hne (Option.some.inj hget)

theorem typed_rehash {y : Inbox} (hr : Rehash x.scheduler y.scheduler)
    (hqueued : y.queued = x.queued) (h : Typed kindOf x) : Typed kindOf y where
  registered := by
    refine ⟨?_, ?_, ?_⟩
    · rw [hr.actorKinds]
      exact h.registered.kinds
    · intro actorId htask
      rw [AHashMap.contains, hr.vmKeepaliveTasks] at htask
      rw [hr.actorKinds]
      exact h.registered.vmTasks actorId htask
    · intro actorId htask
      rw [AHashMap.contains, hr.agentKeepaliveTasks] at htask
      rw [hr.actorKinds]
      exact h.registered.agentTasks actorId htask
  queued := hqueued ▸ h.queued
  agents agentId hcached := by
    rw [AHashMap.contains, hr.agentDataCache] at hcached
    exact h.agents agentId hcached
  vms vmid actorId hpos := by
    rw [occurrences, actorsOf, hr.vmDataCache] at hpos
    exact h.vms vmid actorId hpos

theorem watched_rehash {y : Inbox} (hr : Rehash x.scheduler y.scheduler)
    (hqueued : y.queued = x.queued) (h : Watched x) : Watched y := by
  constructor
  · intro agentId hcached
    rw [AHashMap.contains, hr.agentDataCache] at hcached
    have hwatched := h.agents agentId hcached
    unfold AgentWatched AHashMap.contains at hwatched ⊢
    rw [hr.agentKeepaliveTasks, hr.actorKinds, hqueued]
    exact hwatched
  · intro vmid entries hget cachedVm hmem actor href
    rw [hr.vmDataCache] at hget
    have hwatched := h.vms vmid entries hget cachedVm hmem actor href
    unfold VmWatched AHashMap.contains at hwatched ⊢
    rw [hr.vmKeepaliveTasks, hr.actorKinds, hqueued]
    exact hwatched

theorem watched_send (event : Event) (h : Watched x) :
    Watched ⟨x.scheduler, x.queued ++ [event]⟩ := by
  constructor
  · intro agentId hcached
    have hwatched := h.agents agentId hcached
    unfold AgentWatched at hwatched ⊢
    simp only [List.mem_append]
    tauto
  · intro vmid entries hget cachedVm hmem actor href
    have hwatched := h.vms vmid entries hget cachedVm hmem actor href
    unfold VmWatched at hwatched ⊢
    simp only [List.mem_append]
    tauto

theorem watched_step {delivery : Delivery} {y : Inbox} (h : Watched x ∧ Typed kindOf x)
    (hfrom : x.DeliversFromWatched delivery) (hstep : Step kindOf x delivery y) :
    Watched y ∧ Typed kindOf y := by
  obtain ⟨hw, ht⟩ := h
  cases delivery with
  | send event =>
    obtain ⟨_, hkind, rfl⟩ := hstep
    refine ⟨watched_send event hw, ⟨ht.registered, ?_, ht.agents, ht.vms⟩⟩
    intro other hother
    rw [List.mem_append, List.mem_singleton] at hother
    cases hother with
    | inl hold => exact ht.queued other hold
    | inr hnew => exact hnew ▸ hkind
  | deliver position =>
    obtain ⟨event, hget, rfl⟩ := hstep
    have hkind := ht.queued event (List.mem_of_getElem? hget)
    have hqueued : ∀ other ∈ x.queued.eraseIdx position, other ∈ x.queued :=
      fun other hother => List.mem_of_mem_eraseIdx hother
    exact ⟨watched_handle ht hw hkind (hfrom position event rfl hget) hqueued
      fun other hmem hne => mem_eraseIdx_of_ne hget hmem hne, typed_handle ht hkind hqueued⟩
  | direct event =>
    obtain ⟨hpolled, hkind, rfl⟩ := hstep
    exact ⟨watched_handle ht hw hkind (fromWatched_direct x hpolled) (fun _ hother => hother)
      fun _ hmem _ => hmem, typed_handle ht hkind fun _ hother => hother⟩
  | rehash => exact ⟨watched_rehash hstep.1 hstep.2 hw, typed_rehash hstep.1 hstep.2 ht⟩

/-- The converse: an update of an actor that nobody watches leaves an unwatched
entry behind, since handling it registers nothing. -/
theorem unwatched_of_deliver {event : Event} {queued : List Event} (hfrom : ¬ x.FromWatched event)
    (hqueued : ∀ other ∈ queued, other ∈ x.queued) :
    ¬ Watched ⟨x.scheduler.handle event, queued⟩ := by
  intro hw
  apply hfrom
  refine ⟨?_, ?_⟩
  · rintro actorRef data now rfl
    have hsame : SameRegistry x.scheduler (x.scheduler.handle (.vmUpdated actorRef data now)) :=
      handle_registry x.scheduler rfl
    have hstored : 0 < occurrences (x.scheduler.handle (.vmUpdated actorRef data now)).vmDataCache
        data.vmid actorRef.id := by
      change 0 < occurrences (x.scheduler.vmUpdated actorRef data now).vmDataCache _ _
      rw [vmUpdated_eq]
      dsimp only
      rw [occurrences_updated, if_pos ⟨rfl, rfl⟩]
      omega
    have hwatched := (vmWatched_iff _).mp hw.vms data.vmid actorRef.id hstored
    unfold VmWatched at hwatched ⊢
    dsimp only at hwatched
    rw [hsame.vmKeepaliveTasks, hsame.actorKinds] at hwatched
    exact hwatched.imp id (Or.imp id (hqueued _))
  · rintro msg now revision status rfl hupdate hnew
    have hsame : SameRegistry x.scheduler (x.scheduler.handle (.agentUpdated msg now)) :=
      handle_registry x.scheduler rfl
    have hcached : (x.scheduler.handle (.agentUpdated msg now)).agentDataCache.contains
        msg.actorId = true := by
      rw [AHashMap.contains_eq_false] at hnew
      simp [handle, SchedulerActor.agentUpdated, hnew, hupdate, acceptFull,
        AHashMap.contains_insert]
    have hwatched := hw.agents msg.actorId hcached
    unfold AgentWatched at hwatched ⊢
    dsimp only at hwatched
    rw [hsame.agentKeepaliveTasks, hsame.actorKinds] at hwatched
    exact hwatched.imp id (Or.imp id (hqueued _))

end Steps

theorem typed_onStart (kindOf : ActorId → CachedActorKind) : Typed kindOf onStart where
  registered := ⟨by simp [onStart, SchedulerActor.onStart],
    by simp [onStart, SchedulerActor.onStart, AHashMap.contains],
    by simp [onStart, SchedulerActor.onStart, AHashMap.contains]⟩
  queued := by simp [onStart]
  agents := by simp [onStart, SchedulerActor.onStart, AHashMap.contains]
  vms := by simp [onStart, SchedulerActor.onStart, occurrences, actorsOf]

theorem watched_onStart : Watched onStart :=
  ⟨by simp [onStart, SchedulerActor.onStart, AHashMap.contains],
    by simp [onStart, SchedulerActor.onStart]⟩

theorem cache_watched_iff {kindOf : ActorId → CachedActorKind} {run : List (Delivery × Inbox)}
    (hrun : Transition.IsRun (Step kindOf) onStart run) :
    Transition.AllStates Watched onStart run ↔
      Transition.AllSteps DeliversFromWatched onStart run := by
  constructor
  · intro hstates
    apply Transition.allSteps_of_states _ onStart run hrun hstates
    intro x delivery y _ hnot hstep
    simp only [DeliversFromWatched, not_forall] at hnot
    obtain ⟨position, event, rfl, hget, hfrom⟩ := hnot
    obtain ⟨event', hget', rfl⟩ := hstep
    have heq : event' = event := Option.some.inj (hget'.symm.trans hget)
    rw [heq]
    exact unwatched_of_deliver hfrom fun other hother => List.mem_of_mem_eraseIdx hother
  · intro hsteps
    have hstates : Transition.AllStates (fun x => Watched x ∧ Typed kindOf x) onStart run := by
      apply Transition.allStates_of_step _ onStart run _ hrun hsteps
      · exact fun x delivery y hx hc hstep => watched_step hx hc hstep
      · exact ⟨watched_onStart, typed_onStart kindOf⟩
    exact Transition.allStates_mono (fun x hx => hx.1) hstates

/-- A VM actor is discovered and its first report is handled while its task runs. -/
def reportedVm : List (Delivery × Inbox) :=
  let discovered := onStart.scheduler.handle (discoversVm vmActorOne)
  let report := reportsVm vmActorOne 5 (some (sampleManifest 5))
  [(.direct (discoversVm vmActorOne), ⟨discovered, []⟩), (.send report, ⟨discovered, [report]⟩),
    (.deliver 0, ⟨discovered.handle report, []⟩)]

theorem cache_watched_iff_reported : Transition.AllStates Watched onStart reportedVm := by
  have hrun : Transition.IsRun (Step fun _ => .vm) onStart reportedVm :=
    ⟨⟨rfl, rfl, rfl⟩, ⟨rfl, rfl, rfl⟩, ⟨_, rfl, rfl⟩, trivial⟩
  apply (cache_watched_iff hrun).mpr
  refine ⟨?_, ?_, ?_, trivial⟩
  · rintro position event ⟨⟩
  · rintro position event ⟨⟩
  · rintro position event ⟨⟩ hget
    have hreport : event = reportsVm vmActorOne 5 (some (sampleManifest 5)) :=
      (Option.some.inj hget).symm
    rw [hreport]
    refine ⟨?_, ?_⟩
    · intro actorRef data now heq
      have hactor : actorRef = ⟨vmActorOne⟩ := by
        simp only [reportsVm, Event.vmUpdated.injEq] at heq
        exact heq.1.symm
      rw [hactor]
      left
      decide +kernel
    · intro msg now revision status heq
      simp [reportsVm] at heq

/-- The link to an actor dies while its first report waits in the mailbox: the
report is handled after the cleanup. -/
def lateReport (discovers : Event) (id : ActorId) (report : Event) : List (Delivery × Inbox) :=
  let discovered := onStart.scheduler.handle discovers
  let lost := discovered.handle (.linkDied id)
  [(.direct discovers, ⟨discovered, []⟩), (.send report, ⟨discovered, [report]⟩),
    (.direct (.linkDied id), ⟨lost, [report]⟩), (.deliver 0, ⟨lost.handle report, []⟩)]

theorem late_report_unwatched :
    (∃ run, Transition.IsRun (Step fun _ => .agent) onStart run ∧
      ¬ Transition.AllStates Watched onStart run ∧
      (Transition.final onStart run).scheduler.agentDataCache.contains agentOne = true ∧
      ¬ (Transition.final onStart run).AgentWatched agentOne) ∧
    (∃ run, Transition.IsRun (Step fun _ => .vm) onStart run ∧
      ¬ Transition.AllStates Watched onStart run ∧
      isDiscovered (Transition.final onStart run).scheduler.vmDataCache 5 = true ∧
      ¬ (Transition.final onStart run).VmWatched vmActorOne) := by
  constructor
  · have hrun : Transition.IsRun (Step fun _ => .agent) onStart
        (lateReport (discoversAgent agentOne) agentOne (reportsFull agentOne 0 [] 0)) :=
      ⟨⟨rfl, rfl, rfl⟩, ⟨rfl, rfl, rfl⟩, ⟨rfl, trivial, rfl⟩, ⟨_, rfl, rfl⟩, trivial⟩
    generalize hfinal : Transition.final onStart (lateReport (discoversAgent agentOne) agentOne
      (reportsFull agentOne 0 [] 0)) = x
    have hcached : x.scheduler.agentDataCache.contains agentOne = true := by
      rw [← hfinal]
      decide +kernel
    have hunwatched : ¬ x.AgentWatched agentOne := by
      have htask : x.scheduler.agentKeepaliveTasks.contains agentOne = false := by
        rw [← hfinal]
        decide +kernel
      have hkind : x.scheduler.actorKinds.contains agentOne = false := by
        rw [← hfinal]
        decide +kernel
      have hqueued : x.queued = [] := by
        rw [← hfinal]
        rfl
      simp [AgentWatched, htask, hkind, hqueued]
    refine ⟨_, hrun, ?_, hfinal ▸ hcached, hfinal ▸ hunwatched⟩
    intro hstates
    have hwatched := Transition.final_of_allStates _ _ hstates
    rw [hfinal] at hwatched
    exact hunwatched (hwatched.agents agentOne hcached)
  · have hrun : Transition.IsRun (Step fun _ => .vm) onStart (lateReport (discoversVm vmActorOne)
        vmActorOne (reportsVm vmActorOne 5 (some (sampleManifest 5)))) :=
      ⟨⟨rfl, rfl, rfl⟩, ⟨rfl, rfl, rfl⟩, ⟨rfl, trivial, rfl⟩, ⟨_, rfl, rfl⟩, trivial⟩
    generalize hfinal : Transition.final onStart (lateReport (discoversVm vmActorOne) vmActorOne
      (reportsVm vmActorOne 5 (some (sampleManifest 5)))) = x
    have hstored : x.scheduler.vmDataCache.get 5 = some [⟨some ⟨vmActorOne⟩⟩] := by
      rw [← hfinal]
      decide +kernel
    have hdiscovered : isDiscovered x.scheduler.vmDataCache 5 = true := by
      simp [isDiscovered, hstored]
    have hunwatched : ¬ x.VmWatched vmActorOne := by
      have htask : x.scheduler.vmKeepaliveTasks.contains vmActorOne = false := by
        rw [← hfinal]
        decide +kernel
      have hkind : x.scheduler.actorKinds.contains vmActorOne = false := by
        rw [← hfinal]
        decide +kernel
      have hqueued : x.queued = [] := by
        rw [← hfinal]
        rfl
      simp [VmWatched, htask, hkind, hqueued]
    refine ⟨_, hrun, ?_, hfinal ▸ hdiscovered, hfinal ▸ hunwatched⟩
    intro hstates
    have hwatched := Transition.final_of_allStates _ _ hstates
    rw [hfinal] at hwatched
    exact hunwatched (hwatched.vms 5 _ hstored _ (List.mem_singleton.mpr rfl) _ rfl)

end Inbox

end Odorobo
