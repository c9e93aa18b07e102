import Odorobo.SchedulerRuns

/-! VM intent after an explicit stop. Dropping the manifest is enough against
every handler but one: a VM actor that reports its manifest is believed, also
when the report was under way before the stop. -/

namespace Odorobo.SchedulerActor

/-- The event reports a manifest for the VM. -/
def restoresIntent (vmid : Ulid) : Event → Bool
  | .vmUpdated _ data _ => data.vmid = vmid && data.config.isSome
  | _ => false

/-- The event is a client create for the VM. -/
def createsIntent (vmid : Ulid) : Event → Bool
  | .createVM msg _ => msg.vmid = vmid
  | _ => false

def Event.isReconcile : Event → Bool
  | .reconcileVmPlacements _ _ => true
  | _ => false

theorem intent_outcome {s t : SchedulerActor} {event : Event} (outcome : Outcome s event t)
    {vmid : Ulid} (h : s.vmManifests.get vmid = none) (hcreate : createsIntent vmid event = false)
    (hrestore : restoresIntent vmid event = false) : t.vmManifests.get vmid = none := by
  cases outcome with
  | watch => exact h
  | vmUpdated actorRef data now =>
    rw [vmUpdated_eq]
    change (s.reportedManifests data).get vmid = none
    unfold reportedManifests
    cases hconfig : data.config with
    | none => exact h
    | some manifest =>
      have hne : vmid ≠ data.vmid := by
        intro heq
        simp [restoresIntent, hconfig, heq] at hrestore
      exact (AHashMap.get_insert_ne _ _ hne).trans h
  | vmLost event kinds id =>
    rw [cleanupVmActor_eq]
    exact h
  | agentLost => exact h
  | full => exact h
  | delta => exact h
  | tick now env =>
    rw [reconcile_vmManifests]
    exact h
  | unscheduled => exact h
  | created msg env agent =>
    have hne : vmid ≠ msg.vmid := by
      intro heq
      simp [createsIntent, heq] at hcreate
    exact (created_vmManifests_ne s msg env agent.id hne).trans h
  | stopped event stopped =>
    change (s.vmManifests.erase stopped).get vmid = none
    rw [AHashMap.get_erase, h, ite_self]

theorem intent_restored {s : SchedulerActor} {vmid : Ulid} {event : Event}
    (h : restoresIntent vmid event = true) : (s.handle event).vmManifests.get vmid ≠ none := by
  cases event with
  | vmUpdated actorRef data now =>
    simp only [restoresIntent, Bool.and_eq_true, decide_eq_true_eq,
      Option.isSome_iff_exists] at h
    obtain ⟨rfl, manifest, hconfig⟩ := h
    have hget : (s.reportedManifests data).get data.vmid = some manifest := by
      rw [reportedManifests, hconfig]
      exact AHashMap.get_insert_self _ _ _
    change (s.vmUpdated actorRef data now).vmManifests.get data.vmid ≠ none
    rw [vmUpdated_eq]
    simp [hget]
  | _ => simp [restoresIntent] at h

/-- The loop re-creates VMs with intent only. -/
theorem no_recreate_without_intent {s : SchedulerActor} {vmid : Ulid} {event : Event}
    (h : s.vmManifests.get vmid = none) (hreconcile : event.isReconcile = true) :
    ∀ d ∈ s.dispatches event, d.request.vmid ≠ vmid := by
  intro d hd heq
  have hcall := (mem_dispatches hd).1
  cases mem_scheduleCalls hcall with
  | inl hcreate =>
    obtain ⟨_, _, env, rfl⟩ := hcreate
    simp [Event.isReconcile] at hreconcile
  | inr hloop =>
    obtain ⟨now, env, rfl, hmem⟩ := hloop
    have hrule := reconcile_rule (P := fun t => t.vmManifests = s.vmManifests) s now env rfl
      fun t vm ht _ => (recreate_vmManifests env t vm).trans ht
    obtain ⟨hmanifests, hunplaced⟩ := hrule.2 _ hmem
    have hintent := hunplaced.intent
    dsimp only at hmanifests hintent
    rw [hmanifests, heq, h] at hintent
    simp at hintent

/-- After a stop: no intent, and no re-creation by the periodic loop. -/
def StaysGone (vmid : Ulid) (s : SchedulerActor) (run : List (Action × SchedulerActor)) : Prop :=
  Transition.AllStates (fun t => t.vmManifests.get vmid = none) s run ∧
    Transition.AllSteps (fun t action => ∀ event, action = .handle event →
      event.isReconcile = true → ∀ d ∈ t.dispatches event, d.request.vmid ≠ vmid) s run

/-- No handled event of the run satisfies the predicate. -/
def Without (p : Event → Bool) (s : SchedulerActor) (run : List (Action × SchedulerActor)) : Prop :=
  Transition.AllSteps (fun _ action => ∀ event, action = .handle event → p event = false) s run

theorem stopVM_vmManifests {s : SchedulerActor} {vmid : Ulid} {env : StopEnv}
    (h : (s.stopVM vmid env).1 = .ok ()) : (s.stopVM vmid env).2.vmManifests.get vmid = none := by
  unfold stopVM at h ⊢
  split
  · next hlookup => simp [hlookup] at h
  · next hlookup => simp [hlookup] at h
  · next hlookup =>
    split
    · next hsent => simp [hlookup, hsent] at h
    · exact AHashMap.get_erase_self _ _

theorem stopped_vm_stays_gone_iff {s : SchedulerActor} {vmid : Ulid} {env : StopEnv}
    {stop : Event} (hstop : stop = .deleteVM vmid env ∨ stop = .shutdownVM vmid env)
    (hreply : (s.stopVM vmid env).1 = .ok ()) (run : List (Action × SchedulerActor))
    (hrun : Transition.IsRun Step (s.handle stop) run)
    (hcreate : Without (createsIntent vmid) (s.handle stop) run) :
    StaysGone vmid (s.handle stop) run ↔ Without (restoresIntent vmid) (s.handle stop) run := by
  have hgone : (s.handle stop).vmManifests.get vmid = none := by
    cases hstop with
    | inl hdelete =>
      rw [hdelete]
      exact stopVM_vmManifests hreply
    | inr hshutdown =>
      rw [hshutdown]
      exact stopVM_vmManifests hreply
  constructor
  · intro hstays
    apply Transition.allSteps_of_states _ _ run hrun hstays.1
    intro t action u _ hrestores hstep hu
    simp only [not_forall] at hrestores
    obtain ⟨event, rfl, hrestore⟩ := hrestores
    rw [show u = t.handle event from hstep] at hu
    exact intent_restored (by simpa using hrestore) hu
  · intro hrestore
    have hstates : Transition.AllStates (fun t => t.vmManifests.get vmid = none) (s.handle stop)
        run := by
      apply Transition.allStates_of_step _ _ run hgone hrun
        (Transition.allSteps_and _ run hcreate hrestore)
      intro t action u ht hallowed hstep
      cases action with
      | handle event =>
        rw [show u = t.handle event from hstep]
        exact intent_outcome (handle_outcome t event) ht (hallowed.1 event rfl)
          (hallowed.2 event rfl)
      | rehash =>
        have hr : Rehash t u := hstep
        rw [hr.vmManifests]
        exact ht
    refine ⟨hstates, Transition.allSteps_of_allStates ?_ _ run hstates⟩
    intro t action ht event _ hreconcile
    exact no_recreate_without_intent ht hreconcile

theorem stopped_vm_stays_gone_iff_tick :
    let s := handleAll [reportsFull agentOne 0 [] 0, createsVm 5 1,
      reportsVm vmActorOne 5 (some (sampleManifest 5))]
    let t := s.handle (deletesVm vmActorOne 5)
    s.vmManifests.contains 5 = true ∧
      StaysGone 5 t [(.handle (ticks 2), t.handle (ticks 2))] := by
  intro s t
  have hrun : Transition.IsRun Step t [(.handle (ticks 2), t.handle (ticks 2))] := ⟨rfl, trivial⟩
  refine ⟨by decide +kernel, ?_⟩
  apply (stopped_vm_stays_gone_iff (Or.inl rfl) rfl _ hrun _).mpr
  · refine ⟨?_, trivial⟩
    rintro event ⟨⟩
    rfl
  · refine ⟨?_, trivial⟩
    rintro event ⟨⟩
    rfl

/-- The manifest a VM actor reported before its delete is handled after it: the
intent is back, and the next tick re-creates the deleted VM. -/
theorem stopped_vm_recreated :
    let s := handleAll [reportsFull agentOne 0 [] 0, createsVm 5 1, discoversVm vmActorOne]
    let t := s.handle (deletesVm vmActorOne 5)
    let u := t.handle (reportsVm vmActorOne 5 (some (sampleManifest 5)))
    Reachable s ∧ (s.stopVM 5 ⟨.ok (some ⟨vmActorOne⟩), .ok ()⟩).1 = .ok () ∧
      t.vmManifests.contains 5 = false ∧ u.vmManifests.contains 5 = true ∧
      (∃ d ∈ u.dispatches (ticks 2), d.request.vmid = 5 ∧ d.agent.id = agentOne) ∧
      ¬ StaysGone 5 t [(.handle (reportsVm vmActorOne 5 (some (sampleManifest 5))), u)] := by
  intro s t u
  have hback : u.vmManifests.contains 5 = true := by decide +kernel
  have hdispatch : ((u.dispatches (ticks 2)).any fun d =>
      d.request.vmid = 5 && d.agent.id = agentOne) = true := by
    decide +kernel
  refine ⟨reachable_handleAll _, rfl, by decide +kernel, hback, ?_, ?_⟩
  · obtain ⟨d, hd, hfive⟩ := List.any_eq_true.mp hdispatch
    rw [Bool.and_eq_true, decide_eq_true_eq, decide_eq_true_eq] at hfive
    exact ⟨d, hd, hfive⟩
  · intro hstays
    have hnone := hstays.1.2 _ (List.mem_singleton.mpr rfl)
    dsimp only at hnone
    rw [AHashMap.contains, hnone] at hback
    simp at hback

end Odorobo.SchedulerActor
