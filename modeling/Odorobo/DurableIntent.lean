import Odorobo.StoppedVms

/-! VM intent after an accepted create. No handler takes the manifest of a VM
away but an explicit stop; the one that writes over it is the report of a VM
actor, which is believed also when it belongs to an older incarnation. -/

namespace Odorobo.SchedulerActor

/-- The event is a stop of the VM that succeeds. -/
def Stops (vmid : Ulid) (s : SchedulerActor) (event : Event) : Prop :=
  ∃ env, (event = .deleteVM vmid env ∨ event = .shutdownVM vmid env) ∧
    (s.stopVM vmid env).1 = .ok ()

def Event.isStop : Event → Bool
  | .deleteVM .. => true
  | .shutdownVM .. => true
  | _ => false

theorem not_stops {vmid : Ulid} {s : SchedulerActor} {event : Event} (h : event.isStop = false) :
    ¬ Stops vmid s event := by
  rintro ⟨env, hevent, -⟩
  cases hevent with
  | inl heq => simp [heq, Event.isStop] at h
  | inr heq => simp [heq, Event.isStop] at h

/-- The event reports another manifest for the VM. -/
def replacesIntent (vmid : Ulid) (config : VmManifest) : Event → Bool
  | .vmUpdated _ data _ => data.vmid = vmid && data.config.any fun manifest => manifest ≠ config
  | _ => false

/-- The intent of the VM in every state passed. -/
def Retained (vmid : Ulid) (config : VmManifest) (s : SchedulerActor)
    (run : List (Action × SchedulerActor)) : Prop :=
  Transition.AllStates (fun t => t.vmManifests.get vmid = some config) s run

/-- No step of the run stops the VM. -/
def Unstopped (vmid : Ulid) (s : SchedulerActor) (run : List (Action × SchedulerActor)) : Prop :=
  Transition.AllSteps (fun t action => ∀ event, action = .handle event → ¬ Stops vmid t event) s run

theorem vmUpdated_vmManifests (s : SchedulerActor) (actorRef : RemoteActorRef .vm)
    (data : GetVMInfoReply) (now : ActorId → Instant) :
    (s.vmUpdated actorRef data now).vmManifests = s.reportedManifests data := by
  rw [vmUpdated_eq]

theorem get_reportedManifests (s : SchedulerActor) (data : GetVMInfoReply) (vmid : Ulid) :
    (s.reportedManifests data).get vmid =
      if data.vmid = vmid ∧ data.config.isSome then data.config else s.vmManifests.get vmid := by
  unfold reportedManifests
  cases data.config with
  | none => simp
  | some manifest => simp [AHashMap.get_insert, eq_comm]

theorem retained_outcome {s t : SchedulerActor} {event : Event} (outcome : Outcome s event t)
    {vmid : Ulid} {config : VmManifest} (h : s.vmManifests.get vmid = some config)
    (hstop : ¬ Stops vmid s event) (hreplace : replacesIntent vmid config event = false) :
    t.vmManifests.get vmid = some config := by
  cases outcome with
  | watch => exact h
  | vmUpdated actorRef data now =>
    rw [vmUpdated_vmManifests, get_reportedManifests]
    cases hconfig : data.config with
    | none => simpa using h
    | some manifest =>
      by_cases hvm : data.vmid = vmid
      · have hsame : manifest = config := by
          simpa [replacesIntent, hvm, hconfig] using hreplace
        simp [hvm, hsame]
      · simpa [hvm] using h
  | vmLost event kinds id =>
    rw [cleanupVmActor_eq]
    exact h
  | agentLost => exact h
  | full => exact h
  | delta => exact h
  | tick now env =>
    rw [reconcile_vmManifests]
    exact h
  | unscheduled => exact h
  | created msg env agent hunknown =>
    -- A create of an unknown VM is a create of another one.
    have hne : vmid ≠ msg.vmid := by
      intro heq
      rw [heq, hunknown] at h
      simp at h
    exact (created_vmManifests_ne s msg env agent.id hne).trans h
  | stopped event stopped env hevent hreply =>
    have hne : vmid ≠ stopped := by
      intro heq
      subst heq
      exact hstop ⟨env, hevent, hreply⟩
    exact (AHashMap.get_erase_ne _ hne).trans h

theorem intent_replaced {s : SchedulerActor} {vmid : Ulid} {config : VmManifest} {event : Event}
    (h : replacesIntent vmid config event = true) :
    (s.handle event).vmManifests.get vmid ≠ some config := by
  cases event with
  | vmUpdated actorRef data now =>
    simp only [replacesIntent, Bool.and_eq_true, decide_eq_true_eq, Option.any_eq_true] at h
    obtain ⟨hvm, manifest, hconfig, hne⟩ := h
    change (s.vmUpdated actorRef data now).vmManifests.get vmid ≠ some config
    rw [vmUpdated_vmManifests, get_reportedManifests]
    simpa [hvm, hconfig] using hne
  | _ => simp [replacesIntent] at h

/-- An accepted create leaves the requested manifest, whether it found it there
or placed it. -/
theorem createVM_accepted {s : SchedulerActor} {msg : CreateVM} {env : CreateEnv}
    {reply : CreateVMReply} (h : (s.createVM msg env).1 = .ok reply) :
    (s.createVM msg env).2.vmManifests.get msg.vmid = some msg.config := by
  cases hget : s.vmManifests.get msg.vmid with
  | some existing =>
    rw [createVM_of_known env hget, hget]
    unfold createVM at h
    rw [hget] at h
    dsimp only at h
    split at h
    · simp at h
    · next hsame => rw [not_not.mp hsame]
  | none =>
    rw [createVM_of_unknown env hget] at h ⊢
    cases hbest : s.bestAgent msg with
    | none => simp [hbest] at h
    | some agent =>
      rw [hbest] at h
      have hreserved : (s.vmManifests.insert msg.vmid msg.config).get msg.vmid = some msg.config :=
        AHashMap.get_insert_self _ _ _
      dsimp only at h ⊢
      unfold settleCreate
      rw [h]
      dsimp only
      split <;> exact hreserved

theorem accepted_intent_durable_iff {s : SchedulerActor} {msg : CreateVM} {env : CreateEnv}
    {reply : CreateVMReply} (hreply : (s.createVM msg env).1 = .ok reply)
    (run : List (Action × SchedulerActor))
    (hrun : Transition.IsRun Step (s.handle (.createVM msg env)) run)
    (hunstopped : Unstopped msg.vmid (s.handle (.createVM msg env)) run) :
    Retained msg.vmid msg.config (s.handle (.createVM msg env)) run ↔
      Without (replacesIntent msg.vmid msg.config) (s.handle (.createVM msg env)) run := by
  have hstart : (s.handle (.createVM msg env)).vmManifests.get msg.vmid = some msg.config :=
    createVM_accepted hreply
  constructor
  · intro hretained
    apply Transition.allSteps_of_states _ _ run hrun hretained
    intro t action u _ hreplaces hstep hu
    simp only [not_forall] at hreplaces
    obtain ⟨event, rfl, hreplace⟩ := hreplaces
    rw [show u = t.handle event from hstep] at hu
    exact intent_replaced (by simpa using hreplace) hu
  · intro hwithout
    apply Transition.allStates_of_step _ _ run hstart hrun
      (Transition.allSteps_and _ run hunstopped hwithout)
    intro t action u ht hallowed hstep
    cases action with
    | handle event =>
      rw [show u = t.handle event from hstep]
      exact retained_outcome (handle_outcome t event) ht (hallowed.1 event rfl)
        (hallowed.2 event rfl)
    | rehash =>
      have hr : Rehash t u := hstep
      rw [hr.vmManifests]
      exact ht

/-- A created VM whose agent is lost and whose create is sent again. -/
theorem accepted_intent_durable_iff_agent_lost :
    let s := handleAll [reportsFull agentOne 0 [] 0]
    let create : CreateVM := ⟨5, sampleManifest 5⟩
    let t := s.handle (createsVm 5 1)
    let run := runFrom t [.agentUpdaterStopped agentOne, ticks 2,
      reportsVm vmActorOne 5 (some (sampleManifest 5))]
    Retained create.vmid create.config t run := by
  intro s create t run
  apply (@accepted_intent_durable_iff s create ⟨1, .ok ⟨none, none⟩, true⟩ ⟨none, none⟩ ?_ run
    (isRun_runFrom t _) ?_).mpr
  · refine ⟨?_, ?_, ?_, trivial⟩ <;>
    · rintro event ⟨⟩
      decide +kernel
  · decide +kernel
  · refine ⟨?_, ?_, ?_, trivial⟩ <;>
    · rintro event ⟨⟩
      exact not_stops rfl

/-- The VM is created with two vCPUs, deleted and created again with one; then a report of
the first actor, under way since before the delete, is handled. -/
theorem accepted_intent_overwritten :
    let old : Event := .createVM ⟨5, sizedManifest 5 2 512⟩ ⟨1, .ok ⟨none, none⟩, true⟩
    let s := handleAll [reportsFull agentOne 0 [] 0, old, discoversVm vmActorOne,
      deletesVm vmActorOne 5]
    let t := s.handle (createsVm 5 2)
    let report := reportsVm vmActorOne 5 (some (sizedManifest 5 2 512))
    Reachable s ∧
      (s.createVM ⟨5, sampleManifest 5⟩ ⟨2, .ok ⟨none, none⟩, true⟩).1 = .ok ⟨none, none⟩ ∧
      t.vmManifests.get 5 = some (sampleManifest 5) ∧
      Unstopped 5 t [(.handle report, t.handle report)] ∧
      (t.handle report).vmManifests.get 5 = some (sizedManifest 5 2 512) ∧
      ¬ Retained 5 (sampleManifest 5) t [(.handle report, t.handle report)] := by
  intro old s t report
  have hover : (t.handle report).vmManifests.get 5 = some (sizedManifest 5 2 512) := by decide +kernel
  refine ⟨reachable_handleAll _, by decide +kernel, by decide +kernel, ?_, hover, ?_⟩
  · refine ⟨?_, trivial⟩
    rintro event ⟨⟩
    exact not_stops rfl
  · intro hretained
    have hsame := hretained.2 _ (List.mem_singleton.mpr rfl)
    dsimp only at hsame
    rw [hover] at hsame
    exact absurd hsame (by decide +kernel)

end Odorobo.SchedulerActor
