import Odorobo.AgentAccounting

/-! A delta against a snapshot. A delta sums up the membership changes since the
revision the reader holds; applied to the snapshot of that revision it gives the
snapshot of the agent that answered. -/

namespace Odorobo.AgentActor

/-- An operation on the set of VMs, or another iteration order of the table. -/
inductive MembershipAction where
  | perform (op : MembershipOp)
  | rehash

def MembershipStep (agent : AgentActor) : MembershipAction → AgentActor → Prop
  | .perform op, agent' => agent' = agent.perform op
  | .rehash, agent' => Rehash agent agent'

/-- The membership changes made along a run. -/
def changesAlong : AgentActor → List (MembershipAction × AgentActor) → List (Ulid × Bool)
  | _, [] => []
  | agent, (.perform op, agent') :: rest => agent.changesOf op ++ changesAlong agent' rest
  | _, (.rehash, agent') :: rest => changesAlong agent' rest

def IsDelta (update : AgentStatusUpdate) : Prop :=
  ∃ revision added removed usedVcpus usedRam,
    update = .delta revision added removed usedVcpus usedRam

theorem changesAlong_append (agent : AgentActor) (before after : List (MembershipAction × AgentActor)) :
    changesAlong agent (before ++ after) =
      changesAlong agent before ++ changesAlong (Transition.final agent before) after := by
  induction before generalizing agent with
  | nil => rfl
  | cons step before ih =>
    obtain ⟨action, agent'⟩ := step
    cases action with
    | perform op =>
      change agent.changesOf op ++ changesAlong agent' (before ++ after) = _
      rw [ih, ← List.append_assoc]
      rfl
    | rehash => exact ih agent'

/-! What a run records and what it leaves alone. -/

theorem Recorded.rehash {log : List (Ulid × Bool)} {agent agent' : AgentActor}
    (h : Recorded log agent) (hrehash : Rehash agent agent') : Recorded log agent' where
  revision := by
    rw [hrehash.same]
    exact h.revision
  history := by
    rw [hrehash.same]
    exact h.history
  held := by
    rw [← h.held]
    ext vmid
    rw [AHashMap.mem_keys, AHashMap.mem_keys, hrehash.vms]

theorem Recorded.run {log : List (Ulid × Bool)} {agent : AgentActor} (h : Recorded log agent)
    (run : List (MembershipAction × AgentActor))
    (hrun : Transition.IsRun MembershipStep agent run) :
    Recorded (log ++ changesAlong agent run) (Transition.final agent run) := by
  induction run generalizing log agent with
  | nil =>
    rw [changesAlong, List.append_nil]
    exact h
  | cons step run ih =>
    obtain ⟨action, agent'⟩ := step
    obtain ⟨hstep, hrest⟩ := hrun
    cases action with
    | perform op =>
      have hnext : Recorded (log ++ agent.changesOf op) agent' := by
        rw [show agent' = agent.perform op from hstep]
        exact h.perform op
      rw [changesAlong, ← List.append_assoc]
      exact ih hnext hrest
    | rehash => exact ih (h.rehash hstep) hrest

/-- The same host: what a status says apart from the VMs and their usage. -/
structure SameHost (agent agent' : AgentActor) : Prop where
  hostname : agent'.config.getHostname agent'.systemHostname =
    agent.config.getHostname agent.systemHostname
  vcpus : agent'.vcpus = agent.vcpus
  memory : agent'.memory = agent.memory
  metadata : agent'.metadata = agent.metadata

theorem sameHost_perform (agent : AgentActor) (op : MembershipOp) :
    SameHost agent (agent.perform op) := by
  cases op with
  | insertVm vmid cache =>
    rw [perform, insertVm]
    cases agent.vms.get vmid <;> constructor <;> rfl
  | removeVm vmid =>
    rw [perform, removeVm]
    cases agent.vms.get vmid <;> constructor <;> rfl

theorem sameHost_step {agent agent' : AgentActor} {action : MembershipAction}
    (hstep : MembershipStep agent action agent') : SameHost agent agent' := by
  cases action with
  | perform op =>
    rw [show agent' = agent.perform op from hstep]
    exact sameHost_perform agent op
  | rehash =>
    rw [(show Rehash agent agent' from hstep).same]
    exact ⟨rfl, rfl, rfl, rfl⟩

theorem sameHost_run (agent : AgentActor) (run : List (MembershipAction × AgentActor))
    (hrun : Transition.IsRun MembershipStep agent run) :
    SameHost agent (Transition.final agent run) := by
  induction run generalizing agent with
  | nil => exact ⟨rfl, rfl, rfl, rfl⟩
  | cons step run ih =>
    obtain ⟨action, agent'⟩ := step
    have hfirst := sameHost_step hrun.1
    have hrest := ih agent' hrun.2
    exact ⟨hrest.hostname.trans hfirst.hostname, hrest.vcpus.trans hfirst.vcpus,
      hrest.memory.trans hfirst.memory, hrest.metadata.trans hfirst.metadata⟩

/-! The answer to a reader that holds an earlier revision. -/

section Answer

variable {log changes : List (Ulid × Bool)} {agent agent' : AgentActor}

theorem isDelta_iff (agent : AgentActor) (msg : GetAgentStatus) :
    IsDelta (agent.getAgentStatus msg) ↔ agent.needsFull msg = false := by
  unfold getAgentStatus IsDelta
  cases agent.needsFull msg <;> simp

/-- The history reaches back far enough. -/
theorem Recorded.not_needsFull (h : Recorded log agent) (h' : Recorded (log ++ changes) agent')
    (hfew : (log ++ changes).length < 2 ^ 64) (hrecent : changes.length ≤ statusChangeHistoryLimit) :
    agent'.needsFull ⟨agent.membershipRevision, false⟩ = false := by
  have hlength : (log ++ changes).length = log.length + changes.length := List.length_append
  have hsince := h.val_revision (by omega)
  rw [needsFull, Bool.false_or, Bool.or_eq_false_iff, decide_eq_false_iff_not, Fin.lt_def,
    h'.val_revision hfew, hsince]
  refine ⟨by omega, ?_⟩
  rw [h'.history]
  cases (log ++ changes).drop ((log ++ changes).length - statusChangeHistoryLimit) with
  | nil => rfl
  | cons change rest =>
    have hlast : (Saturating.add agent.membershipRevision 1).val =
        min (agent.membershipRevision.val + 1) (2 ^ 64 - 1) := rfl
    rw [numbered, List.head?_cons, Option.any_some, decide_eq_false_iff_not, Fin.lt_def, hlast,
      Saturating.val_clamp, hsince]
    omega

/-- The listed VMs after a delta are those that the agent holds. -/
theorem Recorded.vms_of_delta (h : Recorded log agent) (h' : Recorded (log ++ changes) agent')
    (hfew : (log ++ changes).length < 2 ^ 64)
    (hdelta : agent'.needsFull ⟨agent.membershipRevision, false⟩ = false) :
    applyMembership agent.fullStatus.vms
        (changedTo (agent'.latestChanges agent.membershipRevision) true)
        (changedTo (agent'.latestChanges agent.membershipRevision) false) =
      agent'.fullStatus.vms := by
  have hsorted := agent.pairwise_fullStatus
  have hsince : agent.membershipRevision.val = log.length := by
    apply h.val_revision
    rw [List.length_append] at hfew
    omega
  have hsummary := h'.summarises hfew hdelta
  rw [hsince] at hsummary
  apply (pairwise_applyMembership hsorted).eq_of_mem_iff agent'.pairwise_fullStatus
  intro vmid
  rw [mem_applyMembership hsorted, mem_fullStatus, mem_fullStatus, h.held, h'.held,
    ChangeLog.mem_replay_of_summary hsummary, ChangeLog.heldAt_append changes le_rfl,
    ChangeLog.heldAt_length]

theorem Recorded.apply_delta (h : Recorded log agent) (h' : Recorded (log ++ changes) agent')
    (hfew : (log ++ changes).length < 2 ^ 64) (hhost : SameHost agent agent')
    (hdelta : IsDelta (agent'.getAgentStatus ⟨agent.membershipRevision, false⟩)) :
    applyStatusUpdate agent.fullStatus (agent'.getAgentStatus ⟨agent.membershipRevision, false⟩) =
      (agent'.fullStatus, agent'.membershipRevision) := by
  rw [isDelta_iff] at hdelta
  have hvms := h.vms_of_delta h' hfew hdelta
  have hstatus : agent'.fullStatus =
      { agent.fullStatus with
        vms := agent'.fullStatus.vms
        usedVcpus := agent'.reportedVcpus
        usedRam := agent'.usedMemoryBytes } := by
    simp only [fullStatus, hhost.hostname, hhost.vcpus, hhost.memory, hhost.metadata]
  rw [getAgentStatus, hdelta, hstatus]
  simp only [Bool.false_eq_true, if_false, applyStatusUpdate, hvms]

end Answer

theorem delta_agrees_with_full (config : Config) (host : Host)
    (before after : List (MembershipAction × AgentActor))
    (hrun : Transition.IsRun MembershipStep (onStart config host) (before ++ after))
    (hfew : (changesAlong (onStart config host) (before ++ after)).length < 2 ^ 64) :
    let earlier := Transition.final (onStart config host) before
    let later := Transition.final (onStart config host) (before ++ after)
    let answer := later.getAgentStatus ⟨earlier.membershipRevision, false⟩
    (IsDelta answer → applyStatusUpdate earlier.fullStatus answer =
        (later.fullStatus, later.membershipRevision)) ∧
      ((changesAlong earlier after).length ≤ 256 → IsDelta answer) := by
  intro earlier later answer
  obtain ⟨hbefore, hafter⟩ := (Transition.isRun_append _ before after).mp hrun
  have hlater : later = Transition.final earlier after := Transition.final_append _ before after
  have hearlier : Recorded (changesAlong (onStart config host) before) earlier :=
    (recorded_onStart config host).run before hbefore
  have hrecorded := hearlier.run after hafter
  rw [changesAlong_append] at hfew
  rw [← hlater] at hrecorded
  refine ⟨?_, ?_⟩
  · apply hearlier.apply_delta hrecorded hfew
    rw [hlater]
    exact sameHost_run earlier after hafter
  · intro hrecent
    exact (isDelta_iff _ _).mpr (hearlier.not_needsFull hrecorded hfew hrecent)

section Samples

/-- The next state of an operation; the samples have no other iteration orders. -/
def membershipNext (agent : AgentActor) : MembershipAction → Option AgentActor
  | .perform op => some (agent.perform op)
  | .rehash => none

def membershipRun (agent : AgentActor) (ops : List MembershipOp) :
    List (MembershipAction × AgentActor) :=
  Transition.play membershipNext agent (ops.map .perform)

theorem isRun_membershipRun (agent : AgentActor) (ops : List MembershipOp) :
    Transition.IsRun MembershipStep agent (membershipRun agent ops) := by
  apply Transition.isRun_play
  intro agent action agent' hnext
  cases action with
  | perform op => exact (Option.some.inj hnext).symm
  | rehash => simp [membershipNext] at hnext

def heldVm (vcpus : U32) : VMCacheData :=
  ⟨⟨⟨7, 1⟩⟩, SchedulerActor.sizedManifest 5 vcpus 1, vcpus, 1⟩

def twoVms : List (MembershipAction × AgentActor) :=
  membershipRun sampleAgent [.insertVm 5 (heldVm 1), .insertVm 6 (heldVm 1)]

/-- One VM is removed and comes back with another size, the other is removed. -/
def readded : List (MembershipAction × AgentActor) :=
  membershipRun (Transition.final sampleAgent twoVms)
    [.removeVm 5, .insertVm 5 (heldVm 2), .removeVm 6]

end Samples

theorem delta_agrees_with_full_readded :
    let earlier := Transition.final sampleAgent twoVms
    let later := Transition.final sampleAgent (twoVms ++ readded)
    let answer := later.getAgentStatus ⟨earlier.membershipRevision, false⟩
    (changesAlong sampleAgent (twoVms ++ readded)).length = 5 ∧ IsDelta answer ∧
      applyStatusUpdate earlier.fullStatus answer = (later.fullStatus, later.membershipRevision) := by
  have hcount : (changesAlong sampleAgent (twoVms ++ readded)).length = 5 := by decide +kernel
  have hrun : Transition.IsRun MembershipStep sampleAgent (twoVms ++ readded) :=
    (Transition.isRun_append _ _ _).mpr ⟨isRun_membershipRun _ _, isRun_membershipRun _ _⟩
  have hagrees := delta_agrees_with_full _ _ twoVms readded hrun
    (lt_of_eq_of_lt hcount (by decide))
  have hdelta := hagrees.2 (by decide +kernel)
  exact ⟨hcount, hdelta, hagrees.1 hdelta⟩

end Odorobo.AgentActor
