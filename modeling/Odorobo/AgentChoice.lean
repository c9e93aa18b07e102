import Odorobo.Capacity
import Odorobo.ManifestValidation

/-! The choice of an agent against what it is for: among the agents that have
room and follow every required rule, one that the preferred rules rank highest,
and among those one with the most headroom left. -/

namespace Odorobo

theorem pos_of_validateCompute {compute : Compute}
    (h : DesiredState.validateCompute compute = .ok ()) :
    0 < compute.vcpus.val ∧ 0 < compute.memoryBytes.val := by
  unfold DesiredState.validateCompute at h
  split at h
  · cases h
  · next hvcpus =>
    split at h
    · cases h
    · split at h
      · cases h
      · next hmemory =>
        exact ⟨Fin.pos_iff_ne_zero.mpr hvcpus, Fin.pos_iff_ne_zero.mpr hmemory⟩

/-- The request of a valid manifest is not empty. -/
theorem compute_pos_of_validate {manifest : VmManifest} (h : manifest.validate = .ok ()) :
    0 < manifest.desired.compute.vcpus.val ∧ 0 < manifest.desired.compute.memoryBytes.val :=
  pos_of_validateCompute (VmManifest.checked_of_validate h).compute

/-! Scores. -/

namespace AgentScore

/-- The scores of the agents that are not rejected. -/
def IsFinite (score : AgentScore) : Prop := ∃ value, score.general = .finite value

theorem exceeds_iff {a b : AgentScore} {x y : ℚ} (ha : a.general = .finite x)
    (hb : b.general = .finite y) :
    a.exceeds b = true ↔
      b.affinity.val < a.affinity.val ∨ a.affinity.val = b.affinity.val ∧ y < x := by
  simp only [exceeds, partialCmp, ha, hb, BinaryFloat.partialCmp, decide_eq_true_eq]
  grind

theorem exceeds_rejected {a : AgentScore} (h : a.IsFinite) : a.exceeds rejected = true := by
  obtain ⟨value, hvalue⟩ := h
  have hmin := I64.min_le a.affinity
  have hgeneral : a.general.partialCmp rejected.general = some .gt := by
    rw [hvalue]
    rfl
  have hlow : ¬ a.affinity.val < rejected.affinity.val := not_lt.mpr hmin
  unfold exceeds partialCmp
  rw [if_neg hlow, hgeneral]
  split <;> rfl

theorem exceeds_irrefl {a : AgentScore} (h : a.IsFinite) : a.exceeds a = false := by
  obtain ⟨x, hx⟩ := h
  have hself := exceeds_iff hx hx
  simpa using hself

theorem exceeds_trans {a b c : AgentScore} (ha : a.IsFinite) (hb : b.IsFinite) (hc : c.IsFinite)
    (hab : a.exceeds b = true) (hbc : b.exceeds c = true) : a.exceeds c = true := by
  obtain ⟨x, hx⟩ := ha
  obtain ⟨y, hy⟩ := hb
  obtain ⟨z, hz⟩ := hc
  rw [exceeds_iff hx hy] at hab
  rw [exceeds_iff hy hz] at hbc
  rw [exceeds_iff hx hz]
  grind

end AgentScore

namespace SchedulerActor

/-! What a rule means. -/

/-- One object meets a requirement through its labels or its annotations. -/
def Meets (metadata : MetadataTables) (requirement : AffinityRequirement) : Prop :=
  evaluateTableValue ((tableOf metadata requirement.table).get requirement.key) requirement = true

/-- One requirement is met throughout a scope that is not empty, or none is, as
the direction of the rule has it. -/
def RuleHolds (scope : Set MetadataTables) (rule : AffinityRule) : Prop :=
  Xor (∃ requirement ∈ rule.requirements,
    scope.Nonempty ∧ ∀ metadata ∈ scope, Meets metadata requirement) (rule.inverse = true)

/-- Reported by the agent, indexed under it, or placed on it. -/
def OnAgent (s : SchedulerActor) (agent : CachedAgentActor) (vmid : Ulid) : Prop :=
  vmid ∈ agent.data.vms ∨ vmid ∈ s.indexOf agent.actorRef.id ∨
    ∃ entry ∈ s.placementsOf vmid, entry.agentId = agent.actorRef.id

def tablesOf (manifest : VmManifest) : MetadataTables :=
  (manifest.desired.metadata.labels, manifest.desired.metadata.annotations)

/-- The objects a rule is about. -/
def scope (s : SchedulerActor) (agent : CachedAgentActor) : AffinityType → Set MetadataTables
  | .virtualMachine => { metadata | ∃ vmid manifest, s.OnAgent agent vmid ∧
      s.vmManifests.get vmid = some manifest ∧ tablesOf manifest = metadata }
  | .agent => {(agent.data.metadata.labels, agent.data.metadata.annotations)}

def Follows (s : SchedulerActor) (agent : CachedAgentActor) (rule : AffinityRule) : Prop :=
  RuleHolds (s.scope agent rule.affinityType) rule

/-- Room for the request, and no required rule against it. -/
structure Eligible (s : SchedulerActor) (msg : CreateVM) (agent : CachedAgentActor) : Prop where
  room : hasRoom msg agent s.pendingTotals = true
  required : ∀ rule ∈ msg.config.desired.placement.affinity, rule.strictness = .required →
    s.Follows agent rule

open Classical in
/-- What a preferred rule that is satisfied counts for. -/
noncomputable def satisfiedWeight (s : SchedulerActor) (agent : CachedAgentActor)
    (rule : AffinityRule) : Option I64 :=
  match rule.strictness with
  | .required => none
  | .preferred weight => if s.Follows agent rule then some weight else none

/-- The saturating sum of the weights of the satisfied preferred rules. -/
noncomputable def preference (s : SchedulerActor) (msg : CreateVM) (agent : CachedAgentActor) :
    I64 :=
  (msg.config.desired.placement.affinity.filterMap (s.satisfiedWeight agent)).foldl
    I64.saturatingAdd .zero

/-- What an agent would use with the request on it. -/
def usedWith (s : SchedulerActor) (msg : CreateVM) (agent : CachedAgentActor) : U32 × U64 :=
  let pending := (s.pendingTotals.get agent.actorRef.id).getD (0, 0)
  (Saturating.add (Saturating.add agent.data.usedVcpus pending.1)
      msg.config.desired.compute.vcpus,
    Saturating.add (Saturating.add agent.data.usedRam pending.2)
      msg.config.desired.compute.memoryBytes)

/-- The headroom score. -/
def headroomScore (s : SchedulerActor) (msg : CreateVM) (agent : CachedAgentActor) : F32 :=
  BinaryFloat.add
    (BinaryFloat.add .zero (headroom (agentMaxVcpus agent).val (s.usedWith msg agent).1.val))
    (headroom agent.data.ram.val (s.usedWith msg agent).2.val)

/-! The rules as they are evaluated. -/

theorem mem_pushUnseen (vmids : List Ulid) (vmid other : Ulid) :
    other ∈ pushUnseen vmids vmid ↔ other ∈ vmids ∨ other = vmid := by
  unfold pushUnseen
  split
  · next hmem =>
    constructor
    · exact Or.inl
    · rintro (h | rfl)
      · exact h
      · exact hmem
  · simp

theorem mem_foldl_pushUnseen (added : List Ulid) (other : Ulid) :
    ∀ vmids : List Ulid, other ∈ added.foldl pushUnseen vmids ↔ other ∈ vmids ∨ other ∈ added := by
  induction added with
  | nil => simp
  | cons vmid added ih =>
    intro vmids
    rw [List.foldl_cons, ih, mem_pushUnseen, List.mem_cons, or_assoc]

theorem mem_placementVmIds (s : SchedulerActor) (agent : CachedAgentActor) (vmid : Ulid) :
    vmid ∈ placementVmIds s.vmPlacements (s.agentVmIndex.get agent.actorRef.id) agent.actorRef.id
      agent.data.vms ↔ s.OnAgent agent vmid := by
  have hindexed : vmid ∈ (s.agentVmIndex.get agent.actorRef.id).elim [] SortedVec.elements ↔
      vmid ∈ s.indexOf agent.actorRef.id := by
    rw [indexOf]
    cases s.agentVmIndex.get agent.actorRef.id <;> simp [SortedVec.mem_elements]
  have hplaced : vmid ∈ (s.vmPlacements.toList.filter fun e =>
      e.2.any fun entry => entry.agentId = agent.actorRef.id).map Prod.fst ↔
        ∃ entry ∈ s.placementsOf vmid, entry.agentId = agent.actorRef.id := by
    simp only [List.mem_map, List.mem_filter, Prod.exists, exists_and_right, exists_eq_right,
      AHashMap.mem_toList, List.any_eq_true, decide_eq_true_eq, placementsOf]
    cases s.vmPlacements.get vmid <;> simp
  rw [placementVmIds, mem_foldl_pushUnseen, mem_foldl_pushUnseen, mem_foldl_pushUnseen, hindexed,
    hplaced, OnAgent]
  simp [or_assoc]

theorem mem_metadataTables (s : SchedulerActor) (agent : CachedAgentActor) (kind : AffinityType)
    (metadata : MetadataTables) :
    metadata ∈ s.metadataTables agent kind ↔ metadata ∈ s.scope agent kind := by
  cases kind with
  | virtualMachine =>
    simp only [metadataTables, List.mem_map, List.mem_filterMap, mem_placementVmIds, scope,
      Set.mem_ofPred_eq]
    constructor
    · rintro ⟨manifest, ⟨vmid, hon, hget⟩, rfl⟩
      exact ⟨vmid, manifest, hon, hget, rfl⟩
    · rintro ⟨vmid, manifest, hon, hget, rfl⟩
      exact ⟨manifest, ⟨vmid, hon, hget⟩, rfl⟩
  | agent => simp [metadataTables, scope]

theorem evaluateAffinityRule_iff (s : SchedulerActor) (agent : CachedAgentActor)
    (rule : AffinityRule) :
    evaluateAffinityRule (s.metadataTables agent rule.affinityType) rule = true ↔
      s.Follows agent rule := by
  have hscope : (∃ requirement ∈ rule.requirements,
      (s.scope agent rule.affinityType).Nonempty ∧
        ∀ metadata ∈ s.scope agent rule.affinityType, Meets metadata requirement) ↔
      (rule.requirements.any fun requirement =>
        !(s.metadataTables agent rule.affinityType).isEmpty &&
          (s.metadataTables agent rule.affinityType).all fun metadata =>
            evaluateTableValue ((tableOf metadata requirement.table).get requirement.key)
              requirement) = true := by
    simp only [List.any_eq_true, Bool.and_eq_true, List.all_eq_true, ← mem_metadataTables,
      Set.Nonempty, Meets, Bool.not_eq_true', List.isEmpty_eq_false_iff_exists_mem]
  rw [Follows, RuleHolds, hscope, evaluateAffinityRule]
  generalize (rule.requirements.any _) = followsRule
  cases followsRule <;> cases rule.inverse <;> simp [Xor]

/-! The score of an agent. -/

theorem saturatingAdd_zero (total : I64) : total.saturatingAdd .zero = total := by
  have hlow := total.property.1
  have hhigh := total.property.2
  apply Subtype.ext
  simp only [I64.saturatingAdd, I64.zero]
  omega

/-- A rule adds its weight if it is satisfied, and otherwise nothing or, when it
is required, an end to the agent. -/
theorem affinityDelta_cases (s : SchedulerActor) (agent : CachedAgentActor) (rule : AffinityRule) :
    (rule.strictness = .required ∧ ¬ s.Follows agent rule ∧
      affinityDelta rule.strictness
        (evaluateAffinityRule (s.metadataTables agent rule.affinityType) rule) = none) ∨
    ((rule.strictness = .required → s.Follows agent rule) ∧
      affinityDelta rule.strictness
        (evaluateAffinityRule (s.metadataTables agent rule.affinityType) rule) =
          some ((s.satisfiedWeight agent rule).getD .zero)) := by
  have hfollows := evaluateAffinityRule_iff s agent rule
  cases hstrict : rule.strictness with
  | required =>
    by_cases hrule : s.Follows agent rule
    · right
      simp [affinityDelta, satisfiedWeight, hstrict, hfollows.mpr hrule, hrule]
    · left
      simp [affinityDelta, hfollows, hrule]
  | preferred weight =>
    right
    by_cases hrule : s.Follows agent rule
    · simp [affinityDelta, satisfiedWeight, hstrict, hfollows, hrule]
    · simp [affinityDelta, satisfiedWeight, hstrict, hfollows, hrule]

/-- The loop over the rules: nothing once a required rule fails, otherwise the
weights of the satisfied preferred rules added to the total. -/
theorem affinityScore_eq_some (s : SchedulerActor) (agent : CachedAgentActor)
    (rules : List AffinityRule) :
    ∀ total result : I64, s.affinityScore agent rules total = some result ↔
      (∀ rule ∈ rules, rule.strictness = .required → s.Follows agent rule) ∧
        result = (rules.filterMap (s.satisfiedWeight agent)).foldl I64.saturatingAdd total := by
  induction rules with
  | nil =>
    intro total result
    simp [affinityScore, eq_comm]
  | cons rule rules ih =>
    intro total result
    rw [affinityScore]
    cases affinityDelta_cases s agent rule with
    | inl hfails =>
      obtain ⟨hrequired, hrule, hdelta⟩ := hfails
      rw [hdelta]
      simp [hrequired, hrule]
    | inr hholds =>
      obtain ⟨hrule, hdelta⟩ := hholds
      rw [hdelta, List.forall_mem_cons, and_iff_right hrule]
      cases hweight : s.satisfiedWeight agent rule with
      | none => simp [ih, saturatingAdd_zero, hweight]
      | some weight => simp [ih, hweight]

theorem scoreAgent_of_eligible {s : SchedulerActor} {msg : CreateVM} {agent : CachedAgentActor}
    (h : s.Eligible msg agent) :
    s.scoreAgent msg agent s.pendingTotals = ⟨s.headroomScore msg agent, s.preference msg agent⟩ := by
  have hscore : s.affinityScore agent msg.config.desired.placement.affinity .zero =
      some (s.preference msg agent) :=
    (affinityScore_eq_some s agent _ _ _).mpr ⟨h.required, rfl⟩
  have hroom := h.room
  unfold hasRoom at hroom
  unfold scoreAgent
  dsimp only at hroom ⊢
  rw [if_pos hroom, hscore]
  rfl

theorem scoreAgent_of_not_eligible {s : SchedulerActor} {msg : CreateVM} {agent : CachedAgentActor}
    (h : ¬ s.Eligible msg agent) : s.scoreAgent msg agent s.pendingTotals = .rejected := by
  unfold scoreAgent
  dsimp only
  split
  · next hroom =>
    cases hscore : s.affinityScore agent msg.config.desired.placement.affinity .zero with
    | none => rfl
    | some total =>
      have hrules := (affinityScore_eq_some s agent _ _ _).mp hscore
      exact absurd ⟨hroom, hrules.1⟩ h
  · rfl

/-! Headroom. -/

/-- What the capacity test has made sure of when the headroom is computed. -/
theorem room_spec {s : SchedulerActor} {msg : CreateVM} {agent : CachedAgentActor}
    (valid : msg.config.validate = .ok ()) (h : hasRoom msg agent s.pendingTotals = true) :
    (s.usedWith msg agent).1.val ≤ (agentMaxVcpus agent).val ∧
      (s.usedWith msg agent).2.val ≤ agent.data.ram.val ∧
      0 < (agentMaxVcpus agent).val ∧ 0 < agent.data.ram.val := by
  obtain ⟨hvcpus, hmemory⟩ := compute_pos_of_validate valid
  unfold hasRoom hasCapacity at h
  simp only [Bool.and_eq_true, decide_eq_true_eq, Fin.le_def] at h
  refine ⟨h.1, h.2, ?_, ?_⟩
  · have := h.1
    simp only [Saturating.val_add] at this
    omega
  · have := h.2
    simp only [Saturating.val_add] at this
    omega

/-- A word that is not zero is a divisor of at least one after its cast. -/
theorem ofNat_pos {n : Nat} (hpos : 0 < n) (hlt : n < 2 ^ 64) :
    ∃ value, (BinaryFloat.ofNat n : F32) = .finite value ∧ 1 ≤ value := by
  have hbound : (n : ℚ) ≤ 2 ^ 64 := by exact_mod_cast hlt.le
  have hcast : BinaryFloat.Within (2 * 2 ^ 64) (BinaryFloat.ofNat n : F32) :=
    BinaryFloat.within_ofNat (by decide) (by decide) (by norm_num) hbound (by norm_num [binary32])
  obtain ⟨value, hvalue, _⟩ := hcast
  have hone : (1 : ℚ) ≤ n := by exact_mod_cast hpos
  exact ⟨value, hvalue, BinaryFloat.one_le_round (by decide) (by decide) hone hvalue⟩

theorem within_headroom {max : Nat} (used : Nat) (hpos : 0 < max) (hlt : max < 2 ^ 64) :
    BinaryFloat.Within (2 ^ 66) (headroom max used) := by
  have hfree : ((max - used : Nat) : ℚ) ≤ 2 ^ 64 := by exact_mod_cast (by omega)
  have hdividend : BinaryFloat.Within (2 * 2 ^ 64) (BinaryFloat.ofNat (max - used) : F32) :=
    BinaryFloat.within_ofNat (by decide) (by decide) (by norm_num) hfree (by norm_num [binary32])
  obtain ⟨value, hvalue, hone⟩ := ofNat_pos hpos hlt
  have hquotient := BinaryFloat.within_div (by decide) (by decide) hdividend hone (by norm_num)
    (by norm_num [binary32])
  rw [headroom, hvalue]
  norm_num at hquotient ⊢
  exact hquotient

theorem headroomScore_finite {s : SchedulerActor} {msg : CreateVM} {agent : CachedAgentActor}
    (valid : msg.config.validate = .ok ()) (h : hasRoom msg agent s.pendingTotals = true) :
    ∃ value, s.headroomScore msg agent = .finite value := by
  obtain ⟨_, _, hvcpus, hram⟩ := room_spec valid h
  have hzero : BinaryFloat.Within (2 ^ 66) (.zero : F32) := ⟨0, rfl, by norm_num⟩
  have hfirst := BinaryFloat.within_add (by decide) (by decide) hzero
    (within_headroom (s.usedWith msg agent).1.val hvcpus (by omega)) (by norm_num)
    (by norm_num [binary32])
  have hboth := BinaryFloat.within_add (by decide) (by decide) hfirst
    (within_headroom (s.usedWith msg agent).2.val hram (by omega)) (by norm_num)
    (by norm_num [binary32])
  obtain ⟨value, hvalue, _⟩ := hboth
  exact ⟨value, hvalue⟩

/-! The choice. -/

theorem orders_scores {s : SchedulerActor} {msg : CreateVM} (valid : msg.config.validate = .ok ()) :
    RunningMax.Orders (fun agent => s.scoreAgent msg agent s.pendingTotals) AgentScore.exceeds
      .rejected (s.Eligible msg) := by
  have hfinite : ∀ agent, s.Eligible msg agent →
      (s.scoreAgent msg agent s.pendingTotals).IsFinite := by
    intro agent hagent
    rw [scoreAgent_of_eligible hagent]
    exact headroomScore_finite valid hagent.room
  refine ⟨?_, ?_, ?_, ?_⟩
  · intro agent hnot score
    rw [scoreAgent_of_not_eligible hnot]
    exact AgentScore.not_rejected_exceeds score
  · intro agent hagent
    exact AgentScore.exceeds_rejected (hfinite agent hagent)
  · intro agent hagent
    exact AgentScore.exceeds_irrefl (hfinite agent hagent)
  · intro a b c ha hb hc
    exact AgentScore.exceeds_trans (hfinite a ha) (hfinite b hb) (hfinite c hc)

/-- No other eligible agent ranks higher, and none that ranks as high has more
headroom. -/
structure Best (s : SchedulerActor) (msg : CreateVM) (chosen : CachedAgentActor) : Prop where
  eligible : s.Eligible msg chosen
  preferred : ∀ other ∈ s.agentDataCache.values, s.Eligible msg other →
    (s.preference msg other).val ≤ (s.preference msg chosen).val
  headroom : ∀ other ∈ s.agentDataCache.values, s.Eligible msg other →
    s.preference msg other = s.preference msg chosen →
      ∃ x y, s.headroomScore msg other = .finite x ∧ s.headroomScore msg chosen = .finite y ∧ x ≤ y

theorem best_of_maximal {s : SchedulerActor} {msg : CreateVM} {chosen : CachedAgentActor}
    (valid : msg.config.validate = .ok ())
    (h : RunningMax.Maximal (fun agent => s.scoreAgent msg agent s.pendingTotals)
      AgentScore.exceeds (s.Eligible msg) s.agentDataCache.values chosen) : s.Best msg chosen := by
  obtain ⟨y, hy⟩ := headroomScore_finite valid h.candidate.room
  have hle : ∀ other ∈ s.agentDataCache.values, s.Eligible msg other → ∀ x,
      s.headroomScore msg other = .finite x →
        ¬ ((s.preference msg chosen).val < (s.preference msg other).val ∨
          (s.preference msg other).val = (s.preference msg chosen).val ∧ y < x) := by
    intro other hmem hother x hx
    have hexceeds := h.le other hmem hother
    rw [scoreAgent_of_eligible hother, scoreAgent_of_eligible h.candidate] at hexceeds
    rw [← AgentScore.exceeds_iff (a := ⟨s.headroomScore msg other, s.preference msg other⟩)
      (b := ⟨s.headroomScore msg chosen, s.preference msg chosen⟩) hx hy, hexceeds]
    simp
  refine ⟨h.candidate, ?_, ?_⟩
  · intro other hmem hother
    obtain ⟨x, hx⟩ := headroomScore_finite valid hother.room
    have hnot := hle other hmem hother x hx
    omega
  · intro other hmem hother heq
    obtain ⟨x, hx⟩ := headroomScore_finite valid hother.room
    have hnot := hle other hmem hother x hx
    rw [heq] at hnot
    refine ⟨x, y, hx, hy, ?_⟩
    by_contra hless
    exact hnot (.inr ⟨rfl, not_le.mp hless⟩)

/-- The loop ends with no agent when none is eligible, and with a best one
otherwise. -/
theorem bestAgent_cases {s : SchedulerActor} {msg : CreateVM}
    (valid : msg.config.validate = .ok ()) :
    (s.bestAgent msg = none ∧ ∀ agent ∈ s.agentDataCache.values, ¬ s.Eligible msg agent) ∨
      ∃ chosen ∈ s.agentDataCache.values, s.Best msg chosen ∧
        s.bestAgent msg = some chosen.actorRef := by
  have hleads : RunningMax.Leads CachedAgentActor.actorRef
      (fun agent => s.scoreAgent msg agent s.pendingTotals) AgentScore.exceeds .rejected
      (s.Eligible msg) s.agentDataCache.values
      (s.agentDataCache.values.foldl (s.betterAgent msg s.pendingTotals) (none, .rejected)) := by
    rw [betterAgent_eq]
    exact RunningMax.foldl_step_spec (orders_scores valid) s.agentDataCache.values
  cases hleads with
  | inl hnone => exact .inl ⟨congrArg Prod.fst hnone.1, hnone.2⟩
  | inr hsome =>
    obtain ⟨chosen, hmaximal, hbest⟩ := hsome
    exact .inr ⟨chosen, hmaximal.mem, best_of_maximal valid hmaximal, congrArg Prod.fst hbest⟩

theorem cast_ne_zero {n : Nat} (hpos : 0 < n) (hlt : n < 2 ^ 64) :
    (BinaryFloat.ofNat n : F32) ≠ .zero := by
  obtain ⟨value, hvalue, hone⟩ := ofNat_pos hpos hlt
  intro hzero
  have heq : value = 0 := BinaryFloat.finite.inj (hvalue.symm.trans hzero)
  linarith

theorem scheduleAgent_is_argmax (s : SchedulerActor) (msg : CreateVM)
    (valid : msg.config.validate = .ok ()) :
    ((∃ error, (s.scheduleAgent msg).1 = .error error) ↔
      ∀ agent ∈ s.agentDataCache.values, ¬ s.Eligible msg agent) ∧
    (∀ agent, (s.scheduleAgent msg).1 = .ok agent →
      ∃ chosen ∈ s.agentDataCache.values, chosen.actorRef = agent ∧ s.Best msg chosen) ∧
    ∀ agent ∈ s.agentDataCache.values, hasRoom msg agent s.pendingTotals = true →
      (s.usedWith msg agent).1.val ≤ (agentMaxVcpus agent).val ∧
        (BinaryFloat.ofNat (agentMaxVcpus agent).val : F32) ≠ .zero ∧
        (BinaryFloat.ofNat agent.data.ram.val : F32) ≠ .zero := by
  refine ⟨?_, ?_, ?_⟩
  · rw [scheduleAgent]
    cases bestAgent_cases (s := s) valid with
    | inl hnone =>
      rw [hnone.1]
      exact ⟨fun _ => hnone.2, fun _ => ⟨_, rfl⟩⟩
    | inr hsome =>
      obtain ⟨chosen, hmem, hchosen, hbest⟩ := hsome
      rw [hbest]
      constructor
      · rintro ⟨error, herror⟩
        cases herror
      · intro hnone
        exact absurd hchosen.eligible (hnone chosen hmem)
  · intro agent hok
    rw [scheduleAgent] at hok
    cases bestAgent_cases (s := s) valid with
    | inl hnone =>
      rw [hnone.1] at hok
      cases hok
    | inr hsome =>
      obtain ⟨chosen, hmem, hchosen, hbest⟩ := hsome
      rw [hbest] at hok
      exact ⟨chosen, hmem, Except.ok.inj hok, hchosen⟩
  · intro agent hmem hroom
    obtain ⟨hused, _, hvcpus, hram⟩ := room_spec valid hroom
    exact ⟨hused, cast_ne_zero hvcpus (by omega), cast_ne_zero hram (by omega)⟩

/-- A label with its value, as a table. -/
def oneEntry (key value : String) : BTreeMap String String := ⟨[(key, value)], by simp⟩

/-- The sample manifest with labels of its own and rules for its placement. -/
def placedManifest (vmid : Ulid) (labels : BTreeMap String String) (rules : List AffinityRule) :
    VmManifest :=
  { sampleManifest vmid with
    desired := { (sampleManifest vmid).desired with
      metadata := ⟨"sample", labels, .empty⟩
      placement := ⟨none, .empty, rules⟩ } }

/-- Not beside databases. -/
def antiDatabase (strictness : AffinityStrictness) : AffinityRule where
  strictness := strictness
  affinityType := .virtualMachine
  inverse := true
  requirements := [⟨"app", .label, .in, ["db"]⟩]

/-- Two agents of one size, the second with a database on it, and a request that
would rather not be beside it. -/
theorem scheduleAgent_is_argmax_preferred :
    let s := handleAll [reportsFull agentOne 0 [] 0, reportsFull agentTwo 0 [7] 0,
      reportsVm vmActorOne 7 (some (placedManifest 7 (oneEntry "app" "db") []))]
    let msg : CreateVM := ⟨9, placedManifest 9 .empty [antiDatabase (.preferred ⟨5, by decide⟩)]⟩
    msg.config.validate = .ok () ∧
      ∃ chosen ∈ s.agentDataCache.values, chosen.actorRef.id = agentOne ∧ s.Best msg chosen := by
  intro s msg
  have hvalid : msg.config.validate = .ok () := by decide +kernel
  have hok : (s.scheduleAgent msg).1 = .ok ⟨agentOne⟩ := by decide +kernel
  obtain ⟨chosen, hmem, href, hbest⟩ := (scheduleAgent_is_argmax s msg hvalid).2.1 _ hok
  exact ⟨hvalid, chosen, hmem, by rw [href], hbest⟩

/-! Anti-affinity. A rule that is inverted is the negation of the rule, and the
rule asks for a requirement that all VMs of the agent meet. -/

theorem eligible_of_scheduleAgent {s : SchedulerActor} {msg : CreateVM}
    {agent : RemoteActorRef .agent} (h : (s.scheduleAgent msg).1 = .ok agent) :
    ∃ cached ∈ s.agentDataCache.values, cached.actorRef = agent ∧ s.Eligible msg cached := by
  rw [scheduleAgent] at h
  cases hbest : s.bestAgent msg with
  | none =>
    rw [hbest] at h
    cases h
  | some chosen =>
    rw [hbest] at h
    obtain ⟨cached, hmem, href, beaten, hexceeds⟩ := exceeds_of_bestAgent hbest
    refine ⟨cached, hmem, href.trans (Except.ok.inj h), ?_⟩
    by_contra hnot
    rw [scoreAgent_of_not_eligible hnot, AgentScore.not_rejected_exceeds] at hexceeds
    cases hexceeds

theorem anti_affinity_leaves_one_unmet {s : SchedulerActor} {msg : CreateVM} {rule : AffinityRule}
    {agent : RemoteActorRef .agent} (hrule : rule ∈ msg.config.desired.placement.affinity)
    (hrequired : rule.strictness = .required) (htype : rule.affinityType = .virtualMachine)
    (hinverse : rule.inverse = true) (h : (s.scheduleAgent msg).1 = .ok agent) :
    ∃ cached ∈ s.agentDataCache.values, cached.actorRef = agent ∧
      ∀ requirement ∈ rule.requirements,
        (∀ vmid, s.OnAgent cached vmid → s.vmManifests.get vmid = none) ∨
          ∃ vmid manifest, s.OnAgent cached vmid ∧ s.vmManifests.get vmid = some manifest ∧
            ¬ Meets (tablesOf manifest) requirement := by
  obtain ⟨cached, hmem, href, heligible⟩ := eligible_of_scheduleAgent h
  refine ⟨cached, hmem, href, ?_⟩
  intro requirement hrequirement
  have hfollows := heligible.required rule hrule hrequired
  rw [Follows, RuleHolds, htype] at hfollows
  have hnone : ¬ ∃ requirement ∈ rule.requirements, (s.scope cached .virtualMachine).Nonempty ∧
      ∀ metadata ∈ s.scope cached .virtualMachine, Meets metadata requirement := by
    cases hfollows with
    | inl hplain => exact absurd hinverse hplain.2
    | inr hinverted => exact hinverted.2
  by_contra hmet
  push Not at hmet
  obtain ⟨⟨vmid, hon, hknown⟩, hall⟩ := hmet
  obtain ⟨manifest, hget⟩ := Option.ne_none_iff_exists'.mp hknown
  refine hnone ⟨requirement, hrequirement, ⟨_, vmid, manifest, hon, hget, rfl⟩, ?_⟩
  rintro metadata ⟨other, manifest', hother, hget', rfl⟩
  exact hall other manifest' hother hget'

/-- A database and another VM on the only agent. -/
def mixedAgent : SchedulerActor :=
  handleAll [reportsFull agentOne 0 [7, 8] 0,
    reportsVm vmActorOne 7 (some (placedManifest 7 (oneEntry "app" "db") [])),
    reportsVm ⟨7, 2⟩ 8 (some (placedManifest 8 .empty []))]

def notBesideDatabase : CreateVM := ⟨9, placedManifest 9 .empty [antiDatabase .required]⟩

/-- The other VM does not meet the requirement, so the rule is followed. -/
theorem anti_affinity_leaves_one_unmet_mixed :
    (mixedAgent.scheduleAgent notBesideDatabase).1 = .ok ⟨agentOne⟩ ∧
      ∃ cached ∈ mixedAgent.agentDataCache.values, cached.actorRef = ⟨agentOne⟩ ∧
        ∀ requirement ∈ (antiDatabase .required).requirements,
          (∀ vmid, mixedAgent.OnAgent cached vmid → mixedAgent.vmManifests.get vmid = none) ∨
            ∃ vmid manifest, mixedAgent.OnAgent cached vmid ∧
              mixedAgent.vmManifests.get vmid = some manifest ∧
              ¬ Meets (tablesOf manifest) requirement := by
  have hok : (mixedAgent.scheduleAgent notBesideDatabase).1 = .ok ⟨agentOne⟩ := by decide +kernel
  exact ⟨hok, anti_affinity_leaves_one_unmet (List.mem_singleton_self _) rfl rfl rfl hok⟩

/-- There the request is placed beside the database. -/
theorem anti_affinity_beside_match :
    ¬ ∀ (s : SchedulerActor) (msg : CreateVM) (rule : AffinityRule)
        (agent : RemoteActorRef .agent), rule ∈ msg.config.desired.placement.affinity →
      rule.strictness = .required → rule.affinityType = .virtualMachine → rule.inverse = true →
      (s.scheduleAgent msg).1 = .ok agent →
      ∀ cached ∈ s.agentDataCache.values, cached.actorRef = agent →
        ∀ vmid manifest, s.OnAgent cached vmid → s.vmManifests.get vmid = some manifest →
          ∀ requirement ∈ rule.requirements, ¬ Meets (tablesOf manifest) requirement := by
  intro hapart
  have hok : (mixedAgent.scheduleAgent notBesideDatabase).1 = .ok ⟨agentOne⟩ := by decide +kernel
  have hcached : (mixedAgent.agentDataCache.values.any fun cached =>
      cached.actorRef = ⟨agentOne⟩ && cached.data.vms.contains 7) = true := by decide +kernel
  have hget : mixedAgent.vmManifests.get 7 =
      some (placedManifest 7 (oneEntry "app" "db") []) := by decide +kernel
  obtain ⟨cached, hmem, hlisted⟩ := List.any_eq_true.mp hcached
  rw [Bool.and_eq_true, decide_eq_true_eq, List.contains_iff_mem] at hlisted
  refine hapart mixedAgent notBesideDatabase (antiDatabase .required) ⟨agentOne⟩
    (List.mem_singleton_self _) rfl rfl rfl hok cached hmem hlisted.1 7 _ (.inl hlisted.2) hget
    ⟨"app", .label, .in, ["db"]⟩ (List.mem_singleton_self _) ?_
  unfold Meets
  decide +kernel

end SchedulerActor

end Odorobo
