import Odorobo.BinaryFloat
import Odorobo.SchedulerCache

/-! Cache-only scheduling policy: pending totals, capacity, affinity and the
choice of an agent. Headroom is single-precision, as in the score it feeds. -/

namespace Odorobo

abbrev F32 := BinaryFloat binary32
abbrev F64 := BinaryFloat binary64

def vcpuOverprovisionmentNumerator : U32 := 2
def vcpuOverprovisionmentDenominator : U32 := 1

namespace SchedulerActor

/-- Add the request of one pending placement to the totals of its agent. -/
def addPending (manifest : VmManifest) (resources : PendingResources) (entry : VmPlacement) :
    PendingResources :=
  if entry.lifecycle = .pending then
    resources.upsert entry.agentId (0, 0) fun totals =>
      (Saturating.add totals.1 manifest.desired.compute.vcpus,
        Saturating.add totals.2 manifest.desired.compute.memoryBytes)
  else resources

/-- Placements of a VM without a manifest are skipped. -/
def addPlacements (manifests : AHashMap Ulid VmManifest) (resources : PendingResources)
    (vm : Ulid × List VmPlacement) : PendingResources :=
  match manifests.get vm.1 with
  | none => resources
  | some manifest => vm.2.foldl (addPending manifest) resources

def pendingResourcesByAgent (manifests : AHashMap Ulid VmManifest)
    (placements : AHashMap Ulid (List VmPlacement)) : PendingResources :=
  placements.toList.foldl (addPlacements manifests) .empty

/-- The cached totals, computed when the cache is stale. -/
def pendingTotals (s : SchedulerActor) : PendingResources :=
  match s.pendingResourcesCache with
  | some totals => totals
  | none => pendingResourcesByAgent s.vmManifests s.vmPlacements

def pendingResources (s : SchedulerActor) : SchedulerActor :=
  { s with pendingResourcesCache := some s.pendingTotals }

end SchedulerActor

def hasCapacity (maxVcpus usedVcpus requestedVcpus : U32) (maxRam usedRam requestedRam : U64) :
    Bool :=
  Saturating.add usedVcpus requestedVcpus ≤ maxVcpus && Saturating.add usedRam requestedRam ≤ maxRam

/-- Missing keys match only `NotIn`; numeric comparisons want exactly one value
that parses, against a value that parses. -/
def evaluateTableValue (value : Option String) (requirement : AffinityRequirement) : Bool :=
  match value with
  | none => requirement.operator = .notIn
  | some value =>
    let compare := fun (wanted : Ordering) =>
      match requirement.values with
      | [required] =>
        match (BinaryFloat.parse value : Option F64), BinaryFloat.parse required with
        | some x, some y => BinaryFloat.partialCmp x y = some wanted
        | _, _ => false
      | _ => false
    match requirement.operator with
    | .in => value ∈ requirement.values
    | .notIn => value ∉ requirement.values
    | .lt => compare .lt
    | .gt => compare .gt

/-- The labels and the annotations of one object. -/
abbrev MetadataTables := BTreeMap String String × BTreeMap String String

def tableOf (metadata : MetadataTables) : MetadataTable → BTreeMap String String
  | .label => metadata.1
  | MetadataTable.annotation => metadata.2

/-- Requirements are or-ed; each must hold of every object of a nonempty scope;
`inverse` negates the outcome. -/
def evaluateAffinityRule (metadataTables : List MetadataTables) (rule : AffinityRule) : Bool :=
  let followsRule := rule.requirements.any fun requirement =>
    !metadataTables.isEmpty && metadataTables.all fun metadata =>
      evaluateTableValue ((tableOf metadata requirement.table).get requirement.key) requirement
  xor followsRule rule.inverse

/-- A failed required rule rejects the agent; an unmet preferred one adds zero. -/
def affinityDelta (strictness : AffinityStrictness) (followsRule : Bool) : Option I64 :=
  match strictness with
  | .required => if followsRule then some .zero else none
  | .preferred weight => some (if followsRule then weight else .zero)

/-- Affinity takes precedence over headroom. -/
structure AgentScore where
  general : F32
  affinity : I64

namespace AgentScore

def rejected : AgentScore := ⟨.negInfinity, I64.min⟩

def partialCmp (a b : AgentScore) : Option Ordering :=
  if a.affinity.val < b.affinity.val then some .lt
  else if b.affinity.val < a.affinity.val then some .gt
  else a.general.partialCmp b.general

/-- The comparison operator `>`. -/
def exceeds (a b : AgentScore) : Bool := a.partialCmp b = some .gt

/-- A rejected agent beats nothing, not even another rejected one. -/
theorem not_rejected_exceeds (b : AgentScore) : rejected.exceeds b = false := by
  have hmin := I64.min_le b.affinity
  have hcmp : rejected.partialCmp b ≠ some .gt := by
    unfold partialCmp
    split
    · simp
    · split
      · next h =>
        have : I64.min.val ≤ b.affinity.val := hmin
        change b.affinity.val < I64.min.val at h
        omega
      · exact BinaryFloat.partialCmp_negInfinity b.general
  simpa [exceeds] using hcmp

end AgentScore

namespace SchedulerActor

def agentMaxVcpus (agent : CachedAgentActor) : U32 :=
  ⟨(Saturating.mul agent.data.vcpus vcpuOverprovisionmentNumerator).val /
    vcpuOverprovisionmentDenominator.val, lt_of_le_of_lt (Nat.div_le_self _ _) (Fin.isLt _)⟩

/-- The metadata objects a rule ranges over for one agent. -/
def metadataTables (s : SchedulerActor) (agent : CachedAgentActor) :
    AffinityType → List MetadataTables
  | .virtualMachine =>
    ((placementVmIds s.vmPlacements (s.agentVmIndex.get agent.actorRef.id) agent.actorRef.id
      agent.data.vms).filterMap s.vmManifests.get).map fun manifest =>
        (manifest.desired.metadata.labels, manifest.desired.metadata.annotations)
  | .agent => [(agent.data.metadata.labels, agent.data.metadata.annotations)]

/-- The affinity total of an agent, or nothing when a required rule fails. -/
def affinityScore (s : SchedulerActor) (agent : CachedAgentActor) :
    List AffinityRule → I64 → Option I64
  | [], total => some total
  | rule :: rules, total =>
    match affinityDelta rule.strictness
        (evaluateAffinityRule (s.metadataTables agent rule.affinityType) rule) with
    | none => none
    | some delta => affinityScore s agent rules (total.saturatingAdd delta)

def headroom (max used : Nat) : F32 :=
  BinaryFloat.div (BinaryFloat.ofNat (max - used)) (BinaryFloat.ofNat max)

def scoreAgent (s : SchedulerActor) (msg : CreateVM) (agent : CachedAgentActor)
    (pendingResources : PendingResources) : AgentScore :=
  let maxVcpus := agentMaxVcpus agent
  let pending := (pendingResources.get agent.actorRef.id).getD (0, 0)
  let usedVcpus := Saturating.add agent.data.usedVcpus pending.1
  let usedRam := Saturating.add agent.data.usedRam pending.2
  let requestedVcpus := msg.config.desired.compute.vcpus
  let requestedMemory := msg.config.desired.compute.memoryBytes
  if hasCapacity maxVcpus usedVcpus requestedVcpus agent.data.ram usedRam requestedMemory then
    -- The capacity test has just made sure that neither subtraction is cut off.
    let vcpuHeadroom := headroom maxVcpus (Saturating.add usedVcpus requestedVcpus).val
    let ramHeadroom := headroom agent.data.ram (Saturating.add usedRam requestedMemory).val
    match s.affinityScore agent msg.config.desired.placement.affinity .zero with
    | none => .rejected
    | some affinity =>
      ⟨BinaryFloat.add (BinaryFloat.add .zero vcpuHeadroom) ramHeadroom, affinity⟩
  else .rejected

abbrev BestAgent := Option (RemoteActorRef .agent) × AgentScore

/-- One comparison of the running maximum. -/
def betterAgent (s : SchedulerActor) (msg : CreateVM) (pendingResources : PendingResources)
    (best : BestAgent) (agent : CachedAgentActor) : BestAgent :=
  let score := s.scoreAgent msg agent pendingResources
  if score.exceeds best.2 then (some agent.actorRef, score) else best

/-- The running maximum over the cached agents, in iteration order. -/
def bestAgent (s : SchedulerActor) (msg : CreateVM) : Option (RemoteActorRef .agent) :=
  (s.agentDataCache.values.foldl (s.betterAgent msg s.pendingTotals) (none, .rejected)).1

def scheduleAgent (s : SchedulerActor) (msg : CreateVM) :
    Except String (RemoteActorRef .agent) × SchedulerActor :=
  (match s.bestAgent msg with
    | some agent => .ok agent
    | none => .error "No valid agents found.", s.pendingResources)

end SchedulerActor

end Odorobo
