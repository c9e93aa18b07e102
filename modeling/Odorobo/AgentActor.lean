import Odorobo.ChangeLog
import Odorobo.SchedulerState

/-! The agent actor: the VMs it holds, its resource counters, and the bounded
history of membership changes from which it answers status requests. The tables
of the handlers are listed in some order before they are sorted and sent, so the
order does not show in an answer. -/

namespace Odorobo

structure VMCacheData where
  actorRef : RemoteActorRef .vm
  config : VmManifest
  vcpus : U32
  memoryBytes : U64
  deriving DecidableEq

/-- The settings that the agent actor reads. -/
structure Config where
  hostname : Option String
  reservedVcpus : Option U32

namespace Config

/-- `systemHostname` is what the operating system answers. -/
def getHostname (config : Config) (systemHostname : Option String) : String :=
  config.hostname.getD (systemHostname.getD "odorobo")

def getReservedVcpus (config : Config) : U32 := config.reservedVcpus.getD 2

end Config

structure AgentActor where
  vcpus : U32
  memory : U64
  usedVcpus : U32
  usedMemoryBytes : U64
  membershipRevision : U64
  statusHistory : List MembershipChange
  config : Config
  systemHostname : Option String
  vms : AHashMap Ulid VMCacheData
  metadata : ObjectMetadata

namespace AgentActor

/-- What the host offers, as read once at the start. -/
structure Host where
  cpus : Nat
  totalMemory : U64
  hostname : Option String

def onStart (config : Config) (host : Host) : AgentActor where
  vcpus := Saturating.clamp host.cpus
  memory := host.totalMemory
  usedVcpus := 0
  usedMemoryBytes := 0
  membershipRevision := 0
  statusHistory := []
  config := config
  systemHostname := host.hostname
  vms := .empty
  metadata := ⟨.empty, .empty⟩

/-- Pop changes off the front while the history is over its limit. -/
def trimHistory : List MembershipChange → List MembershipChange
  | [] => []
  | change :: rest =>
    if statusChangeHistoryLimit < (change :: rest).length then trimHistory rest else change :: rest

def recordMembershipChange (agent : AgentActor) (vmid : Ulid) (added : Bool) : AgentActor :=
  let revision := Saturating.add agent.membershipRevision 1
  { agent with
    membershipRevision := revision
    statusHistory := trimHistory (agent.statusHistory ++ [⟨revision, vmid, added⟩]) }

/-- A replaced entry gives its resources back and is no membership change. -/
def insertVm (agent : AgentActor) (vmid : Ulid) (cache : VMCacheData) : AgentActor :=
  let inserted := { agent with vms := agent.vms.insert vmid cache }
  let agent := match agent.vms.get vmid with
    | some previous =>
      { inserted with
        usedVcpus := Saturating.sub inserted.usedVcpus previous.vcpus
        usedMemoryBytes := Saturating.sub inserted.usedMemoryBytes previous.memoryBytes }
    | none => inserted.recordMembershipChange vmid true
  { agent with
    usedVcpus := Saturating.add agent.usedVcpus cache.vcpus
    usedMemoryBytes := Saturating.add agent.usedMemoryBytes cache.memoryBytes }

def removeVm (agent : AgentActor) (vmid : Ulid) : Option VMCacheData × AgentActor :=
  match agent.vms.get vmid with
  | none => (none, agent)
  | some removed =>
    let agent := recordMembershipChange { agent with vms := agent.vms.erase vmid } vmid false
    (some removed,
      { agent with
        usedVcpus := Saturating.sub agent.usedVcpus removed.vcpus
        usedMemoryBytes := Saturating.sub agent.usedMemoryBytes removed.memoryBytes })

/-! Status requests. -/

def reportedVcpus (agent : AgentActor) : U32 :=
  Saturating.add agent.usedVcpus agent.config.getReservedVcpus

def fullStatus (agent : AgentActor) : AgentStatus where
  hostname := agent.config.getHostname agent.systemHostname
  vcpus := agent.vcpus
  ram := agent.memory
  usedVcpus := agent.reportedVcpus
  usedRam := agent.usedMemoryBytes
  vms := SortedVec.sort (agent.vms.toList.map Prod.fst)
  metadata := agent.metadata

/-- The caller asks for a snapshot, is ahead of the agent, or is so far behind
that the history has lost the change after its revision. -/
def needsFull (agent : AgentActor) (msg : GetAgentStatus) : Bool :=
  msg.initial || agent.membershipRevision < msg.sinceRevision ||
    agent.statusHistory.head?.any fun change => Saturating.add msg.sinceRevision 1 < change.revision

def latestChanges (agent : AgentActor) (since : U64) : AHashMap Ulid Bool :=
  (agent.statusHistory.filter fun change => since < change.revision).foldl
    (fun latest change => latest.insert change.vmid change.added) .empty

/-- The VMs whose latest change is of the given kind, sorted. -/
def changedTo (latest : AHashMap Ulid Bool) (added : Bool) : List Ulid :=
  SortedVec.sort ((latest.toList.filter fun e => e.2 = added).map Prod.fst)

def getAgentStatus (agent : AgentActor) (msg : GetAgentStatus) : AgentStatusUpdate :=
  if agent.needsFull msg then .full agent.membershipRevision agent.fullStatus
  else
    let latest := agent.latestChanges msg.sinceRevision
    .delta agent.membershipRevision (changedTo latest true) (changedTo latest false)
      agent.reportedVcpus agent.usedMemoryBytes

@[simp] theorem mem_changedTo {latest : AHashMap Ulid Bool} {added : Bool} {vmid : Ulid} :
    vmid ∈ changedTo latest added ↔ latest.get vmid = some added := by
  simp [changedTo, AHashMap.mem_toList]

/-- An answer never reports a VM as both added and removed. -/
theorem getAgentStatus_disjoint (agent : AgentActor) (msg : GetAgentStatus) :
    (agent.getAgentStatus msg).Disjoint := by
  unfold getAgentStatus
  split
  · trivial
  · intro vmid hadded hremoved
    rw [mem_changedTo] at hadded hremoved
    rw [hadded] at hremoved
    simp at hremoved

theorem getAgentStatus_revision (agent : AgentActor) (msg : GetAgentStatus) :
    (agent.getAgentStatus msg).revision = agent.membershipRevision := by
  unfold getAgentStatus
  split <;> rfl

theorem pairwise_fullStatus (agent : AgentActor) : agent.fullStatus.vms.Pairwise (· < ·) :=
  SortedVec.pairwise_sort agent.vms.toList_keys_nodup

theorem mem_fullStatus (agent : AgentActor) (vmid : Ulid) :
    vmid ∈ agent.fullStatus.vms ↔ vmid ∈ agent.vms.keys := by
  rw [fullStatus, SortedVec.mem_sort, AHashMap.keys, List.mem_toFinset]

/-! The history against the log of all membership changes. -/

theorem trimHistory_eq (history : List MembershipChange) :
    trimHistory history = history.drop (history.length - statusChangeHistoryLimit) := by
  induction history with
  | nil => rfl
  | cons change rest ih =>
    rw [trimHistory]
    split
    · next hover =>
      rw [List.length_cons] at hover
      have hdrop : (change :: rest).length - statusChangeHistoryLimit =
          (rest.length - statusChangeHistoryLimit) + 1 := by
        rw [List.length_cons]
        omega
      rw [ih, hdrop, List.drop_succ_cons]
    · next hwithin =>
      rw [Nat.sub_eq_zero_of_le (not_lt.mp hwithin), List.drop_zero]

/-- The changes as the agent numbers them, the first one `start + 1`. -/
def numbered : Nat → List (Ulid × Bool) → List MembershipChange
  | _, [] => []
  | start, change :: rest =>
    ⟨Saturating.clamp (start + 1), change.1, change.2⟩ :: numbered (start + 1) rest

@[simp] theorem length_numbered (start : Nat) (log : List (Ulid × Bool)) :
    (numbered start log).length = log.length := by
  induction log generalizing start with
  | nil => rfl
  | cons change rest ih => simp [numbered, ih]

theorem numbered_append (start : Nat) (log : List (Ulid × Bool)) (change : Ulid × Bool) :
    numbered start (log ++ [change]) =
      numbered start log ++ [⟨Saturating.clamp (start + log.length + 1), change.1, change.2⟩] := by
  induction log generalizing start with
  | nil => rfl
  | cons first rest ih =>
    have hindex : start + 1 + rest.length + 1 = start + (first :: rest).length + 1 := by
      rw [List.length_cons]
      omega
    rw [List.cons_append, numbered, ih, hindex, numbered, List.cons_append]

theorem drop_numbered (start n : Nat) (log : List (Ulid × Bool)) :
    (numbered start log).drop n = numbered (start + n) (log.drop n) := by
  induction n generalizing start log with
  | zero => rfl
  | succ n ih =>
    cases log with
    | nil => rfl
    | cons change rest =>
      rw [numbered, List.drop_succ_cons, List.drop_succ_cons, ih,
        Nat.add_right_comm start 1 n, Nat.add_assoc start n 1]

theorem filter_numbered_of_le {start : Nat} {log : List (Ulid × Bool)} {since : U64}
    (hstart : since.val ≤ start) (hfew : start + log.length < 2 ^ 64) :
    (numbered start log).filter (fun change => since < change.revision) = numbered start log := by
  induction log generalizing start with
  | nil => rfl
  | cons change rest ih =>
    rw [List.length_cons] at hfew
    have hnewer : since < (Saturating.clamp (start + 1) : U64) := by
      rw [Fin.lt_def, Saturating.val_clamp]
      omega
    rw [numbered, List.filter_cons, if_pos (decide_eq_true hnewer), ih (by omega) (by omega)]

/-- The changes numbered above `since` are those after the first `since`. -/
theorem filter_numbered {start : Nat} {log : List (Ulid × Bool)} {since : U64}
    (hstart : start ≤ since.val) (hfew : start + log.length < 2 ^ 64) :
    (numbered start log).filter (fun change => since < change.revision) =
      numbered since.val (log.drop (since.val - start)) := by
  induction log generalizing start with
  | nil => simp [numbered]
  | cons change rest ih =>
    by_cases hlast : start = since.val
    · rw [filter_numbered_of_le hlast.ge hfew, hlast, Nat.sub_self, List.drop_zero]
    · rw [List.length_cons] at hfew
      have holder : ¬ since < (Saturating.clamp (start + 1) : U64) := by
        rw [Fin.lt_def, Saturating.val_clamp]
        omega
      have hdrop : since.val - start = (since.val - (start + 1)) + 1 := by omega
      rw [numbered, List.filter_cons, if_neg (by simpa using holder), ih (by omega) (by omega),
        hdrop, List.drop_succ_cons]

theorem map_numbered (start : Nat) (log : List (Ulid × Bool)) :
    (numbered start log).map (fun change => (change.vmid, change.added)) = log := by
  induction log generalizing start with
  | nil => rfl
  | cons change rest ih => rw [numbered, List.map_cons, ih]

/-! Operations on the set of VMs. -/

inductive MembershipOp where
  | insertVm (vmid : Ulid) (cache : VMCacheData)
  | removeVm (vmid : Ulid)

def perform (agent : AgentActor) : MembershipOp → AgentActor
  | .insertVm vmid cache => agent.insertVm vmid cache
  | .removeVm vmid => (agent.removeVm vmid).2

/-- The membership change that the operation makes, if it makes one. -/
def changesOf (agent : AgentActor) : MembershipOp → List (Ulid × Bool)
  | .insertVm vmid _ => if agent.vms.contains vmid then [] else [(vmid, true)]
  | .removeVm vmid => if agent.vms.contains vmid then [(vmid, false)] else []

/-- The agent after the membership changes of `log`. -/
structure Recorded (log : List (Ulid × Bool)) (agent : AgentActor) : Prop where
  revision : agent.membershipRevision = Saturating.clamp log.length
  history : agent.statusHistory = numbered (log.length - statusChangeHistoryLimit)
    (log.drop (log.length - statusChangeHistoryLimit))
  held : agent.vms.keys = ChangeLog.replay log

theorem recorded_onStart (config : Config) (host : Host) : Recorded [] (onStart config host) :=
  ⟨rfl, rfl, rfl⟩

theorem recordMembershipChange_history {log : List (Ulid × Bool)} {agent : AgentActor}
    (hrevision : agent.membershipRevision = Saturating.clamp log.length)
    (hhistory : agent.statusHistory = numbered (log.length - statusChangeHistoryLimit)
      (log.drop (log.length - statusChangeHistoryLimit))) (vmid : Ulid) (added : Bool) :
    (agent.recordMembershipChange vmid added).statusHistory =
      numbered ((log ++ [(vmid, added)]).length - statusChangeHistoryLimit)
        ((log ++ [(vmid, added)]).drop
          ((log ++ [(vmid, added)]).length - statusChangeHistoryLimit)) := by
  generalize hlimit : statusChangeHistoryLimit = limit at *
  have hkept : (log.drop (log.length - limit)).length = log.length - (log.length - limit) :=
    List.length_drop
  have hnumber : log.length - limit + (log.drop (log.length - limit)).length + 1 =
      log.length + 1 := by omega
  have hpush : agent.statusHistory ++ [⟨Saturating.add agent.membershipRevision 1, vmid, added⟩] =
      numbered (log.length - limit) ((log ++ [(vmid, added)]).drop (log.length - limit)) := by
    rw [List.drop_append_of_le_length (Nat.sub_le _ _), numbered_append, hnumber, hhistory,
      hrevision, Saturating.add_clamp]
    rfl
  have hcut : log.length - limit + (log.length + 1 - (log.length - limit) - limit) =
      log.length + 1 - limit := by omega
  rw [recordMembershipChange, hpush]
  dsimp only
  rw [trimHistory_eq, hlimit, length_numbered, List.length_drop, List.length_append,
    List.length_singleton, drop_numbered, List.drop_drop, hcut]

theorem Recorded.insertVm {log : List (Ulid × Bool)} {agent : AgentActor}
    (h : Recorded log agent) (vmid : Ulid) (cache : VMCacheData) :
    Recorded (log ++ agent.changesOf (.insertVm vmid cache)) (agent.insertVm vmid cache) := by
  unfold AgentActor.insertVm changesOf
  cases hget : agent.vms.get vmid with
  | some previous =>
    have hknown : agent.vms.contains vmid = true := by simp [AHashMap.contains, hget]
    have hmem : vmid ∈ agent.vms.keys := (AHashMap.mem_keys _ _).mpr ⟨previous, hget⟩
    dsimp only
    rw [if_pos hknown, List.append_nil]
    refine ⟨h.revision, h.history, ?_⟩
    rw [← h.held, ← Finset.insert_eq_of_mem hmem]
    exact AHashMap.keys_insert _ _ _
  | none =>
    have hunknown : ¬ agent.vms.contains vmid = true := by simp [AHashMap.contains, hget]
    dsimp only
    rw [if_neg hunknown]
    refine ⟨?_, recordMembershipChange_history h.revision h.history vmid true, ?_⟩
    · rw [List.length_append, List.length_singleton]
      exact (congrArg (Saturating.add · 1) h.revision).trans (Saturating.add_clamp _ _)
    · rw [ChangeLog.replay_append, ← h.held]
      exact AHashMap.keys_insert _ _ _

theorem Recorded.removeVm {log : List (Ulid × Bool)} {agent : AgentActor}
    (h : Recorded log agent) (vmid : Ulid) :
    Recorded (log ++ agent.changesOf (.removeVm vmid)) (agent.removeVm vmid).2 := by
  unfold AgentActor.removeVm changesOf
  cases hget : agent.vms.get vmid with
  | none =>
    have hunknown : ¬ agent.vms.contains vmid = true := by simp [AHashMap.contains, hget]
    dsimp only
    rw [if_neg hunknown, List.append_nil]
    exact h
  | some removed =>
    have hknown : agent.vms.contains vmid = true := by simp [AHashMap.contains, hget]
    dsimp only
    rw [if_pos hknown]
    refine ⟨?_, recordMembershipChange_history h.revision h.history vmid false, ?_⟩
    · rw [List.length_append, List.length_singleton]
      exact (congrArg (Saturating.add · 1) h.revision).trans (Saturating.add_clamp _ _)
    · rw [ChangeLog.replay_append, ← h.held]
      exact AHashMap.keys_erase _ _

theorem Recorded.perform {log : List (Ulid × Bool)} {agent : AgentActor}
    (h : Recorded log agent) (op : MembershipOp) :
    Recorded (log ++ agent.changesOf op) (agent.perform op) := by
  cases op with
  | insertVm vmid cache => exact h.insertVm vmid cache
  | removeVm vmid => exact h.removeVm vmid

section Answers

variable {log : List (Ulid × Bool)} {agent : AgentActor}

theorem Recorded.val_revision (h : Recorded log agent) (hfew : log.length < 2 ^ 64) :
    agent.membershipRevision.val = log.length := by
  rw [h.revision, Saturating.val_clamp]
  omega

theorem get_latestChanges (agent : AgentActor) (since : U64) (vmid : Ulid) :
    (agent.latestChanges since).get vmid =
      ChangeLog.lastWord ((agent.statusHistory.filter fun change => since < change.revision).map
        fun change => (change.vmid, change.added)) vmid := by
  have hlast := ChangeLog.get_foldl_insert
    ((agent.statusHistory.filter fun change => since < change.revision).map
      fun change => (change.vmid, change.added)) AHashMap.empty vmid
  rw [List.foldl_map, AHashMap.get_empty, Option.or_none] at hlast
  exact hlast

/-- A caller that is not sent a snapshot has a revision of the past, and the
history still has every change made since. -/
theorem Recorded.within_history (h : Recorded log agent) (hfew : log.length < 2 ^ 64)
    {msg : GetAgentStatus} (hdelta : agent.needsFull msg = false) :
    msg.sinceRevision.val ≤ log.length ∧
      log.length - statusChangeHistoryLimit ≤ msg.sinceRevision.val := by
  rw [needsFull, Bool.or_eq_false_iff, Bool.or_eq_false_iff, decide_eq_false_iff_not,
    Fin.lt_def, h.val_revision hfew] at hdelta
  obtain ⟨⟨_, hpast⟩, hfront⟩ := hdelta
  refine ⟨by omega, ?_⟩
  by_cases hall : log.length ≤ statusChangeHistoryLimit
  · omega
  · have hlimit : statusChangeHistoryLimit = 256 := rfl
    rw [h.history] at hfront
    cases hdrop : log.drop (log.length - statusChangeHistoryLimit) with
    | nil =>
      rw [List.drop_eq_nil_iff] at hdrop
      omega
    | cons change rest =>
      have hnext : (Saturating.add msg.sinceRevision 1).val =
          min (msg.sinceRevision.val + 1) (2 ^ 64 - 1) := rfl
      rw [hdrop, numbered, List.head?_cons, Option.any_some, decide_eq_false_iff_not, Fin.lt_def,
        hnext, Saturating.val_clamp] at hfront
      omega

/-- The change lists of a delta are the last words since the caller's revision. -/
theorem Recorded.summarises (h : Recorded log agent) (hfew : log.length < 2 ^ 64)
    {msg : GetAgentStatus} (hdelta : agent.needsFull msg = false) :
    ChangeLog.Summarises (changedTo (agent.latestChanges msg.sinceRevision) true)
      (changedTo (agent.latestChanges msg.sinceRevision) false)
      (log.drop msg.sinceRevision.val) := by
  obtain ⟨_, hwindow⟩ := h.within_history hfew hdelta
  have hkept : (log.drop (log.length - statusChangeHistoryLimit)).length =
      log.length - (log.length - statusChangeHistoryLimit) := List.length_drop
  have hlater : (agent.statusHistory.filter fun change => msg.sinceRevision < change.revision).map
      (fun change => (change.vmid, change.added)) = log.drop msg.sinceRevision.val := by
    rw [h.history, filter_numbered hwindow (by omega), map_numbered, List.drop_drop,
      Nat.add_sub_of_le hwindow]
  constructor
  · intro vmid
    rw [mem_changedTo, get_latestChanges, hlater]
  · intro vmid
    rw [mem_changedTo, get_latestChanges, hlater]

end Answers

end AgentActor

end Odorobo
