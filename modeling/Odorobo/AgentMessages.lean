import Odorobo.Manifest
import Odorobo.SortedVec

/-! Status messages of an agent and their application to a cached status. A
status is sent as a full snapshot or as the membership changes since a revision
the reader already holds. -/

namespace Odorobo

/-- The identity of an actor in the cluster. Only equality is ever used. -/
structure ActorId where
  sequenceId : U64
  peer : Nat
  deriving DecidableEq

structure ObjectMetadata where
  labels : BTreeMap String String
  annotations : BTreeMap String String
  deriving DecidableEq

structure GetAgentStatus where
  sinceRevision : U64
  initial : Bool

structure AgentStatus where
  hostname : String
  vcpus : U32
  ram : U64
  usedVcpus : U32
  usedRam : U64
  vms : List Ulid
  metadata : ObjectMetadata
  deriving DecidableEq

inductive AgentStatusUpdate where
  | full (revision : U64) (status : AgentStatus)
  | delta (revision : U64) (added removed : List Ulid) (usedVcpus : U32) (usedRam : U64)
  deriving DecidableEq

structure MembershipChange where
  revision : U64
  vmid : Ulid
  added : Bool
  deriving DecidableEq

def statusChangeHistoryLimit : Nat := 256

namespace AgentStatusUpdate

def revision : AgentStatusUpdate → U64
  | full revision _ => revision
  | delta revision _ _ _ _ => revision

/-- No VM is reported both added and removed. -/
def Disjoint : AgentStatusUpdate → Prop
  | full _ _ => True
  | delta _ added removed _ _ => ∀ vmid ∈ added, vmid ∉ removed

end AgentStatusUpdate

/-- Removals first, then additions, each by bisection. -/
def applyMembership (vms added removed : List Ulid) : List Ulid :=
  added.foldl SortedVec.insert (removed.foldl SortedVec.remove vms)

def applyStatusUpdate (status : AgentStatus) : AgentStatusUpdate → AgentStatus × U64
  | .full revision next => (next, revision)
  | .delta revision added removed usedVcpus usedRam =>
    ({ status with
        vms := applyMembership status.vms added removed
        usedVcpus := usedVcpus
        usedRam := usedRam }, revision)

theorem mem_foldl_insert {xs added : List Ulid} {v : Ulid} :
    v ∈ added.foldl SortedVec.insert xs ↔ v ∈ added ∨ v ∈ xs := by
  induction added generalizing xs with
  | nil => simp
  | cons a added ih =>
    rw [List.foldl_cons, ih, SortedVec.mem_insert, List.mem_cons]
    tauto

theorem mem_foldl_remove_of_not_mem {xs removed : List Ulid} {v : Ulid}
    (h : v ∈ xs) (hr : v ∉ removed) : v ∈ removed.foldl SortedVec.remove xs := by
  induction removed generalizing xs with
  | nil => exact h
  | cons r removed ih =>
    rw [List.mem_cons, not_or] at hr
    exact ih (SortedVec.mem_remove_of_ne h hr.1) hr.2

/-- Whatever the cached list looks like, an added VM is listed afterwards. -/
theorem mem_applyMembership_of_added {vms added removed : List Ulid} {v : Ulid}
    (h : v ∈ added) : v ∈ applyMembership vms added removed :=
  mem_foldl_insert.mpr (Or.inl h)

theorem mem_applyMembership_of_kept {vms added removed : List Ulid} {v : Ulid}
    (h : v ∈ vms) (hr : v ∉ removed) : v ∈ applyMembership vms added removed :=
  mem_foldl_insert.mpr (Or.inr (mem_foldl_remove_of_not_mem h hr))

theorem pairwise_foldl_remove {xs removed : List Ulid} (sorted : xs.Pairwise (· < ·)) :
    (removed.foldl SortedVec.remove xs).Pairwise (· < ·) := by
  induction removed generalizing xs with
  | nil => exact sorted
  | cons r removed ih => exact ih (SortedVec.pairwise_remove sorted r)

theorem pairwise_foldl_insert {xs added : List Ulid} (sorted : xs.Pairwise (· < ·)) :
    (added.foldl SortedVec.insert xs).Pairwise (· < ·) := by
  induction added generalizing xs with
  | nil => exact sorted
  | cons a added ih => exact ih (SortedVec.pairwise_insert sorted a)

theorem mem_foldl_remove {xs removed : List Ulid} (sorted : xs.Pairwise (· < ·)) {v : Ulid} :
    v ∈ removed.foldl SortedVec.remove xs ↔ v ∈ xs ∧ v ∉ removed := by
  induction removed generalizing xs with
  | nil => simp
  | cons r removed ih =>
    rw [List.foldl_cons, ih (SortedVec.pairwise_remove sorted r), SortedVec.mem_remove sorted,
      List.mem_cons]
    tauto

/-- On a strictly increasing list the update is the set update. -/
theorem mem_applyMembership {vms added removed : List Ulid} (sorted : vms.Pairwise (· < ·))
    {v : Ulid} :
    v ∈ applyMembership vms added removed ↔ v ∈ added ∨ (v ∈ vms ∧ v ∉ removed) := by
  rw [applyMembership, mem_foldl_insert, mem_foldl_remove sorted]

theorem pairwise_applyMembership {vms added removed : List Ulid}
    (sorted : vms.Pairwise (· < ·)) :
    (applyMembership vms added removed).Pairwise (· < ·) :=
  pairwise_foldl_insert (pairwise_foldl_remove sorted)

theorem toFinset_applyMembership {vms : List Ulid} (sorted : vms.Pairwise (· < ·))
    (added removed : List Ulid) :
    (applyMembership vms added removed).toFinset =
      (vms.toFinset \ removed.toFinset) ∪ added.toFinset := by
  ext v
  simp only [List.mem_toFinset, Finset.mem_union, Finset.mem_sdiff, mem_applyMembership sorted]
  exact or_comm

/-- A delta is a set update of the VMs, in whatever order and how often its lists name
them, and an update of the usage. -/
theorem applyStatusUpdate_delta {status : AgentStatus} (sorted : status.vms.Pairwise (· < ·))
    (revision : U64) (added removed : List Ulid) (usedVcpus : U32) (usedRam : U64) :
    let result := applyStatusUpdate status (.delta revision added removed usedVcpus usedRam)
    result.1.vms.Pairwise (· < ·) ∧
      result.1.vms.toFinset = (status.vms.toFinset \ removed.toFinset) ∪ added.toFinset ∧
      result.1 =
        { status with vms := result.1.vms, usedVcpus := usedVcpus, usedRam := usedRam } ∧
      result.2 = revision :=
  ⟨pairwise_applyMembership sorted, toFinset_applyMembership sorted added removed, rfl, rfl⟩

theorem applyStatusUpdate_delta_unsorted :
    let status : AgentStatus := ⟨"node", 8, 64, 3, 12, [1, 3, 5], ⟨.empty, .empty⟩⟩
    let result := applyStatusUpdate status (.delta 9 [7, 2, 2, 3] [5, 3, 9, 5] 4 16)
    result.1.vms = [1, 2, 3, 7] ∧
      result.1.vms.toFinset =
        ((([1, 3, 5] : List Ulid).toFinset \ ([5, 3, 9, 5] : List Ulid).toFinset) ∪
          ([7, 2, 2, 3] : List Ulid).toFinset) :=
  ⟨by decide, (applyStatusUpdate_delta (by decide) 9 [7, 2, 2, 3] [5, 3, 9, 5] 4 16).2.1⟩

end Odorobo
