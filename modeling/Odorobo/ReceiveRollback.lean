import Odorobo.AgentAccounting

/-! A migration receive that fails. The new entry is put in place before the
receiver is asked and taken away again when it answers with an error. That gives
back what was there before only if nothing was there, and only if the counters
did not reach their width in between. -/

namespace Odorobo.AgentActor

/-- The same VMs, with their actors and manifests, and the same usage. -/
structure Restored (agent agent' : AgentActor) : Prop where
  vms : agent'.vms.get = agent.vms.get
  usedVcpus : agent'.usedVcpus = agent.usedVcpus
  usedMemoryBytes : agent'.usedMemoryBytes = agent.usedMemoryBytes

/-- The usage that the entry adds stays below the width of the counter. -/
def CountsUp {n : Nat} (used : AgentActor → Fin n) (load : VMCacheData → Fin n)
    (agent : AgentActor) (cache : VMCacheData) : Prop :=
  (used agent).val + (load cache).val < n

section Meter

variable {n : Nat} {used : AgentActor → Fin n} {load : VMCacheData → Fin n}

/-- An entry of a new VM that is put in place and taken away. -/
theorem Metered.undone_iff (m : Metered used load) {agent : AgentActor} {vmid : Ulid}
    (hunknown : agent.vms.get vmid = none) (cache : VMCacheData) :
    used ((agent.insertVm vmid cache).removeVm vmid).2 = used agent ↔
      CountsUp used load agent cache := by
  rw [m.removed _ vmid cache (get_insertVm agent vmid cache), m.inserted, hunknown, Option.elim_none,
    Fin.ext_iff, Saturating.val_sub, Saturating.val_add, CountsUp]
  have hwidth := (used agent).isLt
  have hload := (load cache).isLt
  omega

end Meter

theorem vms_undone (agent : AgentActor) (vmid : Ulid) (cache : VMCacheData) :
    ((agent.insertVm vmid cache).removeVm vmid).2.vms.get = (agent.vms.erase vmid).get := by
  funext other
  rw [removeVm_vms (get_insertVm agent vmid cache), insertVm_vms, AHashMap.get_erase,
    AHashMap.get_erase, AHashMap.get_insert]
  split <;> rfl

theorem get_erase_of_unknown {agent : AgentActor} {vmid : Ulid} (h : agent.vms.get vmid = none) :
    (agent.vms.erase vmid).get = agent.vms.get := by
  funext other
  rw [AHashMap.get_erase]
  split
  · next heq => rw [heq, h]
  · rfl

theorem failed_receive_restores_iff (agent : AgentActor) (msg : MigrateVMReceive)
    (spawned : RemoteActorRef .vm) (asked : Except String MigrateVMReceiveReply)
    (hfailed : (agent.migrateVMReceive msg spawned asked).1.error.isSome = true) :
    Restored agent (agent.migrateVMReceive msg spawned asked).2 ↔
      agent.vms.get msg.vmid = none ∧
        CountsUp usedVcpus VMCacheData.vcpus agent (cacheData spawned msg.config) ∧
        CountsUp usedMemoryBytes VMCacheData.memoryBytes agent (cacheData spawned msg.config) := by
  have hreply : (receiveReply asked).error.isSome = true := by
    unfold migrateVMReceive at hfailed
    dsimp only at hfailed
    split at hfailed
    · assumption
    · exact hfailed
  rw [migrateVMReceive_eq, if_pos hreply]
  constructor
  · intro hrestored
    -- the entry is gone afterwards, so there was none before
    have hunknown : agent.vms.get msg.vmid = none := by
      rw [← hrestored.vms, vms_undone, AHashMap.get_erase_self]
    exact ⟨hunknown, (metered_vcpus.undone_iff hunknown _).mp hrestored.usedVcpus,
      (metered_memoryBytes.undone_iff hunknown _).mp hrestored.usedMemoryBytes⟩
  · rintro ⟨hunknown, hvcpus, hmemory⟩
    refine ⟨?_, ?_, ?_⟩
    · rw [vms_undone, get_erase_of_unknown hunknown]
    · exact (metered_vcpus.undone_iff hunknown _).mpr hvcpus
    · exact (metered_memoryBytes.undone_iff hunknown _).mpr hmemory

section Samples

def receives (vmid : Ulid) (vcpus : U32) : MigrateVMReceive :=
  ⟨vmid, SchedulerActor.sizedManifest vmid vcpus 1⟩

def oneVmHeld : AgentActor := sampleAgent.handle (createsSized 5 3 7)

end Samples

/-- A refused receive of a VM that the agent does not hold. -/
theorem failed_receive_restores_iff_new_vm :
    Restored oneVmHeld (oneVmHeld.migrateVMReceive (receives 6 2) ⟨⟨8, 1⟩⟩ (.error "refused")).2 := by
  apply (failed_receive_restores_iff oneVmHeld (receives 6 2) ⟨⟨8, 1⟩⟩ (.error "refused")
    (by decide +kernel)).mpr
  refine ⟨by decide +kernel, ?_, ?_⟩
  · unfold CountsUp
    decide +kernel
  · unfold CountsUp
    decide +kernel

/-- A refused receive of a VM that the agent already runs: the running VM is
forgotten. -/
theorem failed_receive_forgets :
    let handled := oneVmHeld.migrateVMReceive (receives 5 3) ⟨⟨8, 1⟩⟩ (.error "refused")
    Transition.Reachable Step (onStart ⟨none, none⟩ ⟨4, 4096, none⟩) oneVmHeld ∧
      handled.1.error.isSome = true ∧ (oneVmHeld.vms.get 5).isSome = true ∧
      handled.2.vms.get 5 = none ∧ ¬ Restored oneVmHeld handled.2 := by
  intro handled
  have hheld : (oneVmHeld.vms.get 5).isSome = true := by decide +kernel
  have hgone : handled.2.vms.get 5 = none := by decide +kernel
  refine ⟨?_, by decide +kernel, hheld, hgone, ?_⟩
  · exact (Transition.Reachable.refl _).tail (show Step _ (.handle (createsSized 5 3 7)) _ from rfl)
  · intro hrestored
    rw [← congrFun hrestored.vms 5, hgone] at hheld
    simp at hheld

end Odorobo.AgentActor
