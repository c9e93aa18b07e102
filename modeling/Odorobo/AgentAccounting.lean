import Odorobo.AgentHandlers
import Odorobo.SchedulerRuns

/-! The resource counters of the agent against the sums over its VMs. They are
kept by saturating additions and subtractions, which give a sum back only if it
never went over the width: what an addition cuts off, the subtraction of a later
removal takes off a second time. -/

namespace Odorobo.AgentActor

/-- The sum of a resource over the VMs held. -/
def total {n : Nat} (load : VMCacheData → Fin n) (agent : AgentActor) : Nat :=
  (agent.vms.values.map fun cache => (load cache).val).sum

/-- What the entry of a VM already counts for. -/
def counted {n : Nat} (load : VMCacheData → Fin n) (agent : AgentActor) (vmid : Ulid) : Nat :=
  (agent.vms.get vmid).elim 0 fun cache => (load cache).val

/-- The counter is the sum wherever that fits. -/
def Exact {n : Nat} (used : AgentActor → Fin n) (load : VMCacheData → Fin n)
    (agent : AgentActor) : Prop :=
  total load agent < n → (used agent).val = total load agent

/-- Exact, also after the deletion of any VM. -/
def StaysExact {n : Nat} (used : AgentActor → Fin n) (load : VMCacheData → Fin n)
    (agent : AgentActor) : Prop :=
  Exact used load agent ∧ ∀ vmid, Exact used load (agent.deleteVM vmid)

/-- The sum still fits when the entry is in place. -/
def InsertFits {n : Nat} (load : VMCacheData → Fin n) (agent : AgentActor) (vmid : Ulid)
    (cache : VMCacheData) : Prop :=
  total load agent + (load cache).val < n + counted load agent vmid

/-- No entry that the message puts in place, if only for the time of a failed
receive, takes the sum over the width. -/
def FitsWithin {n : Nat} (load : VMCacheData → Fin n) (agent : AgentActor) : Action → Prop
  | .handle (.createVM msg spawned) => agent.vms.get msg.vmid = none →
      InsertFits load agent msg.vmid (cacheData spawned msg.config)
  | .handle (.migrateVMReceive msg spawned _) =>
      InsertFits load agent msg.vmid (cacheData spawned msg.config)
  | _ => True

/-- A counter of the agent and what a VM contributes to it. -/
structure Metered {n : Nat} (used : AgentActor → Fin n) (load : VMCacheData → Fin n) : Prop where
  started : ∀ config host, (used (onStart config host)).val = 0
  inserted : ∀ (agent : AgentActor) vmid cache, used (agent.insertVm vmid cache) =
    Saturating.add ((agent.vms.get vmid).elim (used agent) fun previous =>
      Saturating.sub (used agent) (load previous)) (load cache)
  removed : ∀ (agent : AgentActor) vmid previous, agent.vms.get vmid = some previous →
    used (agent.removeVm vmid).2 = Saturating.sub (used agent) (load previous)
  rehashed : ∀ agent agent', Rehash agent agent' → used agent' = used agent

theorem metered_vcpus : Metered usedVcpus VMCacheData.vcpus where
  started _ _ := rfl
  inserted agent vmid cache := by
    unfold insertVm
    cases agent.vms.get vmid <;> rfl
  removed agent vmid previous h := by
    unfold removeVm
    rw [h]
    rfl
  rehashed agent agent' h := by rw [h.same]

theorem metered_memoryBytes : Metered usedMemoryBytes VMCacheData.memoryBytes where
  started _ _ := rfl
  inserted agent vmid cache := by
    unfold insertVm
    cases agent.vms.get vmid <;> rfl
  removed agent vmid previous h := by
    unfold removeVm
    rw [h]
    rfl
  rehashed agent agent' h := by rw [h.same]

section Totals

variable {n : Nat} (load : VMCacheData → Fin n)

theorem total_insertVm (agent : AgentActor) (vmid : Ulid) (cache : VMCacheData) :
    total load (agent.insertVm vmid cache) + counted load agent vmid =
      total load agent + (load cache).val := by
  unfold total counted
  rw [insertVm_vms]
  exact AHashMap.sum_values_insert _ _ _ _

theorem total_removeVm {agent : AgentActor} {vmid : Ulid} {previous : VMCacheData}
    (h : agent.vms.get vmid = some previous) :
    total load (agent.removeVm vmid).2 + (load previous).val = total load agent := by
  have hsum := AHashMap.sum_values_erase agent.vms vmid fun cache => (load cache).val
  unfold total
  rw [removeVm_vms h]
  rwa [h] at hsum

theorem counted_le (agent : AgentActor) (vmid : Ulid) :
    counted load agent vmid ≤ total load agent := by
  have hsum := AHashMap.sum_values_erase agent.vms vmid fun cache => (load cache).val
  unfold total counted
  omega

theorem total_rehash {agent agent' : AgentActor} (h : Rehash agent agent') :
    total load agent' = total load agent := by
  have hkeys : agent'.vms.keys = agent.vms.keys := by
    ext vmid
    rw [AHashMap.mem_keys, AHashMap.mem_keys, h.vms]
  unfold total
  rw [AHashMap.sum_values, AHashMap.sum_values, hkeys, h.vms]

end Totals

section Meter

variable {n : Nat} {used : AgentActor → Fin n} {load : VMCacheData → Fin n}

/-- The sum fits and the counter is the sum. -/
structure Balanced (used : AgentActor → Fin n) (load : VMCacheData → Fin n) (agent : AgentActor) :
    Prop where
  fits : total load agent < n
  exact : (used agent).val = total load agent

theorem Metered.val_insertVm (m : Metered used load) {agent : AgentActor}
    (h : Balanced used load agent) (vmid : Ulid) (cache : VMCacheData) :
    (used (agent.insertVm vmid cache)).val =
      min (total load agent - counted load agent vmid + (load cache).val) (n - 1) := by
  rw [m.inserted, Saturating.val_add, ← h.exact]
  unfold counted
  cases agent.vms.get vmid <;> rfl

theorem Metered.insertVm (m : Metered used load) {agent : AgentActor}
    (h : Balanced used load agent) {vmid : Ulid} {cache : VMCacheData}
    (fits : InsertFits load agent vmid cache) : Balanced used load (agent.insertVm vmid cache) := by
  have htotal := total_insertVm load agent vmid cache
  have hcounted := counted_le load agent vmid
  have hval := m.val_insertVm h vmid cache
  unfold InsertFits at fits
  exact ⟨by omega, by omega⟩

theorem Metered.removeVm (m : Metered used load) {agent : AgentActor}
    (h : Balanced used load agent) (vmid : Ulid) : Balanced used load (agent.removeVm vmid).2 := by
  cases hget : agent.vms.get vmid with
  | none =>
    rw [removeVm_of_unknown hget]
    exact h
  | some previous =>
    have htotal := total_removeVm load hget
    have hval := congrArg Fin.val (m.removed agent vmid previous hget)
    rw [Saturating.val_sub, h.exact] at hval
    exact ⟨by have := h.fits; omega, by omega⟩

/-- An insertion that goes over the width shows once its entry is removed. -/
theorem Metered.overflow (m : Metered used load) {agent : AgentActor}
    (h : Balanced used load agent) {vmid : Ulid} {cache : VMCacheData}
    (hwide : ¬ InsertFits load agent vmid cache) :
    ¬ Exact used load ((agent.insertVm vmid cache).removeVm vmid).2 := by
  have hget := get_insertVm agent vmid cache
  have htotal := total_insertVm load agent vmid cache
  have hcounted := counted_le load agent vmid
  have hremoved := total_removeVm load hget
  have hval := congrArg Fin.val (m.removed _ vmid cache hget)
  rw [Saturating.val_sub, m.val_insertVm h vmid cache] at hval
  have hfits := h.fits
  unfold InsertFits at hwide
  intro hexact
  have := hexact (by omega)
  omega

theorem Metered.onStart (m : Metered used load) (config : Config) (host : Host) :
    Balanced used load (onStart config host) where
  fits := (used (AgentActor.onStart config host)).pos
  exact := m.started config host

theorem Metered.step (m : Metered used load) {agent agent' : AgentActor} {action : Action}
    (h : Balanced used load agent) (fits : FitsWithin load agent action)
    (hstep : Step agent action agent') : Balanced used load agent' := by
  cases action with
  | handle message =>
    rw [show agent' = agent.handle message from hstep]
    apply handle_rule message h
    · rintro msg spawned rfl hunknown
      exact m.insertVm h (fits hunknown)
    · rintro msg spawned asked rfl
      exact m.insertVm h fits
    · exact fun agent vmid hagent => m.removeVm hagent vmid
  | rehash =>
    have hr : Rehash agent agent' := hstep
    refine ⟨?_, ?_⟩
    · rw [total_rehash load hr]
      exact h.fits
    · rw [total_rehash load hr, m.rehashed agent agent' hr]
      exact h.exact

theorem Balanced.staysExact (m : Metered used load) {agent : AgentActor}
    (h : Balanced used load agent) : StaysExact used load agent :=
  ⟨fun _ => h.exact, fun vmid _ => (m.removeVm h vmid).exact⟩

/-- A step that does not fit leaves a state that is inexact, or becomes so when
the VM is deleted. -/
theorem Metered.leaves (m : Metered used load) {agent agent' : AgentActor} {action : Action}
    (h : Balanced used load agent) (hwide : ¬ FitsWithin load agent action)
    (hstep : Step agent action agent') : ¬ StaysExact used load agent' := by
  intro hstays
  cases action with
  | handle message =>
    rw [show agent' = agent.handle message from hstep] at hstays
    cases message with
    | createVM msg spawned =>
      simp only [FitsWithin, Classical.not_imp] at hwide
      obtain ⟨hunknown, hover⟩ := hwide
      rw [handle, createVM, hunknown] at hstays
      exact m.overflow h hover (hstays.2 msg.vmid)
    | migrateVMReceive msg spawned asked =>
      rw [handle, migrateVMReceive_eq] at hstays
      split at hstays
      · exact m.overflow h hwide hstays.1
      · exact m.overflow h hwide (hstays.2 msg.vmid)
    | deleteVM vmid => exact hwide trivial
    | linkDied id => exact hwide trivial
    | query => exact hwide trivial
  | rehash => exact hwide trivial

theorem Metered.staysExact_iff (m : Metered used load) (config : Config) (host : Host)
    (run : List (Action × AgentActor)) (hrun : Transition.IsRun Step (AgentActor.onStart config host) run) :
    Transition.AllStates (StaysExact used load) (AgentActor.onStart config host) run ↔
      Transition.AllSteps (FitsWithin load) (AgentActor.onStart config host) run := by
  have hkept : ∀ agent action agent', Balanced used load agent → FitsWithin load agent action →
      Step agent action agent' → Balanced used load agent' := fun _ _ _ h => m.step h
  constructor
  · intro hstays
    exact Transition.allSteps_of_invariant hkept (fun _ _ _ h => m.leaves h) _ run
      (m.onStart config host) hrun hstays
  · intro hfits
    have hbalanced := Transition.allStates_of_step hkept _ run (m.onStart config host) hrun hfits
    exact Transition.allStates_mono (fun _ h => h.staysExact m) hbalanced

end Meter

theorem agent_accounting_exact_iff (config : Config) (host : Host)
    (run : List (Action × AgentActor)) (hrun : Transition.IsRun Step (onStart config host) run) :
    Transition.AllStates (fun agent => StaysExact usedVcpus VMCacheData.vcpus agent ∧
        StaysExact usedMemoryBytes VMCacheData.memoryBytes agent) (onStart config host) run ↔
      Transition.AllSteps (fun agent action => FitsWithin VMCacheData.vcpus agent action ∧
        FitsWithin VMCacheData.memoryBytes agent action) (onStart config host) run := by
  have hvcpus := metered_vcpus.staysExact_iff config host run hrun
  have hmemory := metered_memoryBytes.staysExact_iff config host run hrun
  rw [Transition.allStates_and_iff, Transition.allSteps_and_iff, hvcpus, hmemory]

section Samples

def sampleAgent : AgentActor := onStart ⟨none, none⟩ ⟨4, 4096, none⟩

/-- A create whose VM actor gets the given number. -/
def createsSized (vmid : Ulid) (vcpus : U32) (sequenceId : U64) : Message :=
  .createVM ⟨vmid, SchedulerActor.sizedManifest vmid vcpus 1⟩ ⟨⟨sequenceId, 1⟩⟩

/-- A receive that the spawned actor refuses. -/
def failsReceive (vmid : Ulid) (vcpus : U32) (sequenceId : U64) : Message :=
  .migrateVMReceive ⟨vmid, SchedulerActor.sizedManifest vmid vcpus 1⟩ ⟨⟨sequenceId, 1⟩⟩
    (.error "refused")

end Samples

/-- A VM is created, a failed receive replaces and removes it. -/
theorem agent_accounting_exact_iff_failed_receive :
    let run := runFrom sampleAgent [createsSized 1 3 7, createsSized 2 5 8, failsReceive 2 7 9]
    (Transition.final sampleAgent run).usedVcpus = 3 ∧
      Transition.AllStates (fun agent => StaysExact usedVcpus VMCacheData.vcpus agent ∧
        StaysExact usedMemoryBytes VMCacheData.memoryBytes agent) sampleAgent run := by
  intro run
  refine ⟨by decide +kernel, ?_⟩
  apply (agent_accounting_exact_iff _ _ run (isRun_runFrom sampleAgent _)).mpr
  refine ⟨⟨?_, ?_⟩, ⟨?_, ?_⟩, ⟨?_, ?_⟩, trivial⟩
  · exact fun _ => by unfold InsertFits; decide +kernel
  · exact fun _ => by unfold InsertFits; decide +kernel
  · exact fun _ => by unfold InsertFits; decide +kernel
  · exact fun _ => by unfold InsertFits; decide +kernel
  · change InsertFits _ _ _ _
    unfold InsertFits
    decide +kernel
  · change InsertFits _ _ _ _
    unfold InsertFits
    decide +kernel

/-- Two VMs of the largest size: with one of them deleted, the other is still
there and the counter is zero. -/
theorem agent_accounting_lost :
    let agent := ((sampleAgent.handle (createsSized 1 4294967295 7)).handle
      (createsSized 2 4294967295 8)).handle (.deleteVM 2)
    total VMCacheData.vcpus agent = 2 ^ 32 - 1 ∧ agent.usedVcpus = 0 ∧
      ¬ Exact usedVcpus VMCacheData.vcpus agent := by
  intro agent
  have htotal : total VMCacheData.vcpus agent = 2 ^ 32 - 1 := by decide +kernel
  have hused : agent.usedVcpus = 0 := by decide +kernel
  refine ⟨htotal, hused, ?_⟩
  intro hexact
  have hval := hexact (by rw [htotal]; decide)
  rw [hused, htotal] at hval
  exact absurd hval (by decide)

end Odorobo.AgentActor
