import Odorobo.InstanceRuns
import Odorobo.TapHooks

/-! From a manifest to the VM that is created for it. Whatever the transforms do on
the way, the configuration that reaches the VMM still shows the manifest, with the
devices that the storage backends answered with, in the order of the attachments. -/

namespace Odorobo

open HostCall StorageDriverTransformer NetworkTransform

variable {crate : UrlCrate} {runtimeRoot vmid : String}

namespace VMInstance

/-- The calls that concern the process alone. -/
def isProcess : HostCall → Prop
  | .createRuntimeDir | .spawnVmm | .ping | .killChild => True
  | _ => False

/-- One create, for the transformed configuration; then a boot if it was asked for
and the VM was created. -/
structure Creating (crate : UrlCrate) (runtimeRoot : String) (vm : VMInstance) (config : VmConfig)
    (boot : Bool) (transforms : Trace) (created : VmConfig) (answer : Except String Unit)
    (boots : Trace) (result : Except String Unit) (vm' : VMInstance) : Prop where
  transformed : Program.Runs ((TransformChain.ofHost crate runtimeRoot).transform vm.id config)
    transforms (.ok created)
  resolves : ∀ entry ∈ transforms, isResolve entry.1
  kept : vm'.vmConfig = some created
  booting : ∀ entry ∈ boots, isBoot entry.1
  booted : boots ≠ [] → answer = .ok () ∧ boot = true
  done : result = .ok () → answer = .ok () ∧ (boot = true → ⟨.bootVm, .ok ()⟩ ∈ boots)

/-- What is created is created once, between resolves and a boot. -/
theorem Creating.split {vm vm' : VMInstance} {config created : VmConfig} {boot : Bool}
    {transforms boots start last : Trace} {answer result : Except String Unit}
    (h : Creating crate runtimeRoot vm config boot transforms created answer boots result vm')
    (hstart : ∀ entry ∈ start, isProcess entry.1) (hlast : ∀ entry ∈ last, isProcess entry.1) :
    (∀ other, HostCall.createVm other ∉ calls (start ++ transforms) ∧
      HostCall.createVm other ∉ calls (boots ++ last)) ∧
    HostCall.bootVm ∉ calls (start ++ transforms) ∧
    (HostCall.bootVm ∈ calls (boots ++ last) → answer = .ok () ∧ boot = true) := by
  have hnone : ∀ {P : HostCall → Prop} {before after : Trace}, (∀ entry ∈ before, P entry.1) →
      (∀ entry ∈ after, isProcess entry.1) → ∀ {call : HostCall}, ¬ P call → ¬ isProcess call →
        call ∉ calls (after ++ before) ∧ call ∉ calls (before ++ after) := by
    intro P before after hbefore hafter call hP hprocess
    rw [calls_append, calls_append, List.mem_append, List.mem_append, not_or, not_or]
    exact ⟨⟨not_mem_calls hafter hprocess, not_mem_calls hbefore hP⟩,
      ⟨not_mem_calls hbefore hP, not_mem_calls hafter hprocess⟩⟩
  refine ⟨fun other => ⟨?_, ?_⟩, ?_, ?_⟩
  · exact (hnone h.resolves hstart (by simp [isResolve]) (by simp [isProcess])).1
  · exact (hnone h.booting hlast (by simp [isBoot]) (by simp [isProcess])).2
  · exact (hnone h.resolves hstart (by simp [isResolve]) (by simp [isProcess])).1
  · intro hboot
    apply h.booted
    rintro rfl
    exact not_mem_calls hlast (by simp [isProcess]) hboot

end VMInstance

end Odorobo
