import Odorobo.HostCalls

/-! A VM instance: a Cloud Hypervisor process, its API socket, and the configuration
whose storage is given back when the instance is purged. -/

namespace Odorobo

open HostCall

/-- `childProcess` says whether the process handle is still here. -/
structure VMInstance where
  id : String
  childProcess : Bool
  vmConfig : Option VmConfig
  deriving DecidableEq

namespace VMInstance

abbrev Host := Program HostCall HostCall.Answer

def ask (call : HostCall) : Host call.Answer := Program.ask call

/-- An API call, reported by a message of its own when it fails. -/
def info (vm : VMInstance) : Host (Except String VmState) :=
  (ask .vmInfo).wrapErr ("Failed to get VM info for " ++ vm.id)

def shutdown (vm : VMInstance) : Host (Except String Unit) :=
  (ask .shutdownVm).wrapErr ("Failed to shutdown VM " ++ vm.id)

def boot (vm : VMInstance) : Host (Except String Unit) :=
  vm.info.andThen fun _ =>
    (ask (.hook .beforeBoot)).andThen fun _ =>
      ((ask .bootVm).wrapErr ("Failed to boot VM " ++ vm.id)).andThen fun _ =>
        vm.info.andThen fun _ => ask (.hook .afterBoot)

section Chain

variable (chain : TransformChain HostCall HostCall.Answer)

def applyTransforms (vm : VMInstance) (config : VmConfig) : Host (Except String VmConfig) :=
  (TransformChain.transform vm.id chain config).wrapErr
    ("Failed to apply config transforms for VM " ++ vm.id)

/-- The VM is created and booted once the instance keeps its configuration. -/
def createVm (vm : VMInstance) (config : VmConfig) (boot : Bool) : Host (Except String Unit) :=
  ((ask (.createVm config)).wrapErr ("Failed to create VM " ++ vm.id)).andThen fun _ =>
    if boot then vm.boot.wrapErr ("Failed to boot VM " ++ vm.id) else .done (.ok ())

/-- The transformed configuration is kept, also when the VM is not created. -/
def createConfig (vm : VMInstance) (config : VmConfig) (boot : Bool) :
    Host (Except String Unit × VMInstance) :=
  (vm.applyTransforms chain config).bind fun
    | .error error => .done (.error error, vm)
    | .ok transformed =>
      let vm := { vm with vmConfig := some transformed }
      (vm.createVm transformed boot).bind fun result => .done (result, vm)

/-- The configuration is kept as it came, before it is transformed. -/
def prepConfig (vm : VMInstance) (config : VmConfig) : Host (Except String Unit × VMInstance) :=
  let vm := { vm with vmConfig := some config }
  ((vm.applyTransforms chain config).andThen fun _ => ask (.hook .beforeBoot)).bind
    fun result => .done (result, vm)

def stopChild (vm : VMInstance) : Host VMInstance :=
  if vm.childProcess then
    (ask .killChild).bind fun _ => .done { vm with childProcess := false }
  else .done vm

/-- The storage of the kept configuration is torn down, then the runtime directory
is removed. -/
def purgeInstanceData (vm : VMInstance) : Host (Except String Unit × VMInstance) :=
  ((TransformChain.teardown chain vm.id (vm.vmConfig.getD .default)).andThen fun _ =>
    (ask .removeRuntimeDir).wrapErr ("Failed to remove runtime directory for " ++ vm.id)).bind
      fun result => .done (result, { vm with vmConfig := none })

/-- The attempts to reach the socket that are left. -/
def awaitSocket (vm : VMInstance) (config : Option VmConfig) (boot : Bool) :
    Nat → Host (Except String VMInstance)
  | 0 => vm.stopChild.bind fun _ =>
    .done (.error ("CH socket not available after 31 attempts for VM " ++ vm.id))
  | n + 1 => .call .ping fun (reached : Bool) =>
    if reached then
      match config with
      | none => .done (.ok vm)
      | some config => (vm.createConfig chain config boot).bind fun
        | (.error error, vm) => vm.stopChild.bind fun _ => .done (.error error)
        | (.ok (), vm) => .done (.ok vm)
    else awaitSocket vm config boot n

def spawn (id : String) (config : Option VmConfig) (boot : Bool) : Host (Except String VMInstance) :=
  (ask .createRuntimeDir).andThen fun _ =>
    (ask .spawnVmm).andThen fun _ => awaitSocket chain ⟨id, true, none⟩ config boot 31

/-- The VM is stopped when it answers; one that does not is taken for stopped. -/
def stopVm (vm : VMInstance) : Host (Except String Unit) :=
  vm.info.bind fun
    | .error _ => .done (.ok ())
    | .ok state => (ask (.hook .beforeStop)).andThen fun _ =>
      if state = .running ∨ state = .paused then vm.shutdown else .done (.ok ())

/-- A hook or a shutdown that fails ends the destruction; a purge that fails is
logged. -/
def destroy (vm : VMInstance) : Host (Except String Unit × VMInstance) :=
  vm.stopVm.bind fun
    | .error error => .done (.error error, vm)
    | .ok () => (ask .shutdownVmm).bind fun _ =>
      vm.stopChild.bind fun vm => (ask (.hook .afterStop)).bind fun
        | .error error => .done (.error error, vm)
        | .ok () => (vm.purgeInstanceData chain).bind fun purged => .done (.ok (), purged.2)

end Chain

end VMInstance

end Odorobo
