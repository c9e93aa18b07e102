import Odorobo.ManifestValidation

/-! The Cloud Hypervisor configuration of a VM and its translation from the
manifest. The models have the fields that the driver sets or reads; the others
keep their defaults throughout. -/

namespace Odorobo

/-- A signed 32-bit integer. -/
abbrev I32 := { x : Int // -2 ^ 31 ≤ x ∧ x < 2 ^ 31 }

structure CpusConfig where
  bootVcpus : I32
  maxVcpus : I32
  deriving DecidableEq

structure MemoryConfig where
  size : I64
  deriving DecidableEq

structure PayloadConfig where
  firmware : Option String
  kernel : Option String
  cmdline : Option String
  initramfs : Option String
  deriving DecidableEq

inductive ImageType where
  | raw
  | qcow2
  | fixedVhd
  | vhdx
  deriving DecidableEq

structure DiskConfig where
  id : Option String
  path : Option String
  readonly : Option Bool
  imageType : Option ImageType
  deriving DecidableEq

structure NetConfig where
  id : Option String
  mac : Option String
  tap : Option String
  deriving DecidableEq

structure VsockConfig where
  cid : I64
  socket : String
  id : Option String
  deriving DecidableEq

structure PlatformConfig where
  serialNumber : Option String
  deriving DecidableEq

inductive ConsoleMode where
  | off
  | pty
  | tty
  | file
  | socket
  | null
  deriving DecidableEq

structure ConsoleConfig where
  mode : ConsoleMode
  socket : Option String
  deriving DecidableEq

structure VmConfig where
  cpus : Option CpusConfig
  memory : Option MemoryConfig
  payload : PayloadConfig
  disks : Option (List DiskConfig)
  net : Option (List NetConfig)
  vsock : Option VsockConfig
  platform : Option PlatformConfig
  console : Option ConsoleConfig
  serial : Option ConsoleConfig
  deriving DecidableEq

/-- What `unwrap_or_default` gives. -/
def VmConfig.default : VmConfig :=
  ⟨none, none, ⟨none, none, none, none⟩, none, none, none, none, none, none⟩

/-! Narrowing conversions. -/

def toI32 (x : Nat) (message : String) : Except String I32 :=
  if h : x < 2 ^ 31 then .ok ⟨x, by omega⟩ else .error message

def toI64 (x : Nat) (message : String) : Except String I64 :=
  if h : x < 2 ^ 63 then .ok ⟨x, by omega⟩ else .error message

/-- A 32-bit word is a 64-bit integer. -/
def wideCid (cid : U32) : I64 := ⟨cid.val, by omega⟩

/-- A ULID as it is displayed: 26 digits of Crockford's base 32. -/
def ulidToString (id : Ulid) : String :=
  .ofList ((List.range 26).map fun i =>
    "0123456789ABCDEFGHJKMNPQRSTVWXYZ".toList.getD (id.val / 32 ^ (25 - i) % 32) '0')

/-- A logical disk, with the source URI as its path. -/
def storageToDisk (storage : Storage) : Except String DiskConfig :=
  let disk := fun path => DiskConfig.mk (some storage.id) (some path) (some storage.readOnly) (some .raw)
  match storage.uri, storage.volumeId with
  | some uri, none =>
    if Text.startsWith "file://" uri || Text.startsWith "rbd://" uri ||
        Text.startsWith "iscsi://" uri then
      .ok (disk uri)
    else .error ("storage " ++ storage.id ++ " URI scheme is unsupported: " ++ uri)
  | none, some volumeId =>
    .error ("storage " ++ storage.id ++ " references volume " ++ ulidToString volumeId ++
      "; volume resolution contract is not defined yet")
  | _, _ => .error ("storage " ++ storage.id ++ " has no usable source")

def networkToNet (network : Network) : NetConfig :=
  ⟨some ("net://" ++ network.id), network.macAddress, none⟩

def toPayload (boot : Boot) : PayloadConfig where
  firmware := boot.firmware.or
    (if boot.kernel.isSome then none else some "/var/lib/odorobo/CLOUDHV.fd")
  kernel := boot.kernel
  cmdline := boot.cmdline
  initramfs := none

def toVsockConfig (vsock : Vsock) : VsockConfig :=
  ⟨wideCid vsock.guestCid, vsock.socket, some "odorobo-vsock"⟩

/-- An empty list is left out. -/
def nonEmpty {α : Type} (items : List α) : Option (List α) :=
  if items.isEmpty then none else some items

def toVmConfig (manifest : VmManifest) : Except String VmConfig := do
  manifest.validate.mapError ManifestError.message
  let desired := manifest.desired
  let disks ← desired.storage.mapM storageToDisk
  let networks := desired.networks.map networkToNet
  if desired.cloudInit.isSome then
    throw "Cloud Hypervisor cloud-init conversion is not implemented yet"
  let bootVcpus ← toI32 desired.compute.vcpus.val "vCPU count exceeds Cloud Hypervisor limits"
  let maxVcpus ← toI32 (desired.compute.maxVcpus.getD desired.compute.vcpus).val
    "maximum vCPU count exceeds Cloud Hypervisor limits"
  let memory ← toI64 desired.compute.memoryBytes.val "memory size exceeds Cloud Hypervisor limits"
  return {
    cpus := some ⟨bootVcpus, maxVcpus⟩
    memory := some ⟨memory⟩
    payload := toPayload desired.boot
    disks := nonEmpty disks
    net := nonEmpty networks
    vsock := desired.vsock.map toVsockConfig
    platform := some ⟨some "ds=nocloud"⟩
    console := none
    serial := none }

end Odorobo
