import Odorobo.BinaryFloat
import Odorobo.Fallible
import Odorobo.Manifest
import Odorobo.Text

/-! What a manifest must satisfy before a provider sees it. -/

namespace Odorobo

def manifestVersion : U32 := 1

inductive ManifestError where
  | unsupportedVersion (version : U32)
  | emptyMetadataName
  | noVcpus
  | maxVcpusLessThanBoot (vcpus max : U32)
  | noMemory
  | emptyStorageId
  | invalidStorageSource (id : String)
  | duplicateStorageId (id : String)
  | networkWithoutId (index : Nat)
  | incompleteCloudInit
  | emptyCloudInitData
  | invalidVsockCid
  | invalidVsockSocket
  | invalidAffinityComparison (key : String)
  deriving DecidableEq

def ManifestError.message : ManifestError → String
  | unsupportedVersion version => "manifest version " ++ toString version.val ++ " is unsupported"
  | emptyMetadataName => "metadata must define a non-empty name"
  | noVcpus => "manifest must define at least one vCPU"
  | maxVcpusLessThanBoot vcpus max =>
    "max_vcpus (" ++ toString max.val ++ ") must be greater than or equal to vcpus (" ++
      toString vcpus.val ++ ")"
  | noMemory => "memory must be greater than zero"
  | emptyStorageId => "storage attachment must define a non-empty id"
  | invalidStorageSource id =>
    "storage attachment " ++ id ++
      " must define exactly one usable source (URI or volume reference)"
  | duplicateStorageId id => "storage attachment " ++ id ++ " has a duplicate id"
  | networkWithoutId index => "network " ++ toString index ++ " must define an id"
  | incompleteCloudInit => "cloud-init user-data and meta-data must be supplied together"
  | emptyCloudInitData => "cloud-init user-data and meta-data must both be non-empty"
  | invalidVsockCid => "vsock requires a non-zero guest CID"
  | invalidVsockSocket => "vsock requires a non-empty absolute socket path"
  | invalidAffinityComparison key =>
    "affinity comparison for key " ++ key ++ " requires exactly one finite numeric value"

def isBlank (s : String) : Bool := (Text.trim s).isEmpty

namespace DesiredState

/-- The loop over the storage attachments, with the ids seen so far. -/
def validateStorage (seen : List String) : List Storage → Except ManifestError Unit
  | [] => .ok ()
  | storage :: rest =>
    if isBlank storage.id then .error .emptyStorageId
    else if storage.id ∈ seen then .error (.duplicateStorageId storage.id)
    else if storage.uri.any isBlank || storage.uri.isSome == storage.volumeId.isSome then
      .error (.invalidStorageSource storage.id)
    else validateStorage (storage.id :: seen) rest

def validateNetworks (index : Nat) : List Network → Except ManifestError Unit
  | [] => .ok ()
  | network :: rest =>
    if isBlank network.id then .error (.networkWithoutId index)
    else validateNetworks (index + 1) rest

def isFiniteNumber (value : String) : Bool :=
  match (BinaryFloat.parse value : Option (BinaryFloat binary64)) with
  | some (.finite _) => true
  | _ => false

def validComparison (requirement : AffinityRequirement) : Bool :=
  match requirement.values with
  | [value] => isFiniteNumber value
  | _ => false

def validateRequirements : List AffinityRequirement → Except ManifestError Unit
  | [] => .ok ()
  | requirement :: rest =>
    if (requirement.operator = .lt ∨ requirement.operator = .gt) ∧ validComparison requirement = false then
      .error (.invalidAffinityComparison requirement.key)
    else validateRequirements rest

def validateCloudInit : Option CloudInit → Except ManifestError Unit
  | none => .ok ()
  | some cloud =>
    if cloud.userData.isSome != cloud.metaData.isSome ||
        (cloud.userData.isNone && cloud.metaData.isNone) then
      .error .incompleteCloudInit
    else if cloud.userData.any isBlank || cloud.metaData.any isBlank then
      .error .emptyCloudInitData
    else .ok ()

def validateVsock : Option Vsock → Except ManifestError Unit
  | none => .ok ()
  | some vsock =>
    if vsock.guestCid = 0 then .error .invalidVsockCid
    else if isBlank vsock.socket || !Text.isAbsolute vsock.socket then .error .invalidVsockSocket
    else .ok ()

def validateCompute (compute : Compute) : Except ManifestError Unit :=
  if compute.vcpus = 0 then .error .noVcpus
  else match compute.maxVcpus.filter (· < compute.vcpus) with
    | some max => .error (.maxVcpusLessThanBoot compute.vcpus max)
    | none => if compute.memoryBytes = 0 then .error .noMemory else .ok ()

def validate (desired : DesiredState) : Except ManifestError Unit := do
  if isBlank desired.metadata.name then throw .emptyMetadataName
  validateCompute desired.compute
  validateStorage [] desired.storage
  validateNetworks 0 desired.networks
  validateRequirements (desired.placement.affinity.flatMap AffinityRule.requirements)
  validateCloudInit desired.cloudInit
  validateVsock desired.vsock

end DesiredState

def VmManifest.validate (manifest : VmManifest) : Except ManifestError Unit :=
  if manifest.apiVersion ≠ manifestVersion then .error (.unsupportedVersion manifest.apiVersion)
  else manifest.desired.validate

/-- The checks that a valid state has passed. -/
structure DesiredState.Checked (desired : DesiredState) : Prop where
  name : isBlank desired.metadata.name = false
  compute : DesiredState.validateCompute desired.compute = .ok ()
  storage : DesiredState.validateStorage [] desired.storage = .ok ()
  networks : DesiredState.validateNetworks 0 desired.networks = .ok ()
  requirements : DesiredState.validateRequirements
    (desired.placement.affinity.flatMap AffinityRule.requirements) = .ok ()
  cloudInit : DesiredState.validateCloudInit desired.cloudInit = .ok ()
  vsock : DesiredState.validateVsock desired.vsock = .ok ()

theorem VmManifest.checked_of_validate {manifest : VmManifest} (h : manifest.validate = .ok ()) :
    manifest.desired.Checked := by
  unfold VmManifest.validate at h
  split at h
  · cases h
  · unfold DesiredState.validate at h
    dsimp only at h
    split at h
    · cases h
    · next hname =>
      simp only [Fallible.bind_eq_ok] at h
      obtain ⟨_, hcompute, _, hstorage, _, hnetworks, _, hrequirements, _, hcloud, hvsock⟩ := h
      exact ⟨Bool.eq_false_iff.mpr hname, hcompute, hstorage, hnetworks, hrequirements, hcloud,
        hvsock⟩

end Odorobo
