import Odorobo.BTreeMap
import Odorobo.Saturating
import Mathlib.Data.String.Basic

/-! The VM intent manifest. Scheduling reads the compute request, the affinity
rules and the metadata; a repeated create request is compared with the stored
manifest as a whole, so every field is here. -/

namespace Odorobo

/-- A ULID: 128 bits, ordered as a number. -/
abbrev Ulid := Fin (2 ^ 128)

instance neZeroUlid : NeZero (2 ^ 128) := ⟨by decide⟩

structure Metadata where
  name : String
  labels : BTreeMap String String
  annotations : BTreeMap String String
  deriving DecidableEq

structure Compute where
  vcpus : U32
  maxVcpus : Option U32
  memoryBytes : U64
  deriving DecidableEq

structure Storage where
  id : String
  uri : Option String
  volumeId : Option Ulid
  readOnly : Bool
  deriving DecidableEq

structure Network where
  id : String
  macAddress : Option String
  deriving DecidableEq

inductive AffinityStrictness where
  | required
  | preferred (weight : I64)
  deriving DecidableEq

inductive AffinityType where
  | virtualMachine
  | agent
  deriving DecidableEq

inductive MetadataTable where
  | label
  | annotation
  deriving DecidableEq

inductive Operator where
  | in
  | notIn
  | lt
  | gt
  deriving DecidableEq

structure AffinityRequirement where
  key : String
  table : MetadataTable
  operator : Operator
  values : List String
  deriving DecidableEq

structure AffinityRule where
  strictness : AffinityStrictness
  affinityType : AffinityType
  inverse : Bool
  requirements : List AffinityRequirement
  deriving DecidableEq

structure Placement where
  node : Option String
  requiredLabels : BTreeMap String String
  affinity : List AffinityRule
  deriving DecidableEq

structure Boot where
  start : Bool
  firmware : Option String
  kernel : Option String
  cmdline : Option String
  deriving DecidableEq

structure CloudInit where
  userData : Option String
  metaData : Option String
  deriving DecidableEq

structure Vsock where
  guestCid : U32
  socket : String
  deriving DecidableEq

inductive ObservedStatus where
  | unknown
  | pending
  | running
  | stopped
  | error
  deriving DecidableEq

structure ObservedState where
  status : ObservedStatus
  node : Option String
  cloudHypervisorState : Option String
  error : Option String
  deriving DecidableEq

structure DesiredState where
  metadata : Metadata
  compute : Compute
  storage : List Storage
  networks : List Network
  placement : Placement
  boot : Boot
  cloudInit : Option CloudInit
  vsock : Option Vsock
  deriving DecidableEq

structure VmManifest where
  apiVersion : U32
  id : Ulid
  desired : DesiredState
  observed : Option ObservedState
  deriving DecidableEq

end Odorobo
