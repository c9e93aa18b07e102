import Odorobo.Program
import Odorobo.Url
import Odorobo.VmConfig

/-! The transforms that make a configuration fit this node. A transform may call
the outside world; a configuration that is half transformed when an error occurs
is dropped by every caller, so an error carries none. -/

namespace Odorobo

variable {C : Type} {R : C → Type}

/-- A storage backend: which URIs it handles, and how it gets and gives up the
device of one. -/
structure StorageDriver (C : Type) (R : C → Type) where
  scheme : String
  resolve : Url → Program C R (Except String String)
  release : Url → Program C R (Except String Unit)

structure StorageDriverTransformer (C : Type) (R : C → Type) where
  backends : List (StorageDriver C R)

structure ConfigTransform (C : Type) (R : C → Type) where
  transform : String → VmConfig → Program C R (Except String VmConfig)
  teardown : String → VmConfig → Program C R (Except String Unit) := fun _ _ => .done (.ok ())

namespace StorageDriverTransformer

variable (crate : UrlCrate) (transformer : StorageDriverTransformer C R)

def findBackend (uri : Url) : Option (StorageDriver C R) :=
  transformer.backends.find? fun backend => backend.scheme == uri.scheme

/-- A text that is a URI of a registered scheme. -/
def lookup (text : String) : Option (Url × StorageDriver C R) :=
  (crate.parse text).bind fun uri => (transformer.findBackend uri).map fun backend => (uri, backend)

/-- The URI that is released for a disk: its path, or else its id. -/
def releaseCandidate (disk : DiskConfig) : Option (Url × StorageDriver C R) :=
  ([disk.path, disk.id].filterMap fun text => text).findSome? (transformer.lookup crate)

/-- A failed release is logged, and the next disk follows. -/
def releaseDisks : List DiskConfig → Program C R Unit
  | [] => .done ()
  | disk :: rest =>
    match transformer.releaseCandidate crate disk with
    | none => releaseDisks rest
    | some (uri, backend) => (backend.release uri).bind fun _ => releaseDisks rest

def releaseConfig (config : VmConfig) : Program C R Unit :=
  transformer.releaseDisks crate (config.disks.getD [])

/-- The id that keeps the URI of a resolved disk. -/
def resolvedId (uri : Url) (disk : DiskConfig) : String :=
  crate.asStr (crate.appendPair uri "id" (disk.id.getD "<unknown>"))

/-- Paths that are no URI, and URIs of no registered scheme, stay. -/
def transformDisk (disk : DiskConfig) : Program C R (Except String DiskConfig) :=
  match disk.path.bind (transformer.lookup crate) with
  | none => .done (.ok disk)
  | some (uri, backend) =>
    (backend.resolve uri).andThen fun resolved =>
      .done (.ok { disk with id := some (resolvedId crate uri disk), path := some resolved })

def transformDisks : List DiskConfig → Program C R (Except String (List DiskConfig))
  | [] => .done (.ok [])
  | disk :: rest =>
    (transformer.transformDisk crate disk).andThen fun first =>
      (transformDisks rest).andThen fun others => .done (.ok (first :: others))

def transform (config : VmConfig) : Program C R (Except String VmConfig) :=
  match config.disks with
  | none => .done (.ok config)
  | some disks =>
    (transformer.transformDisks crate disks).andThen fun disks =>
      .done (.ok { config with disks := some disks })

def toConfigTransform : ConfigTransform C R where
  transform _ config := transformer.transform crate config
  teardown _ config := (transformer.releaseConfig crate config).bind fun _ => .done (.ok ())

end StorageDriverTransformer

/-- The runtime directory of a VM under the configured root. -/
def runtimeDirFor (runtimeRoot vmid : String) : String :=
  Text.join (Text.join runtimeRoot "vms") vmid

def ConsoleTransform (runtimeRoot : String) : ConfigTransform C R where
  transform vmid config := .done (.ok { config with
    console := some ⟨.off, none⟩
    serial := some ⟨.socket, some (runtimeDirFor runtimeRoot vmid ++ "/console.sock")⟩ })

namespace NetworkTransform

def tapPrefix : List Char := "vmtap".toList

def maxIfnameLen : Nat := 15

def sanitizeComponent (value : String) : List Char :=
  value.toList.map fun c =>
    if c.isAlphanum || c == '-' || c == '_' then c.toLower else '-'

def validateNetworkId (networkId : String) : Except String Unit :=
  if networkId.isEmpty then .error "network id must not be empty"
  else if networkId.toList.all fun c => c.isAlphanum || c == '-' || c == '_' then .ok ()
  else .error "network id must contain only ASCII alphanumeric characters, '-' or '_'"

/-- The last bytes of a component that is too long. -/
def lastBytes (budget : Nat) (part : List Char) : Option (List Char) :=
  if Text.byteLength part > budget then Text.sliceFrom (Text.byteLength part - budget) part
  else some part

/-- Without a value, a slice was off a character boundary. -/
def deterministicTapName (vmid networkId : String) : Option String :=
  let fixedLen := Text.byteLength tapPrefix + 2
  let available := maxIfnameLen - fixedLen
  if available = 0 then
    (Text.sliceTo (min maxIfnameLen (Text.byteLength tapPrefix)) tapPrefix).map String.ofList
  else
    let vmidBudget := max (available / 2) 1
    let networkBudget := max (available - vmidBudget) 1
    (lastBytes vmidBudget (sanitizeComponent vmid)).bind fun vmidPart =>
      (lastBytes networkBudget (sanitizeComponent networkId)).bind fun networkPart =>
        let tap := tapPrefix ++ ['-'] ++ vmidPart ++ ['-'] ++ networkPart
        if Text.byteLength tap > maxIfnameLen then (Text.sliceTo maxIfnameLen tap).map String.ofList
        else some (String.ofList tap)

/-- Errors are reported under the id of the entry. -/
def rewriteNetConfig (vmid : String) (net : NetConfig) : Except String NetConfig :=
  match net.id.bind (Text.stripPrefix "net://") with
  | none => .ok net
  | some networkId =>
    match validateNetworkId networkId with
    | .error _ => .error ("invalid network URI id " ++ net.id.getD "")
    | .ok () =>
      match deterministicTapName vmid networkId with
      | none => .error "byte index is not a char boundary"
      | some tap => .ok { net with tap := some tap }

def rewriteAll (vmid : String) (config : VmConfig) : Except String VmConfig :=
  match config.net with
  | none => .ok config
  | some nets => (nets.mapM (rewriteNetConfig vmid)).map fun nets => { config with net := some nets }

theorem rewriteAll_cases {vmid : String} {config config' : VmConfig}
    (h : rewriteAll vmid config = .ok config') :
    (config.net = none ∧ config' = config) ∨
      ∃ nets nets', config.net = some nets ∧ nets.mapM (rewriteNetConfig vmid) = .ok nets' ∧
        config' = { config with net := some nets' } := by
  unfold rewriteAll at h
  cases hnet : config.net with
  | none =>
    rw [hnet] at h
    exact Or.inl ⟨rfl, (Except.ok.inj h).symm⟩
  | some nets =>
    rw [hnet] at h
    dsimp only at h
    cases hnets : nets.mapM (rewriteNetConfig vmid) with
    | error error =>
      rw [hnets] at h
      cases h
    | ok nets' =>
      rw [hnets] at h
      exact Or.inr ⟨nets, nets', rfl, hnets, (Except.ok.inj h).symm⟩

end NetworkTransform

def NetworkTransform : ConfigTransform C R where
  transform vmid config := .done (NetworkTransform.rewriteAll vmid config)

namespace PathVerify

def checkPath (path : Option String) (message : String) : Except String Unit :=
  if path.all Text.isAbsolute then .ok () else .error message

def checkDisks : List DiskConfig → Except String Unit
  | [] => .ok ()
  | disk :: rest => do
    checkPath disk.path ("disk path for " ++ disk.id.getD "<unknown>" ++ " must be an absolute path")
    checkDisks rest

def verify (config : VmConfig) : Except String Unit := do
  checkPath config.payload.kernel "Kernel must be an absolute path"
  checkPath config.payload.initramfs "initramfs must be an absolute path"
  checkPath config.payload.firmware "firmware must be an absolute path"
  checkDisks (config.disks.getD [])

end PathVerify

def PathVerify : ConfigTransform C R where
  transform _ config := .done ((PathVerify.verify config).map fun _ => config)

abbrev TransformChain (C : Type) (R : C → Type) := List (ConfigTransform C R)

namespace TransformChain

def transform (vmid : String) : TransformChain C R → VmConfig → Program C R (Except String VmConfig)
  | [], config => .done (.ok config)
  | t :: rest, config => (t.transform vmid config).andThen (TransformChain.transform vmid rest)

def teardownAll (vmid : String) (config : VmConfig) :
    List (ConfigTransform C R) → Program C R (Except String Unit)
  | [] => .done (.ok ())
  | t :: rest => (t.teardown vmid config).andThen fun _ => teardownAll vmid config rest

/-- In the reverse order of the transforms. -/
def teardown (chain : TransformChain C R) (vmid : String) (config : VmConfig) :
    Program C R (Except String Unit) :=
  teardownAll vmid config chain.reverse

/-- The chain of a node, with the given storage backends. -/
def default (crate : UrlCrate) (runtimeRoot : String) (backends : List (StorageDriver C R)) :
    TransformChain C R :=
  [StorageDriverTransformer.toConfigTransform crate ⟨backends⟩, ConsoleTransform runtimeRoot,
    NetworkTransform, PathVerify]

end TransformChain

end Odorobo
