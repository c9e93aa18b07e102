import Odorobo.ManifestValidation
import Odorobo.Serde
import Odorobo.VmConfig
import Mathlib.Data.Nat.Digits.Defs

/-! The JSON form of a manifest. Every structure is a list of fields, in the order
of the source, with what the derive attributes say of each; all of them deny
unknown fields. -/

namespace Odorobo

open Serde

/-- Parsing of ULIDs, which reads what is displayed. -/
structure UlidParser where
  fromString : String → Option Ulid
  fromString_toString : ∀ id, fromString (ulidToString id) = some id

def UlidParser.codec (ulid : UlidParser) : Codec Ulid :=
  .text ulidToString ulid.fromString ulid.fromString_toString

/-! Enumerations, with their variants in snake case. -/

def AffinityType.name : AffinityType → String
  | virtualMachine => "virtual_machine"
  | agent => "agent"

def AffinityType.codec : Codec AffinityType :=
  .unitEnum [virtualMachine, agent] name (by rintro ⟨⟩ <;> rfl)

def MetadataTable.name : MetadataTable → String
  | label => "label"
  | annotation => "annotation"

def MetadataTable.codec : Codec MetadataTable :=
  .unitEnum [label, annotation] name (by rintro ⟨⟩ <;> rfl)

def Operator.name : Operator → String
  | .in => "in"
  | notIn => "not_in"
  | lt => "lt"
  | gt => "gt"

def Operator.codec : Codec Operator :=
  .unitEnum [.in, notIn, lt, gt] name (by rintro ⟨⟩ <;> rfl)

def ObservedStatus.name : ObservedStatus → String
  | unknown => "unknown"
  | pending => "pending"
  | running => "running"
  | stopped => "stopped"
  | error => "error"

def ObservedStatus.codec : Codec ObservedStatus :=
  .unitEnum [unknown, pending, running, stopped, error] name (by rintro ⟨⟩ <;> rfl)

namespace AffinityStrictness

/-- The variant `Preferred` has one field, and ignores unknown keys. -/
def preferredFields : Fields (I64 × Unit) := .cons (.required "weight" .i64) .nil

def encode : AffinityStrictness → Json
  | required => .string "required"
  | preferred weight => .object [("preferred", .object (preferredFields.write (weight, ())))]

def decode (j : Json) : Option AffinityStrictness := do
  let (tag, content) ← Codec.variant j
  if tag = "required" then if Codec.isUnit content then some required else none
  else if tag = "preferred" then
    let (weight, ()) ← preferredFields.read false (← content)
    some (preferred weight)
  else none

theorem decode_encode (strictness : AffinityStrictness) :
    decode (encode strictness) = some strictness := by
  cases strictness with
  | required => rfl
  | preferred weight =>
    have hread := preferredFields.read_write (by decide) false (weight, ())
    simp [encode, decode, Codec.variant, hread]

def codec : Codec AffinityStrictness where
  schema := .value
  encode := encode
  decode := decode
  decode_encode := decode_encode
  encode_ne_null strictness := by cases strictness <;> simp [encode]
  rejects h := nomatch h

end AffinityStrictness

/-! Structures without identifiers of volumes. -/

def Metadata.fields : Fields (String × BTreeMap String String × BTreeMap String String × Unit) :=
  .cons (.required "name" .string) <|
  .cons (.default "labels" (.map .string) .empty) <|
  .cons (.default "annotations" (.map .string) .empty) .nil

def Metadata.codec : Codec Metadata :=
  .struct fields (by decide)
    (fun (name, labels, annotations, ()) => ⟨name, labels, annotations⟩)
    (fun m => (m.name, m.labels, m.annotations, ())) fun _ => rfl

def Compute.fields : Fields (U32 × Option U32 × U64 × Unit) :=
  .cons (.required "vcpus" (.unsigned _)) <|
  .cons (.optional "max_vcpus" (.unsigned _)) <|
  .cons (.required "memory_bytes" (.unsigned _)) .nil

def Compute.codec : Codec Compute :=
  .struct fields (by decide)
    (fun (vcpus, maxVcpus, memoryBytes, ()) => ⟨vcpus, maxVcpus, memoryBytes⟩)
    (fun c => (c.vcpus, c.maxVcpus, c.memoryBytes, ())) fun _ => rfl

def Network.fields : Fields (String × Option String × Unit) :=
  .cons (.required "id" .string) <|
  .cons (.optional "mac_address" .string) .nil

def Network.codec : Codec Network :=
  .struct fields (by decide)
    (fun (id, macAddress, ()) => ⟨id, macAddress⟩)
    (fun n => (n.id, n.macAddress, ())) fun _ => rfl

def AffinityRequirement.fields : Fields (String × MetadataTable × Operator × List String × Unit) :=
  .cons (.required "key" .string) <|
  .cons (.required "table" MetadataTable.codec) <|
  .cons (.required "operator" Operator.codec) <|
  .cons (.required "values" (.list .string)) .nil

def AffinityRequirement.codec : Codec AffinityRequirement :=
  .struct fields (by decide)
    (fun (key, table, operator, values, ()) => ⟨key, table, operator, values⟩)
    (fun r => (r.key, r.table, r.operator, r.values, ())) fun _ => rfl

def AffinityRule.fields :
    Fields (AffinityStrictness × AffinityType × Bool × List AffinityRequirement × Unit) :=
  .cons (.required "strictness" AffinityStrictness.codec) <|
  .cons (.required "affinity_type" AffinityType.codec) <|
  .cons (.default "inverse" .bool false) <|
  .cons (.required "requirements" (.list AffinityRequirement.codec)) .nil

def AffinityRule.codec : Codec AffinityRule :=
  .struct fields (by decide)
    (fun (strictness, affinityType, inverse, requirements, ()) =>
      ⟨strictness, affinityType, inverse, requirements⟩)
    (fun r => (r.strictness, r.affinityType, r.inverse, r.requirements, ())) fun _ => rfl

def Placement.fields : Fields (Option String × BTreeMap String String × List AffinityRule × Unit) :=
  .cons (.optional "node" .string) <|
  .cons (.default "required_labels" (.map .string) .empty) <|
  .cons (.default "affinity" (.list AffinityRule.codec) []) .nil

def Placement.codec : Codec Placement :=
  .struct fields (by decide)
    (fun (node, requiredLabels, affinity, ()) => ⟨node, requiredLabels, affinity⟩)
    (fun p => (p.node, p.requiredLabels, p.affinity, ())) fun _ => rfl

def Placement.default : Placement := ⟨none, .empty, []⟩

def Boot.fields : Fields (Bool × Option String × Option String × Option String × Unit) :=
  .cons (.default "start" .bool false) <|
  .cons (.optional "firmware" .string) <|
  .cons (.optional "kernel" .string) <|
  .cons (.optional "cmdline" .string) .nil

def Boot.codec : Codec Boot :=
  .struct fields (by decide)
    (fun (start, firmware, kernel, cmdline, ()) => ⟨start, firmware, kernel, cmdline⟩)
    (fun b => (b.start, b.firmware, b.kernel, b.cmdline, ())) fun _ => rfl

def CloudInit.fields : Fields (Option String × Option String × Unit) :=
  .cons (.optional "user_data" .string) <|
  .cons (.optional "meta_data" .string) .nil

def CloudInit.codec : Codec CloudInit :=
  .struct fields (by decide)
    (fun (userData, metaData, ()) => ⟨userData, metaData⟩)
    (fun c => (c.userData, c.metaData, ())) fun _ => rfl

def Vsock.fields : Fields (U32 × String × Unit) :=
  .cons (.required "guest_cid" (.unsigned _)) <|
  .cons (.required "socket" .string) .nil

def Vsock.codec : Codec Vsock :=
  .struct fields (by decide)
    (fun (guestCid, socket, ()) => ⟨guestCid, socket⟩)
    (fun v => (v.guestCid, v.socket, ())) fun _ => rfl

def ObservedState.fields :
    Fields (ObservedStatus × Option String × Option String × Option String × Unit) :=
  .cons (.required "status" ObservedStatus.codec) <|
  .cons (.optional "node" .string) <|
  .cons (.optional "cloud_hypervisor_state" .string) <|
  .cons (.optional "error" .string) .nil

def ObservedState.codec : Codec ObservedState :=
  .struct fields (by decide)
    (fun (status, node, cloudHypervisorState, error, ()) =>
      ⟨status, node, cloudHypervisorState, error⟩)
    (fun o => (o.status, o.node, o.cloudHypervisorState, o.error, ())) fun _ => rfl

/-! The manifest. -/

section

variable (ulid : UlidParser)

def Storage.fields : Fields (String × Option String × Option Ulid × Bool × Unit) :=
  .cons (.required "id" .string) <|
  .cons (.optional "uri" .string) <|
  .cons (.optional "volume_id" ulid.codec) <|
  .cons (.default "read_only" .bool false) .nil

def Storage.codec : Codec Storage :=
  .struct (fields ulid) (show ["id", "uri", "volume_id", "read_only"].Nodup by decide)
    (fun (id, uri, volumeId, readOnly, ()) => ⟨id, uri, volumeId, readOnly⟩)
    (fun s => (s.id, s.uri, s.volumeId, s.readOnly, ())) fun _ => rfl

def DesiredState.fields : Fields (Metadata × Compute × List Storage × List Network × Placement ×
    Boot × Option CloudInit × Option Vsock × Unit) :=
  .cons (.required "metadata" Metadata.codec) <|
  .cons (.required "compute" Compute.codec) <|
  .cons (.default "storage" (.list (Storage.codec ulid)) []) <|
  .cons (.default "networks" (.list Network.codec) []) <|
  .cons (.default "placement" Placement.codec Placement.default) <|
  .cons (.required "boot" Boot.codec) <|
  .cons (.optional "cloud_init" CloudInit.codec) <|
  .cons (.optional "vsock" Vsock.codec) .nil

def DesiredState.codec : Codec DesiredState :=
  .struct (fields ulid)
    (show ["metadata", "compute", "storage", "networks", "placement", "boot", "cloud_init",
      "vsock"].Nodup by decide)
    (fun (metadata, compute, storage, networks, placement, boot, cloudInit, vsock, ()) =>
      ⟨metadata, compute, storage, networks, placement, boot, cloudInit, vsock⟩)
    (fun d => (d.metadata, d.compute, d.storage, d.networks, d.placement, d.boot, d.cloudInit,
      d.vsock, ())) fun _ => rfl

namespace VmManifest

def fields : Fields (U32 × Ulid × DesiredState × Option ObservedState × Unit) :=
  .cons (.required "api_version" (.unsigned _)) <|
  .cons (.required "id" ulid.codec) <|
  .cons (.required "desired" (DesiredState.codec ulid)) <|
  .cons (.optional "observed" ObservedState.codec) .nil

/-- What is derived for `VmManifest`, and for `DeserializableVmManifest` with the
same fields: a manifest that need not be valid. -/
def codec : Codec VmManifest :=
  .struct (fields ulid) (show ["api_version", "id", "desired", "observed"].Nodup by decide)
    (fun (apiVersion, id, desired, observed, ()) => ⟨apiVersion, id, desired, observed⟩)
    (fun m => (m.apiVersion, m.id, m.desired, m.observed, ())) fun _ => rfl

/-- The objects of a manifest that deny unknown fields. -/
def schema : Schema := .struct
  [("api_version", .value), ("id", .value),
   ("desired", .struct
    [("metadata", .struct [("name", .value), ("labels", .map .value), ("annotations", .map .value)]),
     ("compute", .struct [("vcpus", .value), ("max_vcpus", .value), ("memory_bytes", .value)]),
     ("storage", .list (.struct
      [("id", .value), ("uri", .value), ("volume_id", .value), ("read_only", .value)])),
     ("networks", .list (.struct [("id", .value), ("mac_address", .value)])),
     ("placement", .struct
      [("node", .value), ("required_labels", .map .value),
       ("affinity", .list (.struct
        [("strictness", .value), ("affinity_type", .value), ("inverse", .value),
         ("requirements", .list (.struct
          [("key", .value), ("table", .value), ("operator", .value), ("values", .list .value)]))]))]),
     ("boot", .struct
      [("start", .value), ("firmware", .value), ("kernel", .value), ("cmdline", .value)]),
     ("cloud_init", .struct [("user_data", .value), ("meta_data", .value)]),
     ("vsock", .struct [("guest_cid", .value), ("socket", .value)])]),
   ("observed", .struct
    [("status", .value), ("node", .value), ("cloud_hypervisor_state", .value), ("error", .value)])]

theorem codec_schema (ulid : UlidParser) : (codec ulid).schema = schema := rfl

inductive DecodeError where
  | json
  | custom (message : String)
  deriving DecidableEq

def serialize (manifest : VmManifest) : Json := (codec ulid).encode manifest

def deserialize (json : Json) : Except DecodeError VmManifest :=
  match (codec ulid).decode json with
  | none => .error .json
  | some manifest =>
    match manifest.validate with
    | .error e => .error (.custom e.message)
    | .ok () => .ok manifest

variable {ulid}

theorem deserialize_of_decode {json : Json} {manifest : VmManifest}
    (hdecode : (codec ulid).decode json = some manifest) (hvalid : manifest.validate = .ok ()) :
    deserialize ulid json = .ok manifest := by
  simp only [deserialize, hdecode, hvalid]

theorem deserialize_of_invalid {json : Json} {manifest : VmManifest} {e : ManifestError}
    (hdecode : (codec ulid).decode json = some manifest) (hinvalid : manifest.validate = .error e) :
    deserialize ulid json = .error (.custom e.message) := by
  simp only [deserialize, hdecode, hinvalid]

theorem validate_of_deserialize {json : Json} {manifest : VmManifest}
    (h : deserialize ulid json = .ok manifest) : manifest.validate = .ok () := by
  unfold deserialize at h
  split at h
  · cases h
  · split at h
    · cases h
    · next hvalid => exact Except.ok.inj h ▸ hvalid

/-- A valid manifest is read back as it was written, an invalid one is refused with
its error, what is accepted is valid, and no object of it may have an unknown key. -/
theorem manifest_codec_exact (ulid : UlidParser) :
    (∀ manifest : VmManifest, manifest.validate = .ok () →
      deserialize ulid (serialize ulid manifest) = .ok manifest) ∧
    (∀ (manifest : VmManifest) (e : ManifestError), manifest.validate = .error e →
      deserialize ulid (serialize ulid manifest) = .error (.custom e.message)) ∧
    (∀ (json : Json) (manifest : VmManifest), deserialize ulid json = .ok manifest →
      manifest.validate = .ok () ∧
      ∀ json', AddsUnknownKey schema json json' →
        ∃ e, deserialize ulid json' = .error e) := by
  refine ⟨?_, ?_, ?_⟩
  · intro manifest hvalid
    exact deserialize_of_decode ((codec ulid).decode_encode manifest) hvalid
  · intro manifest e hinvalid
    exact deserialize_of_invalid ((codec ulid).decode_encode manifest) hinvalid
  · intro json manifest haccepted
    refine ⟨validate_of_deserialize haccepted, ?_⟩
    intro json' hadds
    have hrejects := (codec ulid).rejects (codec_schema ulid ▸ hadds)
    exact ⟨.json, by simp only [deserialize, hrejects]⟩

end VmManifest

end

section Samples

/-! A parser of ULIDs: 26 digits of base 32, in either case. -/

def base32Digit (c : Char) : Option Nat := "0123456789ABCDEFGHJKMNPQRSTVWXYZ".toList.idxOf? c.toUpper

def parseBase32 (s : String) : Option Ulid := do
  let digits ← s.toList.mapM base32Digit
  let value := Nat.ofDigits 32 digits.reverse
  if h : digits.length = 26 ∧ value < 2 ^ 128 then some ⟨value, h.2⟩ else none

theorem base32Digit_getD (d : Fin 32) :
    base32Digit ("0123456789ABCDEFGHJKMNPQRSTVWXYZ".toList.getD d '0') = some d.val := by
  revert d
  decide

theorem ofDigits_range (x n : Nat) :
    Nat.ofDigits 32 ((List.range n).map fun i => x / 32 ^ i % 32) = x % 32 ^ n := by
  induction n with
  | zero => simp [Nat.mod_one]
  | succ n ih =>
    rw [List.range_succ, List.map_append, Nat.ofDigits_append, ih, Nat.mod_pow_succ]
    simp

theorem parseBase32_ulidToString (id : Ulid) : parseBase32 (ulidToString id) = some id := by
  have hdigits : (ulidToString id).toList.mapM base32Digit =
      some ((List.range 26).map fun i => id.val / 32 ^ (25 - i) % 32) := by
    rw [ulidToString, String.toList_ofList]
    exact Codec.mapM_map_eq_some _ fun i => base32Digit_getD ⟨_, Nat.mod_lt _ (by decide)⟩
  have hreverse : ((List.range 26).map fun i => id.val / 32 ^ (25 - i) % 32).reverse =
      (List.range 26).map fun i => id.val / 32 ^ i % 32 := rfl
  have hsmall : id.val % 32 ^ 26 = id.val := Nat.mod_eq_of_lt (by omega)
  rw [parseBase32, hdigits]
  simp only [Option.bind_eq_bind, Option.bind_some, hreverse, ofDigits_range, hsmall]
  simp

def base32Parser : UlidParser := ⟨parseBase32, parseBase32_ulidToString⟩

def minimalManifest (vcpus : U32) : VmManifest where
  apiVersion := 1
  id := ⟨50 * 2 ^ 115, by decide⟩
  desired :=
    { metadata := ⟨"minimal", .empty, .empty⟩
      compute := ⟨vcpus, none, 536870912⟩
      storage := []
      networks := []
      placement := .default
      boot := ⟨false, none, none, none⟩
      cloudInit := none
      vsock := none }
  observed := none

/-- The minimal manifest as it is written, with more keys in its metadata. -/
def minimalJson (extra : List (String × Json)) : Json := .object
  [("api_version", .int 1), ("id", .string "01J00000000000000000000000"),
   ("desired", .object
    [("metadata", .object
      ([("name", .string "minimal"), ("labels", .object []), ("annotations", .object [])] ++ extra)),
     ("compute", .object [("vcpus", .int 1), ("memory_bytes", .int 536870912)]),
     ("storage", .array []), ("networks", .array []),
     ("placement", .object [("required_labels", .object []), ("affinity", .array [])]),
     ("boot", .object [("start", .bool false)])])]

theorem addsUnknownKey_minimal : AddsUnknownKey VmManifest.schema (minimalJson [])
    (minimalJson [("extra", .bool true)]) := by
  refine @AddsUnknownKey.field _ [_, _] [] "desired" _ _ _ (.tail _ (.tail _ (.head _))) ?_
  refine @AddsUnknownKey.field _ [] [_, _, _, _, _] "metadata" _ _ _ (.head _) ?_
  exact @AddsUnknownKey.key _ [_, _, _] [] "extra" (.bool true) (by decide)

theorem VmManifest.manifest_codec_exact_minimal :
    deserialize base32Parser (minimalJson []) = .ok (minimalManifest 1) ∧
    deserialize base32Parser ((minimalManifest 0).serialize base32Parser) =
      .error (.custom "manifest must define at least one vCPU") ∧
    ∃ e, deserialize base32Parser (minimalJson [("extra", .bool true)]) = .error e := by
  obtain ⟨hvalid, hinvalid, haccepted⟩ := manifest_codec_exact base32Parser
  have hread : deserialize base32Parser (minimalJson []) = .ok (minimalManifest 1) :=
    hvalid (minimalManifest 1) (by decide +kernel)
  have hrefused := hinvalid (minimalManifest 0) .noVcpus (by decide +kernel)
  exact ⟨hread, hrefused, (haccepted _ _ hread).2 _ addsUnknownKey_minimal⟩

end Samples

end Odorobo
