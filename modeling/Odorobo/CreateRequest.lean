import Odorobo.DurableIntent
import Odorobo.ManifestCodec
import Odorobo.Translation

/-! From the command line to the provider. `odoroboctl create` builds a manifest from
its settings, checks it and posts it; the manager reads the body, hands the manifest to
the scheduler as a create, and an agent translates it. -/

namespace Odorobo

open Serde

/-- `Command::Create`. -/
structure CreateCommand where
  image : String
  name : String
  vcpus : U32
  memory : U64

namespace CreateCommand

/-- The manifest of the command, with the id that is generated for it. -/
def manifest (command : CreateCommand) (id : Ulid) : VmManifest where
  apiVersion := manifestVersion
  id := id
  desired :=
    { metadata := ⟨command.name, .empty, .empty⟩
      compute := ⟨command.vcpus, none, command.memory⟩
      storage := [⟨"root", some command.image, none, false⟩]
      networks := []
      placement := .default
      boot := ⟨true, none, none, none⟩
      cloudInit := none
      vsock := none }
  observed := none

end CreateCommand

/-- `Deserialize` of a manifest yields valid ones only. -/
abbrev ValidManifest := { manifest : VmManifest // manifest.validate = .ok () }

section

variable (ulid : UlidParser)

def ValidManifest.codec : Codec ValidManifest where
  schema := VmManifest.schema
  encode vm := vm.1.serialize ulid
  decode json :=
    match h : VmManifest.deserialize ulid json with
    | .ok manifest => some ⟨manifest, VmManifest.validate_of_deserialize h⟩
    | .error _ => none
  decode_encode vm := by
    have hread := VmManifest.deserialize_of_decode
      ((VmManifest.codec ulid).decode_encode vm.1) vm.2
    split
    · next manifest h => exact congrArg some (Subtype.ext (Except.ok.inj (h.symm.trans hread)))
    · next e h => cases h.symm.trans hread
  encode_ne_null vm := (VmManifest.codec ulid).encode_ne_null vm.1
  rejects hadds := by
    have hrejects := (VmManifest.codec ulid).rejects (VmManifest.codec_schema ulid ▸ hadds)
    split
    · next manifest h =>
      rw [VmManifest.deserialize, hrejects] at h
      cases h
    · rfl

/-- `CreateVMRequest`. -/
def CreateVMRequest.fields : Fields (ValidManifest × Unit) :=
  .cons (.required "vm" (ValidManifest.codec ulid)) .nil

/-- What `run_command` posts, unless it fails before. -/
def CreateCommand.post (command : CreateCommand) (id : Ulid) : Except ManifestError Json :=
  match h : (command.manifest id).validate with
  | .error e => .error e
  | .ok () => .ok (.object ((CreateVMRequest.fields ulid).write (⟨command.manifest id, h⟩, ())))

/-- The message that the handler of the route makes of a body; unknown keys beside the
manifest are not denied. -/
def createVm (body : Json) : Option CreateVM :=
  ((CreateVMRequest.fields ulid).read false body).map fun (vm, ()) => ⟨vm.1.id, vm.1⟩

end

/-- The settings that the command takes. -/
structure CreateCommand.Usable (command : CreateCommand) : Prop where
  name : isBlank command.name = false
  vcpus : command.vcpus ≠ 0
  memory : command.memory ≠ 0
  image : isBlank command.image = false

namespace CreateCommand

variable (command : CreateCommand) (id : Ulid)

theorem validateCompute_iff :
    DesiredState.validateCompute (command.manifest id).desired.compute = .ok () ↔
      command.vcpus ≠ 0 ∧ command.memory ≠ 0 := by
  unfold DesiredState.validateCompute manifest
  dsimp only
  split
  · next hvcpus => simp [hvcpus]
  · next hvcpus =>
    simp only [Option.filter_none]
    split
    · next hmemory => simp [hmemory]
    · next hmemory => simp [hvcpus, hmemory]

theorem validateStorage_iff :
    DesiredState.validateStorage [] (command.manifest id).desired.storage = .ok () ↔
      isBlank command.image = false := by
  have hroot : isBlank "root" = false := by decide
  simp [DesiredState.validateStorage, manifest, hroot]

theorem validate_iff : (command.manifest id).validate = .ok () ↔ command.Usable := by
  constructor
  · intro h
    have hchecked := VmManifest.checked_of_validate h
    obtain ⟨hvcpus, hmemory⟩ := (command.validateCompute_iff id).mp hchecked.compute
    exact ⟨hchecked.name, hvcpus, hmemory, (command.validateStorage_iff id).mp hchecked.storage⟩
  · intro h
    have hcompute := (command.validateCompute_iff id).mpr ⟨h.vcpus, h.memory⟩
    have hstorage := (command.validateStorage_iff id).mpr h.image
    have hname : isBlank (command.manifest id).desired.metadata.name = false := h.name
    have hversion : ¬ (command.manifest id).apiVersion ≠ manifestVersion := not_not.mpr rfl
    unfold VmManifest.validate DesiredState.validate
    rw [if_neg hversion]
    dsimp only
    rw [hname, hcompute, hstorage]
    rfl

/-- The body is posted exactly for usable settings. -/
theorem post_iff (ulid : UlidParser) : (∃ body, command.post ulid id = .ok body) ↔ command.Usable := by
  rw [← command.validate_iff id]
  unfold post
  constructor
  · rintro ⟨body, hbody⟩
    split at hbody
    · cases hbody
    · next h => exact h
  · intro hvalid
    split
    · next e h => cases h.symm.trans hvalid
    · exact ⟨_, rfl⟩

/-- The manager reads what was posted. -/
theorem createVm_of_post {ulid : UlidParser} {body : Json} (h : command.post ulid id = .ok body) :
    createVm ulid body = some ⟨id, command.manifest id⟩ := by
  unfold post at h
  split at h
  · cases h
  · obtain rfl := Except.ok.inj h
    have hdistinct : (CreateVMRequest.fields ulid).names.Nodup := List.nodup_singleton "vm"
    unfold createVm
    rw [Fields.read_write hdistinct]
    rfl

/-- What an agent runs for the command. -/
structure Runs (config : VmConfig) : Prop where
  cpus : ∃ vcpus : I32, config.cpus = some ⟨vcpus, vcpus⟩ ∧ vcpus.val = command.vcpus.val
  memory : ∃ size : I64, config.memory = some ⟨size⟩ ∧ size.val = command.memory.val
  disks : config.disks = some [⟨some "root", some command.image, some false, some .raw⟩]
  payload : config.payload = ⟨some "/var/lib/odorobo/CLOUDHV.fd", none, none, none⟩
  net : config.net = none
  vsock : config.vsock = none

theorem translatable_iff : Translatable (command.manifest id) ↔
    command.Usable ∧ IsBackendUri command.image ∧ command.vcpus.val < 2 ^ 31 ∧
      command.memory.val < 2 ^ 63 := by
  constructor
  · intro h
    obtain ⟨uri, huri, hscheme⟩ := h.storage _ (List.mem_singleton.mpr rfl)
    obtain rfl := Option.some.inj huri
    exact ⟨(command.validate_iff id).mp h.valid, hscheme, h.vcpus, h.memory⟩
  · rintro ⟨husable, hscheme, hvcpus, hmemory⟩
    refine ⟨(command.validate_iff id).mpr husable, rfl, ?_, hvcpus, hvcpus, hmemory⟩
    intro storage hstorage
    obtain rfl := List.mem_singleton.mp hstorage
    exact ⟨command.image, rfl, hscheme⟩

theorem runs_of_toVmConfig {config : VmConfig}
    (h : toVmConfig (command.manifest id) = .ok config) : command.Runs config := by
  obtain ⟨-, htranslates⟩ := spec_of_toVmConfig h
  refine ⟨?_, htranslates.memory, ?_, htranslates.payload, htranslates.net, htranslates.vsock⟩
  · obtain ⟨boot, max, hcpus, hboot, hmax⟩ := htranslates.cpus
    have hsame : boot = max := Subtype.ext (hboot.trans hmax.symm)
    exact ⟨boot, hsame ▸ hcpus, hboot⟩
  · obtain ⟨disks, hdisks, hconfig⟩ := htranslates.disks
    cases Fallible.mapM_eq_ok.mp hdisks with
    | cons hdisk hrest =>
      cases hrest
      obtain ⟨-, uri, huri, -, rfl⟩ := storageToDisk_eq_ok.mp hdisk
      obtain rfl := Option.some.inj huri
      exact hconfig

/-- What the command takes is what runs. A request is sent exactly for usable settings;
the manager reads from it the same manifest under the id that was generated; once a
create is accepted, that manifest is the intent of the VM; and an agent can translate it
exactly when a storage driver takes the image and the sizes fit the provider's, into a
configuration of just these settings. -/
theorem create_command_runs (ulid : UlidParser) (command : CreateCommand) (id : Ulid) :
    ((∃ body, command.post ulid id = .ok body) ↔ command.Usable) ∧
    (∀ body, command.post ulid id = .ok body →
      ∃ msg, createVm ulid body = some msg ∧ msg.vmid = id ∧ msg.config = command.manifest id ∧
        ∀ (s : SchedulerActor) (env : SchedulerActor.CreateEnv) (reply : CreateVMReply),
          (s.createVM msg env).1 = .ok reply →
            (s.createVM msg env).2.vmManifests.get id = some (command.manifest id)) ∧
    ((∃ config, toVmConfig (command.manifest id) = .ok config) ↔
      command.Usable ∧ IsBackendUri command.image ∧ command.vcpus.val < 2 ^ 31 ∧
        command.memory.val < 2 ^ 63) ∧
    ∀ config, toVmConfig (command.manifest id) = .ok config → command.Runs config := by
  refine ⟨command.post_iff id ulid, ?_, ?_, fun config => command.runs_of_toVmConfig id⟩
  · intro body hbody
    refine ⟨_, command.createVm_of_post id hbody, rfl, rfl, ?_⟩
    intro s env reply hreply
    exact SchedulerActor.createVM_accepted hreply
  · rw [← command.translatable_iff id]
    constructor
    · rintro ⟨config, hconfig⟩
      exact (spec_of_toVmConfig hconfig).1
    · exact toVmConfig_of_translatable

end CreateCommand

end Odorobo
