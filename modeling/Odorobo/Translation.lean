import Odorobo.VmConfig

/-! The translation of a manifest: what it takes for it to succeed, and that the
configuration still shows the intent it was made from. -/

namespace Odorobo

/-- The schemes of the storage drivers. -/
def IsBackendUri (uri : String) : Prop :=
  Text.startsWith "file://" uri = true ∨ Text.startsWith "rbd://" uri = true ∨
    Text.startsWith "iscsi://" uri = true

/-- What a manifest needs beyond being valid. -/
structure Translatable (manifest : VmManifest) : Prop where
  valid : manifest.validate = .ok ()
  cloudInit : manifest.desired.cloudInit = none
  storage : ∀ storage ∈ manifest.desired.storage, ∃ uri, storage.uri = some uri ∧ IsBackendUri uri
  vcpus : manifest.desired.compute.vcpus.val < 2 ^ 31
  maxVcpus : (manifest.desired.compute.maxVcpus.getD manifest.desired.compute.vcpus).val < 2 ^ 31
  memory : manifest.desired.compute.memoryBytes.val < 2 ^ 63

/-- The firmware given, or the standard one unless a kernel is booted. -/
def effectiveFirmware (boot : Boot) : Option String :=
  match boot.firmware, boot.kernel with
  | some firmware, _ => some firmware
  | none, some _ => none
  | none, none => some "/var/lib/odorobo/CLOUDHV.fd"

/-- The intent that a provider must not lose. -/
structure Intent where
  storage : List (String × Option String × Bool)
  networks : List (String × Option String)
  vcpus : U32
  maxVcpus : U32
  memoryBytes : U64
  kernel : Option String
  cmdline : Option String
  firmware : Option String
  vsock : Option Vsock

def intentOf (manifest : VmManifest) : Intent where
  storage := manifest.desired.storage.map fun storage => (storage.id, storage.uri, storage.readOnly)
  networks := manifest.desired.networks.map fun network => (network.id, network.macAddress)
  vcpus := manifest.desired.compute.vcpus
  maxVcpus := manifest.desired.compute.maxVcpus.getD manifest.desired.compute.vcpus
  memoryBytes := manifest.desired.compute.memoryBytes
  kernel := manifest.desired.boot.kernel
  cmdline := manifest.desired.boot.cmdline
  firmware := effectiveFirmware manifest.desired.boot
  vsock := manifest.desired.vsock

/-! The parts. -/

/-- A narrowing conversion succeeds below its bound, and keeps the value. -/
theorem narrowed_eq_ok {P : Int → Prop} {x bound : Nat} {message : String}
    {narrow : x < bound → Subtype P} (hvalue : ∀ h, (narrow h).val = x) {y : Subtype P} :
    (if h : x < bound then Except.ok (narrow h) else .error message) = .ok y ↔
      x < bound ∧ y.val = x := by
  split
  · next h => rw [Except.ok.injEq, Subtype.ext_iff, hvalue, and_iff_right h, eq_comm]
  · next h =>
    constructor
    · intro herror
      cases herror
    · intro hbound
      exact absurd hbound.1 h

theorem toI32_eq_ok {x : Nat} {message : String} {y : I32} :
    toI32 x message = .ok y ↔ x < 2 ^ 31 ∧ y.val = x :=
  narrowed_eq_ok fun _ => rfl

theorem toI64_eq_ok {x : Nat} {message : String} {y : I64} :
    toI64 x message = .ok y ↔ x < 2 ^ 63 ∧ y.val = x :=
  narrowed_eq_ok fun _ => rfl

theorem toI32_of_lt {x : Nat} (h : x < 2 ^ 31) : ∃ y, ∀ message, toI32 x message = .ok y :=
  ⟨⟨x, by omega⟩, fun _ => dif_pos h⟩

theorem toI64_of_lt {x : Nat} (h : x < 2 ^ 63) : ∃ y, ∀ message, toI64 x message = .ok y :=
  ⟨⟨x, by omega⟩, fun _ => dif_pos h⟩

theorem storageToDisk_eq_ok {storage : Storage} {disk : DiskConfig} :
    storageToDisk storage = .ok disk ↔
      storage.volumeId = none ∧ ∃ uri, storage.uri = some uri ∧ IsBackendUri uri ∧
        disk = ⟨some storage.id, some uri, some storage.readOnly, some .raw⟩ := by
  unfold storageToDisk
  dsimp only
  cases storage.volumeId with
  | some volumeId => cases storage.uri <;> simp
  | none =>
    cases storage.uri with
    | none => simp
    | some uri =>
      have hscheme : (Text.startsWith "file://" uri || Text.startsWith "rbd://" uri ||
          Text.startsWith "iscsi://" uri) = true ↔ IsBackendUri uri := by
        rw [Bool.or_eq_true, Bool.or_eq_true, or_assoc, IsBackendUri]
      dsimp only
      by_cases h : IsBackendUri uri
      · rw [if_pos (hscheme.mpr h), Except.ok.injEq]
        simp only [h, true_and, Option.some.injEq, exists_eq_left', eq_comm]
      · rw [if_neg (mt hscheme.mp h)]
        simp only [reduceCtorEq, true_and, Option.some.injEq, exists_eq_left', h, false_and]

theorem getD_nonEmpty {α : Type} (items : List α) : (nonEmpty items).getD [] = items := by
  unfold nonEmpty
  cases items <;> rfl

theorem firmware_toPayload (boot : Boot) : (toPayload boot).firmware = effectiveFirmware boot := by
  unfold toPayload effectiveFirmware
  cases boot.firmware <;> cases boot.kernel <;> rfl

/-- A valid attachment with a URI has no volume. -/
theorem volumeId_of_validateStorage {storages : List Storage} :
    ∀ {seen : List String}, DesiredState.validateStorage seen storages = .ok () →
      ∀ storage ∈ storages, storage.uri.isSome = true → storage.volumeId = none := by
  induction storages with
  | nil =>
    intro seen _ storage hmem
    cases hmem
  | cons first rest ih =>
    intro seen h storage hmem huri
    unfold DesiredState.validateStorage at h
    split at h
    · cases h
    · split at h
      · cases h
      · split at h
        · cases h
        · next hsource =>
          cases List.mem_cons.mp hmem with
          | inl heq =>
            rw [Bool.not_eq_true, Bool.or_eq_false_iff, ← heq, huri, beq_eq_false_iff_ne] at hsource
            rw [← Option.not_isSome_iff_eq_none]
            exact fun hvolume => hsource.2 hvolume.symm
          | inr hrest => exact ih h storage hrest huri

/-! The whole. -/

/-- What the configuration is made of. -/
structure Translates (manifest : VmManifest) (config : VmConfig) : Prop where
  disks : ∃ disks, manifest.desired.storage.mapM storageToDisk = .ok disks ∧
    config.disks = nonEmpty disks
  net : config.net = nonEmpty (manifest.desired.networks.map networkToNet)
  cpus : ∃ boot max, config.cpus = some ⟨boot, max⟩ ∧
    boot.val = manifest.desired.compute.vcpus.val ∧
    max.val = (manifest.desired.compute.maxVcpus.getD manifest.desired.compute.vcpus).val
  memory : ∃ size, config.memory = some ⟨size⟩ ∧
    size.val = manifest.desired.compute.memoryBytes.val
  payload : config.payload = toPayload manifest.desired.boot
  vsock : config.vsock = manifest.desired.vsock.map toVsockConfig

theorem mapError_eq_ok {ε δ α : Type} {f : ε → δ} {x : Except ε α} {a : α} :
    x.mapError f = .ok a ↔ x = .ok a := by
  cases x <;> simp [Except.mapError]

theorem spec_of_toVmConfig {manifest : VmManifest} {config : VmConfig}
    (h : toVmConfig manifest = .ok config) :
    Translatable manifest ∧ Translates manifest config := by
  simp only [toVmConfig, Fallible.bind_eq_ok, mapError_eq_ok] at h
  obtain ⟨_, hvalid, disks, hdisks, h⟩ := h
  split at h
  · obtain ⟨_, hthrow, _⟩ := Fallible.bind_eq_ok.mp h
    cases hthrow
  · next hcloud =>
    simp only [Fallible.bind_eq_ok, toI32_eq_ok, toI64_eq_ok] at h
    obtain ⟨boot, hboot, max, hmax, memory, hmemory, h⟩ := h
    rw [← Except.ok.inj h]
    refine ⟨⟨hvalid, ?_, ?_, hboot.1, hmax.1, hmemory.1⟩,
      ⟨⟨disks, hdisks, rfl⟩, rfl, ⟨boot, max, rfl, hboot.2, hmax.2⟩, ⟨memory, rfl, hmemory.2⟩, rfl,
        rfl⟩⟩
    · rw [← Option.not_isSome_iff_eq_none]
      exact hcloud
    · intro storage hmem
      obtain ⟨disk, _, hdisk⟩ := Fallible.exists_of_forall₂ (Fallible.mapM_eq_ok.mp hdisks)
        storage hmem
      obtain ⟨_, uri, huri, hscheme, _⟩ := storageToDisk_eq_ok.mp hdisk
      exact ⟨uri, huri, hscheme⟩

theorem storage_of_translatable {manifest : VmManifest} (h : Translatable manifest) :
    ∃ disks, manifest.desired.storage.mapM storageToDisk = .ok disks := by
  have hvolumes := volumeId_of_validateStorage (VmManifest.checked_of_validate h.valid).storage
  have hdisks : ∀ storages : List Storage, (∀ storage ∈ storages, ∃ disk,
      storageToDisk storage = .ok disk) → ∃ disks, storages.mapM storageToDisk = .ok disks := by
    intro storages
    induction storages with
    | nil =>
      intro _
      exact ⟨[], rfl⟩
    | cons first rest ih =>
      intro hall
      obtain ⟨disk, hdisk⟩ := hall first List.mem_cons_self
      obtain ⟨disks, hrest⟩ := ih fun storage hmem => hall storage (List.mem_cons_of_mem first hmem)
      exact ⟨disk :: disks, Fallible.mapM_eq_ok.mpr (.cons hdisk (Fallible.mapM_eq_ok.mp hrest))⟩
  apply hdisks
  intro storage hmem
  obtain ⟨uri, huri, hscheme⟩ := h.storage storage hmem
  have hvolume := hvolumes storage hmem (by rw [huri]; rfl)
  exact ⟨_, storageToDisk_eq_ok.mpr ⟨hvolume, uri, huri, hscheme, rfl⟩⟩

theorem toVmConfig_of_translatable {manifest : VmManifest} (h : Translatable manifest) :
    ∃ config, toVmConfig manifest = .ok config := by
  have hvalid := (mapError_eq_ok (f := ManifestError.message)).mpr h.valid
  obtain ⟨disks, hdisks⟩ := storage_of_translatable h
  obtain ⟨boot, hboot⟩ := toI32_of_lt h.vcpus
  obtain ⟨max, hmax⟩ := toI32_of_lt h.maxVcpus
  obtain ⟨memory, hmemory⟩ := toI64_of_lt h.memory
  cases hconfig : toVmConfig manifest with
  | ok config => exact ⟨config, rfl⟩
  | error error =>
    simp [toVmConfig, hvalid, hdisks, h.cloudInit, hboot, hmax, hmemory, bind, Except.bind, pure,
      Except.pure] at hconfig

/-! The intent in the configuration. -/

theorem toVsockConfig_injective : Function.Injective toVsockConfig := by
  intro vsock vsock' h
  unfold toVsockConfig wideCid at h
  rw [VsockConfig.mk.injEq, Subtype.ext_iff] at h
  have hcid : vsock.guestCid = vsock'.guestCid := Fin.ext (Int.ofNat.inj h.1)
  cases vsock
  cases vsock'
  rw [Vsock.mk.injEq]
  exact ⟨hcid, h.2.1⟩

/-- The attachment that a logical disk was made from. -/
def attachmentOf (disk : DiskConfig) : String × Option String × Bool :=
  (disk.id.getD "", disk.path, disk.readonly.getD false)

theorem attachmentOf_storageToDisk (storage : Storage) (disk : DiskConfig)
    (h : storageToDisk storage = .ok disk) :
    attachmentOf disk = (storage.id, storage.uri, storage.readOnly) := by
  obtain ⟨_, uri, huri, _, rfl⟩ := storageToDisk_eq_ok.mp h
  rw [huri]
  rfl

theorem storage_of_translates {manifest : VmManifest} {config : VmConfig}
    (h : Translates manifest config) :
    (config.disks.getD []).map attachmentOf = (intentOf manifest).storage := by
  obtain ⟨disks, hdisks, hconfig⟩ := h.disks
  rw [hconfig, getD_nonEmpty]
  exact Fallible.map_of_mapM_ok hdisks attachmentOf_storageToDisk

/-- The network that a configured interface was made from. -/
def networkOf (net : NetConfig) : String × Option String :=
  ((net.id.bind (Text.stripPrefix "net://")).getD "", net.mac)

theorem networks_of_translates {manifest : VmManifest} {config : VmConfig}
    (h : Translates manifest config) :
    (config.net.getD []).map networkOf = (intentOf manifest).networks := by
  rw [h.net, getD_nonEmpty, List.map_map]
  apply List.map_congr_left
  intro network _
  simp [networkOf, networkToNet, Text.stripPrefix_append]

theorem intentOf_eq {manifest manifest' : VmManifest} {config : VmConfig}
    (h : Translates manifest config) (h' : Translates manifest' config) :
    intentOf manifest = intentOf manifest' := by
  obtain ⟨boot, max, hcpus, hboot, hmax⟩ := h.cpus
  obtain ⟨boot', max', hcpus', hboot', hmax'⟩ := h'.cpus
  obtain ⟨size, hmemory, hsize⟩ := h.memory
  obtain ⟨size', hmemory', hsize'⟩ := h'.memory
  rw [hcpus, Option.some.injEq, CpusConfig.mk.injEq] at hcpus'
  rw [hmemory, Option.some.injEq, MemoryConfig.mk.injEq] at hmemory'
  obtain ⟨rfl, rfl⟩ := hcpus'
  subst hmemory'
  have hpayload := h.payload.symm.trans h'.payload
  have hfirmware := congrArg PayloadConfig.firmware hpayload
  rw [firmware_toPayload, firmware_toPayload] at hfirmware
  rw [Intent.mk.injEq]
  refine ⟨?_, ?_, ?_, ?_, ?_, ?_, ?_, hfirmware, ?_⟩
  · exact (storage_of_translates h).symm.trans (storage_of_translates h')
  · exact (networks_of_translates h).symm.trans (networks_of_translates h')
  · exact Fin.ext (Int.ofNat.inj (hboot.symm.trans hboot'))
  · exact Fin.ext (Int.ofNat.inj (hmax.symm.trans hmax'))
  · exact Fin.ext (Int.ofNat.inj (hsize.symm.trans hsize'))
  · exact congrArg PayloadConfig.kernel hpayload
  · exact congrArg PayloadConfig.cmdline hpayload
  · exact Option.map_injective toVsockConfig_injective (h.vsock.symm.trans h'.vsock)

theorem to_vm_config_exact (manifest : VmManifest) :
    ((∃ config, toVmConfig manifest = .ok config) ↔ Translatable manifest) ∧
      ∀ manifest' config, toVmConfig manifest = .ok config → toVmConfig manifest' = .ok config →
        intentOf manifest = intentOf manifest' := by
  refine ⟨⟨?_, toVmConfig_of_translatable⟩, ?_⟩
  · rintro ⟨config, hconfig⟩
    exact (spec_of_toVmConfig hconfig).1
  · intro manifest' config hconfig hconfig'
    exact intentOf_eq (spec_of_toVmConfig hconfig).2 (spec_of_toVmConfig hconfig').2

end Odorobo
