import Mathlib.Data.List.Forall2
import Odorobo.HostCalls
import Odorobo.SchedulerRuns
import Odorobo.Translation

/-! Release undoes resolve. The only link between the two is the URI written into
the id of a resolved disk, with one more query pair; targets are read off the other
components, so that the link holds whatever the pair does to the query. -/

namespace Odorobo

open HostCall StorageDriverTransformer

/-- The same scheme, and the same image or target. -/
def SameTarget (uri uri' : Url) : Prop :=
  uri'.scheme = uri.scheme ∧
    (uri.scheme = "rbd" → RbdImage.tryFrom uri' = RbdImage.tryFrom uri) ∧
    (uri.scheme = "iscsi" → ISCSITarget.from uri' = ISCSITarget.from uri)

theorem tryFrom_withoutQuery (uri : Url) :
    RbdImage.tryFrom uri.withoutQuery = RbdImage.tryFrom uri := rfl

theorem from_withoutQuery (uri : Url) :
    ISCSITarget.from uri.withoutQuery = ISCSITarget.from uri := rfl

theorem sameTarget_of_withoutQuery {uri uri' : Url} (h : uri'.withoutQuery = uri.withoutQuery) :
    SameTarget uri uri' := by
  refine ⟨Url.scheme_of_withoutQuery h, fun _ => ?_, fun _ => ?_⟩
  · rw [← tryFrom_withoutQuery uri', h, tryFrom_withoutQuery]
  · rw [← from_withoutQuery uri', h, from_withoutQuery]

/-! Disks that come from a manifest. -/

theorem isAbsolute_of_startsWith {pre text : String} (hpre : pre.toList.head?.any (· ≠ '/') = true)
    (h : Text.startsWith pre text = true) : Text.isAbsolute text = false := by
  unfold Text.isAbsolute Text.startsWith at *
  cases htext : text.toList with
  | nil => rfl
  | cons c cs =>
    rw [htext] at h
    cases hchars : pre.toList with
    | nil => simp [hchars] at hpre
    | cons d ds =>
      rw [hchars] at h hpre
      obtain ⟨rfl, _⟩ : d = c ∧ ds.isPrefixOf cs = true := by simpa [List.isPrefixOf] using h
      have hne : d ≠ '/' := by simpa using hpre
      simpa [List.isPrefixOf] using hne.symm

theorem path_of_storageToDisk {storage : Storage} {disk : DiskConfig}
    (h : storageToDisk storage = .ok disk) : disk.path.all Text.isAbsolute = false := by
  obtain ⟨_, uri, _, hscheme, rfl⟩ := storageToDisk_eq_ok.mp h
  obtain hfile | hrbd | hiscsi := hscheme
  · exact isAbsolute_of_startsWith (by decide +kernel) hfile
  · exact isAbsolute_of_startsWith (by decide +kernel) hrbd
  · exact isAbsolute_of_startsWith (by decide +kernel) hiscsi

theorem path_of_toVmConfig {manifest : VmManifest} {config : VmConfig}
    (h : toVmConfig manifest = .ok config) :
    ∀ disk ∈ config.disks.getD [], disk.path.all Text.isAbsolute = false := by
  obtain ⟨disks, hstorage, hdisks⟩ := (spec_of_toVmConfig h).2.disks
  rw [hdisks, getD_nonEmpty]
  intro disk hdisk
  obtain ⟨storage, _, hstorage⟩ := Fallible.mem_of_mapM_ok hstorage disk hdisk
  exact path_of_storageToDisk hstorage

theorem forall₂_filterMap {α β γ δ : Type} {f : α → Option γ} {g : β → Option δ} {r : γ → δ → Prop}
    {xs : List α} {ys : List β}
    (h : List.Forall₂ (fun x y => ∃ c d, f x = some c ∧ g y = some d ∧ r c d) xs ys) :
    List.Forall₂ r (xs.filterMap f) (ys.filterMap g) := by
  induction h with
  | nil => exact .nil
  | cons hfirst _ ih =>
    obtain ⟨c, d, hc, hd, hr⟩ := hfirst
    rw [List.filterMap_cons_some hc, List.filterMap_cons_some hd]
    exact .cons hr ih

theorem parse_of_diskUri {crate : UrlCrate} {disk : DiskConfig} {uri : Url}
    (h : diskUri crate disk = some uri) : disk.path.bind crate.parse = some uri := by
  obtain ⟨found, hfound, rfl⟩ := Option.map_eq_some_iff.mp h
  obtain ⟨text, htext, hlookup⟩ := Option.bind_eq_some_iff.mp hfound
  rw [htext]
  exact (lookup_backend hlookup).1

/-- A disk of a manifest that comes out with an absolute path was resolved. -/
structure Resolved (crate : UrlCrate) (disk disk' : DiskConfig) (uri : Url) : Prop where
  uri : diskUri crate disk = some uri
  transformed : Transformed crate disk disk'
  absolute : disk'.path.all Text.isAbsolute = true

theorem forall₂_resolved {crate : UrlCrate} {disks disks' : List DiskConfig}
    (hlogical : ∀ disk ∈ disks, disk.path.all Text.isAbsolute = false)
    (habsolute : ∀ disk ∈ disks', disk.path.all Text.isAbsolute = true)
    (h : List.Forall₂ (Transformed crate) disks disks') :
    List.Forall₂ (fun disk disk' => ∃ uri, Resolved crate disk disk' uri) disks disks' := by
  induction h with
  | nil => exact .nil
  | @cons disk disk' _ _ hfirst _ ih =>
    have hlogical' := List.forall_mem_cons.mp hlogical
    have habsolute' := List.forall_mem_cons.mp habsolute
    refine .cons ?_ (ih hlogical'.2 habsolute'.2)
    cases huri : diskUri crate disk with
    | some uri => exact ⟨uri, huri, hfirst, habsolute'.1⟩
    | none =>
      rw [Transformed, huri] at hfirst
      rw [hfirst, hlogical'.1] at habsolute'
      simp at habsolute'

/-- Number, order and paths of the disks after a chain that succeeds, and which
URIs it and the releases after it pass to the backends. -/
theorem release_mirrors_resolve (crate : UrlCrate) (lawful : crate.Lawful)
    (runtimeRoot vmid : String) (manifest : VmManifest) (config config' : VmConfig) (trace : Trace)
    (hconfig : toVmConfig manifest = .ok config)
    (hrun : Program.Runs ((TransformChain.ofHost crate runtimeRoot).transform vmid config) trace
      (.ok config')) :
    ∃ uris,
      List.Forall₂ (fun disk uri => disk.path.bind crate.parse = some uri)
        (config.disks.getD []) uris ∧
      calls trace = uris.map .resolve ∧
      List.Forall₂ (fun disk disk' => ∃ uri path, disk.path.bind crate.parse = some uri ∧
          Text.isAbsolute path = true ∧
          disk' = { disk with id := some (resolvedId crate uri disk), path := some path })
        (config.disks.getD []) (config'.disks.getD []) ∧
      (∀ trace', Program.Runs (transformer.releaseConfig crate config') trace' () →
        ∃ uris', calls trace' = uris'.map .release ∧ List.Forall₂ SameTarget uris uris') ∧
      ∀ trace', Program.Runs (transformer.releaseConfig crate config) trace' () →
        ∃ uris', calls trace' = uris'.map .release ∧ List.Forall₂ SameTarget uris uris' := by
  obtain ⟨hresolving, habsolute⟩ := TransformChain.runs_ofHost hrun
  have hcalls := hresolving.calls _ rfl
  have hdisks := forall₂_resolved (path_of_toVmConfig hconfig) (habsolute config' rfl)
    (hresolving.transformed _ rfl)
  have huris : ∀ disk ∈ config.disks.getD [], ∃ uri, diskUri crate disk = some uri := by
    have hboth : List.Forall₂ (fun disk _ => (∃ uri, diskUri crate disk = some uri) ∧ True)
        (config.disks.getD []) (config'.disks.getD []) := by
      refine hdisks.imp ?_
      rintro disk disk' ⟨uri, hresolved⟩
      exact ⟨⟨uri, hresolved.uri⟩, trivial⟩
    exact ((List.forall₂_and_left _ _).mp hboth).1
  refine ⟨(config.disks.getD []).filterMap (diskUri crate), ?_, hcalls, ?_, ?_, ?_⟩
  · have hforall : List.Forall₂ (fun disk uri => disk.path.bind crate.parse = some uri)
        ((config.disks.getD []).filterMap some) ((config.disks.getD []).filterMap (diskUri crate)) := by
      refine forall₂_filterMap (List.forall₂_same.mpr ?_)
      intro disk hdisk
      obtain ⟨uri, huri⟩ := huris disk hdisk
      exact ⟨disk, uri, rfl, huri, parse_of_diskUri huri⟩
    rwa [List.filterMap_some] at hforall
  · refine hdisks.imp ?_
    rintro disk disk' ⟨uri, hresolved⟩
    have htransformed := hresolved.transformed
    rw [Transformed, hresolved.uri] at htransformed
    obtain ⟨path, rfl⟩ := htransformed
    exact ⟨uri, path, parse_of_diskUri hresolved.uri, hresolved.absolute, rfl⟩
  · intro trace' hrelease
    obtain ⟨hreleases, _, _⟩ := runs_releaseDisks hrelease
    refine ⟨_, hreleases, forall₂_filterMap (hdisks.imp ?_)⟩
    rintro disk disk' ⟨uri, hresolved⟩
    obtain ⟨uri', huri', hsame⟩ := releaseUri_transformed lawful hresolved.uri
      hresolved.transformed hresolved.absolute
    exact ⟨uri, uri', hresolved.uri, huri', sameTarget_of_withoutQuery hsame⟩
  · intro trace' hrelease
    obtain ⟨hreleases, _, _⟩ := runs_releaseDisks hrelease
    refine ⟨_, hreleases, forall₂_filterMap (List.forall₂_same.mpr ?_)⟩
    intro disk hdisk
    obtain ⟨uri, huri⟩ := huris disk hdisk
    exact ⟨uri, uri, huri, releaseUri_of_diskUri huri, sameTarget_of_withoutQuery rfl⟩

section Samples

/-- A manifest with an RBD image and an iSCSI target. -/
def storageManifest : VmManifest :=
  { SchedulerActor.sampleManifest 5 with
    desired := { (SchedulerActor.sampleManifest 5).desired with
      storage := [⟨"root", some "rbd://pool/root", none, false⟩,
        ⟨"data", some "iscsi://storage/iqn.2024-01.com.example:data/lun1", none, true⟩] } }

def storageConfig : VmConfig := (toVmConfig storageManifest).toOption.getD .default

/-- Every resolve gives a path, and everything else succeeds. -/
def willing : (call : HostCall) → call.Answer
  | .resolve _ => .ok "/dev/rbd/pool/root"
  | .release _ | .createRuntimeDir | .spawnVmm | .createVm _ | .bootVm | .shutdownVm | .shutdownVmm
  | .killChild | .hook _ | .removeRuntimeDir => .ok ()
  | .ping => true
  | .vmInfo => .ok .running

def transformRun : Trace × Except String VmConfig :=
  ((TransformChain.ofHost PlainUrl.crate "/run/odorobo").transform "5" storageConfig).run willing

end Samples

/-- Both disks are released from the transformed configuration. -/
theorem release_mirrors_resolve_two_disks :
    ∃ config', transformRun.2 = .ok config' ∧ ∃ uris, uris.length = 2 ∧
      calls transformRun.1 = uris.map .resolve ∧
      ∀ trace', Program.Runs (transformer.releaseConfig PlainUrl.crate config') trace' () →
        ∃ uris', calls trace' = uris'.map .release ∧ List.Forall₂ SameTarget uris uris' := by
  have hconfig : toVmConfig storageManifest = .ok storageConfig := by decide +kernel
  have hcalls : (calls transformRun.1).length = 2 := by decide +kernel
  have hruns := Program.runs_run willing
    ((TransformChain.ofHost PlainUrl.crate "/run/odorobo").transform "5" storageConfig)
  cases hresult : transformRun.2 with
  | error error =>
    have hok : transformRun.2.isOk = true := by decide +kernel
    rw [hresult] at hok
    simp [Except.isOk, Except.toBool] at hok
  | ok config' =>
    rw [show (Program.run willing _).2 = Except.ok config' from hresult] at hruns
    obtain ⟨uris, _, hresolves, _, hreleases, _⟩ := release_mirrors_resolve PlainUrl.crate
      PlainUrl.lawful "/run/odorobo" "5" storageManifest storageConfig config' _ hconfig hruns
    refine ⟨config', rfl, uris, ?_, hresolves, hreleases⟩
    rw [← hcalls, show calls transformRun.1 = _ from hresolves, List.length_map]

end Odorobo
