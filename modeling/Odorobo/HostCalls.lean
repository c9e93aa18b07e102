import Odorobo.Fallible
import Odorobo.StorageDrivers

/-! What a VM instance asks of its host, and what the storage transform asks for
each disk. Storage backends appear here as the calls made to them: whatever a
backend does with a call, it ends in one of its answers. -/

namespace Odorobo

inductive HookPoint where
  | beforeBoot
  | afterBoot
  | beforeStop
  | afterStop
  deriving DecidableEq

inductive VmState where
  | created
  | running
  | shutdown
  | paused
  | breakPoint
  deriving DecidableEq

inductive HostCall where
  | resolve (uri : Url)
  | release (uri : Url)
  | createRuntimeDir
  | spawnVmm
  | ping
  | createVm (config : VmConfig)
  | bootVm
  | vmInfo
  | shutdownVm
  | shutdownVmm
  | killChild
  | hook (point : HookPoint)
  | removeRuntimeDir
  deriving DecidableEq

namespace HostCall

def Answer : HostCall → Type
  | resolve _ => Except String String
  | ping => Bool
  | vmInfo => Except String VmState
  | _ => Except String Unit

/-- A backend, by the calls made to it. -/
def backend (scheme : String) : StorageDriver HostCall Answer where
  scheme := scheme
  resolve uri := .ask (resolve uri)
  release uri := .ask (release uri)

/-- The schemes of the backends of a node, in their order. -/
def transformer : StorageDriverTransformer HostCall Answer :=
  ⟨["file", "rbd", "iscsi"].map backend⟩

theorem scheme_backends (crate : UrlCrate) :
    (storageBackends crate).map StorageDriver.scheme =
      transformer.backends.map StorageDriver.scheme := rfl

abbrev Trace := Program.Trace HostCall Answer

/-- The URI of a resolve that was answered with a path. -/
def resolvedUri : (call : HostCall) × call.Answer → Option Url
  | ⟨resolve uri, .ok _⟩ => some uri
  | _ => none

def releasedUri : (call : HostCall) × call.Answer → Option Url
  | ⟨release uri, _⟩ => some uri
  | _ => none

def resolved (trace : Trace) : List Url := trace.filterMap resolvedUri

def released (trace : Trace) : List Url := trace.filterMap releasedUri

def calls (trace : Trace) : List HostCall := trace.map Sigma.fst

@[simp] theorem resolved_append (before after : Trace) :
    resolved (before ++ after) = resolved before ++ resolved after := List.filterMap_append

@[simp] theorem released_append (before after : Trace) :
    released (before ++ after) = released before ++ released after := List.filterMap_append

@[simp] theorem calls_append (before after : Trace) :
    calls (before ++ after) = calls before ++ calls after := List.map_append

end HostCall

namespace StorageDriverTransformer

open HostCall

variable {crate : UrlCrate} {disk disk' : DiskConfig} {disks disks' : List DiskConfig}
  {config config' : VmConfig} {trace : Trace}

/-- The URI that is resolved for a disk. -/
def diskUri (crate : UrlCrate) (disk : DiskConfig) : Option Url :=
  (disk.path.bind (transformer.lookup crate)).map Prod.fst

/-- The URI that is released for a disk. -/
def releaseUri (crate : UrlCrate) (disk : DiskConfig) : Option Url :=
  (transformer.releaseCandidate crate disk).map Prod.fst

theorem lookup_backend {text : String} {uri : Url} {driver : StorageDriver HostCall HostCall.Answer}
    (h : transformer.lookup crate text = some (uri, driver)) :
    crate.parse text = some uri ∧ ∃ scheme, driver = backend scheme := by
  unfold lookup at h
  obtain ⟨uri', hparse, h⟩ := Option.bind_eq_some_iff.mp h
  obtain ⟨driver', hfound, heq⟩ := Option.map_eq_some_iff.mp h
  obtain ⟨rfl, rfl⟩ := Prod.mk.inj heq
  obtain ⟨scheme, _, hscheme⟩ := List.mem_map.mp (List.mem_of_find?_eq_some hfound)
  exact ⟨hparse, scheme, hscheme.symm⟩

/-- A disk after a transform that succeeds. -/
def Transformed (crate : UrlCrate) (disk disk' : DiskConfig) : Prop :=
  match diskUri crate disk with
  | none => disk' = disk
  | some uri => ∃ path,
      disk' = { disk with id := some (resolvedId crate uri disk), path := some path }

theorem runs_transformDisk {result : Except String DiskConfig}
    (h : Program.Runs (transformer.transformDisk crate disk) trace result) :
    (diskUri crate disk = none ∧ trace = [] ∧ result = .ok disk) ∨
      ∃ uri, diskUri crate disk = some uri ∧
        ((∃ path, trace = [⟨.resolve uri, .ok path⟩] ∧
            result = .ok { disk with id := some (resolvedId crate uri disk), path := some path }) ∨
          ∃ error, trace = [⟨.resolve uri, .error error⟩] ∧ result = .error error) := by
  unfold transformDisk at h
  unfold diskUri
  cases hlookup : disk.path.bind (transformer.lookup crate) with
  | none =>
    rw [hlookup] at h
    obtain ⟨htrace, hresult⟩ := Program.runs_done.mp h
    exact Or.inl ⟨rfl, htrace, hresult.symm⟩
  | some found =>
    obtain ⟨uri, driver⟩ := found
    obtain ⟨text, _, htext⟩ := Option.bind_eq_some_iff.mp hlookup
    obtain ⟨_, scheme, rfl⟩ := lookup_backend htext
    rw [hlookup] at h
    refine Or.inr ⟨uri, rfl, ?_⟩
    obtain ⟨answer, hrun, rfl⟩ := Program.runs_andThen_done.mp h
    rw [Program.runs_ask.mp hrun]
    cases answer with
    | error error => exact Or.inr ⟨error, rfl, rfl⟩
    | ok path => exact Or.inl ⟨path, rfl, rfl⟩

/-- What a transform of disks asks for: their URIs in order, up to the first one
that is refused. -/
structure Resolving (crate : UrlCrate) (disks : List DiskConfig) (trace : Trace)
    (result : Except String (List DiskConfig)) : Prop where
  released : released trace = []
  begins : resolved trace <+: disks.filterMap (diskUri crate)
  transformed : ∀ disks', result = .ok disks' → List.Forall₂ (Transformed crate) disks disks'
  calls : ∀ disks', result = .ok disks' →
    calls trace = (disks.filterMap (diskUri crate)).map .resolve
  resolved : ∀ disks', result = .ok disks' → resolved trace = disks.filterMap (diskUri crate)

theorem resolving_nil : Resolving crate [] [] (.ok []) where
  released := rfl
  begins := List.prefix_rfl
  transformed disks' heq := by
    rw [← Except.ok.inj heq]
    exact .nil
  calls _ _ := rfl
  resolved _ _ := rfl

theorem resolving_error {error : String} (hreleased : HostCall.released trace = [])
    (hbegins : HostCall.resolved trace <+: disks.filterMap (diskUri crate)) :
    Resolving crate disks trace (.error error) where
  released := hreleased
  begins := hbegins
  transformed := by simp
  calls := by simp
  resolved := by simp

/-- A disk that is no URI is left as it is. -/
theorem Resolving.cons_none {result : Except String (List DiskConfig)}
    (h : Resolving crate disks trace result) (hnone : diskUri crate disk = none) :
    Resolving crate (disk :: disks) trace (result.map (disk :: ·)) := by
  have hsame : (disk :: disks).filterMap (diskUri crate) = disks.filterMap (diskUri crate) :=
    List.filterMap_cons_none hnone
  cases result with
  | error error => exact resolving_error h.released (hsame ▸ h.begins)
  | ok others =>
    refine ⟨h.released, hsame ▸ h.begins, ?_, fun _ _ => hsame ▸ h.calls others rfl,
      fun _ _ => hsame ▸ h.resolved others rfl⟩
    intro disks' heq
    rw [← Except.ok.inj heq]
    refine .cons ?_ (h.transformed others rfl)
    rw [Transformed, hnone]

theorem Resolving.cons_some {result : Except String (List DiskConfig)}
    (h : Resolving crate disks trace result) {uri : Url} (huri : diskUri crate disk = some uri)
    (path : String) :
    Resolving crate (disk :: disks) (⟨.resolve uri, .ok path⟩ :: trace)
      (result.map ({ disk with id := some (resolvedId crate uri disk), path := some path } :: ·)) := by
  have hmore : (disk :: disks).filterMap (diskUri crate) = uri :: disks.filterMap (diskUri crate) :=
    List.filterMap_cons_some huri
  have hbegins : uri :: HostCall.resolved trace <+: (disk :: disks).filterMap (diskUri crate) := by
    rw [hmore]
    exact List.cons_prefix_cons.mpr ⟨rfl, h.begins⟩
  cases result with
  | error error => exact resolving_error h.released hbegins
  | ok others =>
    refine ⟨h.released, hbegins, ?_, fun _ _ => ?_, fun _ _ => ?_⟩
    · intro disks' heq
      rw [← Except.ok.inj heq]
      refine .cons ?_ (h.transformed others rfl)
      rw [Transformed, huri]
      exact ⟨path, rfl⟩
    · rw [hmore, List.map_cons, ← h.calls others rfl]
      rfl
    · rw [hmore, ← h.resolved others rfl]
      rfl

theorem runs_transformDisks {result : Except String (List DiskConfig)}
    (h : Program.Runs (transformer.transformDisks crate disks) trace result) :
    Resolving crate disks trace result := by
  induction disks generalizing trace result with
  | nil =>
    obtain ⟨rfl, rfl⟩ := Program.runs_done.mp h
    exact resolving_nil
  | cons disk disks ih =>
    obtain ⟨error, rfl, hfirst⟩ | ⟨before, first, after, rfl, hfirst, hrest⟩ :=
      Program.runs_andThen.mp h
    · -- the first disk is refused
      obtain ⟨_, _, hresult⟩ | ⟨uri, _, ⟨_, _, hresult⟩ | ⟨_, rfl, _⟩⟩ := runs_transformDisk hfirst
      · simp at hresult
      · simp at hresult
      · exact resolving_error rfl List.nil_prefix
    · obtain ⟨others, hothers, rfl⟩ := Program.runs_andThen_done.mp hrest
      obtain ⟨hnone, rfl, hresult⟩ | ⟨uri, huri, ⟨path, rfl, hresult⟩ | ⟨_, _, hresult⟩⟩ :=
        runs_transformDisk hfirst
      · rw [Except.ok.inj hresult]
        exact (ih hothers).cons_none hnone
      · rw [Except.ok.inj hresult]
        exact (ih hothers).cons_some huri path
      · simp at hresult

/-- What a release of disks asks for. -/
theorem runs_releaseDisks (h : Program.Runs (transformer.releaseDisks crate disks) trace ()) :
    calls trace = (disks.filterMap (releaseUri crate)).map .release ∧
      released trace = disks.filterMap (releaseUri crate) ∧ resolved trace = [] := by
  induction disks generalizing trace with
  | nil =>
    obtain ⟨rfl, _⟩ := Program.runs_done.mp h
    exact ⟨rfl, rfl, rfl⟩
  | cons disk disks ih =>
    unfold releaseDisks at h
    cases hcandidate : transformer.releaseCandidate crate disk with
    | none =>
      rw [hcandidate] at h
      rw [List.filterMap_cons_none (by rw [releaseUri, hcandidate]; rfl)]
      exact ih h
    | some found =>
      obtain ⟨uri, driver⟩ := found
      obtain ⟨text, _, htext⟩ := List.exists_of_findSome?_eq_some hcandidate
      obtain ⟨_, scheme, rfl⟩ := lookup_backend htext
      rw [hcandidate] at h
      obtain ⟨before, answer, after, rfl, hcall, hrest⟩ := Program.runs_bind.mp h
      rw [List.filterMap_cons_some (by rw [releaseUri, hcandidate]; rfl), Program.runs_ask.mp hcall]
      obtain ⟨hcalls, hreleased, hresolved⟩ := ih hrest
      refine ⟨?_, ?_, ?_⟩
      · rw [calls_append, hcalls]
        rfl
      · rw [released_append, hreleased]
        rfl
      · rw [resolved_append, hresolved]
        rfl

/-- The path of an untransformed disk is looked at first. -/
theorem releaseUri_of_diskUri {uri : Url} (h : diskUri crate disk = some uri) :
    releaseUri crate disk = some uri := by
  obtain ⟨found, hfound, rfl⟩ := Option.map_eq_some_iff.mp h
  obtain ⟨text, htext, hlookup⟩ := Option.bind_eq_some_iff.mp hfound
  simp [releaseUri, releaseCandidate, htext, hlookup]

/-- The device path of a transformed disk is no URI, so its id is used. -/
theorem releaseUri_transformed (lawful : crate.Lawful) {uri : Url}
    (huri : diskUri crate disk = some uri) (h : Transformed crate disk disk')
    (habsolute : disk'.path.all Text.isAbsolute = true) :
    ∃ uri', releaseUri crate disk' = some uri' ∧ uri'.withoutQuery = uri.withoutQuery := by
  rw [Transformed, huri] at h
  obtain ⟨path, rfl⟩ := h
  have hpath : transformer.lookup crate path = none := by
    rw [lookup, lawful.parse_absolute path habsolute]
    rfl
  have hsame := lawful.appendPair_query uri "id" (disk.id.getD "<unknown>")
  have hid : transformer.lookup crate (resolvedId crate uri disk) =
      (transformer.findBackend (crate.appendPair uri "id" (disk.id.getD "<unknown>"))).map
        fun driver => (crate.appendPair uri "id" (disk.id.getD "<unknown>"), driver) := by
    obtain ⟨found, hfound, rfl⟩ := Option.map_eq_some_iff.mp huri
    obtain ⟨text, _, hlookup⟩ := Option.bind_eq_some_iff.mp hfound
    have hmade := UrlCrate.Made.appended found.1 "id" (disk.id.getD "<unknown>")
      (.parsed text found.1 (lookup_backend hlookup).1)
    rw [lookup, resolvedId, lawful.parse_asStr _ hmade]
    rfl
  have hbackend : ∃ driver, transformer.findBackend
      (crate.appendPair uri "id" (disk.id.getD "<unknown>")) = some driver := by
    obtain ⟨found, hfound, rfl⟩ := Option.map_eq_some_iff.mp huri
    obtain ⟨text, _, hlookup⟩ := Option.bind_eq_some_iff.mp hfound
    obtain ⟨uri, _, hmap⟩ := Option.bind_eq_some_iff.mp hlookup
    obtain ⟨driver, hdriver, rfl⟩ := Option.map_eq_some_iff.mp hmap
    refine ⟨driver, ?_⟩
    rw [← hdriver, findBackend, findBackend, Url.scheme_of_withoutQuery hsame]
  obtain ⟨driver, hdriver⟩ := hbackend
  refine ⟨_, ?_, hsame⟩
  simp [releaseUri, releaseCandidate, hpath, hid, hdriver]

/-- The storage transform of a whole configuration. -/
theorem runs_transform {result : Except String VmConfig}
    (h : Program.Runs (transformer.transform crate config) trace result) :
    Resolving crate (config.disks.getD []) trace (result.map fun config' => config'.disks.getD []) := by
  unfold transform at h
  cases hdisks : config.disks with
  | none =>
    rw [hdisks] at h
    obtain ⟨rfl, rfl⟩ := Program.runs_done.mp h
    simp only [Except.map, hdisks]
    exact resolving_nil
  | some disks =>
    rw [hdisks] at h
    obtain ⟨inner, hrun, rfl⟩ := Program.runs_andThen_done.mp h
    have hresolving := runs_transformDisks hrun
    cases inner with
    | error error => exact hresolving
    | ok disks' => exact hresolving

end StorageDriverTransformer

/-! The transforms after the storage transform call nothing and leave the disks. -/

theorem NetworkTransform.rewriteAll_disks {vmid : String} {config config' : VmConfig}
    (h : NetworkTransform.rewriteAll vmid config = .ok config') : config'.disks = config.disks := by
  obtain ⟨_, rfl⟩ | ⟨_, _, _, _, rfl⟩ := NetworkTransform.rewriteAll_cases h
  · rfl
  · rfl

theorem PathVerify.absolute_of_checkPath {path : Option String} {message : String}
    (h : PathVerify.checkPath path message = .ok ()) : path.all Text.isAbsolute = true := by
  unfold PathVerify.checkPath at h
  split at h
  · assumption
  · simp at h

theorem PathVerify.absolute_of_checkDisks {disks : List DiskConfig}
    (h : PathVerify.checkDisks disks = .ok ()) :
    ∀ disk ∈ disks, disk.path.all Text.isAbsolute = true := by
  induction disks with
  | nil => simp
  | cons disk disks ih =>
    obtain ⟨_, hdisk, hrest⟩ := Fallible.bind_eq_ok.mp h
    intro other hother
    cases List.mem_cons.mp hother with
    | inl heq => exact heq ▸ PathVerify.absolute_of_checkPath hdisk
    | inr hmem => exact ih hrest other hmem

theorem PathVerify.absolute_of_verify {config : VmConfig} (h : PathVerify.verify config = .ok ()) :
    ∀ disk ∈ config.disks.getD [], disk.path.all Text.isAbsolute = true := by
  obtain ⟨_, _, h⟩ := Fallible.bind_eq_ok.mp h
  obtain ⟨_, _, h⟩ := Fallible.bind_eq_ok.mp h
  obtain ⟨_, _, h⟩ := Fallible.bind_eq_ok.mp h
  exact PathVerify.absolute_of_checkDisks h

namespace TransformChain

open HostCall StorageDriverTransformer

variable {crate : UrlCrate} {runtimeRoot vmid : String} {config : VmConfig} {trace : Trace}

/-- The default chain over the calls of the host. -/
abbrev ofHost (crate : UrlCrate) (runtimeRoot : String) : TransformChain HostCall HostCall.Answer :=
  default crate runtimeRoot transformer.backends

theorem runs_afterStorage {result : Except String VmConfig}
    (h : Program.Runs (TransformChain.transform vmid
      [ConsoleTransform runtimeRoot, NetworkTransform, PathVerify] config) trace result) :
    trace = [] ∧ ∀ config', result = .ok config' → config'.disks = config.disks ∧
      ∀ disk ∈ config'.disks.getD [], disk.path.all Text.isAbsolute = true := by
  change Program.Runs ((Program.done (NetworkTransform.rewriteAll vmid _)).andThen
    fun rewritten => (Program.done ((PathVerify.verify rewritten).map fun _ => rewritten)).andThen
      fun verified => .done (.ok verified)) trace result at h
  obtain ⟨error, rfl, hrun⟩ | ⟨before, rewritten, after, rfl, hrun, hrest⟩ :=
    Program.runs_andThen.mp h
  · exact ⟨(Program.runs_done.mp hrun).1, by simp⟩
  · obtain ⟨rfl, hrewritten⟩ := Program.runs_done.mp hrun
    have hdisks := NetworkTransform.rewriteAll_disks hrewritten
    obtain ⟨error, rfl, hverify⟩ | ⟨before, verified, after, rfl, hverify, hdone⟩ :=
      Program.runs_andThen.mp hrest
    · exact ⟨(Program.runs_done.mp hverify).1, by simp⟩
    · obtain ⟨rfl, hverified⟩ := Program.runs_done.mp hverify
      obtain ⟨rfl, rfl⟩ := Program.runs_done.mp hdone
      refine ⟨rfl, ?_⟩
      intro config' heq
      cases hresult : PathVerify.verify rewritten with
      | error error => simp [hresult, Except.map] at hverified
      | ok _ =>
        rw [hresult] at hverified
        rw [← Except.ok.inj heq, ← Except.ok.inj hverified]
        exact ⟨hdisks, PathVerify.absolute_of_verify hresult⟩

/-- What is called is what the storage transform calls; what comes out of a
success has absolute paths. -/
theorem runs_ofHost {result : Except String VmConfig}
    (h : Program.Runs ((ofHost crate runtimeRoot).transform vmid config) trace result) :
    Resolving crate (config.disks.getD []) trace (result.map fun config' => config'.disks.getD []) ∧
      ∀ config', result = .ok config' →
        ∀ disk ∈ config'.disks.getD [], disk.path.all Text.isAbsolute = true := by
  obtain ⟨error, rfl, hrun⟩ | ⟨before, stored, after, rfl, hrun, hrest⟩ := Program.runs_andThen.mp h
  · exact ⟨runs_transform hrun, by simp⟩
  · obtain ⟨rfl, hlast⟩ := runs_afterStorage hrest
    rw [List.append_nil]
    have hresolving := runs_transform hrun
    cases result with
    | error error => exact ⟨resolving_error hresolving.released hresolving.begins, by simp⟩
    | ok config' =>
      obtain ⟨hdisks, habsolute⟩ := hlast config' rfl
      refine ⟨?_, fun _ heq => Except.ok.inj heq ▸ habsolute⟩
      rw [Except.map, hdisks]
      exact hresolving

end TransformChain

end Odorobo
