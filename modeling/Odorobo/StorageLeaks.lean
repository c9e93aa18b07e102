import Odorobo.StorageRelease
import Odorobo.VmInstance

/-! Storage that an instance resolved and did not give back. Nothing is released
while an instance is made, so a spawn that fails keeps what it resolved; a destroy
releases the disks of the kept configuration if it comes to its end. -/

namespace Odorobo.VMInstance

open HostCall StorageDriverTransformer

variable {crate : UrlCrate} {runtimeRoot : String}

/-- Every URI that was resolved has been passed to a release. -/
def NoLeak (trace : Trace) : Prop :=
  ∀ uri ∈ resolved trace, ∃ uri' ∈ released trace, uri'.withoutQuery = uri.withoutQuery

/-- The instance would release the URI. -/
def Keeps (crate : UrlCrate) (vm : VMInstance) (uri : Url) : Prop :=
  ∃ disk ∈ (vm.vmConfig.getD .default).disks.getD [], ∃ uri',
    releaseUri crate disk = some uri' ∧ uri'.withoutQuery = uri.withoutQuery

/-- A failed call after which a destroy returns at once. -/
def stops : (call : HostCall) × call.Answer → Bool
  | ⟨.hook .beforeStop, .error _⟩ => true
  | ⟨.shutdownVm, .error _⟩ => true
  | ⟨.hook .afterStop, .error _⟩ => true
  | _ => false

def stopsEarly (trace : Trace) : Bool := trace.any stops

/-! Programs that call no storage. -/

def Quiet {α : Type} (p : Host α) : Prop :=
  ∀ trace a, Program.Runs p trace a → resolved trace = [] ∧ released trace = []

theorem Quiet.first {α : Type} {p : Host α} (hp : Quiet p) {trace : Trace} {a : α}
    (h : Program.Runs p trace a) (rest : Trace) :
    resolved (trace ++ rest) = resolved rest ∧ released (trace ++ rest) = released rest := by
  rw [resolved_append, released_append, (hp trace a h).1, (hp trace a h).2]
  exact ⟨rfl, rfl⟩

theorem Quiet.last {α : Type} {p : Host α} (hp : Quiet p) {trace : Trace} {a : α}
    (h : Program.Runs p trace a) (rest : Trace) :
    resolved (rest ++ trace) = resolved rest ∧ released (rest ++ trace) = released rest := by
  rw [resolved_append, released_append, (hp trace a h).1, (hp trace a h).2]
  exact ⟨List.append_nil _, List.append_nil _⟩

theorem quiet_done {α : Type} (a : α) : Quiet (.done a : Host α) := by
  intro trace b h
  rw [(Program.runs_done.mp h).1]
  exact ⟨rfl, rfl⟩

theorem quiet_bind {α β : Type} {p : Host α} {f : α → Host β} (hp : Quiet p)
    (hf : ∀ a, Quiet (f a)) : Quiet (p.bind f) := by
  intro trace b h
  obtain ⟨before, a, after, rfl, hbefore, hafter⟩ := Program.runs_bind.mp h
  rw [(hp.first hbefore after).1, (hp.first hbefore after).2]
  exact hf a after b hafter

theorem quiet_andThen {α β : Type} {p : Host (Except String α)} {f : α → Host (Except String β)}
    (hp : Quiet p) (hf : ∀ a, Quiet (f a)) : Quiet (p.andThen f) := by
  apply quiet_bind hp
  intro result
  cases result with
  | error error => exact quiet_done _
  | ok a => exact hf a

theorem quiet_wrapErr {α : Type} {message : String} {p : Host (Except String α)} (hp : Quiet p) :
    Quiet (p.wrapErr message) :=
  quiet_bind hp fun _ => quiet_done _

/-- Neither a resolve nor a release. -/
def isStorage : HostCall → Bool
  | .resolve _ | .release _ => true
  | _ => false

theorem quiet_ask {call : HostCall} (h : isStorage call = false) : Quiet (ask call) := by
  intro trace answer hrun
  rw [Program.runs_ask.mp hrun]
  cases call <;> simp_all [isStorage, resolved, released, resolvedUri, releasedUri]

theorem quiet_info (vm : VMInstance) : Quiet vm.info := quiet_wrapErr (quiet_ask rfl)

theorem quiet_boot (vm : VMInstance) : Quiet vm.boot := by
  refine quiet_andThen vm.quiet_info fun _ => ?_
  refine quiet_andThen (quiet_ask rfl) fun _ => ?_
  refine quiet_andThen (quiet_wrapErr (quiet_ask rfl)) fun _ => ?_
  exact quiet_andThen vm.quiet_info fun _ => quiet_ask rfl

theorem quiet_createVm (vm : VMInstance) (config : VmConfig) (boot : Bool) :
    Quiet (vm.createVm config boot) := by
  refine quiet_andThen (quiet_wrapErr (quiet_ask rfl)) fun _ => ?_
  split
  · exact quiet_wrapErr vm.quiet_boot
  · exact quiet_done _

theorem quiet_stopChild (vm : VMInstance) : Quiet vm.stopChild := by
  unfold stopChild
  split
  · exact quiet_bind (quiet_ask rfl) fun _ => quiet_done _
  · exact quiet_done _

theorem quiet_stopVm (vm : VMInstance) : Quiet vm.stopVm := by
  refine quiet_bind vm.quiet_info fun answer => ?_
  cases answer with
  | error error => exact quiet_done _
  | ok state =>
    refine quiet_andThen (quiet_ask rfl) fun _ => ?_
    split
    · exact quiet_wrapErr (quiet_ask rfl)
    · exact quiet_done _

/-! What is resolved for a configuration is kept with it. -/

theorem runs_applyTransforms {vm : VMInstance} {config : VmConfig} {trace : Trace}
    {result : Except String VmConfig}
    (h : Program.Runs (vm.applyTransforms (TransformChain.ofHost crate runtimeRoot) config) trace
      result) :
    released trace = [] ∧
      (∀ uri ∈ resolved trace, Keeps crate { vm with vmConfig := some config } uri) ∧
      ∀ config', crate.Lawful → result = .ok config' →
        ∀ uri ∈ resolved trace, Keeps crate { vm with vmConfig := some config' } uri := by
  obtain ⟨inner, hrun, hinner⟩ := Program.runs_wrapErr.mp h
  obtain ⟨hresolving, habsolute⟩ := TransformChain.runs_ofHost hrun
  refine ⟨hresolving.released, ?_, ?_⟩
  · intro uri huri
    obtain ⟨disk, hdisk, hdiskUri⟩ := List.mem_filterMap.mp (hresolving.begins.subset huri)
    exact ⟨disk, hdisk, uri, releaseUri_of_diskUri hdiskUri, rfl⟩
  · intro config' lawful hresult uri huri
    obtain rfl : inner = .ok config' := by
      cases inner with
      | error error => simp [hinner, Except.mapError] at hresult
      | ok inner => simpa [hinner, Except.mapError] using hresult
    rw [hresolving.resolved _ rfl] at huri
    obtain ⟨disk, hdisk, hdiskUri⟩ := List.mem_filterMap.mp huri
    obtain ⟨disk', hdisk', hpair⟩ := Fallible.exists_of_forall₂ (hresolving.transformed _ rfl) disk hdisk
    have habsolute' := habsolute config' rfl disk' hdisk'
    exact ⟨disk', hdisk', releaseUri_transformed lawful hdiskUri hpair habsolute'⟩

theorem runs_createConfig (lawful : crate.Lawful) {vm vm' : VMInstance} {config : VmConfig}
    {boot : Bool} {trace : Trace} {result : Except String Unit}
    (h : Program.Runs (vm.createConfig (TransformChain.ofHost crate runtimeRoot) config boot) trace
      (result, vm')) :
    released trace = [] ∧ (result = .ok () → ∀ uri ∈ resolved trace, Keeps crate vm' uri) := by
  obtain ⟨before, transformed, after, rfl, htransform, hrest⟩ := Program.runs_bind.mp h
  obtain ⟨hreleased, _, hkeeps⟩ := runs_applyTransforms htransform
  cases transformed with
  | error error =>
    obtain ⟨rfl, hout⟩ := Program.runs_done.mp hrest
    rw [List.append_nil, ← (Prod.mk.inj hout).1]
    exact ⟨hreleased, by simp⟩
  | ok transformed =>
    obtain ⟨created, hcreate, hout⟩ := Program.runs_bind_done.mp hrest
    obtain ⟨hresolves, hreleases⟩ := (quiet_createVm _ _ _).last hcreate before
    rw [← (Prod.mk.inj hout).2, hresolves, hreleases]
    exact ⟨hreleased, fun _ => hkeeps transformed lawful rfl⟩

theorem runs_awaitSocket (lawful : crate.Lawful) {vm : VMInstance} {config : Option VmConfig}
    {boot : Bool} {attempts : Nat} {trace : Trace} {result : Except String VMInstance}
    (h : Program.Runs (awaitSocket (TransformChain.ofHost crate runtimeRoot) vm config boot attempts)
      trace result) :
    released trace = [] ∧
      ∀ vm', result = .ok vm' → ∀ uri ∈ resolved trace, Keeps crate vm' uri := by
  induction attempts generalizing trace with
  | zero =>
    obtain ⟨_, hstop, rfl⟩ := Program.runs_bind_done.mp h
    exact ⟨(quiet_stopChild vm _ _ hstop).2, by simp⟩
  | succ attempts ih =>
    obtain ⟨reached, rest, rfl, hrest⟩ := Program.runs_call.mp h
    change released rest = [] ∧ ∀ vm', result = .ok vm' → ∀ uri ∈ resolved rest, Keeps crate vm' uri
    cases reached with
    | false => exact ih hrest
    | true =>
      cases config with
      | none =>
        obtain ⟨rfl, _⟩ := Program.runs_done.mp hrest
        exact ⟨rfl, fun _ _ uri huri => absurd huri List.not_mem_nil⟩
      | some config =>
        obtain ⟨before, ⟨created, vm'⟩, after, rfl, hcreate, hdone⟩ := Program.runs_bind.mp hrest
        obtain ⟨hreleased, hkeeps⟩ := runs_createConfig lawful hcreate
        cases created with
        | error error =>
          obtain ⟨_, hstop, rfl⟩ := Program.runs_bind_done.mp hdone
          rw [((quiet_stopChild _).last hstop before).2]
          exact ⟨hreleased, by simp⟩
        | ok _ =>
          obtain ⟨rfl, hout⟩ := Program.runs_done.mp hdone
          rw [List.append_nil]
          refine ⟨hreleased, ?_⟩
          intro vm'' heq
          rw [← hout] at heq
          exact Except.ok.inj heq ▸ hkeeps rfl

theorem runs_spawn (lawful : crate.Lawful) {id : String} {config : Option VmConfig} {boot : Bool}
    {trace : Trace} {result : Except String VMInstance}
    (h : Program.Runs (spawn (TransformChain.ofHost crate runtimeRoot) id config boot) trace result) :
    released trace = [] ∧
      ∀ vm, result = .ok vm → ∀ uri ∈ resolved trace, Keeps crate vm uri := by
  obtain ⟨error, rfl, hdir⟩ | ⟨before, _, rest, rfl, hdir, hrest⟩ := Program.runs_andThen.mp h
  · exact ⟨(quiet_ask rfl _ _ hdir).2, by simp⟩
  · obtain ⟨hresolves, hreleases⟩ := (quiet_ask rfl).first hdir rest
    rw [hresolves, hreleases]
    obtain ⟨error, rfl, hvmm⟩ | ⟨before, _, rest, rfl, hvmm, hrest⟩ := Program.runs_andThen.mp hrest
    · exact ⟨(quiet_ask rfl _ _ hvmm).2, by simp⟩
    · obtain ⟨hresolves, hreleases⟩ := (quiet_ask rfl).first hvmm rest
      rw [hresolves, hreleases]
      exact runs_awaitSocket lawful hrest

theorem runs_prepConfig {vm vm' : VMInstance} {config : VmConfig} {trace : Trace}
    {result : Except String Unit}
    (h : Program.Runs (vm.prepConfig (TransformChain.ofHost crate runtimeRoot) config) trace
      (result, vm')) :
    released trace = [] ∧ ∀ uri ∈ resolved trace, Keeps crate vm' uri := by
  obtain ⟨prepared, hprepare, hout⟩ := Program.runs_bind_done.mp h
  rw [← (Prod.mk.inj hout).2]
  obtain ⟨error, rfl, htransform⟩ | ⟨first, _, last, rfl, htransform, hhook⟩ :=
    Program.runs_andThen.mp hprepare
  · obtain ⟨hreleased, hkeeps, _⟩ := runs_applyTransforms htransform
    exact ⟨hreleased, hkeeps⟩
  · obtain ⟨hreleased, hkeeps, _⟩ := runs_applyTransforms htransform
    obtain ⟨hresolves, hreleases⟩ := (quiet_ask rfl).last hhook first
    rw [hresolves, hreleases]
    exact ⟨hreleased, hkeeps⟩

/-! A destroy comes to its end, or stops at a call that failed. -/

@[simp] theorem stopsEarly_append (before after : Trace) :
    stopsEarly (before ++ after) = (stopsEarly before || stopsEarly after) := List.any_append

theorem stopsEarly_releases {uris : List Url} {trace : Trace}
    (h : calls trace = uris.map .release) : stopsEarly trace = false := by
  induction trace generalizing uris with
  | nil => rfl
  | cons entry trace ih =>
    cases uris with
    | nil => simp [calls] at h
    | cons uri uris =>
      obtain ⟨call, answer⟩ := entry
      obtain ⟨rfl, hrest⟩ : call = .release uri ∧ calls trace = uris.map .release := by
        simpa [calls] using h
      exact ih hrest

theorem runs_stopVm {vm : VMInstance} {trace : Trace} {result : Except String Unit}
    (h : Program.Runs vm.stopVm trace result) : result.isOk = !stopsEarly trace := by
  obtain ⟨before, answer, after, rfl, hinfo, hrest⟩ := Program.runs_bind.mp h
  obtain ⟨inner, hask, hanswer⟩ := Program.runs_wrapErr.mp hinfo
  rw [Program.runs_ask.mp hask, stopsEarly_append]
  change result.isOk = !(false || stopsEarly after)
  cases answer with
  | error error =>
    obtain ⟨rfl, rfl⟩ := Program.runs_done.mp hrest
    rfl
  | ok state =>
    obtain ⟨error, rfl, hhook⟩ | ⟨first, _, last, rfl, hhook, hlast⟩ := Program.runs_andThen.mp hrest
    · rw [Program.runs_ask.mp hhook]
      rfl
    · rw [Program.runs_ask.mp hhook, stopsEarly_append]
      change result.isOk = !(false || (false || stopsEarly last))
      split at hlast
      · obtain ⟨stopped, hshutdown, rfl⟩ := Program.runs_wrapErr.mp hlast
        rw [Program.runs_ask.mp hshutdown]
        cases stopped <;> rfl
      · obtain ⟨rfl, rfl⟩ := Program.runs_done.mp hlast
        rfl

theorem runs_stopChild {vm vm' : VMInstance} {trace : Trace}
    (h : Program.Runs vm.stopChild trace vm') :
    stopsEarly trace = false ∧ vm'.vmConfig = vm.vmConfig := by
  unfold stopChild at h
  split at h
  · obtain ⟨_, hkill, rfl⟩ := Program.runs_bind_done.mp h
    rw [Program.runs_ask.mp hkill]
    exact ⟨rfl, rfl⟩
  · obtain ⟨rfl, rfl⟩ := Program.runs_done.mp h
    exact ⟨rfl, rfl⟩

theorem runs_teardown {id : String} {config : VmConfig} {trace : Trace} {result : Except String Unit}
    (h : Program.Runs (TransformChain.teardown (TransformChain.ofHost crate runtimeRoot) id config)
      trace result) :
    stopsEarly trace = false ∧ resolved trace = [] ∧
      released trace = (config.disks.getD []).filterMap (releaseUri crate) := by
  -- the other transforms have nothing to tear down
  change Program.Runs (((transformer.releaseConfig crate config).bind fun _ => .done (.ok ())).andThen
    fun _ => .done (.ok ())) trace result at h
  obtain ⟨_, hrun, _⟩ := Program.runs_andThen_done.mp h
  obtain ⟨_, hrelease, _⟩ := Program.runs_bind_done.mp hrun
  obtain ⟨hcalls, hreleased, hresolved⟩ := runs_releaseDisks hrelease
  exact ⟨stopsEarly_releases hcalls, hresolved, hreleased⟩

/-- The disks of the kept configuration are released, whatever comes of it. -/
theorem runs_purgeInstanceData {vm : VMInstance} {trace : Trace}
    {out : Except String Unit × VMInstance}
    (h : Program.Runs (vm.purgeInstanceData (TransformChain.ofHost crate runtimeRoot)) trace out) :
    stopsEarly trace = false ∧ resolved trace = [] ∧
      released trace = ((vm.vmConfig.getD .default).disks.getD []).filterMap (releaseUri crate) := by
  obtain ⟨_, hpurge, _⟩ := Program.runs_bind_done.mp h
  obtain ⟨error, _, hteardown⟩ | ⟨first, _, last, rfl, hteardown, hremove⟩ :=
    Program.runs_andThen.mp hpurge
  · exact runs_teardown hteardown
  · obtain ⟨hstops, hresolved, hreleased⟩ := runs_teardown hteardown
    obtain ⟨_, hask, _⟩ := Program.runs_wrapErr.mp hremove
    rw [Program.runs_ask.mp hask, stopsEarly_append, resolved_append, released_append, hstops,
      hresolved, hreleased]
    exact ⟨rfl, rfl, List.append_nil _⟩

theorem runs_destroy {vm : VMInstance} {trace : Trace} {out : Except String Unit × VMInstance}
    (h : Program.Runs (vm.destroy (TransformChain.ofHost crate runtimeRoot)) trace out) :
    resolved trace = [] ∧ released trace =
      if stopsEarly trace then []
      else ((vm.vmConfig.getD .default).disks.getD []).filterMap (releaseUri crate) := by
  obtain ⟨before, stopped, after, rfl, hstop, hrest⟩ := Program.runs_bind.mp h
  have hstops := runs_stopVm hstop
  obtain ⟨hresolved, hreleased⟩ := vm.quiet_stopVm.first hstop after
  rw [stopsEarly_append, hresolved, hreleased]
  cases stopped with
  | error error =>
    obtain ⟨rfl, _⟩ := Program.runs_done.mp hrest
    rw [show stopsEarly before = true by simpa [Except.isOk, Except.toBool] using hstops.symm]
    exact ⟨rfl, rfl⟩
  | ok _ =>
    rw [show stopsEarly before = false by simpa [Except.isOk, Except.toBool] using hstops.symm,
      Bool.false_or]
    obtain ⟨first, _, rest, rfl, hvmm, hrest⟩ := Program.runs_bind.mp hrest
    rw [Program.runs_ask.mp hvmm]
    change resolved rest = [] ∧ released rest = if stopsEarly rest then [] else _
    obtain ⟨first, vm', rest, rfl, hchild, hrest⟩ := Program.runs_bind.mp hrest
    obtain ⟨hchildStops, hconfig⟩ := runs_stopChild hchild
    obtain ⟨hresolved, hreleased⟩ := vm.quiet_stopChild.first hchild rest
    rw [stopsEarly_append, hchildStops, hresolved, hreleased, Bool.false_or, ← hconfig]
    obtain ⟨first, hooked, rest, rfl, hhook, hrest⟩ := Program.runs_bind.mp hrest
    rw [Program.runs_ask.mp hhook]
    cases hooked with
    | error error =>
      obtain ⟨rfl, _⟩ := Program.runs_done.mp hrest
      exact ⟨rfl, rfl⟩
    | ok _ =>
      change resolved rest = [] ∧ released rest = if stopsEarly rest then [] else _
      obtain ⟨_, hpurge, _⟩ := Program.runs_bind_done.mp hrest
      obtain ⟨hpurgeStops, hpurgeResolved, hpurgeReleased⟩ := runs_purgeInstanceData hpurge
      rw [hpurgeStops]
      exact ⟨hpurgeResolved, hpurgeReleased⟩

/-- How an instance was made: what it called for configurations that were replaced
since, and what it called for the one it keeps. -/
inductive Made (chain : TransformChain HostCall HostCall.Answer) : Trace → Trace → VMInstance → Prop where
  | spawned (id : String) (config : Option VmConfig) (boot : Bool) (trace : Trace) (vm : VMInstance)
      (h : Program.Runs (spawn chain id config boot) trace (.ok vm)) : Made chain [] trace vm
  | prepared (replaced current trace : Trace) (vm vm' : VMInstance) (config : VmConfig)
      (result : Except String Unit) (made : Made chain replaced current vm)
      (h : Program.Runs (vm.prepConfig chain config) trace (result, vm')) :
      Made chain (replaced ++ current) trace vm'

theorem Made.calls_spec (lawful : crate.Lawful) {replaced current : Trace} {vm : VMInstance}
    (h : Made (TransformChain.ofHost crate runtimeRoot) replaced current vm) :
    released replaced = [] ∧ released current = [] ∧
      ∀ uri ∈ resolved current, Keeps crate vm uri := by
  induction h with
  | spawned id config boot trace vm h =>
    obtain ⟨hreleased, hkeeps⟩ := runs_spawn lawful h
    exact ⟨rfl, hreleased, hkeeps vm rfl⟩
  | prepared replaced current trace vm vm' config result _ h ih =>
    obtain ⟨hreleased, hkeeps⟩ := runs_prepConfig h
    obtain ⟨hreplaced, hcurrent, _⟩ := ih
    refine ⟨?_, hreleased, hkeeps⟩
    rw [released_append, hreplaced, hcurrent]
    rfl

theorem noLeak_iff {trace : Trace} (h : released trace = []) :
    NoLeak trace ↔ resolved trace = [] := by
  unfold NoLeak
  rw [h, List.eq_nil_iff_forall_not_mem]
  simp

theorem mem_releases {vm : VMInstance} {uri : Url} :
    (∃ uri' ∈ ((vm.vmConfig.getD .default).disks.getD []).filterMap (releaseUri crate),
      uri'.withoutQuery = uri.withoutQuery) ↔ Keeps crate vm uri := by
  simp only [List.mem_filterMap, Keeps]
  constructor
  · rintro ⟨uri', ⟨disk, hdisk, huri'⟩, hsame⟩
    exact ⟨disk, hdisk, uri', huri', hsame⟩
  · rintro ⟨disk, hdisk, uri', huri', hsame⟩
    exact ⟨uri', ⟨disk, hdisk, huri'⟩, hsame⟩

/-- A spawn that fails leaks unless nothing was resolved. A destroy leaks unless
nothing was resolved or it comes to its end, with a configuration that also has what
was resolved for the ones it replaced. -/
theorem storage_never_leaked_iff (crate : UrlCrate) (lawful : crate.Lawful) (runtimeRoot : String) :
    (∀ id config boot trace error,
      Program.Runs (spawn (TransformChain.ofHost crate runtimeRoot) id config boot) trace
        (.error error) →
      (NoLeak trace ↔ resolved trace = [])) ∧
    ∀ replaced current vm trace out,
      Made (TransformChain.ofHost crate runtimeRoot) replaced current vm →
      Program.Runs (vm.destroy (TransformChain.ofHost crate runtimeRoot)) trace out →
      (NoLeak (replaced ++ current ++ trace) ↔
        (resolved (replaced ++ current) = [] ∨ stopsEarly trace = false) ∧
          ∀ uri ∈ resolved replaced, Keeps crate vm uri) := by
  constructor
  · intro id config boot trace error hrun
    rw [noLeak_iff (runs_spawn lawful hrun).1]
  · intro replaced current vm trace out hmade hrun
    obtain ⟨hreplaced, hcurrent, hkeeps⟩ := hmade.calls_spec lawful
    obtain ⟨hresolved, hreleased⟩ := runs_destroy hrun
    have hall : resolved (replaced ++ current ++ trace) = resolved (replaced ++ current) := by
      rw [resolved_append, hresolved, List.append_nil]
    cases hstops : stopsEarly trace with
    | true =>
      rw [hstops, if_pos rfl] at hreleased
      rw [noLeak_iff (by simp [hreplaced, hcurrent, hreleased]), hall]
      constructor
      · intro hnone
        rw [resolved_append, List.append_eq_nil_iff] at hnone
        exact ⟨Or.inl (by simp [hnone]), by simp [hnone.1]⟩
      · rintro ⟨hnone | hends, _⟩
        · exact hnone
        · simp at hends
    | false =>
      rw [hstops, if_neg (by simp)] at hreleased
      have hleak : NoLeak (replaced ++ current ++ trace) ↔
          ∀ uri ∈ resolved (replaced ++ current), Keeps crate vm uri := by
        unfold NoLeak
        rw [hall, released_append, released_append, hreplaced, hcurrent, hreleased]
        simp only [List.nil_append, mem_releases]
      rw [hleak, resolved_append]
      simp only [List.mem_append, or_true, true_and]
      constructor
      · exact fun h uri huri => h uri (Or.inl huri)
      · rintro h uri (huri | huri)
        · exact h uri huri
        · exact hkeeps uri huri

section Samples

abbrev sampleChain : TransformChain HostCall HostCall.Answer :=
  TransformChain.ofHost PlainUrl.crate "/run/odorobo"

/-- Everything succeeds but the creation of the VM. -/
def refusesCreate : (call : HostCall) → call.Answer
  | .createVm _ => .error "invalid configuration"
  | call => willing call

/-- The instance of a VM with two disks, spawned and booted. -/
def spawnRun (answer : (call : HostCall) → call.Answer) : Trace × Except String VMInstance :=
  (spawn sampleChain "5" (some storageConfig) true).run answer

end Samples

/-- A VM that is spawned and destroyed without a failure. -/
theorem storage_never_leaked_iff_destroyed :
    ∃ vm, (spawnRun willing).2 = .ok vm ∧ (resolved (spawnRun willing).1).length = 2 ∧
      NoLeak ((spawnRun willing).1 ++ ((vm.destroy sampleChain).run willing).1) := by
  have hspawn := Program.runs_run willing (spawn sampleChain "5" (some storageConfig) true)
  cases hresult : (spawnRun willing).2 with
  | error error =>
    have hok : (spawnRun willing).2.isOk = true := by decide +kernel
    simp [hresult, Except.isOk, Except.toBool] at hok
  | ok vm =>
    refine ⟨vm, rfl, by decide +kernel, ?_⟩
    rw [show (Program.run willing _).2 = Except.ok vm from hresult] at hspawn
    have hends : (spawnRun willing).2.toOption.any
        (fun vm => stopsEarly ((vm.destroy sampleChain).run willing).1) = false := by
      decide +kernel
    rw [hresult] at hends
    have hiff := (storage_never_leaked_iff PlainUrl.crate PlainUrl.lawful "/run/odorobo").2 []
      (spawnRun willing).1 vm _ _ (.spawned _ _ _ _ _ hspawn)
      (Program.runs_run willing (vm.destroy sampleChain))
    exact hiff.mpr ⟨Or.inr hends, fun uri huri => absurd huri List.not_mem_nil⟩

/-- The VM is not created, and the two disks stay resolved. -/
theorem storage_leaked :
    ∃ trace error, Program.Runs (spawn sampleChain "5" (some storageConfig) true) trace
      (.error error) ∧ ¬ NoLeak trace := by
  have hspawn := Program.runs_run refusesCreate (spawn sampleChain "5" (some storageConfig) true)
  cases hresult : (spawnRun refusesCreate).2 with
  | ok vm =>
    have hfails : (spawnRun refusesCreate).2.isOk = false := by decide +kernel
    simp [hresult, Except.isOk, Except.toBool] at hfails
  | error error =>
    rw [show (Program.run refusesCreate _).2 = Except.error error from hresult] at hspawn
    refine ⟨_, error, hspawn, ?_⟩
    have hreleased : released (spawnRun refusesCreate).1 = [] := by decide +kernel
    have hresolved : (resolved (spawnRun refusesCreate).1).length = 2 := by decide +kernel
    intro hnone
    rw [(noLeak_iff hreleased).mp hnone] at hresolved
    simp at hresolved

end Odorobo.VMInstance
