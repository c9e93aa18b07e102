import Odorobo.StorageLeaks

/-! The life of a VMM process. A spawn that fails leaves no process behind, and a
destroy touches the storage and the runtime directory of a VM only when its VMM has
been told to go and its process has been killed. -/

namespace Odorobo.VMInstance

open HostCall StorageDriverTransformer

variable {crate : UrlCrate} {runtimeRoot : String}

/-! Which calls are made where. -/

def isResolve : HostCall → Prop
  | .resolve _ => True
  | _ => False

/-- The calls of a boot. -/
def isBoot : HostCall → Prop
  | .vmInfo | .bootVm | .hook .beforeBoot | .hook .afterBoot => True
  | _ => False

/-- The calls of the creation of a VM from a configuration. -/
def isCreation (call : HostCall) : Prop :=
  isResolve call ∨ (∃ config, call = .createVm config) ∨ isBoot call

theorem only_transformDisk (disk : DiskConfig) :
    (transformer.transformDisk crate disk).Only isResolve := by
  unfold transformDisk
  cases hlookup : disk.path.bind (transformer.lookup crate) with
  | none => trivial
  | some found =>
    obtain ⟨uri, driver⟩ := found
    obtain ⟨text, _, htext⟩ := Option.bind_eq_some_iff.mp hlookup
    obtain ⟨_, scheme, rfl⟩ := lookup_backend htext
    exact Program.only_andThen (Program.only_ask trivial) fun _ => trivial

theorem only_transformDisks (disks : List DiskConfig) :
    (transformer.transformDisks crate disks).Only isResolve := by
  induction disks with
  | nil => trivial
  | cons disk disks ih =>
    refine Program.only_andThen (only_transformDisk disk) fun _ => ?_
    exact Program.only_andThen ih fun _ => trivial

theorem only_applyTransforms (vm : VMInstance) (config : VmConfig) :
    (vm.applyTransforms (TransformChain.ofHost crate runtimeRoot) config).Only isResolve := by
  apply Program.only_wrapErr
  refine Program.only_andThen ?_ fun _ => ?_
  · change (transformer.transform crate config).Only isResolve
    unfold transform
    split
    · trivial
    · exact Program.only_andThen (only_transformDisks _) fun _ => trivial
  · -- the other transforms call nothing
    refine Program.only_andThen trivial fun _ => ?_
    exact Program.only_andThen trivial fun _ => Program.only_andThen trivial fun _ => trivial

theorem only_info (vm : VMInstance) : vm.info.Only isBoot :=
  Program.only_wrapErr (Program.only_ask trivial)

theorem only_boot (vm : VMInstance) : vm.boot.Only isBoot := by
  refine Program.only_andThen vm.only_info fun _ => ?_
  refine Program.only_andThen (Program.only_ask trivial) fun _ => ?_
  refine Program.only_andThen (Program.only_wrapErr (Program.only_ask trivial)) fun _ => ?_
  exact Program.only_andThen vm.only_info fun _ => Program.only_ask trivial

theorem only_createVm (vm : VMInstance) (config : VmConfig) (boot : Bool) :
    (vm.createVm config boot).Only isCreation := by
  refine Program.only_andThen (Program.only_wrapErr (Program.only_ask ?_)) fun _ => ?_
  · exact Or.inr (Or.inl ⟨config, rfl⟩)
  · split
    · exact Program.only_wrapErr (Program.only_mono (fun _ h => Or.inr (Or.inr h)) vm.only_boot)
    · trivial

theorem only_createConfig (vm : VMInstance) (config : VmConfig) (boot : Bool) :
    (vm.createConfig (TransformChain.ofHost crate runtimeRoot) config boot).Only isCreation := by
  refine Program.only_bind
    (Program.only_mono (fun _ h => Or.inl h) (vm.only_applyTransforms config)) fun result => ?_
  cases result with
  | error error => trivial
  | ok transformed => exact Program.only_bind (only_createVm _ _ _) fun _ => trivial

/-! The ways a spawn can go. -/

/-- Pings until the socket answers, then the creation of the VM; whatever fails, the
process is killed last. -/
inductive Spawning (crate : UrlCrate) (runtimeRoot : String) (vm : VMInstance)
    (config : Option VmConfig) (boot : Bool) : Trace → Except String VMInstance → Prop where
  | unreachable (pings : Trace) (answer : HostCall.Answer .killChild) (error : String) :
      (∀ entry ∈ pings, entry.1 = .ping) →
      Spawning crate runtimeRoot vm config boot (pings ++ [⟨.killChild, answer⟩]) (.error error)
  | bare (pings : Trace) : config = none → (∀ entry ∈ pings, entry.1 = .ping) →
      Spawning crate runtimeRoot vm config boot pings (.ok vm)
  | created (pings body : Trace) (given : VmConfig) (vm' : VMInstance) : config = some given →
      (∀ entry ∈ pings, entry.1 = .ping) →
      Program.Runs (vm.createConfig (TransformChain.ofHost crate runtimeRoot) given boot) body
        (.ok (), vm') →
      Spawning crate runtimeRoot vm config boot (pings ++ body) (.ok vm')
  | refused (pings body : Trace) (given : VmConfig) (vm' : VMInstance) (error : String)
      (answer : HostCall.Answer .killChild) : config = some given →
      (∀ entry ∈ pings, entry.1 = .ping) →
      Program.Runs (vm.createConfig (TransformChain.ofHost crate runtimeRoot) given boot) body
        (.error error, vm') →
      Spawning crate runtimeRoot vm config boot (pings ++ body ++ [⟨.killChild, answer⟩])
        (.error error)

theorem Spawning.ping {vm : VMInstance} {config : Option VmConfig} {boot : Bool} {trace : Trace}
    {result : Except String VMInstance} (h : Spawning crate runtimeRoot vm config boot trace result)
    (answer : HostCall.Answer .ping) :
    Spawning crate runtimeRoot vm config boot (⟨.ping, answer⟩ :: trace) result := by
  have hpings : ∀ pings : Trace, (∀ entry ∈ pings, entry.1 = .ping) →
      ∀ entry ∈ (⟨.ping, answer⟩ :: pings : Trace), entry.1 = .ping := by
    intro pings hall entry hentry
    cases List.mem_cons.mp hentry with
    | inl heq => exact heq ▸ rfl
    | inr hlater => exact hall entry hlater
  cases h with
  | unreachable pings last error hall => exact .unreachable (_ :: pings) last error (hpings _ hall)
  | bare pings hnone hall => exact .bare (_ :: trace) hnone (hpings _ hall)
  | created pings body given vm' hgiven hall hrun =>
    exact .created (_ :: pings) body given vm' hgiven (hpings _ hall) hrun
  | refused pings body given vm' error last hgiven hall hrun =>
    exact .refused (_ :: pings) body given vm' error last hgiven (hpings _ hall) hrun

/-- Stopping a process that is there is one call. -/
theorem runs_stopChild_here {vm vm' : VMInstance} (here : vm.childProcess = true) {trace : Trace}
    (h : Program.Runs vm.stopChild trace vm') :
    ∃ answer, trace = [⟨.killChild, answer⟩] := by
  unfold stopChild at h
  rw [if_pos here] at h
  obtain ⟨answer, hkill, _⟩ := Program.runs_bind_done.mp h
  exact ⟨answer, Program.runs_ask.mp hkill⟩

theorem runs_createConfig_kept {vm vm' : VMInstance} {config : VmConfig} {boot : Bool}
    {trace : Trace} {result : Except String Unit}
    (h : Program.Runs (vm.createConfig (TransformChain.ofHost crate runtimeRoot) config boot) trace
      (result, vm')) : vm'.childProcess = vm.childProcess ∧ vm'.id = vm.id := by
  obtain ⟨_, transformed, _, _, _, hrest⟩ := Program.runs_bind.mp h
  cases transformed with
  | error error =>
    obtain ⟨_, hout⟩ := Program.runs_done.mp hrest
    rw [← (Prod.mk.inj hout).2]
    exact ⟨rfl, rfl⟩
  | ok transformed =>
    obtain ⟨_, _, hout⟩ := Program.runs_bind_done.mp hrest
    rw [← (Prod.mk.inj hout).2]
    exact ⟨rfl, rfl⟩

theorem spawning_of_runs {vm : VMInstance} (here : vm.childProcess = true)
    {config : Option VmConfig} {boot : Bool} {attempts : Nat} {trace : Trace}
    {result : Except String VMInstance}
    (h : Program.Runs (awaitSocket (TransformChain.ofHost crate runtimeRoot) vm config boot attempts)
      trace result) : Spawning crate runtimeRoot vm config boot trace result := by
  induction attempts generalizing trace with
  | zero =>
    obtain ⟨_, hstop, rfl⟩ := Program.runs_bind_done.mp h
    obtain ⟨answer, rfl⟩ := runs_stopChild_here here hstop
    exact .unreachable [] answer _ (by simp)
  | succ attempts ih =>
    obtain ⟨reached, rest, rfl, hrest⟩ := Program.runs_call.mp h
    apply Spawning.ping
    cases reached with
    | false => exact ih hrest
    | true =>
      cases config with
      | none =>
        obtain ⟨rfl, rfl⟩ := Program.runs_done.mp hrest
        exact .bare [] rfl (by simp)
      | some given =>
        obtain ⟨body, ⟨created, vm'⟩, last, rfl, hcreate, hdone⟩ := Program.runs_bind.mp hrest
        cases created with
        | error error =>
          obtain ⟨_, hstop, rfl⟩ := Program.runs_bind_done.mp hdone
          have hhere := (runs_createConfig_kept hcreate).1.trans here
          obtain ⟨answer, rfl⟩ := runs_stopChild_here hhere hstop
          exact .refused [] body given vm' error answer rfl (by simp) hcreate
        | ok _ =>
          obtain ⟨rfl, rfl⟩ := Program.runs_done.mp hdone
          rw [List.append_nil]
          exact .created [] body given vm' rfl (by simp) hcreate

/-- A spawn stops before it has a process, or goes on with one. -/
theorem runs_spawn_cases {id : String} {config : Option VmConfig} {boot : Bool} {trace : Trace}
    {result : Except String VMInstance}
    (h : Program.Runs (spawn (TransformChain.ofHost crate runtimeRoot) id config boot) trace result) :
    (∃ error, result = .error error ∧
      ∀ entry ∈ trace, entry.1 = .createRuntimeDir ∨ ∃ error, entry = ⟨.spawnVmm, .error error⟩) ∨
    ∃ rest, trace = [⟨.createRuntimeDir, .ok ()⟩, ⟨.spawnVmm, .ok ()⟩] ++ rest ∧
      Spawning crate runtimeRoot ⟨id, true, none⟩ config boot rest result := by
  obtain ⟨error, rfl, hdir⟩ | ⟨before, _, rest, rfl, hdir, hrest⟩ := Program.runs_andThen.mp h
  · rw [Program.runs_ask.mp hdir]
    exact Or.inl ⟨error, rfl, by simp⟩
  · rw [Program.runs_ask.mp hdir]
    obtain ⟨error, rfl, hvmm⟩ | ⟨before, _, rest, rfl, hvmm, hrest⟩ := Program.runs_andThen.mp hrest
    · rw [Program.runs_ask.mp hvmm]
      refine Or.inl ⟨error, rfl, ?_⟩
      intro entry hentry
      rw [List.mem_append, List.mem_singleton, List.mem_singleton] at hentry
      obtain rfl | rfl := hentry
      · exact Or.inl rfl
      · exact Or.inr ⟨error, rfl⟩
    · rw [Program.runs_ask.mp hvmm]
      exact Or.inr ⟨rest, rfl, spawning_of_runs rfl hrest⟩

/-! No process is left over. -/

theorem not_mem_calls {P : HostCall → Prop} {trace : Trace} (h : ∀ entry ∈ trace, P entry.1)
    {call : HostCall} (hnot : ¬ P call) : call ∉ calls trace := by
  intro hmem
  obtain ⟨entry, hentry, rfl⟩ := List.mem_map.mp hmem
  exact hnot (h entry hentry)

theorem kill_last {pings body : Trace} (hpings : ∀ entry ∈ pings, entry.1 = .ping)
    (hbody : ∀ entry ∈ body, isCreation entry.1) :
    HostCall.killChild ∉ calls
      ([⟨.createRuntimeDir, .ok ()⟩, ⟨.spawnVmm, .ok ()⟩] ++ (pings ++ body)) := by
  have hnone : HostCall.killChild ∉ calls pings :=
    not_mem_calls (P := (· = .ping)) hpings (by simp)
  have hnot : HostCall.killChild ∉ calls body :=
    not_mem_calls hbody (by simp [isCreation, isResolve, isBoot])
  rw [calls_append, calls_append, List.mem_append, List.mem_append, not_or, not_or]
  exact ⟨by simp [calls], hnone, hnot⟩

theorem not_killed_early {pings : Trace} (hpings : ∀ entry ∈ pings, entry.1 = .ping) :
    HostCall.killChild ∉ calls ([⟨.createRuntimeDir, .ok ()⟩, ⟨.spawnVmm, .ok ()⟩] ++ pings) := by
  have hnone : ∀ entry ∈ ([] : Trace), isCreation entry.1 := by simp
  have hnot := kill_last hpings hnone
  rwa [List.append_nil] at hnot

theorem spawn_leaves_no_orphan (crate : UrlCrate) (runtimeRoot id : String)
    (config : Option VmConfig) (boot : Bool) (trace : Trace) (result : Except String VMInstance)
    (h : Program.Runs (spawn (TransformChain.ofHost crate runtimeRoot) id config boot) trace result) :
    (∀ vm, result = .ok vm →
      vm.id = id ∧ vm.childProcess = true ∧ HostCall.killChild ∉ calls trace) ∧
    ∀ error, result = .error error →
      (∃ before answer, trace = before ++ [⟨.killChild, answer⟩] ∧
        HostCall.killChild ∉ calls before) ∨
      ∀ entry ∈ trace, entry.1 = .createRuntimeDir ∨ ∃ error, entry = ⟨.spawnVmm, .error error⟩ := by
  obtain ⟨error, rfl, hearly⟩ | ⟨rest, rfl, hspawning⟩ := runs_spawn_cases h
  · exact ⟨by simp, fun _ _ => Or.inr hearly⟩
  · cases hspawning with
    | unreachable pings answer error hpings =>
      refine ⟨by simp, fun _ _ => Or.inl ⟨_, answer, (List.append_assoc _ _ _).symm, ?_⟩⟩
      exact not_killed_early hpings
    | bare _ _ hpings =>
      refine ⟨?_, by simp⟩
      rintro vm heq
      obtain rfl := Except.ok.inj heq
      exact ⟨rfl, rfl, not_killed_early hpings⟩
    | created pings body given vm' _ hpings hrun =>
      refine ⟨?_, by simp⟩
      rintro vm heq
      obtain rfl := Except.ok.inj heq
      obtain ⟨hchild, hid⟩ := runs_createConfig_kept hrun
      exact ⟨hid, hchild, kill_last hpings ((only_createConfig _ _ _).runs hrun)⟩
    | refused pings body given vm' error answer _ hpings hrun =>
      refine ⟨by simp, fun _ _ => Or.inl ⟨_, answer, (List.append_assoc _ _ _).symm, ?_⟩⟩
      exact kill_last hpings ((only_createConfig _ _ _).runs hrun)

/-- The VM is refused, and its process goes. -/
theorem spawn_leaves_no_orphan_refused :
    (spawnRun refusesCreate).2.isOk = false ∧
      ∃ before answer, (spawnRun refusesCreate).1 = before ++ [⟨.killChild, answer⟩] ∧
        HostCall.killChild ∉ calls before := by
  have hrun := Program.runs_run refusesCreate (spawn sampleChain "5" (some storageConfig) true)
  have hfails : (spawnRun refusesCreate).2.isOk = false := by decide +kernel
  have hspawned : HostCall.ping ∈ calls (spawnRun refusesCreate).1 := by decide +kernel
  refine ⟨hfails, ?_⟩
  have hlife := (spawn_leaves_no_orphan _ _ _ _ _ _ _ hrun).2
  cases hresult : (spawnRun refusesCreate).2 with
  | ok vm => simp [hresult, Except.isOk, Except.toBool] at hfails
  | error error =>
    cases hlife error hresult with
    | inl hkilled => exact hkilled
    | inr hearly =>
      obtain ⟨entry, hentry, hping⟩ := List.mem_map.mp hspawned
      obtain hdir | ⟨_, rfl⟩ := hearly entry hentry
      · simp [hping] at hdir
      · simp at hping

/-! Nothing is taken from a running VMM. -/

/-- The calls of an orderly stop. -/
def isStop : HostCall → Prop
  | .vmInfo | .shutdownVm | .hook .beforeStop => True
  | _ => False

end Odorobo.VMInstance
