import Odorobo.HostCalls
import Odorobo.Transition

/-! The storage of one host, shared by its VMs. Transforms and teardowns run side
by side, command by command. The mapping of an image and the session of a target
belong to the host: whoever gives them up takes them from everyone. -/

namespace Odorobo

/-- What a resolved URI needs of the host. -/
inductive Resource where
  | image (path : String)
  | session (target portal : String)
  deriving DecidableEq

def resourceOf (uri : Url) : Option Resource :=
  if uri.scheme = "rbd" then (RbdImage.tryFrom uri).toOption.map fun image => .image image.rbdPath
  else if uri.scheme = "iscsi" then
    some (.session (ISCSITarget.from uri).iqn (ISCSITarget.from uri).host)
  else none

/-- Mapped images and open sessions. -/
structure Devices where
  mapped : List String
  sessions : List (String × String)
  deriving DecidableEq

namespace Devices

def has (devices : Devices) : Resource → Bool
  | .image path => decide (path ∈ devices.mapped)
  | .session target portal => decide ((target, portal) ∈ devices.sessions)

/-- `rbd device map` and `unmap` add and remove the mapping of the image,
`iscsiadm --login` and `--logout` open and close the session. -/
def after (devices : Devices) : (call : NodeCall) → call.Answer → Devices
  | .run (.rbdDeviceMap image), .success _ => { devices with mapped := image :: devices.mapped }
  | .run (.rbdDeviceUnmap image), .success _ =>
    { devices with mapped := devices.mapped.filter fun other => other ≠ image }
  | .run (.iscsiadmLogin target portal), .success _ =>
    { devices with sessions := (target, portal) :: devices.sessions }
  | .run (.iscsiadmLogout target portal), .success _ =>
    { devices with sessions := devices.sessions.filter fun other => other ≠ (target, portal) }
  | _, _ => devices

end Devices

/-- The answer is taken to mean that the resource is there. -/
def gives (resource : Resource) : (call : NodeCall) → call.Answer → Bool
  | .run (.rbdDeviceMap image), .success _ => decide (resource = .image image)
  | .run (.iscsiadmLogin target portal), .success _ => decide (resource = .session target portal)
  | .run .rbdDeviceList, .success output =>
    (rbdLinesList output).any fun mapping => decide (resource = .image mapping.1)
  | _, _ => false

/-- The result is a success only with the resource. -/
def GivenIfOk {α : Type} (result : Except String α) (given : Bool) : Prop :=
  result.isOk = true → given = true

/-- The resource that a command removed. -/
def takes : (call : NodeCall) → call.Answer → Option Resource
  | .run (.rbdDeviceUnmap image), .success _ => some (.image image)
  | .run (.iscsiadmLogout target portal), .success _ => some (.session target portal)
  | _, _ => none

/-- Part of a transform or a teardown: what is left of it, or the storage operation
it is at. -/
inductive StorageTask where
  | ready (rest : Program HostCall HostCall.Answer Unit)
  | resolving (uri : Url) (shell : Shell (Except String String))
      (next : Except String String → Program HostCall HostCall.Answer Unit)
  | releasing (uri : Url) (shell : Shell (Except String Unit))
      (next : Except String Unit → Program HostCall HostCall.Answer Unit)

/-- `held` are the URIs that a VM resolved and has not released. -/
structure StorageHost where
  devices : Devices
  held : List (String × Url)
  tasks : List (String × StorageTask)

namespace StorageHost

def onStart : StorageHost := ⟨⟨[], []⟩, [], []⟩

/-- Start a transform or a teardown for a VM, let a task make its next storage call,
answer a command, or end a storage operation. -/
inductive Move where
  | transform (vm : String) (config : VmConfig)
  | teardown (vm : String) (config : VmConfig)
  | proceed (position : Nat)
  | answer (position : Nat) (call : NodeCall) (answer : call.Answer)
  | finish (position : Nat)

def setTask (x : StorageHost) (position : Nat) (vm : String) (task : StorageTask) : StorageHost :=
  { x with tasks := x.tasks.set position (vm, task) }

/-- The VM gives up one URI of the same target. -/
def drop (x : StorageHost) (vm : String) (uri : Url) : StorageHost :=
  { x with held := x.held.eraseP fun other =>
      other.1 == vm && other.2.withoutQuery == uri.withoutQuery }

def next (crate : UrlCrate) (x : StorageHost) : Move → Option StorageHost
  | .transform vm config =>
    some { x with tasks := x.tasks ++ [(vm, .ready
      ((HostCall.transformer.transform crate config).bind fun _ => .done ()))] }
  | .teardown vm config =>
    some { x with tasks := x.tasks ++ [(vm, .ready
      (HostCall.transformer.releaseConfig crate config))] }
  | .proceed position =>
    match x.tasks[position]? with
    | some (vm, .ready (.call (.resolve uri) rest)) =>
      (StorageDriverTransformer.findBackend ⟨storageBackends crate⟩ uri).map fun backend =>
        x.setTask position vm (.resolving uri (backend.resolve uri) rest)
    | some (vm, .ready (.call (.release uri) rest)) =>
      (StorageDriverTransformer.findBackend ⟨storageBackends crate⟩ uri).map fun backend =>
        (x.drop vm uri).setTask position vm (.releasing uri (backend.release uri) rest)
    | _ => none
  | .answer position call answer =>
    match x.tasks[position]? with
    | some (vm, .resolving uri shell rest) =>
      (shell.resume call answer).map fun shell =>
        { x with devices := x.devices.after call answer }.setTask position vm
          (.resolving uri shell rest)
    | some (vm, .releasing uri shell rest) =>
      (shell.resume call answer).map fun shell =>
        { x with devices := x.devices.after call answer }.setTask position vm
          (.releasing uri shell rest)
    | _ => none
  | .finish position =>
    match x.tasks[position]? with
    | some (vm, .resolving uri (.done result) rest) =>
      some ({ x with held := if result.isOk then (vm, uri) :: x.held else x.held }.setTask position vm
        (.ready (rest result)))
    | some (vm, .releasing _ (.done result) rest) =>
      some (x.setTask position vm (.ready (rest result)))
    | _ => none

def Step (crate : UrlCrate) (x : StorageHost) (move : Move) (y : StorageHost) : Prop :=
  x.next crate move = some y

/-- What is resolved and not released is mapped or logged in. -/
def Attached (x : StorageHost) : Prop :=
  ∀ vm uri, (vm, uri) ∈ x.held → ∀ resource, resourceOf uri = some resource →
    x.devices.has resource = true

/-- A URI of the resource is resolved and not released, or its resolve can succeed
without being given the resource once more. -/
def Uses (x : StorageHost) (resource : Resource) : Prop :=
  ∃ vm uri, resourceOf uri = some resource ∧ ((vm, uri) ∈ x.held ∨
    ∃ shell rest, (vm, StorageTask.resolving uri shell rest) ∈ x.tasks ∧
      ¬ shell.Earns (gives resource) GivenIfOk false)

/-- Nothing that is used is taken away, and an image that is listed for a resolve is
mapped. -/
def Careful (x : StorageHost) : Move → Prop
  | .answer position call answer =>
    (∀ resource, takes call answer = some resource → ¬ x.Uses resource) ∧
    ∀ vm uri shell rest resource, x.tasks[position]? = some (vm, .resolving uri shell rest) →
      resourceOf uri = some resource → call = .run .rbdDeviceList →
        gives resource call answer = true → x.devices.has resource = true
  | _ => True

end StorageHost

/-! What a command does to a resource. -/

theorem Devices.has_after {devices : Devices} {resource : Resource} (h : devices.has resource = true)
    (call : NodeCall) (answer : call.Answer) (htakes : takes call answer ≠ some resource) :
    (devices.after call answer).has resource = true := by
  unfold Devices.after
  unfold takes at htakes
  split
  · cases resource with
    | image path => simpa [Devices.has] using Or.inr (by simpa [Devices.has] using h)
    | session target portal => exact h
  · cases resource with
    | image path =>
      have hne : ¬ path = _ := fun heq => htakes (by rw [heq])
      simpa [Devices.has, hne] using h
    | session target portal => exact h
  · cases resource with
    | image path => exact h
    | session target portal => simpa [Devices.has] using Or.inr (by simpa [Devices.has] using h)
  · cases resource with
    | image path => exact h
    | session target portal =>
      have hne : ¬ (target, portal) = (_, _) := fun heq => htakes (by
        rw [(Prod.mk.inj heq).1, (Prod.mk.inj heq).2])
      simpa [Devices.has, hne] using h
  · exact h

theorem Devices.has_of_gives {devices : Devices} {resource : Resource} {call : NodeCall}
    {answer : call.Answer} (h : gives resource call answer = true)
    (hlisted : call = .run .rbdDeviceList → devices.has resource = true) :
    (devices.after call answer).has resource = true := by
  unfold gives at h
  split at h
  · obtain rfl := of_decide_eq_true h
    simp [Devices.after, Devices.has]
  · obtain rfl := of_decide_eq_true h
    simp [Devices.after, Devices.has]
  · exact hlisted rfl
  · simp at h

/-! Every resolve that succeeds was given its resource. -/

theorem givenIfOk_true {α : Type} (result : Except String α) : GivenIfOk result true := fun _ => rfl

theorem givenIfOk_error {α : Type} (error : String) (given : Bool) :
    GivenIfOk (.error error : Except String α) given := by
  simp [GivenIfOk, Except.isOk, Except.toBool]

theorem earns_runOnly {resource : Resource} {command : Command} (program what : String)
    (h : ∀ output, gives resource (.run command) (.success output) = true) (given : Bool) :
    (runOnly command program what).Earns (gives resource) GivenIfOk given := by
  intro output
  cases output with
  | notStarted error => exact givenIfOk_error _ _
  | failed stderr => exact givenIfOk_error _ _
  | success stdout =>
    change GivenIfOk _ (given || gives resource (.run command) (.success stdout))
    rw [h stdout, Bool.or_true]
    exact givenIfOk_true _

/-- A list that names the image gives it. -/
theorem earns_rbdMapList (path : String) (given : Bool) :
    rbdMapList.Earns (gives (.image path)) (fun result given => ∀ mappings, result = .ok mappings →
      (mappings.any fun mapping => mapping.1 == path) = true → given = true) given := by
  intro output
  cases output with
  | notStarted error => exact fun _ heq => by simp at heq
  | failed stderr => exact fun _ heq => by simp at heq
  | success stdout =>
    intro mappings heq hany
    rw [← Except.ok.inj heq] at hany
    obtain ⟨mapping, hmem, hpath⟩ := List.any_eq_true.mp hany
    have hgives : gives (.image path) (.run .rbdDeviceList) (.success stdout) = true :=
      List.any_eq_true.mpr ⟨mapping, hmem, by simpa using (beq_iff_eq.mp hpath).symm⟩
    rw [hgives, Bool.or_true]

theorem earns_map (image : RbdImage) (given : Bool) :
    image.map.Earns (gives (.image image.rbdPath)) GivenIfOk given := by
  apply Program.earns_andThen
  refine Program.earns_mono ?_ (earns_rbdMapList image.rbdPath given)
  intro result given hlisted
  refine ⟨fun error _ => givenIfOk_error error given, fun mappings hok => ?_⟩
  split
  · next hany => exact fun _ => hlisted mappings hok hany
  · exact earns_runOnly _ _ (fun _ => by simp [gives]) given

theorem earns_resolve {crate : UrlCrate} {uri : Url} {backend : StorageDriver NodeCall NodeCall.Answer}
    {resource : Resource}
    (hbackend : StorageDriverTransformer.findBackend ⟨storageBackends crate⟩ uri = some backend)
    (hresource : resourceOf uri = some resource) :
    (backend.resolve uri).Earns (gives resource) GivenIfOk false := by
  have hscheme : backend.scheme = uri.scheme := by
    simpa using List.find?_some hbackend
  have hmem : backend = fileStorage crate ∨ backend = rbdStorage ∨ backend = iscsiStorage := by
    simpa [storageBackends] using List.mem_of_find?_eq_some hbackend
  unfold resourceOf at hresource
  rw [← hscheme] at hresource
  obtain rfl | rfl | rfl := hmem
  · simp [fileStorage] at hresource
  · rw [if_pos (show rbdStorage.scheme = "rbd" from rfl)] at hresource
    obtain ⟨image, himage, rfl⟩ := Option.map_eq_some_iff.mp hresource
    change (withImage uri _).Earns _ _ _
    unfold withImage
    cases hread : RbdImage.tryFrom uri with
    | error error => exact givenIfOk_error _ _
    | ok image' =>
      obtain rfl : image' = image := by simpa [hread, Except.toOption] using himage
      apply Program.earns_andThen
      refine Program.earns_mono ?_ (earns_map image' false)
      intro result given hgiven
      refine ⟨fun error _ => givenIfOk_error error given, fun _ hok => ?_⟩
      rw [hgiven (by rw [hok]; rfl)]
      exact Program.earns_of_given givenIfOk_true _
  · rw [if_neg (by decide), if_pos (show iscsiStorage.scheme = "iscsi" from rfl)] at hresource
    obtain rfl := Option.some.inj hresource
    apply Program.earns_andThen
    refine Program.earns_mono ?_ (earns_runOnly _ _ (fun _ => by simp [gives]) false)
    intro result given hgiven
    refine ⟨fun error _ => givenIfOk_error error given, fun _ hok => ?_⟩
    intro _
    exact hgiven (by rw [hok]; rfl)

namespace StorageHost

variable {crate : UrlCrate} {x y : StorageHost}

/-- A resolve in progress has its resource, or still has to be given it. -/
def OnTrack (devices : Devices) : StorageTask → Prop
  | .resolving uri shell _ => ∀ resource, resourceOf uri = some resource →
      ∃ given, shell.Earns (gives resource) GivenIfOk given ∧
        (given = true → devices.has resource = true)
  | _ => True

structure Sound (x : StorageHost) : Prop where
  attached : x.Attached
  tasks : ∀ vm task, (vm, task) ∈ x.tasks → OnTrack x.devices task

theorem Sound.setTask (h : Sound x) {position : Nat} {vm : String} {task : StorageTask}
    (htask : OnTrack x.devices task) : Sound (x.setTask position vm task) where
  attached := h.attached
  tasks vm' task' hmem := by
    cases List.mem_or_eq_of_mem_set hmem with
    | inl hold => exact h.tasks vm' task' hold
    | inr heq => exact (Prod.mk.inj heq).2 ▸ htask

theorem Sound.drop (h : Sound x) (vm : String) (uri : Url) : Sound (x.drop vm uri) where
  attached vm' uri' hmem := h.attached vm' uri' (List.mem_of_mem_eraseP hmem)
  tasks := h.tasks

theorem Sound.start (h : Sound x) (vm : String) (rest : Program HostCall HostCall.Answer Unit) :
    Sound { x with tasks := x.tasks ++ [(vm, .ready rest)] } where
  attached := h.attached
  tasks vm' task' hmem := by
    cases List.mem_append.mp hmem with
    | inl hold => exact h.tasks vm' task' hold
    | inr hnew =>
      obtain ⟨rfl, rfl⟩ := Prod.mk.inj (List.mem_singleton.mp hnew)
      trivial

/-- What is not taken away from those who use it stays on track. -/
theorem Sound.after (h : Sound x) {call : NodeCall} {answer : call.Answer}
    (hcareful : ∀ resource, takes call answer = some resource → ¬ x.Uses resource) :
    Sound { x with devices := x.devices.after call answer } where
  attached vm uri hmem resource hresource := by
    apply Devices.has_after (h.attached vm uri hmem resource hresource)
    exact fun htakes => hcareful resource htakes ⟨vm, uri, hresource, Or.inl hmem⟩
  tasks vm task hmem := by
    have htask := h.tasks vm task hmem
    cases task with
    | ready rest => trivial
    | releasing uri shell rest => trivial
    | resolving uri shell rest =>
      intro resource hresource
      by_cases hfree : shell.Earns (gives resource) GivenIfOk false
      · exact ⟨false, hfree, by simp⟩
      · obtain ⟨given, hearns, hgiven⟩ := htask resource hresource
        refine ⟨given, hearns, fun htrue => Devices.has_after (hgiven htrue) call answer ?_⟩
        exact fun htakes => hcareful resource htakes
          ⟨vm, uri, hresource, Or.inr ⟨shell, rest, hmem, hfree⟩⟩

theorem Sound.answered (h : Sound x) {position : Nat} {call : NodeCall} {answer : call.Answer}
    (hcareful : Careful x (.answer position call answer)) {vm : String} {uri : Url}
    {shell shell' : Shell (Except String String)}
    {rest : Except String String → Program HostCall HostCall.Answer Unit}
    (htask : x.tasks[position]? = some (vm, .resolving uri shell rest))
    (hresume : shell.resume call answer = some shell') :
    Sound ({ x with devices := x.devices.after call answer }.setTask position vm
      (.resolving uri shell' rest)) := by
  apply (h.after hcareful.1).setTask
  intro resource hresource
  obtain ⟨next, rfl, rfl⟩ := Program.eq_call_of_resume hresume
  have hlisted : gives resource call answer = true →
      (x.devices.after call answer).has resource = true := by
    intro hgives
    apply Devices.has_of_gives hgives
    exact fun hlist => hcareful.2 vm uri _ rest resource htask hresource hlist hgives
  by_cases hfree : (Program.call call next).Earns (gives resource) GivenIfOk false
  · exact ⟨false || gives resource call answer, hfree answer, by simpa using hlisted⟩
  · obtain ⟨given, hearns, hgiven⟩ := h.tasks vm _ (List.mem_of_getElem? htask) resource hresource
    refine ⟨given || gives resource call answer, hearns answer, ?_⟩
    intro htrue
    cases hgives : gives resource call answer with
    | true => exact hlisted hgives
    | false =>
      rw [hgives, Bool.or_false] at htrue
      apply Devices.has_after (hgiven htrue)
      exact fun htakes => hcareful.1 resource htakes
        ⟨vm, uri, hresource, Or.inr ⟨_, rest, List.mem_of_getElem? htask, hfree⟩⟩

theorem Sound.finished (h : Sound x) {position : Nat} {vm : String} {uri : Url}
    {result : Except String String}
    {rest : Except String String → Program HostCall HostCall.Answer Unit}
    (htask : x.tasks[position]? = some (vm, .resolving uri (.done result) rest)) :
    Sound { x with held := if result.isOk then (vm, uri) :: x.held else x.held } where
  tasks := h.tasks
  attached := by
    cases hresult : result.isOk with
    | false => exact h.attached
    | true =>
      intro vm' uri' hmem resource hresource
      cases List.mem_cons.mp hmem with
      | inr hold => exact h.attached vm' uri' hold resource hresource
      | inl hnew =>
        obtain ⟨rfl, rfl⟩ := Prod.mk.inj hnew
        obtain ⟨given, hearns, hgiven⟩ := h.tasks _ _ (List.mem_of_getElem? htask) resource hresource
        exact hgiven (hearns hresult)

theorem Sound.step {move : Move} (h : Sound x) (hcareful : Careful x move)
    (hstep : Step crate x move y) : Sound y := by
  unfold Step at hstep
  cases move with
  | transform vm config =>
    rw [← Option.some.inj hstep]
    exact h.start vm _
  | teardown vm config =>
    rw [← Option.some.inj hstep]
    exact h.start vm _
  | proceed position =>
    simp only [next] at hstep
    split at hstep
    · next vm uri rest _ =>
      obtain ⟨backend, hbackend, rfl⟩ := Option.map_eq_some_iff.mp hstep
      apply h.setTask
      intro resource hresource
      exact ⟨false, earns_resolve hbackend hresource, by simp⟩
    · next vm uri rest _ =>
      obtain ⟨backend, _, rfl⟩ := Option.map_eq_some_iff.mp hstep
      exact (h.drop vm uri).setTask trivial
    · simp at hstep
  | answer position call answer =>
    simp only [next] at hstep
    split at hstep
    · next vm uri shell rest htask =>
      obtain ⟨shell', hresume, rfl⟩ := Option.map_eq_some_iff.mp hstep
      exact h.answered hcareful htask hresume
    · next vm uri shell rest htask =>
      obtain ⟨shell', _, rfl⟩ := Option.map_eq_some_iff.mp hstep
      exact (h.after hcareful.1).setTask trivial
    · simp at hstep
  | finish position =>
    simp only [next] at hstep
    split at hstep
    · next vm uri result rest htask =>
      rw [← Option.some.inj hstep]
      exact (h.finished htask).setTask trivial
    · rw [← Option.some.inj hstep]
      exact h.setTask trivial
    · simp at hstep

section Samples

def isResolving : StorageTask → Bool
  | .resolving .. => true
  | _ => false

/-- Nothing is held or being resolved when something is taken away, and no list
names an image. -/
def calm (x : StorageHost) : Move → Bool
  | .answer _ call answer =>
    ((takes call answer).isNone || (x.held.isEmpty && x.tasks.all fun task => !isResolving task.2)) &&
      match call, answer with
      | .run .rbdDeviceList, .success output => (rbdLinesList output).isEmpty
      | _, _ => true
  | _ => true

def rbdDisk (id path : String) : VmConfig :=
  { VmConfig.default with disks := some [⟨some id, some path, none, none⟩] }

def leaves (position : Nat) : List Move :=
  [.teardown "a" (rbdDisk "rbd://pool/root?id=root" "/dev/rbd/pool/root"), .proceed position,
    .answer position (.run (.rbdDeviceUnmap "pool/root")) (.success "")]

end Samples

end StorageHost

end Odorobo
