import Odorobo.NetworkSetup

/-! Attaching and detaching TAP devices: a message changes the device it names and no
other link, so that the hooks of different VMs may run in any order. -/

namespace Odorobo

open NetworkAgentActor Program Kernel

variable {w w' : HostNetwork} {config : NetworkConfig}

/-- The device is attached to the bridge and up. -/
def Connected (config : NetworkConfig) (tapName : String) (w : HostNetwork) : Prop :=
  ∃ bridge tap, w.link? config.bridge = some bridge ∧ w.link? tapName = some tap ∧
    tap.controller = some bridge.index ∧ tap.up = true

/-- The device, if it is there, is attached to nothing. -/
def Released (tapName : String) (w : HostNetwork) : Prop :=
  ∀ tap, w.link? tapName = some tap → tap.controller = none

/-- A change of the link that was found under a name. -/
theorem Kernel.LinkSet.link?_at {tap : LinkMessage} {change : LinkMessage → LinkMessage}
    {tapName : String} (h : LinkSet w tap.index change w')
    (named : ∀ link, (change link).name = link.name) (found : w.link? tapName = some tap)
    (name : String) :
    w'.link? name = if name = tapName then some (change tap) else w.link? name := by
  rw [h.link? named]
  split
  · next heq =>
    subst heq
    rw [found, Option.map_some, setLink, if_pos rfl]
  · next hne =>
    cases hlink : w.link? name with
    | none => rfl
    | some link =>
      obtain ⟨hmem, hname⟩ := HostNetwork.link?_eq_some.mp hlink
      obtain ⟨htap, htapName⟩ := HostNetwork.link?_eq_some.mp found
      have hindex : link.index ≠ tap.index := by
        intro heq
        rw [HostNetwork.eq_of_index_eq hmem htap heq] at hname
        exact hne (hname.symm.trans htapName)
      rw [Option.map_some, setLink, if_neg hindex]

theorem lookupLinkByName_spec {name : String} {result : Except String LinkMessage}
    (h : Execs Answers w (lookupLinkByName name) w' result) :
    w' = w ∧ ∀ link, result = .ok link → w.link? name = some link := by
  obtain ⟨u, answer, hget, hdone⟩ := execs_bind.mp h
  obtain ⟨rfl, hlooked⟩ := execs_ask.mp hget
  cases answer with
  | none =>
    obtain ⟨rfl, rfl⟩ := execs_done.mp hdone
    exact ⟨rfl, by simp⟩
  | some answer =>
    obtain ⟨rfl, rfl⟩ := execs_done.mp hdone
    refine ⟨rfl, fun link hlink => ?_⟩
    cases answer with
    | error error => cases hlink
    | ok found => exact (Except.ok.inj hlink) ▸ hlooked

/-- A lookup that the program goes on from. -/
theorem execs_lookup_andThen {α : Type} {name message : String}
    {f : LinkMessage → NetProgram (Except String α)} {result : Except String α}
    (h : Execs Answers w (((lookupLinkByName name).wrapErr message).andThen f) w' result) :
    (w' = w ∧ ∀ a, result ≠ .ok a) ∨
      ∃ link, w.link? name = some link ∧ Execs Answers w (f link) w' result := by
  cases execs_andThen.mp h with
  | inl herror =>
    obtain ⟨error, rfl, hlookup⟩ := herror
    obtain ⟨inner, hrun, _⟩ := execs_wrapErr.mp hlookup
    exact Or.inl ⟨(lookupLinkByName_spec hrun).1, by simp⟩
  | inr hok =>
    obtain ⟨u, link, hlookup, hrest⟩ := hok
    obtain ⟨rfl, hfound⟩ := lookupLinkByName_spec (execs_wrapErr_ok.mp hlookup)
    exact Or.inr ⟨link, hfound link rfl, hrest⟩

/-- What an attach message does. -/
inductive TapAttached (bridge tapName : String) (w w' : HostNetwork)
    (result : Except String Unit) : Prop where
  | kept (same : w' = w) (failed : result ≠ .ok ())
  | set (master tap : LinkMessage) (up : Bool) (bridge : w.link? bridge = some master)
      (found : w.link? tapName = some tap)
      (links : ∀ name, w'.link? name = if name = tapName then
        some { tap with controller := some master.index, up := up } else w.link? name)
      (raised : up = tap.up ∨ up = true) (done : result = .ok () → up = true)

theorem attachTap_spec {common : NetworkConfigCommon} {vmid : Ulid} {tapName : String}
    {result : Except String Unit}
    (h : Execs Answers w (attachTap common vmid tapName) w' result) :
    TapAttached common.bridge tapName w w' result := by
  obtain ⟨rfl, hfailed⟩ | ⟨master, hbridge, hafter⟩ := execs_lookup_andThen h
  · exact .kept rfl (hfailed ())
  obtain ⟨rfl, hfailed⟩ | ⟨tap, htap, hthen⟩ := execs_lookup_andThen hafter
  · exact .kept rfl (hfailed ())
  cases execs_andThen.mp hthen with
  | inl herror =>
    obtain ⟨error, rfl, hset⟩ := herror
    obtain ⟨answer, hcall, heq⟩ := execs_orReport.mp hset
    cases answer with
    | ok value => cases heq
    | error failure => exact .kept (execs_ask.mp hcall) (by simp)
  | inr hok =>
    obtain ⟨u, value, hset, hup⟩ := hok
    obtain ⟨answer, hcall, heq⟩ := execs_orReport.mp hset
    obtain rfl := mapError_ok_eq heq.symm
    have hmoved : LinkSet w tap.index
        (fun link => { link with controller := some master.index }) u := execs_ask.mp hcall
    have hlinks := hmoved.link?_at (fun _ => rfl) htap
    obtain ⟨answer, hcall, rfl⟩ := execs_orReport.mp hup
    cases answer with
    | error failure =>
      obtain rfl : w' = u := execs_ask.mp hcall
      exact .set master tap tap.up hbridge htap hlinks (Or.inl rfl) (by simp [Except.mapError])
    | ok value =>
      let moved : LinkMessage := { tap with controller := some master.index }
      have hraised : LinkSet u moved.index (fun link => { link with up := true }) w' :=
        execs_ask.mp hcall
      have hfound : u.link? tapName = some moved := by rw [hlinks, if_pos rfl]
      refine .set master tap true hbridge htap (fun name => ?_) (Or.inr rfl) fun _ => rfl
      rw [hraised.link?_at (fun _ => rfl) hfound name, hlinks]
      split <;> rfl

/-- What a detach message does. -/
inductive TapDetached (tapName : String) (w w' : HostNetwork) (result : Except String Unit) :
    Prop where
  | kept (same : w' = w) (failed : result ≠ .ok ())
  | set (tap : LinkMessage) (found : w.link? tapName = some tap)
      (links : ∀ name, w'.link? name = if name = tapName then
        some { tap with controller := none } else w.link? name) (done : result = .ok ())

theorem detachTap_spec {common : NetworkConfigCommon} {vmid : Ulid} {tapName : String}
    {result : Except String Unit}
    (h : Execs Answers w (detachTap common vmid tapName) w' result) :
    TapDetached tapName w w' result := by
  obtain ⟨rfl, hfailed⟩ | ⟨tap, htap, hthen⟩ := execs_lookup_andThen h
  · exact .kept rfl (hfailed ())
  obtain ⟨answer, hcall, rfl⟩ := execs_orReport.mp hthen
  cases answer with
  | error failure => exact .kept (execs_ask.mp hcall) (by simp [Except.mapError])
  | ok value =>
    have hset : LinkSet w tap.index (fun link => { link with controller := none }) w' :=
      execs_ask.mp hcall
    exact .set tap htap (hset.link?_at (fun _ => rfl) htap) rfl

/-! How long a device stays attached. -/

/-- A detach of the device that succeeds, or a change by others that disconnects it. -/
def EndsAttachment (config : NetworkConfig) (tapName : String) : NetworkAct → Prop
  | .detachTap _ name result => name = tapName ∧ result = .ok ()
  | .outside after => ¬ Connected config tapName after
  | _ => False

theorem Connected.start {tapName : String} {result : Except String NetworkConfigCommon}
    (h : Connected config tapName w) (hstart : Execs Answers w (onStart config) w' result) :
    Connected config tapName w' := by
  obtain ⟨bridge, tap, hbridge, htap, hconnected⟩ := h
  have hkept := (onStart_spec hstart).keeps
  exact ⟨bridge, tap, hkept.link? hbridge, hkept.link? htap, hconnected⟩

theorem SameLinks.bridge (h : SameLinks w w') {name : String} {link : LinkMessage}
    (found : w.link? name = some link) :
    ∃ link', w'.link? name = some link' ∧ link'.index = link.index := by
  have hindex := h.indices name
  rw [found, Option.map_some, Option.map_eq_some_iff] at hindex
  exact hindex

theorem Connected.attach {tapName name : String} {vmid : Ulid} {result : Except String Unit}
    (h : Connected config tapName w)
    (hattach : Execs Answers w (attachTap config.common vmid name) w' result) :
    Connected config tapName w' := by
  obtain ⟨bridge, tap, hbridge, htap, hmaster, hup⟩ := h
  obtain ⟨bridge', hbridge', hindex⟩ :=
    (sameLinks_of_only (only_attachTap _ _ _) hattach).bridge hbridge
  cases attachTap_spec hattach with
  | kept same failed => exact same ▸ ⟨bridge, tap, hbridge, htap, hmaster, hup⟩
  | set master found up hmasterBridge hfound links raised done =>
    by_cases heq : tapName = name
    · subst heq
      obtain rfl : bridge = master := Option.some.inj (hbridge.symm.trans hmasterBridge)
      obtain rfl : tap = found := Option.some.inj (htap.symm.trans hfound)
      have hraised : up = true := raised.elim (fun h => h.trans hup) id
      refine ⟨bridge', { tap with controller := some bridge.index, up := up }, hbridge', ?_, ?_,
        hraised⟩
      · rw [links, if_pos rfl]
      · rw [hindex]
    · refine ⟨bridge', tap, hbridge', ?_, hmaster.trans (congrArg some hindex.symm), hup⟩
      rw [links, if_neg heq, htap]

theorem Connected.detach {tapName name : String} {vmid : Ulid} {result : Except String Unit}
    (h : Connected config tapName w)
    (hdetach : Execs Answers w (detachTap config.common vmid name) w' result)
    (hother : ¬ (name = tapName ∧ result = .ok ())) : Connected config tapName w' := by
  obtain ⟨bridge, tap, hbridge, htap, hmaster, hup⟩ := h
  obtain ⟨bridge', hbridge', hindex⟩ :=
    (sameLinks_of_only (only_detachTap _ _ _) hdetach).bridge hbridge
  cases detachTap_spec hdetach with
  | kept same failed => exact same ▸ ⟨bridge, tap, hbridge, htap, hmaster, hup⟩
  | set found hfound links done =>
    have hne : tapName ≠ name := fun heq => hother ⟨heq.symm, done⟩
    refine ⟨bridge', tap, hbridge', ?_, hmaster.trans (congrArg some hindex.symm), hup⟩
    rw [links, if_neg hne, htap]

theorem Connected.step {tapName : String} {act : NetworkAct} (h : Connected config tapName w)
    (hstays : ¬ EndsAttachment config tapName act) (hstep : NetworkStep config w act w') :
    Connected config tapName w' := by
  cases act with
  | start result => exact h.start hstep
  | attachTap vmid name result => exact h.attach hstep
  | detachTap vmid name result => exact h.detach hstep hstays
  | outside after =>
    obtain rfl : w' = after := hstep
    exact not_not.mp hstays

/-- A detach that succeeds leaves the device attached to nothing. -/
theorem released_of_detach {tapName : String} {vmid : Ulid}
    (h : Execs Answers w (detachTap config.common vmid tapName) w' (.ok ())) :
    Released tapName w' := by
  cases detachTap_spec h with
  | kept same failed => exact absurd rfl failed
  | set found hfound links done =>
    intro tap htap
    rw [links, if_pos rfl] at htap
    rw [← Option.some.inj htap]

theorem Released.not_connected {tapName : String} (h : Released tapName w) :
    ¬ Connected config tapName w := by
  rintro ⟨bridge, tap, hbridge, htap, hmaster, hup⟩
  rw [h tap htap] at hmaster
  cases hmaster

theorem tap_connected_until_ended (config : NetworkConfig) (tapName : String) (w : HostNetwork)
    (connected : Connected config tapName w) (run : List (NetworkAct × HostNetwork))
    (isRun : Transition.IsRun (NetworkStep config) w run) :
    Transition.AllStates (Connected config tapName) w run ↔
      Transition.AllSteps (fun _ act => ¬ EndsAttachment config tapName act) w run := by
  constructor
  · apply Transition.allSteps_of_states _ w run isRun
    intro u act v hu hends hstep
    cases act with
    | start result => exact absurd (fun h => h) hends
    | attachTap vmid name result => exact absurd (fun h => h) hends
    | detachTap vmid name result =>
      obtain ⟨rfl, rfl⟩ := not_not.mp hends
      exact (released_of_detach hstep).not_connected
    | outside after =>
      obtain rfl : v = after := hstep
      exact not_not.mp hends
  · exact Transition.allStates_of_step (fun _ _ _ hu hstays hstep => hu.step hstays hstep) w run
      connected isRun

/-! A host with the devices of two VMs. -/

def tapHost (first second : Option Nat) (raised : Bool) : HostNetwork where
  links := [⟨2, "eth0", none, true⟩, ⟨3, "vmbr0", none, true⟩,
    ⟨4, "vmtap-a-lan", first, raised⟩, ⟨5, "vmtap-b-lan", second, true⟩]
  addresses := []
  ruleset := []
  distinctNames := by simp
  distinctIndices := by simp

theorem attach_first :
    NetworkStep natConfig (tapHost none (some 3) false) (.attachTap 7 "vmtap-a-lan" (.ok ()))
      (tapHost (some 3) (some 3) true) := by
  refine .call (r := some (.ok ⟨3, "vmbr0", none, true⟩)) (u := tapHost none (some 3) false) ?_ ?_
  · exact ⟨rfl, rfl⟩
  refine .call (r := some (.ok ⟨4, "vmtap-a-lan", none, false⟩))
    (u := tapHost none (some 3) false) ?_ ?_
  · exact ⟨rfl, rfl⟩
  refine .call (r := (.ok () : Except NetlinkError Unit))
    (u := tapHost (some 3) (some 3) false) ?_ ?_
  · exact ⟨rfl, rfl, rfl⟩
  refine .call (r := (.ok () : Except NetlinkError Unit))
    (u := tapHost (some 3) (some 3) true) ?_ ?_
  · exact ⟨rfl, rfl, rfl⟩
  exact .done _ _

theorem detach_second (first : Option Nat) :
    NetworkStep natConfig (tapHost first (some 3) true) (.detachTap 8 "vmtap-b-lan" (.ok ()))
      (tapHost first none true) := by
  refine .call (r := some (.ok ⟨5, "vmtap-b-lan", some 3, true⟩))
    (u := tapHost first (some 3) true) ?_ ?_
  · exact ⟨rfl, rfl⟩
  refine .call (r := (.ok () : Except NetlinkError Unit)) (u := tapHost first none true) ?_ ?_
  · exact ⟨rfl, rfl, rfl⟩
  exact .done _ _

/-- The device of the second VM stays attached while the first VM gets its own, and until
its own hook detaches it. -/
theorem tap_connected_until_ended_two_vms :
    let attached := (NetworkAct.attachTap 7 "vmtap-a-lan" (.ok ()), tapHost (some 3) (some 3) true)
    let detached := (NetworkAct.detachTap 8 "vmtap-b-lan" (.ok ()), tapHost (some 3) none true)
    Transition.AllStates (Connected natConfig "vmtap-b-lan") (tapHost none (some 3) false)
      [attached] ∧
    ¬ Transition.AllStates (Connected natConfig "vmtap-b-lan") (tapHost none (some 3) false)
      [attached, detached] := by
  intro attached detached
  have hconnected : Connected natConfig "vmtap-b-lan" (tapHost none (some 3) false) :=
    ⟨⟨3, "vmbr0", none, true⟩, ⟨5, "vmtap-b-lan", some 3, true⟩, by decide +kernel,
      by decide +kernel, rfl, rfl⟩
  constructor
  · have hiff := tap_connected_until_ended natConfig "vmtap-b-lan" _ hconnected [attached]
      ⟨attach_first, trivial⟩
    exact hiff.mpr ⟨id, trivial⟩
  · have hiff := tap_connected_until_ended natConfig "vmtap-b-lan" _ hconnected
      [attached, detached] ⟨attach_first, detach_second (some 3), trivial⟩
    intro hall
    exact (hiff.mp hall).2.1 ⟨rfl, rfl⟩

/-! How long a device stays released. -/

/-- An attach of the device, or a change by others that attaches it. -/
def EndsRelease (tapName : String) : NetworkAct → Prop
  | .attachTap _ name _ => name = tapName
  | .outside after => ¬ Released tapName after
  | _ => False

theorem Released.of_link? {tapName : String} (h : Released tapName w)
    (links : w'.link? tapName = w.link? tapName) : Released tapName w' :=
  fun tap htap => h tap (links ▸ htap)

theorem link?_of_links {name : String} (links : w'.links = w.links) :
    w'.link? name = w.link? name := by
  rw [HostNetwork.link?, HostNetwork.link?, links]

theorem BridgeEnsured.released {bridge tapName : String} {result : Except String LinkMessage}
    (h : BridgeEnsured w bridge w' result) (released : Released tapName w) :
    Released tapName w' := by
  cases h with
  | kept same found => exact same ▸ released
  | created link own absent added found =>
    intro tap htap
    obtain ⟨hmem, hname⟩ := HostNetwork.link?_eq_some.mp htap
    rw [added.links, List.mem_append, List.mem_singleton] at hmem
    cases hmem with
    | inl hold => exact released tap (HostNetwork.link?_eq_some.mpr ⟨hold, hname⟩)
    | inr hnew =>
      rw [hnew]
      exact added.controller

theorem AddressEnsured.links_eq {index : Nat} {address : Ipv4Addr} {prefixLen : Nat}
    {result : Except String Unit} (h : AddressEnsured w index address prefixLen w' result) :
    w'.links = w.links := by
  cases h with
  | kept same held => rw [same]
  | added message absent isAssigned links addresses ruleset => exact links

theorem RuleEnsured.links_eq {upstreamIface : String} {result : Except String Unit}
    (h : RuleEnsured w upstreamIface w' result) : w'.links = w.links := by
  cases h with
  | kept same held => rw [same]
  | applied absent links addresses ruleset => exact links

theorem ModeEnsured.links_eq {index : Nat} {result : Except String Unit}
    (h : ModeEnsured config w index w' result) : w'.links = w.links := by
  cases h with
  | address ensured only => exact ensured.links_eq
  | rule u upstreamIface isNat first ensured => exact ensured.links_eq.trans first.links_eq

theorem Released.start {tapName : String} {result : Except String NetworkConfigCommon}
    (h : Released tapName w) (hstart : Execs Answers w (onStart config) w' result) :
    Released tapName w' := by
  cases onStart_spec hstart with
  | nowhere same failed => exact same ▸ h
  | bridge error ensured failed => exact ensured.released h
  | mode u link last first ensured succeeded =>
    exact (first.released h).of_link? (link?_of_links ensured.links_eq)

theorem Released.detach {tapName name : String} {vmid : Ulid} {result : Except String Unit}
    (h : Released tapName w)
    (hdetach : Execs Answers w (detachTap config.common vmid name) w' result) :
    Released tapName w' := by
  cases detachTap_spec hdetach with
  | kept same failed => exact same ▸ h
  | set found hfound links done =>
    intro tap htap
    rw [links] at htap
    split at htap
    · rw [← Option.some.inj htap]
    · exact h tap htap

theorem Released.step {tapName : String} {act : NetworkAct} (h : Released tapName w)
    (hstays : ¬ EndsRelease tapName act) (hstep : NetworkStep config w act w') :
    Released tapName w' := by
  cases act with
  | start result => exact h.start hstep
  | attachTap vmid name result =>
    cases attachTap_spec hstep with
    | kept same failed => exact same ▸ h
    | set master found up hmaster hfound links raised done =>
      exact h.of_link? (by rw [links, if_neg fun heq => hstays heq.symm])
  | detachTap vmid name result => exact h.detach hstep
  | outside after =>
    obtain rfl : w' = after := hstep
    exact not_not.mp hstays

/-! The hooks, with the host in use by others between and during their messages. -/

/-- Steps of others, each of them allowed. -/
def Meanwhile (config : NetworkConfig) (allowed : NetworkAct → Prop) (w w' : HostNetwork) : Prop :=
  ∃ run, Transition.IsRun (NetworkStep config) w run ∧ Transition.final w run = w' ∧
    Transition.AllSteps (fun _ act => allowed act) w run

theorem Meanwhile.refl {allowed : NetworkAct → Prop} : Meanwhile config allowed w w :=
  ⟨[], trivial, rfl, trivial⟩

theorem Meanwhile.keeps {allowed : NetworkAct → Prop} {P : HostNetwork → Prop}
    (step : ∀ u act v, P u → allowed act → NetworkStep config u act v → P v)
    (h : Meanwhile config allowed w w') (hw : P w) : P w' := by
  obtain ⟨run, isRun, rfl, all⟩ := h
  exact Transition.final_of_allStates w run (Transition.allStates_of_step step w run hw isRun all)

namespace NetworkProvisioningHook

variable {env : HostNetwork → (call : HookCall) → call.Answer → HostNetwork → Prop}

end NetworkProvisioningHook

open NetworkProvisioningHook

end Odorobo
