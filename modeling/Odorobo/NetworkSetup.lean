import Odorobo.HostKernel
import Odorobo.Transition

/-! What starting the network actor does to a host: whatever is there is kept, and
nothing is set up twice, however often and with whatever failures it is started. -/

namespace Odorobo

open Nftables NetworkAgentActor Program Kernel

variable {w w' : HostNetwork}

/-! The start as a whole. -/

namespace NetworkConfig

variable (config : NetworkConfig)

def bridge : String := config.common.bridge

def gateway : Ipv4Addr :=
  match config.networkMode with
  | .hostonlyNat _ _ gateway _ => gateway
  | .bridged _ _ gateway => gateway

def prefixLen : Nat :=
  match config.networkMode with
  | .hostonlyNat _ subnet _ _ => subnet.prefixLen.val
  | .bridged _ subnet _ => subnet.prefixLen.val

end NetworkConfig

variable {config : NetworkConfig}

/-- What the part of the start that depends on the mode does. -/
inductive ModeEnsured (config : NetworkConfig) (w : HostNetwork) (index : Nat) (w' : HostNetwork)
    (result : Except String Unit) : Prop where
  | address (ensured : AddressEnsured w index config.gateway config.prefixLen w' result)
      (only : result = .ok () → config.common.upstreamIface = none)
  | rule (u : HostNetwork) (upstreamIface : String)
      (isNat : config.common.upstreamIface = some upstreamIface)
      (first : AddressEnsured w index config.gateway config.prefixLen u (.ok ()))
      (ensured : RuleEnsured u upstreamIface w' result)

theorem AddressEnsured.of_ok {index : Nat} {address : Ipv4Addr} {prefixLen : Nat}
    {result result' : Except String Unit} (h : AddressEnsured w index address prefixLen w' result)
    (hok : result' = .ok () → result = .ok ()) :
    AddressEnsured w index address prefixLen w' result' := by
  cases h with
  | kept same held => exact .kept same fun h => held (hok h)
  | added message absent isAssigned links addresses ruleset =>
    exact .added message absent isAssigned links addresses ruleset

theorem RuleEnsured.of_ok {upstreamIface : String} {result result' : Except String Unit}
    (h : RuleEnsured w upstreamIface w' result) (hok : result' = .ok () → result = .ok ()) :
    RuleEnsured w upstreamIface w' result' := by
  cases h with
  | kept same held => exact .kept same fun h => held (hok h)
  | applied absent links addresses ruleset => exact .applied absent links addresses ruleset

theorem ensureGateway_spec {index : Nat} {bridge : String} {subnet : Ipv4Net}
    {gateway : Ipv4Addr} {result : Except String Unit}
    (h : Execs Answers w (ensureGateway index bridge subnet gateway) w' result) :
    AddressEnsured w index gateway subnet.prefixLen.val w' result := by
  obtain ⟨inner, hrun, rfl⟩ := execs_wrapErr.mp h
  exact (ensureAddress_spec hrun).of_ok mapError_ok_eq

theorem ensureMode_spec {index : Nat} {result : Except String Unit}
    (h : Execs Answers w (ensureMode config index) w' result) :
    ModeEnsured config w index w' result := by
  obtain ⟨dhcp, mode⟩ := config
  cases mode with
  | bridged bridge subnet gateway => exact .address (ensureGateway_spec h) fun _ => rfl
  | hostonlyNat bridge subnet gateway upstreamIface =>
    cases execs_andThen.mp h with
    | inl herror =>
      obtain ⟨error, rfl, hgateway⟩ := herror
      exact .address (ensureGateway_spec hgateway) (by simp)
    | inr hok =>
      obtain ⟨u, value, hgateway, hrest⟩ := hok
      obtain ⟨inner, hrules, rfl⟩ := execs_wrapErr.mp hrest
      exact .rule u upstreamIface rfl (ensureGateway_spec hgateway)
        ((ensureNatRules_spec hrules).of_ok mapError_ok_eq)

/-- How far a start gets. -/
inductive Started (config : NetworkConfig) (w : HostNetwork) (w' : HostNetwork)
    (result : Except String NetworkConfigCommon) : Prop where
  | nowhere (same : w' = w) (failed : ∀ common, result ≠ .ok common)
  | bridge (error : String) (ensured : BridgeEnsured w config.bridge w' (.error error))
      (failed : ∀ common, result ≠ .ok common)
  | mode (u : HostNetwork) (link : LinkMessage) (last : Except String Unit)
      (first : BridgeEnsured w config.bridge u (.ok link))
      (ensured : ModeEnsured config u link.index w' last)
      (succeeded : ∀ common, result = .ok common → last = .ok ())

theorem spawnDhcp_same {value : Unit} (h : Execs Answers w (spawnDhcp config) w' value) :
    w' = w := by
  unfold spawnDhcp at h
  split at h
  · exact execs_ask.mp h
  · exact (execs_done.mp h).1.symm

theorem onStart_spec {result : Except String NetworkConfigCommon}
    (h : Execs Answers w (onStart config) w' result) : Started config w w' result := by
  cases execs_andThen.mp h with
  | inl herror =>
    obtain ⟨error, rfl, hconnect⟩ := herror
    exact .nowhere (execs_ask.mp hconnect) (by simp)
  | inr hok =>
    obtain ⟨t, value, hconnect, hrest⟩ := hok
    obtain rfl : t = w := execs_ask.mp hconnect
    cases execs_andThen.mp hrest with
    | inl herror =>
      obtain ⟨error, rfl, hbridge⟩ := herror
      exact .bridge error (ensureBridge_spec hbridge) (by simp)
    | inr hok =>
      obtain ⟨u, link, hbridge, hafter⟩ := hok
      obtain ⟨v, value, hdhcp, hthen⟩ := execs_bind.mp hafter
      rw [spawnDhcp_same hdhcp] at hthen
      cases execs_andThen.mp hthen with
      | inl herror =>
        obtain ⟨error, rfl, hmode⟩ := herror
        exact .mode u link _ (ensureBridge_spec hbridge) (ensureMode_spec hmode) (by simp)
      | inr hok =>
        obtain ⟨x, value, hmode, hdone⟩ := hok
        obtain ⟨rfl, rfl⟩ := execs_done.mp hdone
        exact .mode u link _ (ensureBridge_spec hbridge) (ensureMode_spec hmode) fun _ _ => rfl

/-! What is set up, how often, and what stays. -/

/-- Nothing that the start sets up is there twice. -/
structure Tidy (config : NetworkConfig) (w : HostNetwork) : Prop where
  holders : ∀ index, w.holders index config.gateway config.prefixLen ≤ 1
  tables : w.ruleset.countP (isTable tableName) ≤ 1
  chains : w.ruleset.countP (isChain tableName chainName) ≤ 1
  rules : ∀ upstreamIface, config.common.upstreamIface = some upstreamIface →
    w.ruleset.countP (isMasquerade tableName chainName upstreamIface) ≤ 1

/-- The bridge has the gateway address, and guests are masqueraded if they are to be. -/
def Ready (config : NetworkConfig) (w : HostNetwork) : Prop :=
  ∃ link, w.link? config.bridge = some link ∧
    0 < w.holders link.index config.gateway config.prefixLen ∧
    ∀ upstreamIface, config.common.upstreamIface = some upstreamIface →
      nftPostroutingMasqueradeExists w.ruleset tableName chainName upstreamIface = true

/-- Nothing is lost or changed, and only the objects of the masquerade are new rules. -/
structure Kept (config : NetworkConfig) (w w' : HostNetwork) : Prop where
  links : w.links <+: w'.links
  addresses : w.addresses <+: w'.addresses
  ruleset : ∃ added, w'.ruleset.Perm (w.ruleset ++ added) ∧ ∀ object ∈ added,
    object = natTable ∨ object = natChain ∨
      ∃ upstreamIface, config.common.upstreamIface = some upstreamIface ∧
        object = natRule upstreamIface

/-- What others may do to the host: anything but a change of what is set up. -/
structure LeavesManaged (config : NetworkConfig) (w w' : HostNetwork) : Prop where
  bridge : (w'.link? config.bridge).map LinkMessage.index =
    (w.link? config.bridge).map LinkMessage.index
  holders : ∀ index, w'.holders index config.gateway config.prefixLen =
    w.holders index config.gateway config.prefixLen
  tables : w'.ruleset.countP (isTable tableName) = w.ruleset.countP (isTable tableName)
  chains : w'.ruleset.countP (isChain tableName chainName) =
    w.ruleset.countP (isChain tableName chainName)
  rules : ∀ upstreamIface, config.common.upstreamIface = some upstreamIface →
    w'.ruleset.countP (isMasquerade tableName chainName upstreamIface) =
      w.ruleset.countP (isMasquerade tableName chainName upstreamIface)

theorem Kept.refl : Kept config w w where
  links := List.prefix_rfl
  addresses := List.prefix_rfl
  ruleset := ⟨[], by simp, by simp⟩

theorem Kept.trans {u : HostNetwork} (h : Kept config w u) (h' : Kept config u w') :
    Kept config w w' where
  links := h.links.trans h'.links
  addresses := h.addresses.trans h'.addresses
  ruleset := by
    obtain ⟨first, hfirst, hours⟩ := h.ruleset
    obtain ⟨second, hsecond, hours'⟩ := h'.ruleset
    refine ⟨first ++ second, ?_, ?_⟩
    · rw [← List.append_assoc]
      exact hsecond.trans (hfirst.append_right second)
    · intro object hobject
      cases List.mem_append.mp hobject with
      | inl hmem => exact hours object hmem
      | inr hmem => exact hours' object hmem

theorem Kept.link? (h : Kept config w w') {name : String} {link : LinkMessage}
    (hlink : w.link? name = some link) : w'.link? name = some link := by
  rw [HostNetwork.link?_eq_some] at hlink ⊢
  exact ⟨h.links.subset hlink.1, hlink.2⟩

theorem masquerade_exists_iff {objects : List NfListObject} {upstreamIface : String} :
    nftPostroutingMasqueradeExists objects tableName chainName upstreamIface = true ↔
      0 < objects.countP (isMasquerade tableName chainName upstreamIface) := by
  rw [nftPostroutingMasqueradeExists, List.any_eq_true, List.countP_pos_iff]

/-- A count of objects after those that are missing have been added. -/
theorem countP_added_le {p : NfListObject → Bool} {objects ruleset batch : List NfListObject}
    (perm : ruleset.Perm (objects ++ batch)) (one : batch.countP p ≤ 1)
    (missing : objects.any p = true → batch.countP p = 0) (h : objects.countP p ≤ 1) :
    ruleset.countP p ≤ 1 := by
  rw [perm.countP_eq, List.countP_append]
  cases hany : objects.any p with
  | true =>
    rw [missing hany]
    omega
  | false =>
    have hnone : objects.countP p = 0 := by
      rw [List.countP_eq_zero]
      simpa using hany
    omega

theorem countP_natBatch_table (objects : List NfListObject) (upstreamIface : String) :
    (natBatch objects upstreamIface).countP (isTable tableName) =
      if nftTableExists objects tableName then 0 else 1 := by
  unfold natBatch
  cases nftTableExists objects tableName <;> cases nftChainExists objects tableName chainName <;>
    simp [isTable, natTable, natChain, natRule]

theorem countP_natBatch_chain (objects : List NfListObject) (upstreamIface : String) :
    (natBatch objects upstreamIface).countP (isChain tableName chainName) =
      if nftChainExists objects tableName chainName then 0 else 1 := by
  unfold natBatch
  cases nftTableExists objects tableName <;> cases nftChainExists objects tableName chainName <;>
    simp [isChain, natTable, natChain, natRule]

theorem countP_natBatch_rule (objects : List NfListObject) (upstreamIface : String) :
    (natBatch objects upstreamIface).countP (isMasquerade tableName chainName upstreamIface) =
      1 := by
  unfold natBatch
  cases nftTableExists objects tableName <;> cases nftChainExists objects tableName chainName <;>
    simp [isMasquerade, natTable, natChain, natRule]

theorem mem_natBatch {objects : List NfListObject} {upstreamIface : String}
    {object : NfListObject} (h : object ∈ natBatch objects upstreamIface) :
    object = natTable ∨ object = natChain ∨ object = natRule upstreamIface := by
  simp [natBatch] at h
  tauto

/-! The bridge. -/

theorem Kernel.BridgeAdded.holders {bridge : String} {link : LinkMessage} {own : List AddressMessage}
    (h : BridgeAdded w bridge w' link own) (index : Nat) (address : Ipv4Addr) (prefixLen : Nat) :
    w'.holders index address prefixLen = w.holders index address prefixLen := by
  have hown : own.countP (assigned index address prefixLen) = 0 := by
    rw [List.countP_eq_zero]
    intro message hmem
    simp [assigned, h.ownAddresses message hmem address]
  rw [HostNetwork.holders, h.addresses, List.countP_append, hown]
  rfl

theorem BridgeEnsured.keeps {result : Except String LinkMessage} {bridge : String}
    (h : BridgeEnsured w bridge w' result) : Kept config w w' := by
  cases h with
  | kept same found => exact same ▸ Kept.refl
  | created link own absent added found =>
    refine ⟨?_, ?_, [], ?_, by simp⟩
    · rw [added.links]
      exact List.prefix_append _ _
    · rw [added.addresses]
      exact List.prefix_append _ _
    · rw [added.ruleset, List.append_nil]

theorem BridgeEnsured.tidy {result : Except String LinkMessage} {bridge : String}
    (h : BridgeEnsured w bridge w' result) (tidy : Tidy config w) : Tidy config w' := by
  cases h with
  | kept same found => exact same ▸ tidy
  | created link own absent added found =>
    refine ⟨fun index => ?_, ?_, ?_, ?_⟩
    · rw [added.holders]
      exact tidy.holders index
    all_goals rw [added.ruleset]
    exacts [tidy.tables, tidy.chains, tidy.rules]

theorem BridgeEnsured.link {bridge : String} {link : LinkMessage}
    (h : BridgeEnsured w bridge w' (.ok link)) : w'.link? bridge = some link := by
  cases h with
  | kept same found => exact same ▸ found link rfl
  | created other own absent added found => exact found link rfl

theorem BridgeEnsured.still {bridge : String} {result : Except String LinkMessage}
    {link : LinkMessage} (h : BridgeEnsured w bridge w' result)
    (present : w.link? bridge = some link) : w' = w := by
  cases h with
  | kept same found => exact same
  | created other own absent added found =>
    rw [absent] at present
    cases present

/-! The address. -/

theorem holders_added {message : AddressMessage} {index : Nat} {address : Ipv4Addr}
    {prefixLen : Nat} (isAssigned : assigned index address prefixLen message = true)
    (addresses : w'.addresses = w.addresses ++ [message]) (other : Nat) :
    w'.holders other address prefixLen =
      w.holders other address prefixLen + if other = index then 1 else 0 := by
  rw [HostNetwork.holders, addresses, List.countP_append, List.countP_singleton]
  congr 2
  simp only [assigned, Bool.and_eq_true, decide_eq_true_eq] at isAssigned ⊢
  rw [isAssigned.1.1, isAssigned.1.2, isAssigned.2]
  simp [eq_comm]

theorem AddressEnsured.keeps {index : Nat} {address : Ipv4Addr} {prefixLen : Nat}
    {result : Except String Unit} (h : AddressEnsured w index address prefixLen w' result) :
    Kept config w w' := by
  cases h with
  | kept same held => exact same ▸ Kept.refl
  | added message absent isAssigned links addresses ruleset =>
    refine ⟨links ▸ List.prefix_rfl, ?_, [], ?_, by simp⟩
    · rw [addresses]
      exact List.prefix_append _ _
    · rw [ruleset, List.append_nil]

theorem AddressEnsured.tidy {index : Nat} {result : Except String Unit}
    (h : AddressEnsured w index config.gateway config.prefixLen w' result)
    (tidy : Tidy config w) : Tidy config w' := by
  cases h with
  | kept same held => exact same ▸ tidy
  | added message absent isAssigned links addresses ruleset =>
    refine ⟨fun other => ?_, ?_, ?_, ?_⟩
    · rw [holders_added isAssigned addresses]
      have hother := tidy.holders other
      split
      · next heq =>
        subst heq
        omega
      · omega
    all_goals rw [ruleset]
    exacts [tidy.tables, tidy.chains, tidy.rules]

theorem AddressEnsured.held {index : Nat} {address : Ipv4Addr} {prefixLen : Nat}
    (h : AddressEnsured w index address prefixLen w' (.ok ())) :
    0 < w'.holders index address prefixLen := by
  cases h with
  | kept same held => exact same ▸ held rfl
  | added message absent isAssigned links addresses ruleset =>
    rw [holders_added isAssigned addresses, if_pos rfl]
    omega

theorem AddressEnsured.still {index : Nat} {address : Ipv4Addr} {prefixLen : Nat}
    {result : Except String Unit} (h : AddressEnsured w index address prefixLen w' result)
    (present : 0 < w.holders index address prefixLen) : w' = w := by
  cases h with
  | kept same held => exact same
  | added message absent isAssigned links addresses ruleset => omega

/-! The rule. -/

theorem RuleEnsured.keeps {upstreamIface : String} {result : Except String Unit}
    (isNat : config.common.upstreamIface = some upstreamIface)
    (h : RuleEnsured w upstreamIface w' result) : Kept config w w' := by
  cases h with
  | kept same held => exact same ▸ Kept.refl
  | applied absent links addresses ruleset =>
    refine ⟨links ▸ List.prefix_rfl, addresses ▸ List.prefix_rfl, _, ruleset, ?_⟩
    intro object hobject
    obtain h | h | h := mem_natBatch hobject
    · exact Or.inl h
    · exact Or.inr (Or.inl h)
    · exact Or.inr (Or.inr ⟨upstreamIface, isNat, h⟩)

theorem RuleEnsured.tidy {upstreamIface : String} {result : Except String Unit}
    (isNat : config.common.upstreamIface = some upstreamIface)
    (h : RuleEnsured w upstreamIface w' result) (tidy : Tidy config w) : Tidy config w' := by
  cases h with
  | kept same held => exact same ▸ tidy
  | applied absent links addresses ruleset =>
    refine ⟨fun index => ?_, ?_, ?_, ?_⟩
    · rw [HostNetwork.holders, addresses]
      exact tidy.holders index
    · have hcount := countP_natBatch_table w.ruleset upstreamIface
      refine countP_added_le ruleset ?_ ?_ tidy.tables
      · rw [hcount]
        split <;> omega
      · intro hexists
        rw [hcount, nftTableExists, hexists, if_pos rfl]
    · have hcount := countP_natBatch_chain w.ruleset upstreamIface
      refine countP_added_le ruleset ?_ ?_ tidy.chains
      · rw [hcount]
        split <;> omega
      · intro hexists
        rw [hcount, nftChainExists, hexists, if_pos rfl]
    · intro other hother
      obtain rfl : upstreamIface = other := Option.some.inj (isNat.symm.trans hother)
      have hcount := countP_natBatch_rule w.ruleset upstreamIface
      refine countP_added_le ruleset hcount.le ?_ (tidy.rules upstreamIface isNat)
      intro hexists
      rw [nftPostroutingMasqueradeExists, hexists] at absent
      cases absent

theorem RuleEnsured.held {upstreamIface : String} (h : RuleEnsured w upstreamIface w' (.ok ())) :
    nftPostroutingMasqueradeExists w'.ruleset tableName chainName upstreamIface = true := by
  cases h with
  | kept same held => exact same ▸ held rfl
  | applied absent links addresses ruleset =>
    rw [masquerade_exists_iff, ruleset.countP_eq, List.countP_append, countP_natBatch_rule]
    omega

theorem RuleEnsured.still {upstreamIface : String} {result : Except String Unit}
    (h : RuleEnsured w upstreamIface w' result)
    (present : nftPostroutingMasqueradeExists w.ruleset tableName chainName upstreamIface = true) :
    w' = w := by
  cases h with
  | kept same held => exact same
  | applied absent links addresses ruleset =>
    rw [absent] at present
    cases present

/-! The start. -/

theorem ModeEnsured.keeps {index : Nat} {result : Except String Unit}
    (h : ModeEnsured config w index w' result) : Kept config w w' := by
  cases h with
  | address ensured only => exact ensured.keeps
  | rule u upstreamIface isNat first ensured => exact first.keeps.trans (ensured.keeps isNat)

theorem ModeEnsured.tidy {index : Nat} {result : Except String Unit}
    (h : ModeEnsured config w index w' result) (tidy : Tidy config w) : Tidy config w' := by
  cases h with
  | address ensured only => exact ensured.tidy tidy
  | rule u upstreamIface isNat first ensured => exact ensured.tidy isNat (first.tidy tidy)

theorem RuleEnsured.addresses_eq {upstreamIface : String} {result : Except String Unit}
    (h : RuleEnsured w upstreamIface w' result) : w'.addresses = w.addresses := by
  cases h with
  | kept same held => rw [same]
  | applied absent links addresses ruleset => exact addresses

theorem ModeEnsured.ready {link : LinkMessage}
    (h : ModeEnsured config w link.index w' (.ok ())) (present : w.link? config.bridge = some link) :
    Ready config w' := by
  refine ⟨link, h.keeps.link? present, ?_⟩
  cases h with
  | address ensured only =>
    refine ⟨ensured.held, fun upstreamIface isNat => ?_⟩
    rw [only rfl] at isNat
    cases isNat
  | rule u upstreamIface isNat first ensured =>
    refine ⟨?_, fun other hother => ?_⟩
    · rw [HostNetwork.holders, ensured.addresses_eq]
      exact first.held
    · obtain rfl : upstreamIface = other := Option.some.inj (isNat.symm.trans hother)
      exact ensured.held

theorem Started.keeps {result : Except String NetworkConfigCommon}
    (h : Started config w w' result) : Kept config w w' := by
  cases h with
  | nowhere same failed => exact same ▸ Kept.refl
  | bridge error ensured failed => exact ensured.keeps
  | mode u link last first ensured succeeded => exact first.keeps.trans ensured.keeps

theorem Started.tidy {result : Except String NetworkConfigCommon}
    (h : Started config w w' result) (tidy : Tidy config w) : Tidy config w' := by
  cases h with
  | nowhere same failed => exact same ▸ tidy
  | bridge error ensured failed => exact ensured.tidy tidy
  | mode u link last first ensured succeeded => exact ensured.tidy (first.tidy tidy)

theorem Started.ready {common : NetworkConfigCommon} (h : Started config w w' (.ok common)) :
    Ready config w' := by
  cases h with
  | nowhere same failed => exact absurd rfl (failed common)
  | bridge error ensured failed => exact absurd rfl (failed common)
  | mode u link last first ensured succeeded =>
    rw [succeeded common rfl] at ensured
    exact ensured.ready first.link

theorem Started.still {result : Except String NetworkConfigCommon}
    (h : Started config w w' result) (ready : Ready config w) : w' = w := by
  obtain ⟨present, hlink, hheld, hrule⟩ := ready
  cases h with
  | nowhere same failed => exact same
  | bridge error ensured failed => exact ensured.still hlink
  | mode u link last first ensured succeeded =>
    obtain rfl := first.still hlink
    obtain rfl : present = link := Option.some.inj (hlink.symm.trans first.link)
    cases ensured with
    | address ensured only => exact ensured.still hheld
    | rule v upstreamIface isNat first ensured =>
      obtain rfl := first.still hheld
      exact ensured.still (hrule upstreamIface isNat)

/-! Runs: starts of the actor, its messages, and what others do to the host. -/

inductive NetworkAct where
  | start (result : Except String NetworkConfigCommon)
  | attachTap (vmid : Ulid) (tapName : String) (result : Except String Unit)
  | detachTap (vmid : Ulid) (tapName : String) (result : Except String Unit)
  | outside (after : HostNetwork)

def NetworkStep (config : NetworkConfig) (w : HostNetwork) : NetworkAct → HostNetwork → Prop
  | .start result, w' => Execs Answers w (onStart config) w' result
  | .attachTap vmid tapName result, w' =>
    Execs Answers w (attachTap config.common vmid tapName) w' result
  | .detachTap vmid tapName result, w' =>
    Execs Answers w (detachTap config.common vmid tapName) w' result
  | .outside after, w' => w' = after

/-- The calls that TAP devices need. -/
def isLinkCall : NetCall → Prop
  | .getLink _ => True
  | .setController _ _ => True
  | .setUp _ => True
  | _ => False

theorem only_lookupLinkByName (name : String) : (lookupLinkByName name).Only isLinkCall := by
  refine only_bind (only_ask trivial) fun answer => ?_
  cases answer <;> trivial

theorem only_orReport {ε α : Type} {message : String} {p : NetProgram (Except ε α)}
    (h : p.Only isLinkCall) : (NetCall.orReport message p).Only isLinkCall :=
  only_bind h fun _ => trivial

theorem only_attachTap (common : NetworkConfigCommon) (vmid : Ulid) (tapName : String) :
    (attachTap common vmid tapName).Only isLinkCall := by
  refine only_andThen (only_wrapErr (only_lookupLinkByName _)) fun bridge => ?_
  refine only_andThen (only_wrapErr (only_lookupLinkByName _)) fun tap => ?_
  refine only_andThen (only_orReport (only_ask trivial)) fun _ => ?_
  exact only_orReport (only_ask trivial)

theorem only_detachTap (common : NetworkConfigCommon) (vmid : Ulid) (tapName : String) :
    (detachTap common vmid tapName).Only isLinkCall := by
  refine only_andThen (only_wrapErr (only_lookupLinkByName _)) fun tap => ?_
  exact only_orReport (only_ask trivial)

/-- Links are the same ones, under the same names. -/
structure SameLinks (w w' : HostNetwork) : Prop where
  indices : ∀ name, (w'.link? name).map LinkMessage.index = (w.link? name).map LinkMessage.index
  addresses : w'.addresses = w.addresses
  ruleset : w'.ruleset = w.ruleset

theorem find?_setLink {links : List LinkMessage} {index : Nat}
    {change : LinkMessage → LinkMessage} (named : ∀ link, (change link).name = link.name)
    (name : String) :
    (links.map (setLink index change)).find? (fun link => link.name = name) =
      (links.find? fun link => link.name = name).map (setLink index change) := by
  rw [List.find?_map]
  congr 2
  funext link
  simp only [Function.comp, setLink]
  split
  · rw [named]
  · rfl

theorem Kernel.LinkSet.link? {index : Nat} {change : LinkMessage → LinkMessage}
    (h : LinkSet w index change w') (named : ∀ link, (change link).name = link.name)
    (name : String) : w'.link? name = (w.link? name).map (setLink index change) := by
  rw [HostNetwork.link?, h.links]
  exact find?_setLink named name

theorem Kernel.LinkSet.same {index : Nat} {change : LinkMessage → LinkMessage}
    (h : LinkSet w index change w') (named : ∀ link, (change link).name = link.name)
    (indexed : ∀ link, (change link).index = link.index) : SameLinks w w' where
  indices name := by
    rw [h.link? named, Option.map_map]
    congr 1
    funext link
    simp only [Function.comp, setLink]
    split
    · rw [indexed]
    · rfl
  addresses := h.addresses
  ruleset := h.ruleset

theorem sameLinks_answer {call : NetCall} {answer : call.Answer} (isLink : isLinkCall call)
    (h : Answers w call answer w') : SameLinks w w' := by
  have hsame : w' = w → SameLinks w w' := fun heq => heq ▸ ⟨fun _ => rfl, rfl, rfl⟩
  cases call with
  | getLink name => exact hsame h.1
  | setController index controller =>
    cases answer with
    | error error => exact hsame h
    | ok value => exact Kernel.LinkSet.same h (fun _ => rfl) fun _ => rfl
  | setUp index =>
    cases answer with
    | error error => exact hsame h
    | ok value => exact Kernel.LinkSet.same h (fun _ => rfl) fun _ => rfl
  | _ => cases isLink

theorem sameLinks_of_only {α : Type} {p : NetProgram α} (only : p.Only isLinkCall) {a : α}
    (h : Execs Answers w p w' a) : SameLinks w w' := by
  apply Execs.keeps (P := fun u => SameLinks w u) _ only h ⟨fun _ => rfl, rfl, rfl⟩
  intro u call answer v hlink hanswer hu
  have hv := sameLinks_answer hlink hanswer
  exact ⟨fun name => (hv.indices name).trans (hu.indices name), hv.addresses.trans hu.addresses,
    hv.ruleset.trans hu.ruleset⟩

theorem SameLinks.leavesManaged (h : SameLinks w w') : LeavesManaged config w w' where
  bridge := h.indices config.bridge
  holders index := by rw [HostNetwork.holders, HostNetwork.holders, h.addresses]
  tables := by rw [h.ruleset]
  chains := by rw [h.ruleset]
  rules _ _ := by rw [h.ruleset]

theorem LeavesManaged.tidy (h : LeavesManaged config w w') (tidy : Tidy config w) :
    Tidy config w' where
  holders index := (h.holders index).trans_le (tidy.holders index)
  tables := h.tables.trans_le tidy.tables
  chains := h.chains.trans_le tidy.chains
  rules upstreamIface isNat := (h.rules upstreamIface isNat).trans_le (tidy.rules upstreamIface isNat)

theorem LeavesManaged.ready (h : LeavesManaged config w w') (ready : Ready config w) :
    Ready config w' := by
  obtain ⟨link, hlink, hheld, hrule⟩ := ready
  have hbridge := h.bridge
  rw [hlink, Option.map_some, Option.map_eq_some_iff] at hbridge
  obtain ⟨link', hlink', hindex⟩ := hbridge
  refine ⟨link', hlink', ?_, fun upstreamIface isNat => ?_⟩
  · rw [hindex, h.holders]
    exact hheld
  · rw [masquerade_exists_iff, h.rules upstreamIface isNat, ← masquerade_exists_iff]
    exact hrule upstreamIface isNat

section Steps

variable {act : NetworkAct}

/-- What each step but a start leaves alone. -/
theorem NetworkStep.leavesManaged (h : NetworkStep config w act w')
    (left : ∀ after, act = .outside after → LeavesManaged config w after)
    (notStart : ∀ result, act ≠ .start result) : LeavesManaged config w w' := by
  cases act with
  | start result => exact absurd rfl (notStart result)
  | attachTap vmid tapName result =>
    exact (sameLinks_of_only (only_attachTap _ _ _) h).leavesManaged
  | detachTap vmid tapName result =>
    exact (sameLinks_of_only (only_detachTap _ _ _) h).leavesManaged
  | outside after =>
    obtain rfl : w' = after := h
    exact left w' rfl

theorem NetworkStep.tidy (h : NetworkStep config w act w')
    (left : ∀ after, act = .outside after → LeavesManaged config w after)
    (tidy : Tidy config w) : Tidy config w' := by
  by_cases hstart : ∃ result, act = .start result
  · obtain ⟨result, rfl⟩ := hstart
    exact (onStart_spec h).tidy tidy
  · exact (h.leavesManaged left (not_exists.mp hstart)).tidy tidy

theorem NetworkStep.ready (h : NetworkStep config w act w')
    (left : ∀ after, act = .outside after → LeavesManaged config w after)
    (ready : Ready config w) : Ready config w' := by
  by_cases hstart : ∃ result, act = .start result
  · obtain ⟨result, rfl⟩ := hstart
    exact (onStart_spec h).still ready ▸ ready
  · exact (h.leavesManaged left (not_exists.mp hstart)).ready ready

end Steps

def natConfig : NetworkConfig :=
  ⟨none, .hostonlyNat "vmbr0" ⟨0x0a000000, 24⟩ 0x0a000001 "eth0"⟩

end Odorobo
