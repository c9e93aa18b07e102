import Odorobo.HostNetwork
import Mathlib.Data.List.Nodup

/-! The kernel below the network actor: how it answers the actor's calls, and what the
parts of the actor's start do to the network of a host. -/

namespace Odorobo

open Nftables NetworkAgentActor Program

/-- No two links of a host share a name or an index. -/
structure HostNetwork where
  links : List LinkMessage
  addresses : List AddressMessage
  ruleset : List NfListObject
  distinctNames : (links.map LinkMessage.name).Nodup
  distinctIndices : (links.map LinkMessage.index).Nodup

namespace HostNetwork

def link? (w : HostNetwork) (name : String) : Option LinkMessage :=
  w.links.find? fun link => link.name = name

theorem link?_eq_some {w : HostNetwork} {name : String} {link : LinkMessage} :
    w.link? name = some link ↔ link ∈ w.links ∧ link.name = name := by
  constructor
  · intro h
    exact ⟨List.mem_of_find?_eq_some h, by simpa using List.find?_some h⟩
  · rintro ⟨hmem, rfl⟩
    cases hfind : w.link? link.name with
    | none =>
      have hnone := List.find?_eq_none.mp hfind link hmem
      simp at hnone
    | some other =>
      have hname : other.name = link.name := by simpa using List.find?_some hfind
      rw [List.inj_on_of_nodup_map w.distinctNames (List.mem_of_find?_eq_some hfind) hmem hname]

theorem eq_of_index_eq {w : HostNetwork} {link other : LinkMessage} (hlink : link ∈ w.links)
    (hother : other ∈ w.links) (h : link.index = other.index) : link = other :=
  List.inj_on_of_nodup_map w.distinctIndices hlink hother h

end HostNetwork

/-! How the kernel answers. A call that fails changes nothing; any call may fail. -/

namespace Kernel

/-- An object that the ruleset has under that name, so that adding it again has no effect. -/
def declared (objects : List NfListObject) : NfListObject → Bool
  | .table family name => objects.any fun
    | .table family' name' => family' = family && name' = name
    | _ => false
  | .chain family table name _ => objects.any fun
    | .chain family' table' name' _ => family' = family && table' = table && name' = name
    | _ => false
  | _ => false

def addObject (objects : List NfListObject) (object : NfListObject) : List NfListObject :=
  if declared objects object then objects else objects ++ [object]

/-- The message is one about the address on the link. -/
def assigned (index : Nat) (address : Ipv4Addr) (prefixLen : Nat) (message : AddressMessage) :
    Bool :=
  message.index = index && message.prefixLen = prefixLen && alreadyPresent address message

def setLink (index : Nat) (change : LinkMessage → LinkMessage) (link : LinkMessage) :
    LinkMessage :=
  if link.index = index then change link else link

/-- A link lookup finds the link, says that there is none, or fails. -/
def Looked (w : HostNetwork) (name : String) : Option (Except NetlinkError LinkMessage) → Prop
  | some (.ok link) => w.link? name = some link
  | some (.error error) => error.rawCode = some (-NetlinkError.enodev) → w.link? name = none
  | none => w.link? name = none

/-- A new bridge is up, and may get IPv6 addresses of its own. -/
structure BridgeAdded (w : HostNetwork) (name : String) (w' : HostNetwork) (link : LinkMessage)
    (own : List AddressMessage) : Prop where
  name : link.name = name
  up : link.up = true
  controller : link.controller = none
  links : w'.links = w.links ++ [link]
  addresses : w'.addresses = w.addresses ++ own
  ownAddresses : ∀ message ∈ own, ∀ address, alreadyPresent address message = false
  ruleset : w'.ruleset = w.ruleset

/-- A change of the links with the index. -/
structure LinkSet (w : HostNetwork) (index : Nat) (change : LinkMessage → LinkMessage)
    (w' : HostNetwork) : Prop where
  links : w'.links = w.links.map (setLink index change)
  addresses : w'.addresses = w.addresses
  ruleset : w'.ruleset = w.ruleset

def Answers (w : HostNetwork) : (call : NetCall) → call.Answer → HostNetwork → Prop
  | .newConnection, _, w' => w' = w
  | .getLink name, answer, w' => w' = w ∧ Looked w name answer
  | .addBridge name, .ok (), w' => ∃ link own, BridgeAdded w name w' link own
  | .addBridge _, .error _, w' => w' = w
  | .spawnDhcp _ _, _, w' => w' = w
  | .getAddresses index, dump, w' => w' = w ∧
      dump.messages <+: w.addresses.filter (·.index = index) ∧
      (dump.failed = none → dump.messages = w.addresses.filter (·.index = index))
  | .addAddress index address prefixLen, .ok (), w' =>
      w'.links = w.links ∧ w'.ruleset = w.ruleset ∧
        ∃ message, assigned index address prefixLen message = true ∧
          w'.addresses = w.addresses ++ [message]
  | .addAddress index address prefixLen, .error error, w' => w' = w ∧
      (error.rawCode = some (-NetlinkError.eexist) →
        ∃ message ∈ w.addresses, assigned index address prefixLen message = true)
  | .getRuleset, .ok objects, w' => w' = w ∧ objects = w.ruleset
  | .getRuleset, .error _, w' => w' = w
  | .applyRuleset batch, .ok (), w' => w'.links = w.links ∧ w'.addresses = w.addresses ∧
      w'.ruleset.Perm (batch.foldl addObject w.ruleset)
  | .applyRuleset _, .error _, w' => w' = w
  | .setController index controller, .ok (), w' =>
      LinkSet w index (fun link => { link with controller := controller }) w'
  | .setController _ _, .error _, w' => w' = w
  | .setUp index, .ok (), w' => LinkSet w index (fun link => { link with up := true }) w'
  | .setUp _, .error _, w' => w' = w

end Kernel

open Kernel

variable {w w' : HostNetwork}

theorem execs_orReport {ε α : Type} {message : String} {p : NetProgram (Except ε α)}
    {result : Except String α} :
    Execs Answers w (NetCall.orReport message p) w' result ↔
      ∃ answer, Execs Answers w p w' answer ∧ result = answer.mapError fun _ => message :=
  execs_bind_done

/-! The calls of the start, each by what it does to the host. -/

theorem mapError_ok_eq {ε : Type} {answer : Except ε Unit} {message : String}
    (h : (answer.mapError fun _ => message) = .ok ()) : answer = .ok () := by
  cases answer with
  | error error => cases h
  | ok value => rfl

/-- What looking for a bridge, and creating it, does. -/
inductive BridgeEnsured (w : HostNetwork) (bridge : String) (w' : HostNetwork)
    (result : Except String LinkMessage) : Prop where
  | kept (same : w' = w) (found : ∀ link, result = .ok link → w.link? bridge = some link)
  | created (link : LinkMessage) (own : List AddressMessage) (absent : w.link? bridge = none)
      (added : BridgeAdded w bridge w' link own)
      (found : ∀ link, result = .ok link → w'.link? bridge = some link)

theorem createBridge_spec {bridge : String} {result : Except String LinkMessage}
    (absent : w.link? bridge = none) (h : Execs Answers w (createBridge bridge) w' result) :
    BridgeEnsured w bridge w' result := by
  cases execs_andThen.mp h with
  | inl herror =>
    obtain ⟨error, rfl, hadd⟩ := herror
    obtain ⟨answer, hcall, heq⟩ := execs_orReport.mp hadd
    cases answer with
    | ok value => cases heq
    | error failure => exact .kept (execs_ask.mp hcall) (by simp)
  | inr hok =>
    obtain ⟨u, value, hadd, hrest⟩ := hok
    obtain ⟨answer, hcall, heq⟩ := execs_orReport.mp hadd
    obtain rfl := mapError_ok_eq heq.symm
    obtain ⟨link, own, hadded⟩ := execs_ask.mp hcall
    obtain ⟨v, answer, hget, hdone⟩ := execs_bind.mp hrest
    obtain ⟨rfl, hlooked⟩ := execs_ask.mp hget
    cases answer with
    | none =>
      obtain ⟨rfl, rfl⟩ := execs_done.mp hdone
      exact .created link own absent hadded (by simp)
    | some answer =>
      obtain ⟨rfl, rfl⟩ := execs_done.mp hdone
      refine .created link own absent hadded ?_
      intro found hfound
      cases answer with
      | error error => cases hfound
      | ok other => exact (Except.ok.inj hfound) ▸ hlooked

theorem ensureBridge_spec {bridge : String} {result : Except String LinkMessage}
    (h : Execs Answers w (ensureBridge bridge) w' result) : BridgeEnsured w bridge w' result := by
  obtain ⟨u, answer, hget, hrest⟩ := execs_bind.mp h
  obtain ⟨rfl, hlooked⟩ := execs_ask.mp hget
  cases answer with
  | none => exact createBridge_spec hlooked hrest
  | some answer =>
    cases answer with
    | ok link =>
      obtain ⟨rfl, rfl⟩ := execs_done.mp hrest
      exact .kept rfl fun other hother => (Except.ok.inj hother) ▸ hlooked
    | error error =>
      dsimp only at hrest
      split at hrest
      · next hcode => exact createBridge_spec (hlooked hcode) hrest
      · obtain ⟨rfl, rfl⟩ := execs_done.mp hrest
        exact .kept rfl (by simp)

/-- How many messages tell of the address on the link. -/
def HostNetwork.holders (w : HostNetwork) (index : Nat) (address : Ipv4Addr) (prefixLen : Nat) :
    Nat :=
  w.addresses.countP (assigned index address prefixLen)

/-- What the loop over the addresses finds. -/
theorem findAddress_ok {address : Ipv4Addr} {prefixLen : Nat} {failed : Option NetlinkError}
    {messages : List AddressMessage} {found : Bool}
    (h : findAddress address prefixLen failed messages = .ok found) :
    (found = false → failed = none) ∧
    (found = true ↔
      ∃ message ∈ messages, message.prefixLen = prefixLen ∧ alreadyPresent address message = true) := by
  induction messages with
  | nil =>
    cases failed with
    | some failure => cases h
    | none =>
      obtain rfl := Except.ok.inj h
      simp
  | cons message rest ih =>
    rw [findAddress] at h
    split at h
    · next hother => simpa [hother] using ih h
    · next hsame =>
      split at h
      · next hpresent =>
        obtain rfl := Except.ok.inj h
        simp_all
      · next habsent => simpa [habsent] using ih h

/-- What making sure of an address does. -/
inductive AddressEnsured (w : HostNetwork) (index : Nat) (address : Ipv4Addr) (prefixLen : Nat)
    (w' : HostNetwork) (result : Except String Unit) : Prop where
  | kept (same : w' = w) (held : result = .ok () → 0 < w.holders index address prefixLen)
  | added (message : AddressMessage) (absent : w.holders index address prefixLen = 0)
      (isAssigned : assigned index address prefixLen message = true) (links : w'.links = w.links)
      (addresses : w'.addresses = w.addresses ++ [message]) (ruleset : w'.ruleset = w.ruleset)

theorem holders_pos {index : Nat} {address : Ipv4Addr} {prefixLen : Nat}
    {message : AddressMessage} (hmem : message ∈ w.addresses)
    (h : assigned index address prefixLen message = true) : 0 < w.holders index address prefixLen :=
  List.countP_pos_iff.mpr ⟨message, hmem, h⟩

theorem ensureAddress_spec {index : Nat} {name : String} {address : Ipv4Addr} {prefixLen : Nat}
    {result : Except String Unit}
    (h : Execs Answers w (ensureAddress index name address prefixLen) w' result) :
    AddressEnsured w index address prefixLen w' result := by
  obtain ⟨u, dump, hdump, hrest⟩ := execs_bind.mp h
  obtain ⟨rfl, hsome, hall⟩ := execs_ask.mp hdump
  dsimp only at hrest
  split at hrest
  · obtain ⟨rfl, rfl⟩ := execs_done.mp hrest
    exact .kept rfl (by simp)
  · next hfound =>
    obtain ⟨rfl, rfl⟩ := execs_done.mp hrest
    refine .kept rfl fun _ => ?_
    obtain ⟨message, hmem, hprefix, hpresent⟩ := (findAddress_ok hfound).2.mp rfl
    have hlisted := List.mem_filter.mp (hsome.subset hmem)
    exact holders_pos hlisted.1 (by simp_all [assigned])
  · next hfound =>
    have hnone : u.holders index address prefixLen = 0 := by
      rw [HostNetwork.holders, List.countP_eq_zero]
      intro message hmem hassigned
      simp only [assigned, Bool.and_eq_true, decide_eq_true_eq] at hassigned
      have hlisted : message ∈ dump.messages := by
        rw [hall ((findAddress_ok hfound).1 rfl)]
        exact List.mem_filter.mpr ⟨hmem, decide_eq_true hassigned.1.1⟩
      have htrue := (findAddress_ok hfound).2.mpr
        ⟨message, hlisted, hassigned.1.2, hassigned.2⟩
      cases htrue
    obtain ⟨v, answer, hadd, hdone⟩ := execs_bind.mp hrest
    cases answer with
    | ok value =>
      obtain ⟨hlinks, hruleset, message, hassigned, haddresses⟩ := execs_ask.mp hadd
      obtain ⟨rfl, rfl⟩ := execs_done.mp hdone
      exact .added message hnone hassigned hlinks haddresses hruleset
    | error error =>
      obtain ⟨rfl, hexists⟩ := execs_ask.mp hadd
      dsimp only at hdone
      split at hdone
      · next hcode =>
        obtain ⟨rfl, rfl⟩ := execs_done.mp hdone
        obtain ⟨message, hmem, hassigned⟩ := hexists hcode
        exact .kept rfl fun _ => holders_pos hmem hassigned
      · obtain ⟨rfl, rfl⟩ := execs_done.mp hdone
        exact .kept rfl (by simp)

/-! The rules. -/

theorem addObject_natTable {objects : List NfListObject}
    (h : nftTableExists objects tableName = false) :
    addObject objects natTable = objects ++ [natTable] := by
  have hdeclared : declared objects natTable = false := h
  rw [addObject, hdeclared, if_neg Bool.false_ne_true]

theorem addObject_natChain {objects : List NfListObject}
    (h : nftChainExists objects tableName chainName = false) :
    addObject objects natChain = objects ++ [natChain] := by
  have hdeclared : declared objects natChain = false := h
  rw [addObject, hdeclared, if_neg Bool.false_ne_true]

theorem addObject_natRule (objects : List NfListObject) (upstreamIface : String) :
    addObject objects (natRule upstreamIface) = objects ++ [natRule upstreamIface] := rfl

/-- A batch has nothing in it that the ruleset has already. -/
theorem foldl_addObject_natBatch (objects : List NfListObject) (upstreamIface : String) :
    (natBatch objects upstreamIface).foldl addObject objects =
      objects ++ natBatch objects upstreamIface := by
  have hadded : nftChainExists (objects ++ [natTable]) tableName chainName =
      nftChainExists objects tableName chainName := by
    simp [nftChainExists, natTable, isChain]
  unfold natBatch
  cases htable : nftTableExists objects tableName <;>
    cases hchain : nftChainExists objects tableName chainName <;>
    rw [hchain] at hadded <;>
    simp [addObject_natTable, addObject_natChain, addObject_natRule, htable, hchain, hadded]

/-- What making sure of the rule does. -/
inductive RuleEnsured (w : HostNetwork) (upstreamIface : String) (w' : HostNetwork)
    (result : Except String Unit) : Prop where
  | kept (same : w' = w) (held : result = .ok () →
      nftPostroutingMasqueradeExists w.ruleset tableName chainName upstreamIface = true)
  | applied (absent :
      nftPostroutingMasqueradeExists w.ruleset tableName chainName upstreamIface = false)
      (links : w'.links = w.links) (addresses : w'.addresses = w.addresses)
      (ruleset : w'.ruleset.Perm (w.ruleset ++ natBatch w.ruleset upstreamIface))

theorem ensureNatRules_spec {upstreamIface : String} {result : Except String Unit}
    (h : Execs Answers w (ensureNatRules upstreamIface) w' result) :
    RuleEnsured w upstreamIface w' result := by
  cases execs_andThen.mp h with
  | inl herror =>
    obtain ⟨error, rfl, hread⟩ := herror
    obtain ⟨answer, hcall, heq⟩ := execs_orReport.mp hread
    cases answer with
    | ok objects => cases heq
    | error failure => exact .kept (execs_ask.mp hcall) (by simp)
  | inr hok =>
    obtain ⟨u, objects, hread, hrest⟩ := hok
    obtain ⟨answer, hcall, heq⟩ := execs_orReport.mp hread
    cases answer with
    | error failure => cases heq
    | ok listed =>
      obtain rfl := Except.ok.inj heq
      obtain ⟨rfl, rfl⟩ := execs_ask.mp hcall
      split at hrest
      · next hexists =>
        obtain ⟨rfl, rfl⟩ := execs_done.mp hrest
        exact .kept rfl fun _ => hexists
      · next habsent =>
        obtain ⟨answer, happly, rfl⟩ := execs_orReport.mp hrest
        cases answer with
        | error failure => exact .kept (execs_ask.mp happly) (by simp [Except.mapError])
        | ok value =>
          obtain ⟨hlinks, haddresses, hruleset⟩ := execs_ask.mp happly
          rw [foldl_addObject_natBatch] at hruleset
          exact .applied (by simpa using habsent) hlinks haddresses hruleset

end Odorobo
