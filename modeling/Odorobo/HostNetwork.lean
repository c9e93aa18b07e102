import Odorobo.Execution
import Odorobo.ManifestCodec
import Odorobo.TapHooks

/-! The network of a host: the actor that prepares the bridge and attaches TAP
devices to it, and the provisioning hook that asks it to. -/

namespace Odorobo

abbrev Ipv4Addr := Fin (2 ^ 32)

namespace Ipv4Addr

def octet (address : Ipv4Addr) (i : Nat) : Nat := address.val / 256 ^ i % 256

def display (address : Ipv4Addr) : String :=
  ".".intercalate ([3, 2, 1, 0].map fun i => toString (octet address i))

end Ipv4Addr

structure Ipv4Net where
  addr : Ipv4Addr
  prefixLen : Fin 33
  deriving DecidableEq

inductive IpAddr where
  | v4 (address : Ipv4Addr)
  | v6 (address : Fin (2 ^ 128))
  deriving DecidableEq

structure DhcpConfig where
  range : Ipv4Addr × Ipv4Addr
  subnet : Ipv4Net
  leaseTime : String
  deriving DecidableEq

inductive NetworkMode where
  | hostonlyNat (bridge : String) (subnet : Ipv4Net) (gateway : Ipv4Addr) (upstreamIface : String)
  | bridged (bridge : String) (subnet : Ipv4Net) (gateway : Ipv4Addr)
  deriving DecidableEq

structure NetworkConfig where
  dhcpConfig : Option DhcpConfig
  networkMode : NetworkMode
  deriving DecidableEq

/-! What netlink and nftables exchange. -/

/-- `rawCode` is the code of an error that the kernel returned. -/
structure NetlinkError where
  rawCode : Option Int
  text : String
  deriving DecidableEq

namespace NetlinkError

def enodev : Int := 19
def eexist : Int := 17

end NetlinkError

structure LinkMessage where
  index : Nat
  name : String
  controller : Option Nat
  up : Bool
  deriving DecidableEq

inductive AddressAttribute where
  | address (ip : IpAddr)
  | «local» (ip : IpAddr)
  | other (kind : Nat)
  deriving DecidableEq

structure AddressMessage where
  index : Nat
  prefixLen : Nat
  attributes : List AddressAttribute
  deriving DecidableEq

namespace Nftables

inductive NfFamily where
  | ip | ip6 | inet | arp | bridge | netdev
  deriving DecidableEq

inductive Expression where
  | metaOifname
  | string (text : String)
  | other (text : String)
  deriving DecidableEq

inductive Operator where
  | eq
  | other (text : String)
  deriving DecidableEq

inductive Statement where
  | «match» (left right : Expression) (op : Operator)
  | masquerade (options : Option String)
  | other (text : String)
  deriving DecidableEq

/-- The type, hook, priority and policy of a base chain. -/
structure ChainSpec where
  type : String
  hook : String
  prio : Int
  policy : String
  deriving DecidableEq

inductive NfListObject where
  | table (family : NfFamily) (name : String)
  | chain (family : NfFamily) (table name : String) (spec : Option ChainSpec)
  | rule (family : NfFamily) (table chain : String) (expr : List Statement)
      (comment : Option String)
  | other (text : String)
  deriving DecidableEq

end Nftables

open Nftables

inductive NetCall where
  | newConnection
  | getLink (name : String)
  | addBridge (name : String)
  | spawnDhcp (config : DhcpConfig) (bridge : String)
  | getAddresses (index : Nat)
  | addAddress (index : Nat) (address : Ipv4Addr) (prefixLen : Nat)
  | getRuleset
  | applyRuleset (batch : List NfListObject)
  | setController (index : Nat) (controller : Option Nat)
  | setUp (index : Nat)
  deriving DecidableEq

/-- The messages of a dump come one by one, and an error may end them. -/
structure AddressDump where
  messages : List AddressMessage
  failed : Option NetlinkError
  deriving DecidableEq

abbrev NetCall.Answer : NetCall → Type
  | .newConnection => Except String Unit
  | .getLink _ => Option (Except NetlinkError LinkMessage)
  | .addBridge _ => Except NetlinkError Unit
  | .spawnDhcp _ _ => Unit
  | .getAddresses _ => AddressDump
  | .addAddress _ _ _ => Except NetlinkError Unit
  | .getRuleset => Except String (List NfListObject)
  | .applyRuleset _ => Except String Unit
  | .setController _ _ => Except NetlinkError Unit
  | .setUp _ => Except NetlinkError Unit

abbrev NetProgram := Program NetCall NetCall.Answer

namespace NetCall

/-- A call whose failure is reported by a message of its own. -/
def orReport {α ε : Type} (message : String) (p : NetProgram (Except ε α)) :
    NetProgram (Except String α) :=
  p.bind fun answer => .done (answer.mapError fun _ => message)

def connect : NetProgram (Except String Unit) := .ask newConnection
def get (name : String) : NetProgram (Option (Except NetlinkError LinkMessage)) :=
  .ask (getLink name)
def add (bridge : String) : NetProgram (Except NetlinkError Unit) := .ask (addBridge bridge)
def dump (index : Nat) : NetProgram AddressDump := .ask (getAddresses index)
def assign (index : Nat) (address : Ipv4Addr) (prefixLen : Nat) :
    NetProgram (Except NetlinkError Unit) := .ask (addAddress index address prefixLen)
def currentRuleset : NetProgram (Except String (List NfListObject)) := .ask getRuleset
def apply (batch : List NfListObject) : NetProgram (Except String Unit) := .ask (applyRuleset batch)
def setMaster (index : Nat) (controller : Option Nat) : NetProgram (Except NetlinkError Unit) :=
  .ask (setController index controller)
def bringUp (index : Nat) : NetProgram (Except NetlinkError Unit) := .ask (setUp index)

end NetCall

structure NetworkConfigCommon where
  bridge : String
  upstreamIface : Option String
  deriving DecidableEq

def NetworkConfig.common (config : NetworkConfig) : NetworkConfigCommon :=
  match config.networkMode with
  | .hostonlyNat bridge _ _ upstreamIface => ⟨bridge, some upstreamIface⟩
  | .bridged bridge _ _ => ⟨bridge, none⟩

namespace NetworkAgentActor

open Program NetCall

/-- The address is an attribute of the message. -/
def alreadyPresent (address : Ipv4Addr) (message : AddressMessage) : Bool :=
  message.attributes.any fun
    | .address ip => ip = .v4 address
    | .local ip => ip = .v4 address
    | .other _ => false

/-- The loop over the addresses of a link. -/
def findAddress (address : Ipv4Addr) (prefixLen : Nat) (failed : Option NetlinkError) :
    List AddressMessage → Except String Bool
  | [] => match failed with
    | some error => .error error.text
    | none => .ok false
  | message :: rest =>
    if message.prefixLen ≠ prefixLen then findAddress address prefixLen failed rest
    else if alreadyPresent address message then .ok true
    else findAddress address prefixLen failed rest

def ensureAddress (linkIndex : Nat) (linkName : String) (address : Ipv4Addr) (prefixLen : Nat) :
    NetProgram (Except String Unit) :=
  (dump linkIndex).bind fun existing =>
    match findAddress address prefixLen existing.failed existing.messages with
    | .error error => .done (.error error)
    | .ok true => .done (.ok ())
    | .ok false => (assign linkIndex address prefixLen).bind fun
      | .ok () => .done (.ok ())
      | .error error =>
        if error.rawCode = some (-NetlinkError.eexist) then .done (.ok ())
        else
          let text := address.display
          .done (.error s!"failed to add address {text}/{prefixLen} to {linkName}")

def lookupLinkByName (linkName : String) : NetProgram (Except String LinkMessage) :=
  (get linkName).bind fun
    | none => .done (.error s!"link {linkName} not found")
    | some answer => .done (answer.mapError fun _ => s!"failed to query link {linkName}")

/-! The rules of nftables. -/

def isTable (table : String) : NfListObject → Bool
  | .table family name => family = .ip && name = table
  | _ => false

def isChain (table chain : String) : NfListObject → Bool
  | .chain family of name _ => family = .ip && of = table && name = chain
  | _ => false

def isMasquerade (table chain upstreamIface : String) : NfListObject → Bool
  | .rule family of under [.match left right op, .masquerade _] _ =>
    family = .ip && of = table && under = chain && op = .eq && left = .metaOifname &&
      right = .string upstreamIface
  | _ => false

def nftTableExists (objects : List NfListObject) (table : String) : Bool :=
  objects.any (isTable table)

def nftChainExists (objects : List NfListObject) (table chain : String) : Bool :=
  objects.any (isChain table chain)

def nftPostroutingMasqueradeExists (objects : List NfListObject)
    (table chain upstreamIface : String) : Bool :=
  objects.any (isMasquerade table chain upstreamIface)

def tableName : String := "odorobo"
def chainName : String := "guest_nat"

def natTable : NfListObject := .table .ip tableName

def natChain : NfListObject :=
  .chain .ip tableName chainName (some ⟨"nat", "postrouting", 100, "accept"⟩)

def natRule (upstreamIface : String) : NfListObject :=
  .rule .ip tableName chainName
    [.match .metaOifname (.string upstreamIface) .eq, .masquerade none]
    (some "odorobo host-only NAT")

/-- What is missing of the table, the chain and the rule. -/
def natBatch (objects : List NfListObject) (upstreamIface : String) : List NfListObject :=
  (if nftTableExists objects tableName then [] else [natTable]) ++
    (if nftChainExists objects tableName chainName then [] else [natChain]) ++
    [natRule upstreamIface]

def ensureNatRules (upstreamIface : String) : NetProgram (Except String Unit) :=
  (orReport "failed to fetch current nftables ruleset" currentRuleset).andThen fun objects =>
    if nftPostroutingMasqueradeExists objects tableName chainName upstreamIface then .done (.ok ())
    else orReport
      s!"failed to apply nftables postrouting masquerade for upstream interface {upstreamIface}"
      (apply (natBatch objects upstreamIface))

/-! The actor. -/

def createBridge (bridge : String) : NetProgram (Except String LinkMessage) :=
  (orReport s!"failed to create bridge {bridge}" (add bridge)).andThen fun _ =>
    (get bridge).bind fun
      | none => .done (.error s!"bridge {bridge} was not found after creation")
      | some answer => .done (answer.mapError fun _ => s!"failed to query bridge {bridge} after creation")

/-- The bridge, created if the lookup does not find it. -/
def ensureBridge (bridge : String) : NetProgram (Except String LinkMessage) :=
  (get bridge).bind fun
    | some (.ok link) => .done (.ok link)
    | some (.error error) =>
      if error.rawCode = some (-NetlinkError.enodev) then createBridge bridge
      else .done (.error s!"failed to query bridge {bridge}")
    | none => createBridge bridge

def spawnDhcp (config : NetworkConfig) : NetProgram Unit :=
  match config.dhcpConfig with
  | some dhcp => .ask (NetCall.spawnDhcp dhcp config.common.bridge)
  | none => .done ()

def ensureGateway (index : Nat) (bridge : String) (subnet : Ipv4Net) (gateway : Ipv4Addr) :
    NetProgram (Except String Unit) :=
  let prefixLen := subnet.prefixLen.val
  let text := gateway.display
  (ensureAddress index bridge gateway prefixLen).wrapErr
    s!"failed to ensure gateway {text}/{prefixLen} exists on bridge {bridge}"

/-- The part of the start that depends on the mode. -/
def ensureMode (config : NetworkConfig) (index : Nat) : NetProgram (Except String Unit) :=
  let bridge := config.common.bridge
  match config.networkMode with
  | .hostonlyNat _ subnet gateway _ =>
    (ensureGateway index bridge subnet gateway).andThen fun _ =>
      match config.common.upstreamIface with
      | none => .done (.error "host-only NAT mode requires an upstream interface")
      | some upstream => (ensureNatRules upstream).wrapErr
          s!"failed to ensure nftables NAT rules for bridge {bridge} and upstream {upstream}"
  | .bridged _ subnet gateway => ensureGateway index bridge subnet gateway

def onStart (config : NetworkConfig) : NetProgram (Except String NetworkConfigCommon) :=
  connect.andThen fun _ =>
    (ensureBridge config.common.bridge).andThen fun bridge =>
      (spawnDhcp config).bind fun _ =>
        (ensureMode config bridge.index).andThen fun _ => .done (.ok config.common)

/-- `AttachTap` -/
def attachTap (common : NetworkConfigCommon) (vmid : Ulid) (tapName : String) :
    NetProgram (Except String Unit) :=
  let bridgeName := common.bridge
  let vm := ulidToString vmid
  ((lookupLinkByName bridgeName).wrapErr
    s!"failed to resolve bridge {bridgeName} before attaching tap {tapName}").andThen fun bridge =>
      ((lookupLinkByName tapName).wrapErr s!"failed to resolve tap {tapName} for vm {vm}").andThen
        fun tap =>
          (orReport s!"failed to attach tap {tapName} to bridge {bridgeName}"
            (setMaster tap.index (some bridge.index))).andThen fun _ =>
              orReport s!"failed to bring tap {tapName} up" (bringUp tap.index)

/-- `DetachTap` -/
def detachTap (common : NetworkConfigCommon) (vmid : Ulid) (tapName : String) :
    NetProgram (Except String Unit) :=
  let bridgeName := common.bridge
  let vm := ulidToString vmid
  ((lookupLinkByName tapName).wrapErr
    s!"failed to resolve tap {tapName} for detach on vm {vm}").andThen fun tap =>
      orReport s!"failed to detach tap {tapName} from bridge {bridgeName}"
        (setMaster tap.index none)

end NetworkAgentActor

/-! The hook, which calls the actor. -/

inductive HookCall where
  | lookup (name : String)
  | attachTap (vmid : Ulid) (tapName : String)
  | detachTap (vmid : Ulid) (tapName : String)
  deriving DecidableEq

abbrev HookCall.Answer : HookCall → Type
  | .lookup _ => Except String Bool
  | .attachTap _ _ => Except String Unit
  | .detachTap _ _ => Except String Unit

abbrev HookProgram := Program HookCall HookCall.Answer

namespace NetworkProvisioningHook

open Program

def networkAgent : HookProgram (Except String Unit) :=
  (ask (HookCall.lookup "network_actor") : HookProgram (Except String Bool)).andThen fun found =>
    .done (if found then .ok () else .error "network actor not found")

/-- One message for each device, up to the first that fails. -/
def askEach (message : String → HookProgram (Except String Unit)) (name : String) :
    List String → HookProgram (Except String Unit)
  | [] => .done (.ok ())
  | tapName :: taps =>
    ((message tapName).wrapErr s!"failed to send {name} for tap {tapName}").andThen fun _ =>
      askEach message name taps

/-- What both hooks do with their message. -/
def askTaps (ulid : UlidParser) (message : Ulid → String → HookProgram (Except String Unit))
    (name vmid : String) (config : VmConfig) : HookProgram (Except String Unit) :=
  match ulid.fromString vmid with
  | none => .done (.error "failed to parse vmid for networking hook")
  | some id =>
    if (tapNames config).isEmpty then .done (.ok ())
    else (networkAgent.wrapErr "failed to look up network actor").andThen fun _ =>
      askEach (message id) name (tapNames config)

def afterBoot (ulid : UlidParser) (vmid : String) (config : VmConfig) :
    HookProgram (Except String Unit) :=
  askTaps ulid (fun id tapName => ask (HookCall.attachTap id tapName)) "AttachTap" vmid config

def beforeStop (ulid : UlidParser) (vmid : String) (config : VmConfig) :
    HookProgram (Except String Unit) :=
  askTaps ulid (fun id tapName => ask (HookCall.detachTap id tapName)) "DetachTap" vmid config

end NetworkProvisioningHook

end Odorobo
