import Fluxpeer.Control.Transactions

/-!
# The configuration of a device

`device_config` assembles what a device is told of its network from a number of separate reads.
The function is written for any way of reading: with one database for all reads it gives the
configuration of that database, and with a sequence of databases, one per read, what a call gives
while others write.
-/

namespace Fluxpeer.Control

open Net

structure PeerConfig where
  wgPublicKey : String
  allowedIps : List String
  endpoints : List String
  exit : Bool
deriving DecidableEq

structure DeviceConfig where
  overlayCidrs : List String
  networkId : String
  configEpoch : Nat
  addressV4 : Option String
  addressV6 : Option String
  peers : List PeerConfig
  relays : List RelayNode
  mtu : Option Int
  dns : List String
  selfExit : Bool
deriving DecidableEq

/-- What is read of the settings of a device: the number `mtu`, the array `dns` with the texts in
it, and the text `endpoint`. -/
structure SettingsValue where
  mtu : Option Int
  dns : Option (List (Option String))
  endpoint : Option String

/-- The texts the program reads: addresses, and settings in JSON, where a text that is no JSON has
no fields. -/
structure Texts where
  addr : AddrText
  settings : String → SettingsValue

/-- `m as i32` -/
def asI32 (m : Int) : Int := m.bmod (2 ^ 32)

section

variable (texts : Texts)

/-- A device is an exit when it has an approved default route. -/
def isExit (approved : List (String × String)) (deviceId : String) : Bool :=
  approved.any fun (did, cidr) => did = deviceId ∧ IpPrefix.isDefaultText texts.addr cidr

def allowedIps (approved : List (String × String)) (d : Device) : List String :=
  (d.addressV4.map (· ++ "/32")).toList ++ (d.addressV6.map (· ++ "/128")).toList ++
    approved.filterMap fun (did, cidr) => if did = d.id then some cidr else none

/-- The endpoint an administrator set comes before the reported ones. -/
def withOverride (settings : SettingsValue) (endpoints : List String) : List String :=
  (settings.endpoint.filter (· ≠ "")).toList ++ endpoints

variable {m : Type → Type} [Monad m] (query : {α : Type} → (Db → α) → m α)

def peerConfig (approved : List (String × String)) (d : Device) : m PeerConfig := do
  let endpoints ← query (·.getDeviceEndpoints d.id)
  let settings ← query (·.getDeviceSettings d.id)
  return {
    wgPublicKey := d.wgPublicKey
    allowedIps := allowedIps approved d
    endpoints := withOverride (texts.settings settings) endpoints
    exit := isExit texts approved d.id }

/-- The reads behind those of the device and the network. -/
def assemble (me : Device) (net : Network) : m DeviceConfig := do
  let approved ← query (·.approvedRoutesForNetwork me.networkId)
  let settings ← query (·.getDeviceSettings me.id)
  let devices ← query (·.listDevices me.networkId)
  let peers ← (devices.filter fun d => d.id ≠ me.id ∧ d.status = .active).mapM
    (peerConfig texts query approved)
  let relays ← query (·.listRelays me.networkId)
  return {
    overlayCidrs := [net.ipv4Pool, net.ipv6Ula]
    networkId := me.networkId
    configEpoch := net.configEpoch
    addressV4 := me.addressV4
    addressV6 := me.addressV6
    peers, relays
    mtu := (texts.settings settings).mtu.map asI32
    dns := ((texts.settings settings).dns.getD []).filterMap id
    selfExit := isExit texts approved me.id }

def deviceConfig (deviceId : String) : m (Except SqlStoreError DeviceConfig) := do
  match ← query (·.getDevice deviceId) with
  | none => return .error .deviceNotFound
  | some me =>
    if me.status ≠ .active then return .error .deviceNotFound
    else
      match ← query (·.getNetwork me.networkId) with
      | none => return .error .networkNotFound
      | some net => return .ok (← assemble texts query me net)

end

def Db.deviceConfig (texts : Texts) (db : Db) (deviceId : String) :
    Except SqlStoreError DeviceConfig :=
  Id.run (Control.deviceConfig texts (fun f => pure (f db)) deviceId)

/-- Reads of a sequence of databases, each of which answers one; `none` asks for more. -/
abbrev Reads := StateT (List Db) Option

def Reads.query {α : Type} (f : Db → α) : Reads α := fun
  | [] => none
  | db :: dbs => some (f db, dbs)

/-- The configuration that a call returns whose reads saw the given databases. -/
def pulled (texts : Texts) (deviceId : String) (seen : List Db) :
    Option (Except SqlStoreError DeviceConfig × List Db) :=
  deviceConfig texts Reads.query deviceId seen

end Fluxpeer.Control
