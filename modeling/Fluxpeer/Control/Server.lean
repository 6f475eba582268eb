import Fluxpeer.Control.Config
import Fluxpeer.Lib.HashMap
import Fluxpeer.Lib.Run

/-!
# Stores and their calls

Any number of stores share the database. A call of a store is a sequence of steps, each of which is
one statement, one attempt at a transaction, or one access to the broadcasters of the store, and the
steps of different calls come in any order. A transaction may fail with an error of the database;
it is then tried again or not, as the retry loop has it.

A broadcaster is a channel that keeps the last epoch sent. It is described by all values sent so
far, of which its receivers count how many they have seen.
-/

namespace Fluxpeer.Control

open Lib Net

/-! ## Broadcasters -/

/-- A watch channel for the epochs of a network. -/
structure Channel where
  network : String
  sent : List Nat
  receivers : Nat
  /-- The sender is gone. -/
  closed : Bool
deriving DecidableEq

namespace Channel

/-- `watch::channel(0).0` -/
def new (network : String) : Channel := ⟨network, [], 0, false⟩

def value (c : Channel) : Nat := c.sent.getLastD 0

/-- `send` keeps the value only if someone receives it. -/
def send (c : Channel) (epoch : Nat) : Channel :=
  if c.receivers = 0 then c else { c with sent := c.sent ++ [epoch] }

/-- `send_if_modified` with the closure of `notify` -/
def sendNewer (c : Channel) (epoch : Nat) : Channel :=
  if epoch ≤ c.value then c else { c with sent := c.sent ++ [epoch] }

/-- `send_replace` by a sender that is dropped after it. -/
def sendLast (c : Channel) (epoch : Nat) : Channel :=
  { c with sent := c.sent ++ [epoch], closed := true }

def close (c : Channel) : Channel := { c with closed := true }

end Channel

/-! ## Calls -/

inductive Transaction
  | nextSeq (name : String) (idx : Nat)
  | createInvite (networkId : String) (expiresAt : Option Int) (maxUses : Option Nat)
  | deleteNetwork (networkId : String)
  | revokeInvite (networkId code : String)
  | enroll (code name key : String) (now : Int)
  | importDevices (networkId : String) (devices : List ImportDevice) (keys : List String)
  | revokeDevice (deviceId : String)
  | advertiseRoute (deviceId cidr : String)
  | deviceRouteChange (device token cidr : String) (withdraw : Bool)
  | registerRelay (region url : String) (networkId : Option String) (anytls : Bool)
      (stunUrl nodeId publicKey : Option String)
  | updateRelay (relay : RelayNode)
  | setEndpoints (deviceId : String) (endpoints : List String)
  | reportStats (stats : DeviceStats)

inductive Task
  | transaction (tx : Transaction) (attempt : Nat)
  | insertNetwork (net : Network)
  | openChannel (networkId : String)
  | approveRead (routeId : String)
  | approveWrite (routeId networkId : String)
  | deleteRead (routeId : String)
  | deleteWrite (routeId : String) (read : Route)
  | settingsRead (deviceId json : String)
  | settingsWrite (deviceId json networkId : String)
  | renameRead (deviceId name : String)
  | renameWrite (deviceId name : String)
  | bump (networkId : String)
  | bumpRead (networkId : String)
  | bumpSend (networkId : String) (epoch : Nat)
  | notifyRead (networkId : String) (rest : List String)
  | notifySend (networkId : String) (epoch : Nat) (rest : List String)
  | closeChannel (networkId : String) (epoch : Nat)

/-- The notifications of networks, one after the other. -/
def notifyAll : List String → Option Task
  | [] => none
  | n :: rest => some (.notifyRead n rest)

def ipv4Pool (idx : Nat) : String := "100.72." ++ Nat.repr (idx % 200 + 16) ++ ".0/24"

def hex4 (n : Nat) : String :=
  String.ofList ([n / 4096 % 16, n / 256 % 16, n / 16 % 16, n % 16].map PublicKey.hexDigit)

def ipv6Ula (idx : Nat) : String := "fd72:15ab:" ++ hex4 (idx % 65536) ++ "::/48"

/-- The network that `create_network` inserts. -/
def newNetwork (name : String) (idx seq : Nat) : Network :=
  { id := "net-" ++ Nat.repr seq, name, ipv4Pool := ipv4Pool idx, ipv6Ula := ipv6Ula idx,
    configEpoch := 0 }

/-- What the environment decides in a step: the random text drawn in it, and whether the database
fails. -/
structure Env where
  draw : String
  fault : Option DbError

section Calls

variable (text : AddrText)

/-- The database a transaction commits, and what its call does after that. -/
def Transaction.run (db : Db) (draw : String) :
    Transaction → Except SqlStoreError (Db × Option Task)
  | .nextSeq name idx =>
    db.next.map fun (db, seq) => (db, some (.insertNetwork (newNetwork name idx seq)))
  | .createInvite networkId expiresAt maxUses =>
    (db.createInviteOnce networkId expiresAt maxUses draw).map fun (db, _) => (db, none)
  | .deleteNetwork networkId =>
    (db.deleteNetworkOnce networkId).map fun (db, net) =>
      (db, some (.closeChannel networkId (net.configEpoch + 1)))
  | .revokeInvite networkId code => (db.revokeInviteOnce networkId code).map fun db => (db, none)
  | .enroll code name key now =>
    (db.enrollOnce text code name key now draw).map fun (db, device, _) =>
      (db, notifyAll [device.networkId])
  | .importDevices networkId devices keys =>
    (db.importOnce networkId devices keys).map fun (db, _) => (db, notifyAll [networkId])
  | .revokeDevice deviceId =>
    (db.revokeDeviceOnce deviceId).map fun (db, networkId) => (db, notifyAll [networkId])
  | .advertiseRoute deviceId cidr =>
    (db.advertiseRouteOnce text deviceId cidr).map fun (db, _) => (db, none)
  | .deviceRouteChange device token cidr withdraw =>
    (db.deviceRouteChangeOnce text device token cidr withdraw).map fun (db, _) => (db, none)
  | .registerRelay region url networkId anytls stunUrl nodeId publicKey =>
    (db.registerRelayOnce region url networkId anytls stunUrl nodeId publicKey).map
      fun (db, networks) => (db, notifyAll networks)
  | .updateRelay relay =>
    (db.updateRelayOnce relay).map fun (db, networks) => (db, notifyAll networks)
  | .setEndpoints deviceId endpoints =>
    (db.setEndpointsOnce deviceId endpoints).map fun (db, networkId) => (db, notifyAll [networkId])
  | .reportStats stats => (db.reportStatsOnce stats).map fun db => (db, none)

/-- The calls that keep the retry policy for PostgreSQL. -/
def Transaction.legacyPgRetry : Transaction → Bool
  | .nextSeq .. | .enroll .. | .importDevices .. | .revokeDevice .. => true
  | _ => false

/-- `contention::retry`: the number of the next attempt after an error, if there is one. -/
def nextAttempt (legacyPgRetry : Bool) (attempt : Nat) : SqlStoreError → Option Nat
  | .db .busy => if 2 ≤ attempt then none else some (attempt + 1)
  | .db .serialization => if legacyPgRetry ∧ attempt < 7 then some (attempt + 1) else none
  | _ => none

def Transaction.attempt (env : Env) (db : Db) (tx : Transaction) :
    Except SqlStoreError (Db × Option Task) :=
  match env.fault with
  | some e => .error (.db e)
  | none => tx.run text db env.draw

/-- One step of a call: the database after it and what is left to do. -/
def Task.step (env : Env) (db : Db) : Task → Db × Option Task
  | .transaction tx attempt =>
    match tx.attempt text env db with
    | .ok result => result
    | .error e => (db, (nextAttempt tx.legacyPgRetry attempt e).map (.transaction tx))
  | .insertNetwork net =>
    match db.insertNetwork net with
    | .ok db => (db, some (.openChannel net.id))
    | .error _ => (db, none)
  | .openChannel _ => (db, none)
  | .approveRead routeId => (db, (db.getRoute routeId).map fun r => .approveWrite routeId r.networkId)
  | .approveWrite routeId networkId => (db.setRouteApproved routeId true, some (.bump networkId))
  | .deleteRead routeId => (db, (db.getRoute routeId).map (.deleteWrite routeId))
  | .deleteWrite routeId r =>
    (db.deleteRoute routeId, if r.approved then some (.bump r.networkId) else none)
  | .settingsRead deviceId json =>
    (db, (db.getDevice deviceId).map fun d => .settingsWrite deviceId json d.networkId)
  | .settingsWrite deviceId json networkId =>
    (db.setDeviceSettings deviceId json, some (.bump networkId))
  | .renameRead deviceId name => (db, (db.getDevice deviceId).map fun _ => .renameWrite deviceId name)
  | .renameWrite deviceId name => (db.setDeviceName deviceId name, none)
  | .bump networkId => (db.bumpNetworkEpoch networkId, some (.bumpRead networkId))
  | .bumpRead networkId =>
    (db, (db.getNetwork networkId).map fun net => .bumpSend networkId net.configEpoch)
  | .bumpSend _ _ => (db, none)
  | .notifyRead networkId rest =>
    -- A failed read of the epoch is logged and the notification skipped.
    match env.fault, db.getNetwork networkId with
    | none, some net => (db, some (.notifySend networkId net.configEpoch rest))
    | _, _ => (db, notifyAll rest)
  | .notifySend _ _ rest => (db, notifyAll rest)
  | .closeChannel _ _ => (db, none)

inductive Call
  | createNetwork (name : String)
  | createInvite (networkId : String) (expiresAt : Option Int) (maxUses : Option Nat)
  | deleteNetwork (networkId : String)
  | revokeInvite (networkId code : String)
  | enroll (code name wgPublicKey : String) (now : Int)
  | importDevices (networkId : String) (devices : List ImportDevice)
  | revokeDevice (deviceId : String)
  | renameDevice (deviceId name : String)
  | setDeviceSettings (deviceId json : String)
  | advertiseRoute (deviceId cidr : String)
  | deviceRouteChange (device token cidr : String) (withdraw : Bool)
  | approveRoute (routeId : String)
  | deleteRoute (routeId : String)
  | registerRelay (region url : String) (networkId : Option String) (anytls : Bool)
      (stunUrl nodeId publicKey : Option String)
  | updateRelay (relay : RelayNode)
  | setEndpoints (deviceId : String) (endpoints : List String)
  | reportStats (stats : DeviceStats)

/-- A fixed address in the form the allocator writes. -/
def canonicalAddress (d : ImportDevice) : Option ImportDevice :=
  match d.addressV4 with
  | none => some d
  | some value =>
    (parseV4 text value).map fun octets => { d with addressV4 := some (text.display (.v4 octets)) }

/-- The first thing a call does with the database, unless its arguments are refused. -/
def Call.start (idx : Nat) : Call → Option Task
  | .createNetwork name => some (.transaction (.nextSeq name idx) 0)
  | .createInvite networkId expiresAt maxUses =>
    some (.transaction (.createInvite networkId expiresAt maxUses) 0)
  | .deleteNetwork networkId => some (.transaction (.deleteNetwork networkId) 0)
  | .revokeInvite networkId code => some (.transaction (.revokeInvite networkId code) 0)
  | .enroll code name wgPublicKey now =>
    (PublicKey.normalize wgPublicKey).map fun key => .transaction (.enroll code name key now) 0
  | .importDevices networkId devices =>
    (devices.mapM (canonicalAddress text)).bind fun devices =>
      (devices.mapM fun d => PublicKey.normalize d.wgPublicKey).map fun keys =>
        .transaction (.importDevices networkId devices keys) 0
  | .revokeDevice deviceId => some (.transaction (.revokeDevice deviceId) 0)
  | .renameDevice deviceId name => some (.renameRead deviceId name)
  | .setDeviceSettings deviceId json => some (.settingsRead deviceId json)
  | .advertiseRoute deviceId cidr => some (.transaction (.advertiseRoute deviceId cidr) 0)
  | .deviceRouteChange device token cidr withdraw =>
    some (.transaction (.deviceRouteChange device token cidr withdraw) 0)
  | .approveRoute routeId => some (.approveRead routeId)
  | .deleteRoute routeId => some (.deleteRead routeId)
  | .registerRelay region url networkId anytls stunUrl nodeId publicKey =>
    some (.transaction (.registerRelay region url networkId anytls stunUrl nodeId publicKey) 0)
  | .updateRelay relay => some (.transaction (.updateRelay relay) 0)
  | .setEndpoints deviceId endpoints => some (.transaction (.setEndpoints deviceId endpoints) 0)
  | .reportStats stats => some (.transaction (.reportStats stats) 0)

def Call.isCreate : Call → Bool
  | .createNetwork _ => true
  | _ => false

end Calls

/-! ## Stores -/

abbrev StoreId := Nat
abbrev CallId := Nat
abbrev ChannelId := Nat

/-- What a store keeps in memory. -/
structure Local where
  netIndex : Nat
  epochTx : HashMap String ChannelId

structure Running where
  store : StoreId
  task : Task

structure Server where
  db : Db
  stores : StoreId → Local
  channels : ChannelId → Channel
  nextChannel : ChannelId
  calls : CallId → Option Running
  nextCall : CallId

inductive Event
  | call (store : StoreId) (c : Call)
  | advance (id : CallId) (env : Env)
  /-- A device starts to watch a network of a store. -/
  | subscribe (store : StoreId) (networkId : String)
  | unsubscribe (channel : ChannelId)
  /-- A process starts, or starts again: its calls and broadcasters are gone. -/
  | connect (store : StoreId)

namespace Server

def init : Server :=
  { db := .empty, stores := fun _ => ⟨0, ∅⟩, channels := fun _ => .new "", nextChannel := 0,
    calls := fun _ => none, nextCall := 0 }

def setStore (s : Server) (store : StoreId) (l : Local) : Server :=
  { s with stores := Function.update s.stores store l }

def setChannel (s : Server) (id : ChannelId) (c : Channel) : Server :=
  { s with channels := Function.update s.channels id c }

/-- The channel a store has for a network. -/
def sender (s : Server) (store : StoreId) (networkId : String) : Option ChannelId :=
  (s.stores store).epochTx.lookup networkId

/-- Change the channel a store has for a network, if it has one. -/
def onSender (s : Server) (store : StoreId) (networkId : String) (f : Channel → Channel) : Server :=
  match s.sender store networkId with
  | some id => s.setChannel id (f (s.channels id))
  | none => s

/-- A channel of its own for a network. -/
def addChannel (s : Server) (store : StoreId) (networkId : String) : Server :=
  { s.setStore store
      { s.stores store with epochTx := (s.stores store).epochTx.insert networkId s.nextChannel } with
    channels := Function.update s.channels s.nextChannel (.new networkId)
    nextChannel := s.nextChannel + 1 }

/-- Create the channel if it is missing and count one more receiver. -/
def subscribe (s : Server) (store : StoreId) (networkId : String) : Server × ChannelId :=
  let s := if (s.sender store networkId).isSome then s else s.addChannel store networkId
  let id := (s.sender store networkId).getD 0
  (s.setChannel id { s.channels id with receivers := (s.channels id).receivers + 1 }, id)

/-- What a step of a call does to the broadcasters of its store. -/
def publish (s : Server) (store : StoreId) : Task → Server
  | .openChannel networkId => (s.onSender store networkId .close).addChannel store networkId
  | .bumpSend networkId epoch => s.onSender store networkId (·.send epoch)
  | .notifySend networkId epoch _ => s.onSender store networkId (·.sendNewer epoch)
  | .closeChannel networkId epoch =>
    let s := s.onSender store networkId (·.sendLast epoch)
    s.setStore store { s.stores store with epochTx := (s.stores store).epochTx.erase networkId }
  | _ => s

/-- Close the channels that a store still has. -/
def closeAll (s : Server) (store : StoreId) : Server :=
  { s with
    channels := fun id =>
      if id ∈ (s.stores store).epochTx.entries.map (·.2) then (s.channels id).close
      else s.channels id }

def connect (s : Server) (store : StoreId) : Server :=
  let s := s.closeAll store
  { s.setStore store ⟨s.db.countNetworks, ∅⟩ with
    calls := fun id => (s.calls id).filter fun r => r.store ≠ store }

section Steps

variable (text : AddrText)

def call (s : Server) (store : StoreId) (c : Call) : Server :=
  let l := s.stores store
  let s := if c.isCreate then s.setStore store { l with netIndex := l.netIndex + 1 } else s
  { s with
    calls := Function.update s.calls s.nextCall ((c.start text l.netIndex).map (⟨store, ·⟩))
    nextCall := s.nextCall + 1 }

def advance (s : Server) (id : CallId) (env : Env) (r : Running) : Server :=
  let (db, next) := r.task.step text env s.db
  { s.publish r.store r.task with
    db, calls := Function.update s.calls id (next.map (⟨r.store, ·⟩)) }

def step (s : Server) : Event → Option Server
  | .call store c => some (s.call text store c)
  | .advance id env => (s.calls id).map (s.advance text id env)
  | .subscribe store networkId => some (s.subscribe store networkId).1
  | .unsubscribe id =>
    let c := s.channels id
    if c.receivers = 0 then none else some (s.setChannel id { c with receivers := c.receivers - 1 })
  | .connect store => some (s.connect store)

def Quiescent (s : Server) : Prop := ∀ id, s.calls id = none

end Steps

end Server

end Fluxpeer.Control
