import Fluxpeer.Lib.Table
import Fluxpeer.Net.PublicKey
import Mathlib.Data.Char

/-!
# The control database

The tables of the coordination store and the statements that read and write them. A statement runs
by itself or as part of a transaction; in both cases it is one step that nothing interrupts. The
indexes are those of the schema: a primary key for each table, and for the active devices of a
network one of public keys and one of IPv4 addresses.
-/

namespace Fluxpeer.Control

open Lib Net

/-! ## Entities -/

structure Network where
  id : String
  name : String
  ipv4Pool : String
  ipv6Ula : String
  configEpoch : Nat
deriving DecidableEq

inductive DeviceStatus
  | active
  | revoked
deriving DecidableEq

structure Device where
  id : String
  networkId : String
  name : String
  wgPublicKey : String
  addressV4 : Option String
  addressV6 : Option String
  status : DeviceStatus
deriving DecidableEq

/-- A device with the columns that are read and written apart from it. -/
structure DeviceRow extends Device where
  endpoints : Option String
  settings : Option String
  authToken : Option String
deriving DecidableEq

structure Invite where
  code : String
  networkId : String
  expiresAt : Option Int
  maxUses : Option Nat
  uses : Nat
deriving DecidableEq

structure RelayNode where
  id : String
  region : String
  url : String
  networkId : Option String
  anytls : Bool
  stunUrl : Option String
  nodeId : Option String
  publicKey : Option String
deriving DecidableEq

structure Route where
  id : String
  networkId : String
  deviceId : String
  /-- The `prefix` of the source. -/
  cidr : String
  approved : Bool
deriving DecidableEq

structure DeviceStats where
  deviceId : String
  rxBytes : Int
  txBytes : Int
  peers : String
  updatedAt : Int
deriving DecidableEq

/-- What the database reports as an error of its own. -/
inductive DbError
  /-- SQLite's busy and locked codes. -/
  | busy
  /-- PostgreSQL's serialization failure and deadlock. -/
  | serialization
  /-- A unique index refused a row. -/
  | unique
  | protocol (message : String)
  | other
deriving DecidableEq

inductive SqlStoreError
  | networkNotFound
  | deviceNotFound
  | relayNotFound
  | routeNotFound
  | deviceUnauthorized
  | deviceForbidden
  | routeApproved
  | invalidPrefix
  | invalidKey
  | invalidAddress
  | invalidInvite
  | poolExhausted
  | badPool (pool : String)
  | db (error : DbError)
deriving DecidableEq

/-! ## Tables -/

def Network.indexes : List (Index Network) := [fun n => some [n.id]]

namespace DeviceRow

def primaryKey : Index DeviceRow := fun d => some [d.id]

/-- `device_network_active_key` -/
def activeKey : Index DeviceRow := fun d =>
  if d.status = .active then some [d.networkId, d.wgPublicKey] else none

/-- `device_network_active_v4`; a null address is equal to no other. -/
def activeV4 : Index DeviceRow := fun d =>
  if d.status = .active then d.addressV4.map fun v4 => [d.networkId, v4] else none

def indexes : List (Index DeviceRow) := [primaryKey, activeKey, activeV4]

end DeviceRow

def Invite.indexes : List (Index Invite) := [fun i => some [i.code]]

def Route.indexes : List (Index Route) := [fun r => some [r.id]]

def RelayNode.indexes : List (Index RelayNode) := [fun r => some [r.id]]

def DeviceStats.indexes : List (Index DeviceStats) := [fun s => some [s.deviceId]]

structure Db where
  networks : Table Network.indexes
  devices : Table DeviceRow.indexes
  invites : Table Invite.indexes
  routes : Table Route.indexes
  relays : Table RelayNode.indexes
  stats : Table DeviceStats.indexes
  /-- The value of the `entity` sequence. -/
  entity : Nat

/-- A change that leaves alone what the only index of a table is about. -/
lemma narrows_single {ρ : Type*} {index : Index ρ} {f : ρ → ρ} (h : ∀ r, index (f r) = index r) :
    Table.Narrows [index] f := by
  intro index' hmem r
  cases List.mem_singleton.mp hmem
  exact .inr (h r)

/-- A change that leaves alone what the indexes of the device table are about. -/
lemma DeviceRow.narrows {f : DeviceRow → DeviceRow} (hid : ∀ d, (f d).id = d.id)
    (hnetwork : ∀ d, (f d).networkId = d.networkId)
    (hkey : ∀ d, (f d).wgPublicKey = d.wgPublicKey) (hv4 : ∀ d, (f d).addressV4 = d.addressV4)
    (hstatus : ∀ d, (f d).status = d.status) : Table.Narrows DeviceRow.indexes f := by
  intro index hmem d
  simp only [DeviceRow.indexes, List.mem_cons, List.not_mem_nil, or_false] at hmem
  right
  rcases hmem with rfl | rfl | rfl
  · simp only [primaryKey, hid]
  · simp only [activeKey, hstatus, hnetwork, hkey]
  · simp only [activeV4, hstatus, hnetwork, hv4]

/-- The row of a device after `UPDATE device SET status = 'revoked'`: no credential and no
addresses. -/
def DeviceRow.revoke (d : DeviceRow) : DeviceRow :=
  { d with status := .revoked, authToken := none, addressV4 := none, addressV6 := none }

lemma DeviceRow.narrows_revoke : Table.Narrows DeviceRow.indexes DeviceRow.revoke := by
  intro index hmem d
  simp only [DeviceRow.indexes, List.mem_cons, List.not_mem_nil, or_false] at hmem
  rcases hmem with rfl | rfl | rfl
  · exact .inr rfl
  · exact .inl rfl
  · exact .inl rfl

namespace Db

def empty : Db := ⟨.empty, .empty, .empty, .empty, .empty, .empty, 0⟩

/-! ## The sequence -/

/-- `integrity::next` -/
def next (db : Db) : Except SqlStoreError (Db × Nat) :=
  if db.entity < 9223372036854775807 then .ok ({ db with entity := db.entity + 1 }, db.entity + 1)
  else .error (.db (.protocol "entity ID sequence exhausted or missing"))

/-! ## Routes -/

def insertRoute (db : Db) (r : Route) : Except SqlStoreError Db :=
  match db.routes.insert? r with
  | some routes => .ok { db with routes }
  | none => .error (.db .unique)

def getRoute (db : Db) (id : String) : Option Route := db.routes.find? fun r => r.id = id

def listRoutesForDevice (db : Db) (deviceId : String) : List Route :=
  db.routes.select fun r => if r.deviceId = deviceId then some r else none

def approvedRoutesForNetwork (db : Db) (networkId : String) : List (String × String) :=
  db.routes.select fun r =>
    if r.networkId = networkId ∧ r.approved then some (r.deviceId, r.cidr) else none

def setRouteApproved (db : Db) (id : String) (approved : Bool) : Db :=
  { db with
    routes := db.routes.update (fun r => r.id = id) (fun r => { r with approved })
      (narrows_single fun _ => rfl) }

def deleteRoutes (db : Db) (p : Route → Bool) : Db := { db with routes := db.routes.delete p }

def deleteRoute (db : Db) (id : String) : Db := db.deleteRoutes fun r => r.id = id

/-! ## Statistics -/

def upsertDeviceStats (db : Db) (s : DeviceStats) : Db :=
  match db.stats.insert? s with
  | some stats => { db with stats }
  | none =>
    { db with
      stats := db.stats.update (fun old => old.deviceId = s.deviceId)
        (fun old => { s with deviceId := old.deviceId }) (narrows_single fun _ => rfl) }

def deleteStats (db : Db) (p : DeviceStats → Bool) : Db := { db with stats := db.stats.delete p }

/-! ## Relays -/

def insertRelay (db : Db) (r : RelayNode) : Except SqlStoreError Db :=
  match db.relays.insert? r with
  | some relays => .ok { db with relays }
  | none => .error (.db .unique)

/-- The relays of a network and the shared ones. -/
def listRelays (db : Db) (networkId : String) : List RelayNode :=
  db.relays.select fun r =>
    if r.networkId = some networkId ∨ r.networkId = none then some r else none

def getRelay (db : Db) (id : String) : Option RelayNode := db.relays.find? fun r => r.id = id

def setRelay (db : Db) (relay : RelayNode) : Db :=
  { db with
    relays := db.relays.update (fun r => r.id = relay.id) (fun r => { relay with id := r.id })
      (narrows_single fun _ => rfl) }

def deleteRelays (db : Db) (p : RelayNode → Bool) : Db := { db with relays := db.relays.delete p }

/-! ## Networks -/

def insertNetwork (db : Db) (n : Network) : Except SqlStoreError Db :=
  match db.networks.insert? n with
  | some networks => .ok { db with networks }
  | none => .error (.db .unique)

def getNetwork (db : Db) (id : String) : Option Network := db.networks.find? fun n => n.id = id

def bumpNetworkEpoch (db : Db) (id : String) : Db :=
  { db with
    networks := db.networks.update (fun n => n.id = id)
      (fun n => { n with configEpoch := n.configEpoch + 1 }) (narrows_single fun _ => rfl) }

def dropNetwork (db : Db) (id : String) : Db :=
  { db with networks := db.networks.delete fun n => n.id = id }

def countNetworks (db : Db) : Nat := db.networks.rows.length

/-- The networks that read the relays of a scope. -/
def networksInScope (db : Db) (scopes : List (Option String)) : List String :=
  db.networks.select fun n =>
    if none ∈ scopes ∨ some n.id ∈ scopes then some n.id else none

/-! ## Invites -/

def insertInvite (db : Db) (i : Invite) : Except SqlStoreError Db :=
  match db.invites.insert? i with
  | some invites => .ok { db with invites }
  | none => .error (.db .unique)

def getInvite (db : Db) (code : String) : Option Invite := db.invites.find? fun i => i.code = code

/-- The rows of the `WHERE` clause with which an invite is consumed. -/
def consumable (code : String) (now : Int) (i : Invite) : Bool :=
  i.code = code ∧ (∀ expiry ∈ i.expiresAt, expiry > now) ∧ ∀ m ∈ i.maxUses, i.uses < m

/-- The database and the number of rows affected. -/
def consumeInvite (db : Db) (code : String) (now : Int) : Db × Nat :=
  ({ db with
      invites := db.invites.update (consumable code now) (fun i => { i with uses := i.uses + 1 })
        (narrows_single fun _ => rfl) },
    db.invites.count (consumable code now))

def deleteInvites (db : Db) (p : Invite → Bool) : Db := { db with invites := db.invites.delete p }

/-! ## Devices -/

def insertDevice (db : Db) (d : Device) : Except SqlStoreError Db :=
  match PublicKey.normalize d.wgPublicKey with
  | none => .error (.db (.protocol "invalid 32-byte public key"))
  | some key =>
    match db.devices.insert? ⟨{ d with wgPublicKey := key }, none, none, none⟩ with
    | some devices => .ok { db with devices }
    | none => .error (.db .unique)

def deviceRow (db : Db) (id : String) : Option DeviceRow := db.devices.find? fun d => d.id = id

def getDevice (db : Db) (id : String) : Option Device := (db.deviceRow id).map (·.toDevice)

/-- The devices of a network, revoked ones included, in the order of their identifiers. -/
def listDevices (db : Db) (networkId : String) : List Device :=
  orderBy (fun d => d.id.toList)
    (db.devices.select fun d => if d.networkId = networkId then some d.toDevice else none)

def setDeviceToken (db : Db) (deviceId token : String) : Db :=
  { db with
    devices := db.devices.update (fun d => d.id = deviceId)
      (fun d => { d with authToken := some token })
      (DeviceRow.narrows (fun _ => rfl) (fun _ => rfl) (fun _ => rfl) (fun _ => rfl) fun _ => rfl) }

/-- A credential counts while its device is active and the network exists. -/
def getDeviceToken (db : Db) (deviceId : String) : Option String :=
  (db.devices.find? fun d => d.id = deviceId ∧ d.status = .active ∧
    (db.getNetwork d.networkId).isSome).bind (·.authToken)

def setDeviceEndpoints (db : Db) (id : String) (endpoints : List String) : Db :=
  { db with
    devices := db.devices.update (fun d => d.id = id)
      (fun d => { d with endpoints := some (",".intercalate endpoints) })
      (DeviceRow.narrows (fun _ => rfl) (fun _ => rfl) (fun _ => rfl) (fun _ => rfl) fun _ => rfl) }

def getDeviceEndpoints (db : Db) (id : String) : List String :=
  match (db.deviceRow id).bind (·.endpoints) with
  | some csv => ((csv.toList.splitOn ',').filter (· ≠ [])).map String.ofList
  | none => []

def setDeviceSettings (db : Db) (id settings : String) : Db :=
  { db with
    devices := db.devices.update (fun d => d.id = id)
      (fun d => { d with settings := some settings })
      (DeviceRow.narrows (fun _ => rfl) (fun _ => rfl) (fun _ => rfl) (fun _ => rfl) fun _ => rfl) }

def getDeviceSettings (db : Db) (id : String) : String :=
  (((db.deviceRow id).bind (·.settings)).filter (· ≠ "")).getD "\x7b\x7d"

def setDeviceName (db : Db) (id name : String) : Db :=
  { db with
    devices := db.devices.update (fun d => d.id = id) (fun d => { d with name })
      (DeviceRow.narrows (fun _ => rfl) (fun _ => rfl) (fun _ => rfl) (fun _ => rfl) fun _ => rfl) }

def revokeDevices (db : Db) (p : DeviceRow → Bool) : Db :=
  { db with devices := db.devices.update p DeviceRow.revoke DeviceRow.narrows_revoke }

end Db

end Fluxpeer.Control
