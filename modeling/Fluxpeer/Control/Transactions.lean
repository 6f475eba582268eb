import Fluxpeer.Control.Db
import Fluxpeer.Net.Prefix

/-!
# The transactions of the store

Each transaction takes the write lock of the database first, so it is one step: it maps the
database to the one it commits, or fails and leaves no trace. The functions are written as the
source has them, statement by statement. What is drawn at random in a transaction, an invite code
or a credential, is an argument.
-/

namespace Fluxpeer.Control

open Lib Net

/-! ## Addresses -/

/-- `address.parse::<Ipv4Addr>()` -/
def parseV4 (text : AddrText) (value : String) : Option (Block 4) :=
  match text.parse value with
  | some (.v4 octets) => some octets
  | _ => none

def lastOctet (octets : Block 4) : UInt8 := octets.get 3

/-- `split(sep).next()` -/
def before (sep : Char) (value : List Char) : List Char := value.takeWhile (· ≠ sep)

/-- `split("::").next()` -/
def beforeColons : List Char → List Char
  | ':' :: ':' :: _ => []
  | c :: cs => c :: beforeColons cs
  | [] => []

/-- `u16::from_str_radix(value, 16)` -/
def parseHexU16 (value : List Char) : Option Nat :=
  let digits := stripPlus value
  if digits = [] then none
  else ((digits.mapM PublicKey.hexValue).map (·.foldl (fun n d => 16 * n + d) 0)).filter (· < 65536)

def parseV4Base (text : AddrText) (pool : String) : Except SqlStoreError (Block 4) :=
  match parseV4 text (String.ofList (before '/' pool.toList)) with
  | some octets => .ok octets
  | none => .error (.badPool pool)

def parseV6Prefix (ula : String) : Except SqlStoreError (List Nat) :=
  let head := before '/' (beforeColons ula.toList)
  let parts := (head.splitOn ':').filter (· ≠ [])
  if parts.length < 3 then .error (.badPool ula)
  else
    match (parts.take 3).mapM parseHexU16 with
    | some out => .ok out
    | none => .error (.badPool ula)

def DEVICE_HOST_MIN : Nat := 100

def DEVICE_HOST_MAX : Nat := 249

/-- The hosts of the device range, in order. -/
def deviceHosts : List UInt8 :=
  (List.range' DEVICE_HOST_MIN (DEVICE_HOST_MAX + 1 - DEVICE_HOST_MIN)).map UInt8.ofNat

def usedHosts (text : AddrText) (devices : List Device) : List UInt8 :=
  (((devices.filter fun d => d.status = .active).filterMap (·.addressV4)).filterMap
    (parseV4 text)).map lastOctet

def v4At (base : Block 4) (host : UInt8) : IpAddr :=
  .v4 ⟨[base.get 0, base.get 1, base.get 2, host], rfl⟩

def v6At (ula : List Nat) (host : UInt8) : IpAddr :=
  .v6 ⟨beBytes 2 (ula.getD 0 0) ++ beBytes 2 (ula.getD 1 0) ++ beBytes 2 (ula.getD 2 0) ++
    [0, 1, 0, 0, 0, 0, 0, 0, 0, host], by simp⟩

/-- The lowest free host of the device range, paired over the two families. -/
def allocateAddress (text : AddrText) (net : Network) (devices : List Device) :
    Except SqlStoreError (IpAddr × IpAddr) :=
  match parseV4Base text net.ipv4Pool with
  | .error e => .error e
  | .ok base =>
    match parseV6Prefix net.ipv6Ula with
    | .error e => .error e
    | .ok ula =>
      match deviceHosts.find? fun h => h ∉ usedHosts text devices with
      | none => .error .poolExhausted
      | some host => .ok (v4At base host, v6At ula host)

def IpPrefix.display (text : AddrText) (p : IpPrefix) : String :=
  text.display p.network ++ "/" ++ toString p.length

def normalizePrefix (text : AddrText) (value : String) : Option String :=
  if '/' ∈ value.toList then (IpPrefix.fromStr text value).map (IpPrefix.display text) else none

structure ImportDevice where
  name : String
  wgPublicKey : String
  addressV4 : Option String
  addressV6 : Option String
  endpoints : List String

namespace Db

variable (text : AddrText)

/-! ## Networks and invites -/

def createInviteOnce (db : Db) (networkId : String) (expiresAt : Option Int) (maxUses : Option Nat)
    (code : String) : Except SqlStoreError (Db × Invite) :=
  match db.getNetwork networkId with
  | none => .error .networkNotFound
  | some _ =>
    let invite : Invite := ⟨code, networkId, expiresAt, maxUses, 0⟩
    match db.insertInvite invite with
    | .error e => .error e
    | .ok db => .ok (db, invite)

/-- Returns the network as it was, for the epoch that is published once it is gone. -/
def deleteNetworkOnce (db : Db) (networkId : String) : Except SqlStoreError (Db × Network) :=
  match db.getNetwork networkId with
  | none => .error .networkNotFound
  | some net =>
    let members := db.devices.select fun d => if d.networkId = networkId then some d.id else none
    let db := db.revokeDevices fun d => d.networkId = networkId
    let db := db.deleteStats fun s => s.deviceId ∈ members
    let db := db.deleteInvites fun i => i.networkId = networkId
    let db := db.deleteRoutes fun r => r.networkId = networkId
    let db := db.deleteRelays fun r => r.networkId = some networkId
    let db := db.bumpNetworkEpoch networkId
    .ok (db.dropNetwork networkId, net)

def revokeInviteOnce (db : Db) (networkId code : String) : Except SqlStoreError Db :=
  match db.getNetwork networkId with
  | none => .error .networkNotFound
  | some _ =>
    let matching := fun i : Invite => i.networkId = networkId ∧ i.code = code
    if db.invites.count (fun i => matching i) = 0 then .error .invalidInvite
    else .ok (db.deleteInvites fun i => matching i)

/-! ## Enrolment -/

/-- The part of `enroll_once` behind the consumed invite: allocate, insert, issue the credential
and bump. -/
def enrollDevice (db : Db) (net : Network) (devices : List Device) (name key token : String) :
    Except SqlStoreError (Db × Device × String) :=
  match allocateAddress text net devices with
  | .error e => .error e
  | .ok (v4, v6) =>
    match db.next with
    | .error e => .error e
    | .ok (db, seq) =>
      let device : Device :=
        { id := "dev-" ++ Nat.repr seq, networkId := net.id, name, wgPublicKey := key,
          addressV4 := some (text.display v4), addressV6 := some (text.display v6),
          status := .active }
      match db.insertDevice device with
      | .error e => .error e
      | .ok db => .ok ((db.setDeviceToken device.id token).bumpNetworkEpoch net.id, device, token)

def enrollOnce (db : Db) (code name key : String) (now : Int) (token : String) :
    Except SqlStoreError (Db × Device × String) :=
  match db.getInvite code with
  | none => .error .invalidInvite
  | some invite =>
    if invite.expiresAt.any (· ≤ now) then .error .invalidInvite
    else
      match db.getNetwork invite.networkId with
      | none => .error .networkNotFound
      | some net =>
        let devices := db.listDevices net.id
        match devices.find? fun d => d.status = .active ∧ d.wgPublicKey = key with
        | some device => .ok (db.setDeviceToken device.id token, device, token)
        | none =>
          let (db, consumed) := db.consumeInvite code now
          if consumed ≠ 1 then .error .invalidInvite
          else enrollDevice text db net devices name key token

/-- The loop of `import_once`: what it created and what it skipped. -/
def importEach (networkId : String) :
    Db → List String → List (ImportDevice × String) →
      Except SqlStoreError (Db × List Device × List String)
  | db, _, [] => .ok (db, [], [])
  | db, seen, (d, key) :: rest =>
    if key ∈ seen then
      (importEach networkId db seen rest).map fun (db, created, skipped) =>
        (db, created, key :: skipped)
    else
      match db.next with
      | .error e => .error e
      | .ok (db, seq) =>
        let device : Device :=
          { id := "dev-" ++ Nat.repr seq, networkId, name := d.name, wgPublicKey := key,
            addressV4 := d.addressV4, addressV6 := d.addressV6, status := .active }
        match db.insertDevice device with
        | .error e => .error e
        | .ok db =>
          (importEach networkId (db.setDeviceEndpoints device.id d.endpoints) (key :: seen) rest).map
            fun (db, created, skipped) => (db, device :: created, skipped)

def importOnce (db : Db) (networkId : String) (devices : List ImportDevice) (keys : List String) :
    Except SqlStoreError (Db × List Device × List String) :=
  match db.getNetwork networkId with
  | none => .error .networkNotFound
  | some _ =>
    let seen := ((db.listDevices networkId).filter fun d => d.status = .active).map (·.wgPublicKey)
    match importEach networkId db seen (devices.zip keys) with
    | .error e => .error e
    | .ok (db, created, skipped) =>
      .ok (if created.isEmpty then db else db.bumpNetworkEpoch networkId, created, skipped)

/-- Returns the network of the device. -/
def revokeDeviceOnce (db : Db) (deviceId : String) : Except SqlStoreError (Db × String) :=
  match db.getDevice deviceId with
  | none => .error .deviceNotFound
  | some device =>
    .ok ((db.revokeDevices fun d => d.id = deviceId).bumpNetworkEpoch device.networkId,
      device.networkId)

/-! ## Routes -/

def addRoute (db : Db) (networkId deviceId cidr : String) : Except SqlStoreError (Db × Route) :=
  match db.next with
  | .error e => .error e
  | .ok (db, seq) =>
    let route : Route :=
      { id := "route-" ++ Nat.repr seq, networkId, deviceId, cidr, approved := false }
    match db.insertRoute route with
    | .error e => .error e
    | .ok db => .ok (db, route)

def advertiseRouteOnce (db : Db) (deviceId cidr : String) : Except SqlStoreError (Db × Route) :=
  match db.getDevice deviceId with
  | none => .error .deviceNotFound
  | some dev =>
    if dev.status ≠ .active ∨ (db.getNetwork dev.networkId).isNone then .error .deviceNotFound
    else
      -- The sequence number is drawn before the prefix is read.
      match db.next with
      | .error e => .error e
      | .ok _ =>
        match normalizePrefix text cidr with
        | none => .error .invalidPrefix
        | some cidr => db.addRoute dev.networkId deviceId cidr

/-- The device that a credential belongs to is active in a network that exists. -/
def holdsToken (db : Db) (token : String) (d : DeviceRow) : Bool :=
  d.authToken = some token ∧ d.status = .active ∧ (db.getNetwork d.networkId).isSome

def deviceRouteChangeOnce (db : Db) (device token cidr : String) (withdraw : Bool) :
    Except SqlStoreError (Db × List Route) :=
  if token = "" ∨ db.getDeviceToken device ≠ some token then
    .error (if token ≠ "" ∧ 0 < db.devices.count (db.holdsToken token) then .deviceForbidden
      else .deviceUnauthorized)
  else
    match normalizePrefix text cidr with
    | none => .error .invalidPrefix
    | some cidr =>
      let routes := db.listRoutesForDevice device
      let sorted := fun db : Db =>
        orderBy (fun r : Route => [r.cidr.toList, r.id.toList]) (db.listRoutesForDevice device)
      if withdraw then
        if routes.any fun r => r.cidr = cidr ∧ r.approved then .error .routeApproved
        else
          let db := db.deleteRoutes fun r =>
            r.deviceId = device ∧ r.cidr = cidr ∧ r.approved = false
          .ok (db, sorted db)
      else if routes.any fun r => r.cidr = cidr then .ok (db, sorted db)
      else
        match db.getDevice device with
        | none => .error .deviceNotFound
        | some dev =>
          match db.addRoute dev.networkId device cidr with
          | .error e => .error e
          | .ok (db, _) => .ok (db, sorted db)

/-! ## Relays -/

/-- Returns the networks whose epoch was bumped. -/
def registerRelayOnce (db : Db) (region url : String) (networkId : Option String) (anytls : Bool)
    (stunUrl nodeId publicKey : Option String) : Except SqlStoreError (Db × List String) :=
  if networkId.any fun id => (db.getNetwork id).isNone then .error .networkNotFound
  else
    match db.next with
    | .error e => .error e
    | .ok (db, seq) =>
      let relay : RelayNode :=
        { id := "relay-" ++ Nat.repr seq, region, url, networkId, anytls,
          stunUrl := stunUrl.or (some url), nodeId, publicKey }
      match db.insertRelay relay with
      | .error e => .error e
      | .ok db =>
        let networks := db.networksInScope [relay.networkId]
        .ok (networks.foldl bumpNetworkEpoch db, networks)

def updateRelayOnce (db : Db) (relay : RelayNode) : Except SqlStoreError (Db × List String) :=
  if relay.networkId.any fun id => (db.getNetwork id).isNone then .error .networkNotFound
  else
    match db.getRelay relay.id with
    | none => .error .relayNotFound
    | some old =>
      let db := db.setRelay relay
      let networks := db.networksInScope [old.networkId, relay.networkId]
      .ok (networks.foldl bumpNetworkEpoch db, networks)

/-! ## Reports of a device -/

/-- `lock_active_device` -/
def isLive (db : Db) (deviceId : String) : Bool :=
  db.devices.count (fun d => d.id = deviceId ∧ d.status = .active ∧
    (db.getNetwork d.networkId).isSome) = 1

/-- Returns the network of the device. -/
def setEndpointsOnce (db : Db) (deviceId : String) (endpoints : List String) :
    Except SqlStoreError (Db × String) :=
  if db.isLive deviceId then
    match db.getDevice deviceId with
    | none => .error .deviceNotFound
    | some device =>
      .ok ((db.setDeviceEndpoints deviceId endpoints).bumpNetworkEpoch device.networkId,
        device.networkId)
  else .error .deviceNotFound

def reportStatsOnce (db : Db) (s : DeviceStats) : Except SqlStoreError Db :=
  if db.isLive s.deviceId then .ok (db.upsertDeviceStats s) else .error .deviceNotFound

end Db

end Fluxpeer.Control
