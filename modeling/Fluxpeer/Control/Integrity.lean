import Fluxpeer.Control.Enrollment

/-!
# The integrity migration

`integrity::migrate` runs when a store is opened, over whatever earlier versions have left in the
tables. The rows of a device are those of the file: its status is a text, its key and its addresses
are as somebody wrote them, and nothing but the identifiers is known to be unique. The migration is
one transaction, so an error in it leaves the tables as they were.
-/

namespace Fluxpeer.Control

open Lib Net PublicKey

/-! ## Tables of an earlier version -/

structure LegacyDevice where
  id : String
  networkId : String
  name : String
  wgPublicKey : String
  addressV4 : Option String
  addressV6 : Option String
  status : String
  endpoints : Option String
  settings : Option String
  authToken : Option String
deriving DecidableEq

namespace LegacyDevice

def primaryKey : Index LegacyDevice := fun d => some [d.id]

def indexes : List (Index LegacyDevice) := [primaryKey]

/-- `device_network_active_key` -/
def activeKey : Index LegacyDevice := fun d =>
  if d.status = "active" then some [d.networkId, d.wgPublicKey] else none

/-- `device_network_active_v4` -/
def activeV4 : Index LegacyDevice := fun d =>
  if d.status = "active" then d.addressV4.map fun v4 => [d.networkId, v4] else none

end LegacyDevice

structure LegacyDb where
  networks : Table Network.indexes
  devices : Table LegacyDevice.indexes
  relays : Table RelayNode.indexes
  routes : Table Route.indexes
  /-- The value of the `entity` sequence, once there is one. -/
  sequence : Option Nat
  /-- Whether `device_network_active_key` exists. -/
  keyIndex : Bool
  /-- Whether `device_network_active_v4` exists. -/
  v4Index : Bool

/-! ## Identifiers -/

def entityKinds : List String := ["net", "dev", "relay", "route"]

/-- The number of an identifier that the sequence may have given out. -/
def entityNumber (id : String) : Except DbError (Option Nat) :=
  match rsplitOnce '-' id with
  | some (kind, suffix) =>
    if kind ∈ entityKinds ∧ suffix ≠ "" ∧ suffix.toList.all Char.isDigit then
      -- `suffix.parse::<i64>()`
      let value := Nat.ofDigitChars 10 suffix.toList 0
      if value < 2 ^ 63 then .ok (some value)
      else .error (.protocol ("invalid entity ID: " ++ id))
    else .ok none
  | none => .ok none

def maxId (ids : List String) : Except DbError Nat :=
  ids.foldlM (fun m id => (entityNumber id).map fun n => max m (n.getD 0)) 0

/-! ## The scan of the devices -/

/-- An entry of `normalized`. -/
structure Renewal where
  id : String
  key : String
  address : Option String
  v6 : Option String
  token : Option String
deriving DecidableEq

structure Scan where
  keys : HashMap (String × String) String
  addresses : HashMap (String × String) String
  normalized : List Renewal
  changedNetworks : List String

namespace Scan

def new : Scan := ⟨∅, ∅, [], []⟩

section Visit

/-! `debug` is how the library writes a text with `:?`. -/

variable (text : AddrText) (debug : String → String) (row : LegacyDevice)

def active : Except DbError Bool :=
  if row.status = "active" then .ok true
  else if row.status = "revoked" then .ok false
  else .error (.protocol ("unknown status " ++ debug row.status ++ " on device " ++ row.id ++
    " in network " ++ row.networkId))

def key (active : Bool) : Except DbError String :=
  match PublicKey.normalize row.wgPublicKey, active with
  | some key, _ => .ok key
  | none, true => .error (.protocol ("invalid public key on active device " ++ row.id ++
      " in network " ++ row.networkId ++ "; repair legacy data before migration"))
  | none, false => .ok row.wgPublicKey

def address (active : Bool) : Except DbError (Option String) :=
  match active, row.addressV4 with
  | true, some old =>
    match parseV4 text old with
    | some octets => .ok (some (text.display (.v4 octets)))
    | none => .error (.protocol ("invalid IPv4 on active device " ++ row.id ++ " in network " ++
        row.networkId))
  | _, _ => .ok none

/-- `insert` into `keys` or `addresses`, with the error if there is an entry. -/
def register (what : String) (map : HashMap (String × String) String) (value : String) :
    Except DbError (HashMap (String × String) String) :=
  match map.lookup (row.networkId, value) with
  | some other => .error (.protocol ("duplicate " ++ what ++ " on active devices " ++ other ++
      " and " ++ row.id ++ " in network " ++ row.networkId))
  | none => .ok (map.insert (row.networkId, value) row.id)

def registerKey (active : Bool) (scan : Scan) (key : String) :
    Except DbError (HashMap (String × String) String) :=
  if active then register row "public key" scan.keys key else .ok scan.keys

/-- Only an active device has an address by then. -/
def registerAddress (scan : Scan) (address : Option String) :
    Except DbError (HashMap (String × String) String) :=
  match address with
  | some address => register row "IPv4" scan.addresses address
  | none => .ok scan.addresses

def visit (scan : Scan) : Except DbError Scan := do
  let active ← active debug row
  let key ← key row active
  let keys ← registerKey row active scan key
  let address ← address text row active
  let addresses ← registerAddress row scan address
  let v6 := if active then row.addressV6 else none
  let token := if active then row.authToken else none
  if key ≠ row.wgPublicKey ∨ address ≠ row.addressV4 ∨ v6 ≠ row.addressV6 ∨
      token ≠ row.authToken then
    .ok
      { keys, addresses
        normalized := scan.normalized ++ [⟨row.id, key, address, v6, token⟩]
        changedNetworks :=
          if active then scan.changedNetworks.insert row.networkId else scan.changedNetworks }
  else .ok { scan with keys, addresses }

end Visit

end Scan

/-! ## The transaction -/

/-- `SET wg_public_key = $1, address_v4 = $2, address_v6 = $3, auth_token = $4` -/
def Renewal.apply (r : Renewal) (d : LegacyDevice) : LegacyDevice :=
  { d with wgPublicKey := r.key, addressV4 := r.address, addressV6 := r.v6, authToken := r.token }

namespace LegacyDb

variable (text : AddrText) (debug : String → String)

/-- The identifiers of all entities, in the order of the `UNION ALL`. -/
def ids (db : LegacyDb) : List String :=
  db.networks.rows.map (·.id) ++ db.devices.rows.map (·.id) ++ db.relays.rows.map (·.id) ++
    db.routes.rows.map (·.id)

def raiseSequence (db : LegacyDb) (value : Nat) : LegacyDb :=
  { db with sequence := db.sequence.map fun old => if old < value then value else old }

/-- The rows violate no index that exists. -/
def Admissible (db : LegacyDb) : Prop :=
  (db.keyIndex = true → (db.devices.rows.filterMap LegacyDevice.activeKey).Nodup) ∧
    (db.v4Index = true → (db.devices.rows.filterMap LegacyDevice.activeV4).Nodup)

instance (db : LegacyDb) : Decidable db.Admissible :=
  inferInstanceAs (Decidable ((_ → _) ∧ (_ → _)))

/-- What a statement makes of the tables, unless an index refuses it. -/
def constrain (db : LegacyDb) : Except DbError LegacyDb :=
  if db.Admissible then .ok db else .error .unique

def renewed (db : LegacyDb) (r : Renewal) : LegacyDb :=
  { db with
    devices := db.devices.update (fun d => d.id = r.id) r.apply (narrows_single fun _ => rfl) }

def createIndexes (db : LegacyDb) : LegacyDb := { db with keyIndex := true, v4Index := true }

lemma narrows_epoch :
    Table.Narrows Network.indexes fun n => { n with configEpoch := n.configEpoch + 1 } :=
  narrows_single fun _ => rfl

def bumpNetworkEpoch (db : LegacyDb) (id : String) : LegacyDb :=
  { db with
    networks := db.networks.update (fun n => n.id = id)
      (fun n => { n with configEpoch := n.configEpoch + 1 }) narrows_epoch }

/-- What the transaction of `migrate` commits. -/
def migrateOnce (db : LegacyDb) : Except DbError LegacyDb := do
  let value ← maxId db.ids
  let db := db.raiseSequence value
  let rows := orderBy (fun d => d.id.toList) db.devices.rows
  let scan ← rows.foldlM (fun scan row => Scan.visit text debug row scan) .new
  let db ← scan.normalized.foldlM (fun db r => (db.renewed r).constrain) db
  let db ← db.createIndexes.constrain
  .ok (scan.changedNetworks.foldl bumpNetworkEpoch db)

/-- An error that the database reports, before or after the row of the sequence was there. -/
structure Fault where
  seeded : Bool
  error : DbError

/-- The row of the sequence, inserted unless it is there. -/
def seed (db : LegacyDb) : LegacyDb := { db with sequence := some (db.sequence.getD 0) }

/-- `integrity::migrate`: the database afterwards and what is returned. -/
def migrate (fault : Option Fault) (db : LegacyDb) : LegacyDb × Except DbError Unit :=
  match fault with
  | some fault => (if fault.seeded then db.seed else db, .error fault.error)
  | none =>
    match db.seed.migrateOnce text debug with
    | .ok db' => (db', .ok ())
    | .error e => (db.seed, .error e)

end LegacyDb

/-! ## What the migration makes of a row -/

/-- The text of a key as it is stored, if it is one. -/
def canonicalKey (key : String) : String := (PublicKey.normalize key).getD key

/-- The text of an IPv4 address as it is stored, if it is one. -/
def canonicalV4 (text : AddrText) (old : String) : String :=
  ((parseV4 text old).map fun octets => text.display (.v4 octets)).getD old

section Spelling

variable {text : AddrText}

lemma decode_canonicalKey (key : String) :
    decode (canonicalKey key) = decode key := by
  rw [canonicalKey, PublicKey.normalize]
  cases hkey : decode key with
  | none => exact hkey
  | some k => exact decode_canonical k

lemma canonicalKey_idem (key : String) : canonicalKey (canonicalKey key) = canonicalKey key := by
  rw [canonicalKey, PublicKey.normalize, decode_canonicalKey, canonicalKey, PublicKey.normalize]
  cases decode key <;> rfl

lemma parseV4_canonicalV4 (old : String) :
    parseV4 text (canonicalV4 text old) = parseV4 text old := by
  rw [canonicalV4]
  cases hold : parseV4 text old with
  | none => exact hold
  | some octets => exact parseV4_display octets

lemma canonicalV4_idem (old : String) :
    canonicalV4 text (canonicalV4 text old) = canonicalV4 text old := by
  rw [canonicalV4, parseV4_canonicalV4, canonicalV4]
  cases parseV4 text old <;> rfl

end Spelling

namespace LegacyDevice

/-- The row of a device after the migration. -/
def renewed (text : AddrText) (d : LegacyDevice) : LegacyDevice :=
  { d with
    wgPublicKey := canonicalKey d.wgPublicKey
    addressV4 := if d.status = "active" then d.addressV4.map (canonicalV4 text) else none
    addressV6 := if d.status = "active" then d.addressV6 else none
    authToken := if d.status = "active" then d.authToken else none }

/-- The migration can make sense of the row. -/
structure Valid (text : AddrText) (d : LegacyDevice) : Prop where
  status : d.status = "active" ∨ d.status = "revoked"
  key : d.status = "active" → (PublicKey.decode d.wgPublicKey).isSome
  v4 : d.status = "active" → ∀ old ∈ d.addressV4, (parseV4 text old).isSome

/-- What the migration may change of a row. -/
structure Respelt (text : AddrText) (d d' : LegacyDevice) : Prop where
  id : d'.id = d.id
  networkId : d'.networkId = d.networkId
  name : d'.name = d.name
  status : d'.status = d.status
  endpoints : d'.endpoints = d.endpoints
  settings : d'.settings = d.settings
  /-- The text of the key may change, the key does not. -/
  key : PublicKey.decode d'.wgPublicKey = PublicKey.decode d.wgPublicKey
  /-- What is no key is not touched. -/
  noKey : PublicKey.decode d.wgPublicKey = none → d'.wgPublicKey = d.wgPublicKey
  v4 : d.status = "active" → d'.addressV4.map (parseV4 text) = d.addressV4.map (parseV4 text)
  v6 : d.status = "active" → d'.addressV6 = d.addressV6
  token : d.status = "active" → d'.authToken = d.authToken

variable {text : AddrText} {d : LegacyDevice}

lemma respelt_renewed (d : LegacyDevice) : Respelt text d (d.renewed text) where
  id := rfl
  networkId := rfl
  name := rfl
  status := rfl
  endpoints := rfl
  settings := rfl
  key := decode_canonicalKey d.wgPublicKey
  noKey hnone := by rw [renewed, canonicalKey, PublicKey.normalize, hnone]; rfl
  v4 hactive := by
    rw [renewed, if_pos hactive, Option.map_map]
    exact Option.map_congr fun old _ => parseV4_canonicalV4 old
  v6 hactive := if_pos hactive
  token hactive := if_pos hactive

lemma renewed_idem (d : LegacyDevice) : (d.renewed text).renewed text = d.renewed text := by
  by_cases hactive : d.status = "active"
  · simp only [renewed, canonicalKey_idem, if_pos hactive, Option.map_map]
    congr 1
    exact Option.map_congr fun old _ => canonicalV4_idem old
  · simp only [renewed, canonicalKey_idem, if_neg hactive]

lemma valid_renewed (hd : d.Valid text) : (d.renewed text).Valid text where
  status := hd.status
  key hactive := by
    rw [(respelt_renewed d).key]
    exact hd.key hactive
  v4 hactive old hold := by
    change d.status = "active" at hactive
    rw [renewed, if_pos hactive] at hold
    obtain ⟨older, holder, rfl⟩ := Option.map_eq_some_iff.mp hold
    rw [parseV4_canonicalV4]
    exact hd.v4 hactive older holder

/-- The row differs in one of the four columns that are written. -/
lemma renewed_ne_iff : d.renewed text ≠ d ↔
    (d.renewed text).wgPublicKey ≠ d.wgPublicKey ∨ (d.renewed text).addressV4 ≠ d.addressV4 ∨
      (d.renewed text).addressV6 ≠ d.addressV6 ∨ (d.renewed text).authToken ≠ d.authToken := by
  rw [← not_iff_not]
  push Not
  constructor
  · intro h
    rw [h]
    exact ⟨rfl, rfl, rfl, rfl⟩
  · rintro ⟨hkey, hv4, hv6, htoken⟩
    obtain ⟨id, networkId, name, key, v4, v6, status, endpoints, settings, token⟩ := d
    simp only [renewed] at hkey hv4 hv6 htoken ⊢
    rw [hkey, hv4, hv6, htoken]

def renewal (text : AddrText) (d : LegacyDevice) : Renewal :=
  let new := d.renewed text
  ⟨d.id, new.wgPublicKey, new.addressV4, new.addressV6, new.authToken⟩

end LegacyDevice

/-! ## One turn of the scan -/

namespace Scan

variable {text : AddrText} {debug : String → String} {row : LegacyDevice} {scan scan' : Scan}

/-- No active device before the row has its key or its address. -/
def Free (text : AddrText) (row : LegacyDevice) (scan : Scan) : Prop :=
  row.status = "active" →
    scan.keys.lookup (row.networkId, (row.renewed text).wgPublicKey) = none ∧
      ∀ v4 ∈ (row.renewed text).addressV4, scan.addresses.lookup (row.networkId, v4) = none

def after (text : AddrText) (scan : Scan) (row : LegacyDevice) : Scan where
  keys :=
    if row.status = "active" then
      scan.keys.insert (row.networkId, (row.renewed text).wgPublicKey) row.id
    else scan.keys
  addresses :=
    match (row.renewed text).addressV4 with
    | some v4 => scan.addresses.insert (row.networkId, v4) row.id
    | none => scan.addresses
  normalized :=
    if row.renewed text ≠ row then scan.normalized ++ [row.renewal text] else scan.normalized
  changedNetworks :=
    if row.renewed text ≠ row ∧ row.status = "active" then
      scan.changedNetworks.insert row.networkId
    else scan.changedNetworks

lemma register_eq_ok {what value : String} {map map' : HashMap (String × String) String} :
    register row what map value = .ok map' ↔
      map.lookup (row.networkId, value) = none ∧ map' = map.insert (row.networkId, value) row.id := by
  unfold register
  cases map.lookup (row.networkId, value) with
  | none => simp [eq_comm]
  | some other => simp

variable {active : Bool} {rows : List LegacyDevice} {address : Option String}

lemma key_eq_ok {key : String} :
    Scan.key row active = .ok key ↔
      (active = true → (decode row.wgPublicKey).isSome) ∧
        key = canonicalKey row.wgPublicKey := by
  unfold Scan.key canonicalKey PublicKey.normalize
  cases decode row.wgPublicKey <;> cases active <;> simp [eq_comm]

lemma active_eq_ok :
    Scan.active debug row = .ok active ↔
      (row.status = "active" ∨ row.status = "revoked") ∧ active = decide (row.status = "active") := by
  unfold Scan.active
  by_cases hactive : row.status = "active"
  · simp [hactive, eq_comm]
  · by_cases hrevoked : row.status = "revoked" <;> simp [hactive, hrevoked, eq_comm]

lemma address_eq_ok :
    Scan.address text row active = .ok address ↔
      (active = true → ∀ old ∈ row.addressV4, (parseV4 text old).isSome) ∧
        address = if active then row.addressV4.map (canonicalV4 text) else none := by
  rw [eq_comm (a := address)]
  unfold Scan.address canonicalV4
  cases active with
  | false => cases row.addressV4 <;> simp
  | true =>
    cases row.addressV4 with
    | none => simp
    | some old => cases hold : parseV4 text old <;> simp [hold]

lemma registerKey_eq_ok {key : String} {keys : HashMap (String × String) String} :
    registerKey row active scan key = .ok keys ↔
      (active = true → scan.keys.lookup (row.networkId, key) = none) ∧
        keys = if active then scan.keys.insert (row.networkId, key) row.id else scan.keys := by
  unfold registerKey
  cases active <;> simp [register_eq_ok, eq_comm]

lemma registerAddress_eq_ok {addresses : HashMap (String × String) String} :
    registerAddress row scan address = .ok addresses ↔
      (∀ v4 ∈ address, scan.addresses.lookup (row.networkId, v4) = none) ∧
        addresses = match address with
          | some v4 => scan.addresses.insert (row.networkId, v4) row.id
          | none => scan.addresses := by
  unfold registerAddress
  cases address <;> simp [register_eq_ok, eq_comm]

/-- The last `if` of a turn. -/
lemma finish_eq_after : (if (row.renewed text).wgPublicKey ≠ row.wgPublicKey ∨
      (row.renewed text).addressV4 ≠ row.addressV4 ∨
      (row.renewed text).addressV6 ≠ row.addressV6 ∨
      (row.renewed text).authToken ≠ row.authToken then
    Except.ok
      { keys := (after text scan row).keys, addresses := (after text scan row).addresses
        normalized := scan.normalized ++ [row.renewal text]
        changedNetworks :=
          if row.status = "active" then scan.changedNetworks.insert row.networkId
          else scan.changedNetworks }
    else .ok { scan with keys := (after text scan row).keys, addresses := (after text scan row).addresses }) =
      (.ok (after text scan row) : Except DbError Scan) := by
  rw [← if_congr LegacyDevice.renewed_ne_iff rfl rfl]
  by_cases hne : row.renewed text = row
  · simp [after, hne]
  · simp [after, hne]

/-- What a turn of the scan comes to: when it ends without an error, and with which scan. -/
lemma visit_eq_ok : visit text debug row scan = .ok scan' ↔
    row.Valid text ∧ Free text row scan ∧ scan' = after text scan row := by
  unfold visit
  simp only [bind_eq_ok_iff, active_eq_ok, key_eq_ok, address_eq_ok, registerKey_eq_ok,
    registerAddress_eq_ok]
  constructor
  · rintro ⟨_, ⟨hstatus, rfl⟩, _, ⟨hkey, rfl⟩, _, ⟨hkeys, rfl⟩, _, ⟨hv4, rfl⟩, _, ⟨hv4s, rfl⟩, h⟩
    simp only [decide_eq_true_eq] at hkey hkeys hv4 hv4s h
    refine ⟨⟨hstatus, hkey, hv4⟩, fun hactive => ⟨hkeys hactive, hv4s⟩, ?_⟩
    exact (Except.ok.inj (finish_eq_after.symm.trans h)).symm
  · rintro ⟨⟨hstatus, hkey, hv4⟩, hfree, rfl⟩
    refine ⟨_, ⟨hstatus, rfl⟩, _, ⟨?_, rfl⟩, _, ⟨?_, rfl⟩, _, ⟨?_, rfl⟩, _, ⟨?_, rfl⟩, ?_⟩ <;>
      simp only [decide_eq_true_eq]
    · exact hkey
    · exact fun hactive => (hfree hactive).1
    · exact hv4
    · intro v4 hmem
      by_cases hactive : row.status = "active"
      · exact (hfree hactive).2 v4 hmem
      · rw [if_neg hactive] at hmem
        cases hmem
    · exact finish_eq_after

/-! ## The whole scan -/

lemma foldlM_visit
    (h : rows.foldlM (fun scan row => visit text debug row scan) scan = .ok scan') :
    (∀ row ∈ rows, row.Valid text) ∧ scan' = rows.foldl (after text) scan := by
  induction rows generalizing scan with
  | nil =>
    cases h
    exact ⟨by simp, rfl⟩
  | cons row rows ih =>
    rw [List.foldlM_cons, bind_eq_ok_iff] at h
    obtain ⟨scan₁, hvisit, hrest⟩ := h
    obtain ⟨hvalid, _, rfl⟩ := visit_eq_ok.mp hvisit
    obtain ⟨hall, rfl⟩ := ih hrest
    exact ⟨List.forall_mem_cons.mpr ⟨hvalid, hall⟩, rfl⟩

def conflicts (scan : Scan) : Scan := { scan with normalized := [], changedNetworks := [] }

/-- A row as the migration leaves it meets the conflicts of the row it was, and no more. -/
lemma visit_renewed (h : visit text debug row scan = .ok scan') :
    visit text debug (row.renewed text) scan.conflicts = .ok scan'.conflicts := by
  obtain ⟨hvalid, hfree, rfl⟩ := visit_eq_ok.mp h
  refine visit_eq_ok.mpr ⟨LegacyDevice.valid_renewed hvalid, ?_, ?_⟩
  · intro hactive
    rw [LegacyDevice.renewed_idem]
    exact hfree hactive
  · simp only [after, conflicts, LegacyDevice.renewed_idem, ne_eq, not_true, false_and, if_false]
    rfl

lemma foldlM_visit_renewed
    (h : rows.foldlM (fun scan row => visit text debug row scan) scan = .ok scan') :
    (rows.map (LegacyDevice.renewed text)).foldlM (fun scan row => visit text debug row scan)
      scan.conflicts = .ok scan'.conflicts := by
  induction rows generalizing scan with
  | nil =>
    cases h
    rfl
  | cons row rows ih =>
    rw [List.foldlM_cons, bind_eq_ok_iff] at h
    obtain ⟨scan₁, hvisit, hrest⟩ := h
    rw [List.map_cons, List.foldlM_cons, bind_eq_ok_iff]
    exact ⟨scan₁.conflicts, visit_renewed hvisit, ih hrest⟩

lemma normalized_foldl_after (rows : List LegacyDevice) (scan : Scan) :
    (rows.foldl (after text) scan).normalized = scan.normalized ++
      (rows.filter fun d => d.renewed text ≠ d).map (LegacyDevice.renewal text) := by
  induction rows generalizing scan with
  | nil => simp
  | cons row rows ih =>
    rw [List.foldl_cons, ih]
    by_cases hne : row.renewed text = row <;> simp [after, hne]

lemma mem_changedNetworks_foldl_after {network : String} (rows : List LegacyDevice) (scan : Scan) :
    network ∈ (rows.foldl (after text) scan).changedNetworks ↔ network ∈ scan.changedNetworks ∨
      ∃ d ∈ rows, d.networkId = network ∧ d.status = "active" ∧ d.renewed text ≠ d := by
  induction rows generalizing scan with
  | nil => simp
  | cons row rows ih =>
    rw [List.foldl_cons, ih]
    simp only [after]
    split <;> grind

lemma nodup_changedNetworks_foldl_after (rows : List LegacyDevice)
    (h : scan.changedNetworks.Nodup) : (rows.foldl (after text) scan).changedNetworks.Nodup := by
  induction rows generalizing scan with
  | nil => exact h
  | cons row rows ih =>
    refine ih ?_
    simp only [after]
    split
    · exact h.insert
    · exact h

end Scan

end Fluxpeer.Control
