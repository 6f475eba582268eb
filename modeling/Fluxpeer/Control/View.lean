import Fluxpeer.Control.Soundness

/-!
# What configurations show

The configurations of the devices of a network are made of its epoch and of a view of the database:
the pools of the network, its active devices without their names and credentials, its approved
routes and the relays in its scope. A step of a call that changes the view of a network moves its
epoch on, or leaves the call with the bump of the epoch to do next. The one exception is the
deletion of a route that was approved after the call had read it.
-/

namespace Fluxpeer.Control

open Lib DeviceRow Table Db

/-! ## Views -/

/-- A device as far as configurations show it. -/
def DeviceRow.shown (d : DeviceRow) : DeviceRow := { d with name := "", authToken := none }

/-- An active device of the network. -/
def shownIn (n : String) (d : DeviceRow) : Option DeviceRow :=
  if d.networkId = n ∧ d.status = .active then some d.shown else none

structure View where
  pools : Option (String × String)
  devices : List DeviceRow
  routes : List (String × String)
  relays : List RelayNode

namespace Db

/-- The active devices of a network, in the order of the table. -/
def shownDevices (db : Db) (n : String) : List DeviceRow := db.devices.select (shownIn n)

def view (db : Db) (n : String) : View where
  pools := (db.getNetwork n).map (·.pools)
  devices := db.shownDevices n
  routes := db.approvedRoutesForNetwork n
  relays := db.listRelays n

/-- The epoch of a network, if it is stored. -/
def epoch (db : Db) (n : String) : Option Nat := (db.getNetwork n).map (·.configEpoch)

def ActiveIn (db : Db) (n id : String) : Prop :=
  ∃ d ∈ db.devices.rows, d.id = id ∧ d.networkId = n ∧ d.status = .active

end Db

namespace DeviceRow

def endpointList (d : DeviceRow) : List String :=
  match d.endpoints with
  | some csv => ((csv.toList.splitOn ',').filter (· ≠ [])).map String.ofList
  | none => []

def settingsText (d : DeviceRow) : String := (d.settings.filter (· ≠ "")).getD "\x7b\x7d"

end DeviceRow

section

variable (texts : Texts)

def peerOf (approved : List (String × String)) (d : DeviceRow) : PeerConfig where
  wgPublicKey := d.wgPublicKey
  allowedIps := allowedIps approved d.toDevice
  endpoints := withOverride (texts.settings d.settingsText) d.endpointList
  exit := isExit texts approved d.id

/-- The configuration of a device in the view of its network. -/
def View.config (v : View) (n : String) (epoch : Nat) (me : DeviceRow) : DeviceConfig where
  overlayCidrs := (v.pools.map fun (v4, v6) => [v4, v6]).getD []
  networkId := n
  configEpoch := epoch
  addressV4 := me.addressV4
  addressV6 := me.addressV6
  peers := (orderBy (·.id.toList) (v.devices.filter (·.id ≠ me.id))).map (peerOf texts v.routes)
  relays := v.relays
  mtu := (texts.settings me.settingsText).mtu.map asI32
  dns := ((texts.settings me.settingsText).dns.getD []).filterMap id
  selfExit := isExit texts v.routes me.id

variable {db : Db} {d : DeviceRow} {n : String}

/-- The primary key picks one device. -/
lemma device_eq {d' : DeviceRow} (hd : d ∈ db.devices.rows) (hd' : d' ∈ db.devices.rows)
    (hid : d.id = d'.id) : d = d' :=
  eq_of_index List.mem_cons_self hd hd' rfl (congrArg (fun id => some [id]) hid.symm)

lemma deviceRow_of_mem (hd : d ∈ db.devices.rows) : db.deviceRow d.id = some d := by
  cases hrow : db.deviceRow d.id with
  | none => simpa using List.find?_eq_none.mp hrow d hd
  | some d' =>
    have hid : d'.id = d.id := by simpa using find?_some hrow
    rw [device_eq (mem_of_find? hrow) hd hid]

lemma getDeviceEndpoints_of_mem (hd : d ∈ db.devices.rows) :
    db.getDeviceEndpoints d.id = d.endpointList := by
  rw [getDeviceEndpoints, deviceRow_of_mem hd]
  rfl

lemma getDeviceSettings_of_mem (hd : d ∈ db.devices.rows) :
    db.getDeviceSettings d.id = d.settingsText := by
  rw [getDeviceSettings, deviceRow_of_mem hd]
  rfl

/-- The peers of a device, read one by one, are those of the view. -/
lemma peers_eq (id : String) :
    ((db.listDevices n).filter fun d => d.id ≠ id ∧ d.status = .active).map
      (fun d => (peerConfig texts (fun f => pure (f db)) (db.approvedRoutesForNetwork n) d : Id _)) =
    (orderBy (·.id.toList) ((db.shownDevices n).filter (·.id ≠ id))).map
      (peerOf texts (db.approvedRoutesForNetwork n)) := by
  -- Both are made of the active rows of the network in the order of their identifiers.
  let rows := db.devices.rows.filter fun d => d.networkId = n ∧ d.status = .active ∧ d.id ≠ id
  have hlisted : (db.listDevices n).filter (fun d => d.id ≠ id ∧ d.status = .active) =
      orderBy (fun d : Device => d.id.toList) (rows.map toDevice) := by
    rw [listDevices, filter_orderBy, select]
    congr 1
    simp only [rows]
    induction db.devices.rows with
    | nil => rfl
    | cons d rows ih => grind
  have hshown : (db.shownDevices n).filter (·.id ≠ id) = rows.map shown := by
    rw [shownDevices, select]
    simp only [rows]
    induction db.devices.rows with
    | nil => rfl
    | cons d rows ih => grind [shown, shownIn]
  have hdevice : orderBy (fun d : Device => d.id.toList) (rows.map toDevice) =
      (orderBy (fun d : DeviceRow => d.id.toList) rows).map toDevice :=
    (map_orderBy toDevice (fun _ => rfl) rows).symm
  have hrow : orderBy (fun d : DeviceRow => d.id.toList) (rows.map shown) =
      (orderBy (fun d : DeviceRow => d.id.toList) rows).map shown :=
    (map_orderBy shown (fun _ => rfl) rows).symm
  rw [hlisted, hshown, hdevice, hrow, List.map_map, List.map_map]
  apply List.map_congr_left
  intro d hd
  have hd : d ∈ db.devices.rows := (List.mem_filter.mp (mem_orderBy.mp hd)).1
  change PeerConfig.mk _ _ (withOverride (texts.settings (db.getDeviceSettings d.id))
    (db.getDeviceEndpoints d.id)) _ = _
  rw [getDeviceEndpoints_of_mem hd, getDeviceSettings_of_mem hd]
  rfl

/-- The reads of one database one after the other. -/
lemma assemble_eq (me : Device) (net : Network) :
    (assemble texts (fun f => pure (f db)) me net : Id DeviceConfig) =
      { overlayCidrs := [net.ipv4Pool, net.ipv6Ula]
        networkId := me.networkId
        configEpoch := net.configEpoch
        addressV4 := me.addressV4
        addressV6 := me.addressV6
        peers := ((db.listDevices me.networkId).filter fun d => d.id ≠ me.id ∧ d.status = .active).map
          fun d => (peerConfig texts (fun f => pure (f db))
            (db.approvedRoutesForNetwork me.networkId) d : Id _)
        relays := db.listRelays me.networkId
        mtu := (texts.settings (db.getDeviceSettings me.id)).mtu.map asI32
        dns := ((texts.settings (db.getDeviceSettings me.id)).dns.getD []).filterMap id
        selfExit := isExit texts (db.approvedRoutesForNetwork me.networkId) me.id } := by
  have hmap : ∀ (l : List Device) (f : Device → Id PeerConfig), l.mapM f = l.map f :=
    fun l f => List.mapM_pure
  unfold assemble
  simp only [hmap]
  rfl

/-- The configuration of an active device is that of the view. -/
lemma deviceConfig_eq (hd : d ∈ db.devices.rows) (hactive : d.status = .active) :
    db.deviceConfig texts d.id =
      match db.epoch d.networkId with
      | none => .error .networkNotFound
      | some epoch => .ok ((db.view d.networkId).config texts d.networkId epoch d) := by
  have hget : db.getDevice d.id = some d.toDevice := by
    rw [getDevice, deviceRow_of_mem hd]
    rfl
  unfold Db.deviceConfig Control.deviceConfig
  simp only [hget, pure_bind, hactive, ne_eq, not_true_eq_false, if_false]
  cases hnet : db.getNetwork d.networkId with
  | none =>
    rw [epoch, hnet]
    rfl
  | some net =>
    rw [epoch, hnet]
    change Except.ok (assemble texts (fun f => pure (f db)) d.toDevice net : Id DeviceConfig) =
      Except.ok _
    rw [assemble_eq, peers_eq, getDeviceSettings_of_mem hd]
    simp only [View.config, view, hnet]
    rfl

lemma mem_shownDevices {p : DeviceRow} : p ∈ db.shownDevices n ↔
    ∃ d ∈ db.devices.rows, (d.networkId = n ∧ d.status = .active) ∧ d.shown = p := by
  simp [shownDevices, select, shownIn]

lemma getNetwork_isSome : (db.getNetwork n).isSome ↔ ∃ e, db.epoch n = some e := by
  cases hnet : db.getNetwork n <;> simp [epoch, hnet]

/-- Databases with one view and one epoch of a network give its devices one configuration. -/
lemma deviceConfig_congr {db' : Db} {id : String} (hview : db'.view n = db.view n)
    (hepoch : db'.epoch n = db.epoch n) (hactive : db.ActiveIn n id) :
    db'.ActiveIn n id ∧ db'.deviceConfig texts id = db.deviceConfig texts id := by
  obtain ⟨d, hd, rfl, rfl, hactive⟩ := hactive
  have hshown : d.shown ∈ db'.shownDevices d.networkId := by
    rw [show db'.shownDevices d.networkId = db.shownDevices d.networkId from
      congrArg View.devices hview]
    exact mem_shownDevices.mpr ⟨d, hd, ⟨rfl, hactive⟩, rfl⟩
  obtain ⟨d', hd', hactive', heq⟩ := mem_shownDevices.mp hshown
  have hid : d'.id = d.id := congrArg (·.id) heq
  refine ⟨⟨d', hd', hid, hactive'⟩, ?_⟩
  rw [deviceConfig_eq texts hd hactive, ← hid, deviceConfig_eq texts hd' hactive'.2, hactive'.1,
    hepoch, hview]
  split
  · rfl
  next epoch _ =>
  -- What is erased is not shown.
  have hconfig := congrArg (View.config texts (db.view d.networkId) d.networkId epoch) heq
  exact congrArg Except.ok hconfig

end

/-! ## Statements -/

/-- A step that the configurations of a network do not show. -/
structure Unseen (n : String) (db db' : Db) : Prop where
  view : db'.view n = db.view n
  epoch : db'.epoch n = db.epoch n

section

variable {n : String} {db db' db'' : Db} {p : DeviceRow → Bool} {net : Network}

lemma Unseen.refl (db : Db) : Unseen n db db := ⟨rfl, rfl⟩

lemma Unseen.trans (h : Unseen n db db') (h' : Unseen n db' db'') : Unseen n db db'' :=
  ⟨h'.view.trans h.view, h'.epoch.trans h.epoch⟩

lemma Unseen.of_queries (hnetwork : db'.getNetwork n = db.getNetwork n)
    (hdevices : db'.shownDevices n = db.shownDevices n)
    (hroutes : db'.approvedRoutesForNetwork n = db.approvedRoutesForNetwork n)
    (hrelays : db'.listRelays n = db.listRelays n) : Unseen n db db' :=
  ⟨by rw [Db.view, hnetwork, hdevices, hroutes, hrelays, Db.view], by rw [Db.epoch, hnetwork, Db.epoch]⟩

lemma Unseen.of_eq (hnetworks : db'.networks = db.networks) (hdevices : db'.devices = db.devices)
    (hroutes : db'.routes = db.routes) (hrelays : db'.relays = db.relays) : Unseen n db db' := by
  refine .of_queries ?_ ?_ ?_ ?_
  · rw [getNetwork, hnetworks, getNetwork]
  · rw [shownDevices, hdevices, shownDevices]
  · rw [approvedRoutesForNetwork, hroutes, approvedRoutesForNetwork]
  · rw [listRelays, hrelays, listRelays]

/-- Devices change that the network does not show, or in what it does not show of them. -/
lemma Unseen.of_devices {f : DeviceRow → DeviceRow} {hf : Table.Narrows indexes f}
    (h : ∀ d ∈ db.devices.rows, p d = true → shownIn n (f d) = shownIn n d) :
    Unseen n db { db with devices := db.devices.update p f hf } :=
  .of_queries rfl (select_update hf h) rfl rfl

lemma unseen_setDeviceToken (db : Db) (deviceId token : String) :
    Unseen n db (db.setDeviceToken deviceId token) :=
  .of_devices fun _ _ _ => rfl

lemma unseen_setDeviceName (db : Db) (deviceId name : String) :
    Unseen n db (db.setDeviceName deviceId name) :=
  .of_devices fun _ _ _ => rfl

lemma shownIn_of_ne {d : DeviceRow} (h : d.networkId ≠ n) : shownIn n d = none :=
  if_neg fun hd => h hd.1

lemma shownIn_eq {d d' : DeviceRow} (h : d.networkId ≠ n) (hsame : d'.networkId = d.networkId) :
    shownIn n d' = shownIn n d := by
  rw [shownIn_of_ne h, shownIn_of_ne (hsame ▸ h)]

lemma unseen_revokeDevices (h : ∀ d ∈ db.devices.rows, p d = true → d.networkId ≠ n) :
    Unseen n db (db.revokeDevices p) :=
  .of_devices fun d hd hp => shownIn_eq (h d hd hp) rfl

/-- A change of one device is not seen in other networks. -/
lemma ne_network_of_id {d d' : DeviceRow} (hd : d ∈ db.devices.rows) (hne : n ≠ d.networkId)
    (hd' : d' ∈ db.devices.rows) (hid : decide (d'.id = d.id) = true) : d'.networkId ≠ n := by
  rw [device_eq hd' hd (of_decide_eq_true hid)]
  exact hne.symm

lemma unseen_setDeviceEndpoints {d : DeviceRow} (hd : d ∈ db.devices.rows)
    (hne : n ≠ d.networkId) (endpoints : List String) :
    Unseen n db (db.setDeviceEndpoints d.id endpoints) :=
  .of_devices fun _ hd' hid => shownIn_eq (ne_network_of_id hd hne hd' hid) rfl

lemma unseen_setDeviceSettings {d : DeviceRow} (hd : d ∈ db.devices.rows)
    (hne : n ≠ d.networkId) (json : String) : Unseen n db (db.setDeviceSettings d.id json) :=
  .of_devices fun _ hd' hid => shownIn_eq (ne_network_of_id hd hne hd' hid) rfl

lemma unseen_insertDevice {d : Device} (hne : n ≠ d.networkId) (h : db.insertDevice d = .ok db') :
    Unseen n db db' := by
  obtain ⟨key, devices, -, hinsert, rfl⟩ := insertDevice_eq_ok h
  refine .of_queries rfl ?_ rfl rfl
  rw [shownDevices, select_insert? hinsert, shownIn_of_ne (Ne.symm hne)]
  exact List.append_nil _

/-- An unapproved route comes or goes. -/
lemma unseen_addRoute {networkId deviceId cidr : String} {route : Route}
    (h : db.addRoute networkId deviceId cidr = .ok (db', route)) : Unseen n db db' := by
  obtain ⟨routes, hinsert, hroute, rfl⟩ := addRoute_eq_ok h
  refine .of_queries rfl rfl ?_ rfl
  rw [approvedRoutesForNetwork, select_insert? hinsert, hroute, if_neg (by simp)]
  exact List.append_nil _

lemma unseen_deleteRoutes {p : Route → Bool}
    (h : ∀ r ∈ db.routes.rows, p r = true → r.networkId = n → r.approved = false) :
    Unseen n db (db.deleteRoutes p) := by
  refine .of_queries rfl rfl (select_delete fun r hr hp => if_neg ?_) rfl
  rintro ⟨hnetwork, happroved⟩
  rw [h r hr hp hnetwork] at happroved
  cases happroved

lemma unseen_setRouteApproved {id : String} {approved : Bool}
    (h : ∀ r ∈ db.routes.rows, r.id = id → r.networkId ≠ n) :
    Unseen n db (db.setRouteApproved id approved) := by
  refine .of_queries rfl rfl (select_update (f := fun r : Route => { r with approved })
    (narrows_single fun _ => rfl) fun r hr hp => ?_) rfl
  have hne := h r hr (of_decide_eq_true hp)
  exact (if_neg fun hr => hne hr.1).trans (if_neg fun hr => hne hr.1).symm

lemma unseen_deleteRelays {p : RelayNode → Bool}
    (h : ∀ r, p r = true → r.networkId ≠ some n ∧ r.networkId ≠ none) :
    Unseen n db (db.deleteRelays p) := by
  refine .of_queries rfl rfl rfl (select_delete fun r _ hp => if_neg ?_)
  rintro (hscope | hscope)
  · exact (h r hp).1 hscope
  · exact (h r hp).2 hscope

lemma unseen_insertRelay {r : RelayNode} (hne : r.networkId ≠ some n) (hshared : r.networkId ≠ none)
    (h : db.insertRelay r = .ok db') : Unseen n db db' := by
  obtain ⟨relays, hinsert, rfl⟩ := insertRelay_eq_ok h
  refine .of_queries rfl rfl rfl ?_
  rw [listRelays, select_insert? hinsert, if_neg (not_or.mpr ⟨hne, hshared⟩)]
  exact List.append_nil _

/-- A relay moves between scopes that the network is not in. -/
lemma unseen_setRelay {old relay : RelayNode} (hget : db.getRelay relay.id = some old)
    (hold : old.networkId ≠ some n ∧ old.networkId ≠ none)
    (hnew : relay.networkId ≠ some n ∧ relay.networkId ≠ none) :
    Unseen n db (db.setRelay relay) := by
  refine .of_queries rfl rfl rfl (select_update
    (f := fun r : RelayNode => { relay with id := r.id }) (narrows_single fun _ => rfl)
    fun r hr hp => ?_)
  have holdId : old.id = relay.id := by simpa using find?_some hget
  have hid : r.id = old.id := (of_decide_eq_true hp).trans holdId.symm
  have heq : r = old := eq_of_index List.mem_cons_self hr (mem_of_find? hget) rfl
    (congrArg (fun id => some [id]) hid.symm)
  subst heq
  rw [if_neg (not_or.mpr hold), if_neg (not_or.mpr hnew)]

lemma getNetwork_bumpNetworkEpoch (db : Db) (id : String) :
    (db.bumpNetworkEpoch id).getNetwork n = (db.getNetwork n).map fun net =>
      if net.id = id then { net with configEpoch := net.configEpoch + 1 } else net := by
  have hfind : (db.bumpNetworkEpoch id).getNetwork n = (db.getNetwork n).map fun net =>
      if decide (net.id = id) then { net with configEpoch := net.configEpoch + 1 } else net :=
    find?_update (f := fun net : Network => { net with configEpoch := net.configEpoch + 1 })
      (narrows_single fun _ => rfl) fun _ _ _ => rfl
  simpa only [decide_eq_true_eq] using hfind

lemma id_of_getNetwork (h : db.getNetwork n = some net) : net.id = n := by
  simpa using find?_some h

lemma unseen_bumpNetworkEpoch {id : String} (hne : n ≠ id) : Unseen n db (db.bumpNetworkEpoch id) := by
  refine .of_queries ?_ rfl rfl rfl
  rw [getNetwork_bumpNetworkEpoch]
  cases hnet : db.getNetwork n with
  | none => rfl
  | some net => rw [Option.map_some, if_neg (by rwa [id_of_getNetwork hnet])]

lemma epoch_bumpNetworkEpoch (db : Db) (n : String) :
    (db.bumpNetworkEpoch n).epoch n = (db.epoch n).map (· + 1) := by
  rw [epoch, getNetwork_bumpNetworkEpoch, epoch]
  cases hnet : db.getNetwork n with
  | none => rfl
  | some net => simp [id_of_getNetwork hnet]

lemma unseen_dropNetwork {id : String} (hne : n ≠ id) : Unseen n db (db.dropNetwork id) := by
  refine .of_queries (find?_delete fun net _ hid => ?_) rfl rfl rfl
  have hid : net.id = n := of_decide_eq_true hid
  simpa [hid] using hne

lemma epoch_dropNetwork (db : Db) (n : String) : (db.dropNetwork n).epoch n = none := by
  rw [epoch, Option.map_eq_none_iff]
  refine List.find?_eq_none.mpr fun net hnet => ?_
  simpa using (mem_delete.mp hnet).2

lemma unseen_insertNetwork (hne : n ≠ net.id) (h : db.insertNetwork net = .ok db') :
    Unseen n db db' := by
  obtain ⟨networks, hinsert, rfl⟩ := insertNetwork_eq_ok h
  refine .of_queries ?_ rfl rfl rfl
  rw [getNetwork, find?_insert? hinsert, if_neg (by simpa using Ne.symm hne), Option.or_none,
    getNetwork]

end

end Fluxpeer.Control
