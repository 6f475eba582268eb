import Fluxpeer.Control.Effects

/-!
# Changes that configurations show

An approved route shows in the configurations of the other devices of its network, and in that of
its own device if it makes it an exit. Settings show in the configuration of their device, and the
endpoint in them in those of the others. Whether one such change alters any configuration can be
told from the database before it.
-/

namespace Fluxpeer.Control

open Lib Net DeviceRow Table IpPrefix

section

variable (texts : Texts)

/-- No configuration and no epoch is different. -/
structure Unchanged (db db' : Db) : Prop where
  configs : ∀ id, db'.deviceConfig texts id = db.deviceConfig texts id
  epochs : ∀ n, db'.epoch n = db.epoch n

/-- Some configuration is different with the route approved and without: another device of the
network routes to it, or it makes its device an exit. -/
def Db.RouteShown (db : Db) (r : Route) : Prop :=
  (db.getNetwork r.networkId).isSome ∧ db.ActiveIn r.networkId r.deviceId ∧
    ((∃ id, id ≠ r.deviceId ∧ db.ActiveIn r.networkId id) ∨
      IpPrefix.isDefaultText texts.addr r.cidr = true ∧
        ∀ r' ∈ db.routes.rows, r'.id ≠ r.id → r'.networkId = r.networkId →
          r'.deviceId = r.deviceId → r'.approved = true →
          IpPrefix.isDefaultText texts.addr r'.cidr = false)

def ownSettings (s : SettingsValue) : Option Int × List String :=
  (s.mtu.map asI32, (s.dns.getD []).filterMap id)

/-- Some configuration is different with the new settings: that of the device itself, or that of
another device of the network, which reads its endpoint. -/
def Db.SettingsShown (db : Db) (d : DeviceRow) (json : String) : Prop :=
  let before := texts.settings d.settingsText
  let after := texts.settings { d with settings := some json }.settingsText
  (db.getNetwork d.networkId).isSome ∧ d.status = .active ∧
    (ownSettings after ≠ ownSettings before ∨
      after.endpoint.filter (· ≠ "") ≠ before.endpoint.filter (· ≠ "") ∧
        ∃ id, id ≠ d.id ∧ db.ActiveIn d.networkId id)

end

/-! ## Configurations before and after -/

section

variable {texts : Texts} {db db' : Db} {n : String}

lemma Unchanged.refl (db : Db) : Unchanged texts db db := ⟨fun _ => rfl, fun _ => rfl⟩

lemma Unchanged.symm (h : Unchanged texts db db') : Unchanged texts db' db :=
  ⟨fun id => (h.configs id).symm, fun n => (h.epochs n).symm⟩

variable {id : String}

lemma deviceConfig_of_not_active (h : ∀ d ∈ db.devices.rows, d.id = id → d.status ≠ .active) :
    db.deviceConfig texts id = .error .deviceNotFound := by
  unfold Db.deviceConfig Control.deviceConfig
  cases hrow : db.getDevice id with
  | none =>
    simp only [hrow, pure_bind]
    rfl
  | some device =>
    obtain ⟨d, hd, hid, rfl⟩ := getDevice_eq_some hrow
    have hstatus := h d hd hid
    simp only [hrow, pure_bind, ne_eq, hstatus, not_false_eq_true, if_true]
    rfl

/-- Databases with the same networks, whose devices correspond: nothing has changed if the
configurations of the active devices are the same in both views. -/
lemma unchanged_iff {f : DeviceRow → DeviceRow} (hrows : db'.devices.rows = db.devices.rows.map f)
    (hid : ∀ d, (f d).id = d.id) (hnetwork : ∀ d, (f d).networkId = d.networkId)
    (hstatus : ∀ d, (f d).status = d.status) (hnetworks : db'.networks = db.networks) :
    Unchanged texts db db' ↔ ∀ d ∈ db.devices.rows, d.status = .active →
      ∀ e, db.epoch d.networkId = some e →
        (db'.view d.networkId).config texts d.networkId e (f d) =
          (db.view d.networkId).config texts d.networkId e d := by
  have hactive : ∀ d ∈ db.devices.rows, d.status = .active → db'.deviceConfig texts d.id =
      (db.epoch d.networkId).elim (.error .networkNotFound) fun e =>
        .ok ((db'.view d.networkId).config texts d.networkId e (f d)) := by
    intro d hd hactive
    have hmem : f d ∈ db'.devices.rows := by
      rw [hrows]
      exact List.mem_map_of_mem hd
    have hconfig := deviceConfig_eq texts hmem ((hstatus d).trans hactive)
    rw [hid, hnetwork, epoch_congr hnetworks] at hconfig
    rw [hconfig]
    cases db.epoch d.networkId <;> rfl
  constructor
  · intro h d hd hd' e he
    have hconfig := h.configs d.id
    rw [hactive d hd hd', deviceConfig_eq texts hd hd', he] at hconfig
    exact Except.ok.inj hconfig
  · intro h
    refine ⟨fun id => ?_, fun n => epoch_congr hnetworks⟩
    by_cases hex : ∃ d ∈ db.devices.rows, d.id = id ∧ d.status = .active
    · obtain ⟨d, hd, rfl, hd'⟩ := hex
      rw [hactive d hd hd', deviceConfig_eq texts hd hd']
      cases he : db.epoch d.networkId with
      | none => rfl
      | some e => exact congrArg Except.ok (h d hd hd' e he)
    · rw [deviceConfig_of_not_active, deviceConfig_of_not_active]
      · exact fun d hd hid hd' => hex ⟨d, hd, hid, hd'⟩
      · intro d' hd' hid' hactive'
        rw [hrows] at hd'
        obtain ⟨d, hd, rfl⟩ := List.mem_map.mp hd'
        exact hex ⟨d, hd, (hid d).symm.trans hid', (hstatus d).symm.trans hactive'⟩

/-! ### One more approved route -/

variable {front back : List (String × String)} {x : String × String} {me : DeviceRow} {e : Nat}

lemma allowedIps_insert_iff {d : Device} :
    allowedIps (front ++ x :: back) d = allowedIps (front ++ back) d ↔ d.id ≠ x.1 := by
  simp only [allowedIps, List.append_right_inj, List.filterMap_append, List.filterMap_cons]
  by_cases heq : x.1 = d.id
  · refine iff_of_false ?_ (fun hne => hne heq.symm)
    rw [if_pos heq]
    intro h
    have hlength := congrArg List.length h
    simp at hlength
  · rw [if_neg heq]
    exact iff_of_true rfl (Ne.symm heq)

lemma isExit_insert (id : String) : isExit texts (front ++ x :: back) id =
    (isExit texts (front ++ back) id ||
      decide (x.1 = id ∧ isDefaultText texts.addr x.2 = true)) := by
  simp only [isExit, List.any_append, List.any_cons]
  ac_rfl

variable {d : DeviceRow}

lemma peerOf_insert_iff :
    peerOf texts (front ++ x :: back) d = peerOf texts (front ++ back) d ↔ d.id ≠ x.1 := by
  constructor
  · exact fun h => allowedIps_insert_iff.mp (congrArg PeerConfig.allowedIps h)
  · intro hne
    have hexit : isExit texts (front ++ x :: back) d.id = isExit texts (front ++ back) d.id := by
      rw [isExit_insert, decide_eq_false fun h => hne h.1.symm, Bool.or_false]
    rw [peerOf, peerOf, allowedIps_insert_iff.mpr hne, hexit]

lemma config_insert_iff (v : View) :
    { v with routes := front ++ x :: back }.config texts n e me =
        { v with routes := front ++ back }.config texts n e me ↔
      (∀ d ∈ v.devices, d.id ≠ me.id → d.id ≠ x.1) ∧
        (x.1 = me.id → isDefaultText texts.addr x.2 = true →
          isExit texts (front ++ back) me.id = true) := by
  simp only [View.config, DeviceConfig.mk.injEq, true_and, List.map_inj_left, mem_orderBy,
    List.mem_filter, decide_eq_true_eq, peerOf_insert_iff, and_imp, isExit_insert]
  refine and_congr_right fun _ => ?_
  cases isExit texts (front ++ back) me.id <;> simp

/-- Databases that differ in one approved route of a network. -/
lemma unchanged_insert_iff (hdevices : db'.devices = db.devices)
    (hnetworks : db'.networks = db.networks) (hrelays : db'.relays = db.relays)
    (hbefore : db.approvedRoutesForNetwork n = front ++ back)
    (hafter : db'.approvedRoutesForNetwork n = front ++ x :: back)
    (hother : ∀ m, m ≠ n → db'.approvedRoutesForNetwork m = db.approvedRoutesForNetwork m) :
    Unchanged texts db db' ↔ ¬ ((db.getNetwork n).isSome ∧ db.ActiveIn n x.1 ∧
      ((∃ id, id ≠ x.1 ∧ db.ActiveIn n id) ∨ isDefaultText texts.addr x.2 = true ∧
        isExit texts (front ++ back) x.1 = false)) := by
  have hview : ∀ m, db'.view m = { db.view m with routes := db'.approvedRoutesForNetwork m } := by
    intro m
    rw [Db.view, Db.getNetwork, Db.shownDevices, Db.listRelays, hdevices, hnetworks, hrelays]
    rfl
  have hrow : db'.devices.rows = db.devices.rows.map id := by rw [hdevices, List.map_id]
  rw [unchanged_iff hrow (fun _ => rfl) (fun _ => rfl) (fun _ => rfl) hnetworks]
  -- in the network itself the two configurations differ in one route
  have hconfig : ∀ d e, (db'.view n).config texts n e d = (db.view n).config texts n e d ↔
      (∀ p ∈ db.shownDevices n, p.id ≠ d.id → p.id ≠ x.1) ∧
        (x.1 = d.id → isDefaultText texts.addr x.2 = true →
          isExit texts (front ++ back) d.id = true) := by
    intro d e
    have hself : db.view n = { db.view n with routes := front ++ back } := by
      rw [← hbefore]
      rfl
    rw [hview, hafter]
    conv_lhs => rhs; rw [hself]
    exact config_insert_iff (db.view n)
  constructor
  · rintro h ⟨hstored, ⟨d₀, hd₀, hid₀, rfl, hactive₀⟩, hshown⟩
    obtain ⟨e, he⟩ := getNetwork_isSome.mp hstored
    rcases hshown with ⟨_, hne, d, hd, rfl, hnetwork, hactive⟩ | ⟨hdefault, hexit⟩
    · have hd' := h d hd hactive e (by rw [hnetwork, he])
      rw [id, hnetwork, hconfig] at hd'
      refine hd'.1 d₀.shown ?_ ?_ hid₀
      · exact mem_shownDevices.mpr ⟨d₀, hd₀, ⟨rfl, hactive₀⟩, rfl⟩
      · exact fun heq => hne (heq.symm.trans hid₀)
    · have hd' := (hconfig d₀ e).mp (h d₀ hd₀ hactive₀ e he)
      have htrue := hd'.2 hid₀.symm hdefault
      rw [hid₀, hexit] at htrue
      cases htrue
  · intro h d hd hactive e he
    by_cases heq : d.networkId = n
    · subst heq
      refine (hconfig d e).mpr ?_
      have hstored := getNetwork_isSome.mpr ⟨e, he⟩
      constructor
      · intro p hp hne hpx
        obtain ⟨d₀, hd₀, hactive₀, rfl⟩ := mem_shownDevices.mp hp
        exact h ⟨hstored, ⟨d₀, hd₀, hpx, hactive₀⟩,
          .inl ⟨d.id, fun hd' => hne (hpx.trans hd'.symm), d, hd, rfl, rfl, hactive⟩⟩
      · intro hid hdefault
        by_contra hexit
        refine h ⟨hstored, ⟨d, hd, hid.symm, rfl, hactive⟩, .inr ⟨hdefault, ?_⟩⟩
        rw [hid]
        exact Bool.eq_false_iff.mpr hexit
    · rw [hview, hother _ heq]
      rfl

/-! ### Approvals and deletions -/

/-- The route as configurations show it, if they do. -/
def approvedIn (n : String) (r : Route) : Option (String × String) :=
  if r.networkId = n ∧ r.approved then some (r.deviceId, r.cidr) else none

lemma isExit_filterMap {rows : List Route} :
    isExit texts (rows.filterMap (approvedIn n)) id = false ↔
      ∀ r ∈ rows, r.networkId = n → r.deviceId = id → r.approved = true →
        isDefaultText texts.addr r.cidr = false := by
  rw [isExit, List.any_eq_false]
  constructor
  · intro h r hr hnetwork hid happroved
    have hshown : approvedIn n r = some (r.deviceId, r.cidr) := if_pos ⟨hnetwork, happroved⟩
    have hroute := h _ (List.mem_filterMap.mpr ⟨r, hr, hshown⟩)
    simpa [hid] using hroute
  · intro h x hx
    obtain ⟨r, hr, hshown⟩ := List.mem_filterMap.mp hx
    unfold approvedIn at hshown
    split at hshown
    · next happroved =>
      cases hshown
      simp only [decide_eq_true_eq, not_and, Bool.not_eq_true]
      exact fun hid => h r hr happroved.1 hid happroved.2
    · cases hshown

lemma routes_nodup (db : Db) : db.routes.rows.Nodup :=
  nodup_rows List.mem_cons_self fun _ => rfl

variable {r : Route} {json : String}

lemma exists_split_route (hr : r ∈ db.routes.rows) :
    ∃ front back, db.routes.rows = front ++ r :: back ∧
      ∀ r' ∈ front ++ back, decide (r'.id = r.id) = false :=
  exists_split (routes_nodup db) hr fun _ hr' hid => route_eq hr' hr (of_decide_eq_true hid)

/-- What is shown of a route in terms of the rows around it. -/
lemma routeShown_iff {front back : List Route} (hsplit : db.routes.rows = front ++ r :: back)
    (hother : ∀ r' ∈ front ++ back, decide (r'.id = r.id) = false) :
    db.RouteShown texts r ↔ (db.getNetwork r.networkId).isSome ∧ db.ActiveIn r.networkId r.deviceId ∧
      ((∃ id, id ≠ r.deviceId ∧ db.ActiveIn r.networkId id) ∨
        isDefaultText texts.addr r.cidr = true ∧
          isExit texts ((front ++ back).filterMap (approvedIn r.networkId)) r.deviceId = false) := by
  have hmem : ∀ r', r' ∈ front ++ back ↔ r' ∈ db.routes.rows ∧ r'.id ≠ r.id := by
    intro r'
    rw [hsplit, List.perm_middle.mem_iff, List.mem_cons]
    constructor
    · exact fun hr' => ⟨.inr hr', of_decide_eq_false (hother r' hr')⟩
    · rintro ⟨rfl | hr', hne⟩
      · exact absurd rfl hne
      · exact hr'
  rw [isExit_filterMap, Db.RouteShown]
  simp only [hmem, and_imp]

lemma approvedRoutesForNetwork_eq (db : Db) (n : String) :
    db.approvedRoutesForNetwork n = db.routes.rows.filterMap (approvedIn n) := rfl

/-- A route between the others, shown in its network and in no other. -/
lemma filterMap_approved (front back : List Route) (happroved : r.approved = true) :
    (front ++ r :: back).filterMap (approvedIn n) =
      if r.networkId = n then
        front.filterMap (approvedIn n) ++ (r.deviceId, r.cidr) :: back.filterMap (approvedIn n)
      else (front ++ back).filterMap (approvedIn n) := by
  by_cases hnetwork : r.networkId = n
  · have hshown : approvedIn n r = some (r.deviceId, r.cidr) := if_pos ⟨hnetwork, happroved⟩
    rw [if_pos hnetwork, List.filterMap_append, List.filterMap_cons, hshown]
  · have hhidden : approvedIn n r = none := if_neg fun h => hnetwork h.1
    rw [if_neg hnetwork, List.filterMap_append, List.filterMap_cons, hhidden, List.filterMap_append]

lemma filterMap_unapproved (front back : List Route) (happroved : r.approved = false) :
    (front ++ r :: back).filterMap (approvedIn n) = (front ++ back).filterMap (approvedIn n) := by
  have hhidden : approvedIn n r = none := if_neg (by simp [happroved])
  rw [List.filterMap_append, List.filterMap_cons, hhidden, List.filterMap_append]

/-- Databases with and without an approved route. -/
lemma unchanged_route_iff {front back : List Route} (hdevices : db'.devices = db.devices)
    (hnetworks : db'.networks = db.networks) (hrelays : db'.relays = db.relays)
    (happroved : r.approved = true)
    (hbefore : ∀ n, db.approvedRoutesForNetwork n = (front ++ back).filterMap (approvedIn n))
    (hafter : db'.routes.rows = front ++ r :: back) :
    Unchanged texts db db' ↔ ¬ ((db.getNetwork r.networkId).isSome ∧
      db.ActiveIn r.networkId r.deviceId ∧ ((∃ id, id ≠ r.deviceId ∧ db.ActiveIn r.networkId id) ∨
        isDefaultText texts.addr r.cidr = true ∧
          isExit texts ((front ++ back).filterMap (approvedIn r.networkId)) r.deviceId = false)) := by
  rw [List.filterMap_append]
  refine unchanged_insert_iff (x := (r.deviceId, r.cidr)) hdevices hnetworks hrelays ?_ ?_ ?_
  · rw [hbefore, List.filterMap_append]
  · rw [approvedRoutesForNetwork_eq, hafter, filterMap_approved _ _ happroved, if_pos rfl]
  · intro m hm
    rw [hbefore, approvedRoutesForNetwork_eq, hafter, filterMap_approved _ _ happroved,
      if_neg (Ne.symm hm)]

lemma unchanged_approve_iff (hr : r ∈ db.routes.rows) :
    Unchanged texts db (db.setRouteApproved r.id true) ↔
      ¬ (r.approved = false ∧ db.RouteShown texts r) := by
  obtain ⟨front, back, hsplit, hother⟩ := exists_split_route hr
  have hrows : (db.setRouteApproved r.id true).routes.rows =
      front ++ { r with approved := true } :: back :=
    rows_update_split (f := fun r : Route => { r with approved := true }) hsplit
      (decide_eq_true rfl) hother (narrows_single fun _ => rfl)
  by_cases happroved : r.approved = true
  · have hsame : db.setRouteApproved r.id true = db := by
      have hr' : { r with approved := true } = r := by rw [← happroved]
      rw [hr', ← hsplit] at hrows
      exact congrArg (fun routes => { db with routes }) (eq_of_rows hrows)
    rw [hsame, happroved]
    exact iff_of_true (.refl db) (fun h => nomatch h.1)
  · have happroved := Bool.eq_false_iff.mpr happroved
    have hbefore : ∀ n, db.approvedRoutesForNetwork n = (front ++ back).filterMap (approvedIn n) := by
      intro n
      rw [approvedRoutesForNetwork_eq, hsplit, filterMap_unapproved _ _ happroved]
    have hiff : Unchanged texts db (db.setRouteApproved r.id true) ↔ _ :=
      unchanged_route_iff rfl rfl rfl rfl hbefore hrows
    rw [hiff, routeShown_iff hsplit hother]
    simp only [happroved, true_and]

lemma unchanged_delete_iff (hr : r ∈ db.routes.rows) (happroved : r.approved = true) :
    Unchanged texts db (db.deleteRoute r.id) ↔ ¬ db.RouteShown texts r := by
  obtain ⟨front, back, hsplit, hother⟩ := exists_split_route hr
  have hrows : (db.deleteRoute r.id).routes.rows = front ++ back :=
    rows_delete_split hsplit (decide_eq_true rfl) hother
  have hbefore : ∀ n, (db.deleteRoute r.id).approvedRoutesForNetwork n =
      (front ++ back).filterMap (approvedIn n) := by
    intro n
    rw [approvedRoutesForNetwork_eq, hrows]
  have hiff : Unchanged texts (db.deleteRoute r.id) db ↔ _ :=
    unchanged_route_iff rfl rfl rfl happroved hbefore hsplit
  rw [routeShown_iff hsplit hother]
  exact ⟨fun h => hiff.mp h.symm, fun h => (hiff.mpr h).symm⟩

/-! ### Settings -/

def DeviceRow.withSettings (id json : String) (d : DeviceRow) : DeviceRow :=
  if d.id = id then { d with settings := some json } else d

lemma withSettings_frame (id json : String) (d : DeviceRow) :
    (d.withSettings id json).id = d.id ∧ (d.withSettings id json).networkId = d.networkId ∧
      (d.withSettings id json).status = d.status := by
  unfold withSettings
  split <;> exact ⟨rfl, rfl, rfl⟩

lemma shownIn_withSettings (id json : String) (d : DeviceRow) :
    shownIn n (d.withSettings id json) = (shownIn n d).map (withSettings id json) := by
  obtain ⟨-, hnetwork, hstatus⟩ := withSettings_frame id json d
  have hshown : (d.withSettings id json).shown = d.shown.withSettings id json := by
    unfold withSettings
    split
    · next hid => exact (if_pos hid).symm
    · next hid => exact (if_neg hid).symm
  rw [shownIn, shownIn, hnetwork, hstatus, hshown]
  split <;> rfl

lemma rows_setDeviceSettings (db : Db) (id json : String) :
    (db.setDeviceSettings id json).devices.rows =
      db.devices.rows.map (withSettings id json) := by
  refine List.map_congr_left fun d _ => ?_
  rw [withSettings]
  simp only [decide_eq_true_eq]

lemma shownDevices_setDeviceSettings (db : Db) (id json n : String) :
    (db.setDeviceSettings id json).shownDevices n =
      (db.shownDevices n).map (withSettings id json) := by
  rw [Db.shownDevices, select, rows_setDeviceSettings, List.filterMap_map, Db.shownDevices,
    select, List.map_filterMap]
  exact List.filterMap_congr fun d _ => shownIn_withSettings id json d

lemma peerOf_withSettings_iff {routes : List (String × String)} :
    peerOf texts routes (d.withSettings id json) = peerOf texts routes d ↔
      (d.id = id → (texts.settings { d with settings := some json }.settingsText).endpoint.filter
        (· ≠ "") = (texts.settings d.settingsText).endpoint.filter (· ≠ "")) := by
  unfold withSettings
  split
  · next hid =>
    have hinjective : Function.Injective (Option.toList : Option String → List String) := by
      rintro (_ | a) (_ | b) <;> simp
    simp only [hid, forall_const, peerOf, PeerConfig.mk.injEq, true_and, and_true, withOverride,
      endpointList, List.append_left_inj, hinjective.eq_iff]
  · next hid => exact iff_of_true rfl fun heq => absurd heq hid

lemma config_withSettings_iff (v : View) : { v with devices := v.devices.map (withSettings id json) }.config texts n e
        (me.withSettings id json) = v.config texts n e me ↔
      (∀ d ∈ v.devices, d.id ≠ me.id → d.id = id →
        (texts.settings { d with settings := some json }.settingsText).endpoint.filter (· ≠ "") =
          (texts.settings d.settingsText).endpoint.filter (· ≠ "")) ∧
        (me.id = id → ownSettings (texts.settings { me with settings := some json }.settingsText) =
          ownSettings (texts.settings me.settingsText)) := by
  have hpeers : orderBy (·.id.toList) ((v.devices.map (withSettings id json)).filter
      (·.id ≠ me.id)) = (orderBy (·.id.toList) (v.devices.filter (·.id ≠ me.id))).map
        (withSettings id json) := by
    have hkey : ∀ d : DeviceRow, (d.withSettings id json).id.toList = d.id.toList :=
      fun d => by rw [(withSettings_frame id json d).1]
    have hmap : ∀ l, (orderBy (·.id.toList) l).map (withSettings id json) =
        orderBy (·.id.toList) (l.map (withSettings id json)) :=
      map_orderBy (withSettings id json) hkey
    rw [hmap, List.filter_map]
    congr 2
    refine List.filter_congr fun d _ => ?_
    rw [Function.comp_apply, (withSettings_frame id json d).1]
  have hown : (me.id = id → ownSettings (texts.settings { me with settings := some json }.settingsText) =
      ownSettings (texts.settings me.settingsText)) ↔
        ownSettings (texts.settings (me.withSettings id json).settingsText) =
          ownSettings (texts.settings me.settingsText) := by
    unfold withSettings
    split
    · next hid => exact ⟨fun h => h hid, fun h _ => h⟩
    · next hid => exact iff_of_true (fun heq => absurd heq hid) rfl
  have haddresses : (me.withSettings id json).addressV4 = me.addressV4 ∧
      (me.withSettings id json).addressV6 = me.addressV6 := by
    unfold withSettings
    split <;> exact ⟨rfl, rfl⟩
  rw [hown]
  simp only [View.config, DeviceConfig.mk.injEq, true_and, and_true, haddresses,
    (withSettings_frame id json me).1, hpeers, List.map_map, List.map_inj_left, mem_orderBy,
    List.mem_filter, decide_eq_true_eq, Function.comp_apply, peerOf_withSettings_iff, and_imp,
    ownSettings, Prod.mk.injEq]

/-- The settings of a device are written. -/
lemma unchanged_settings_iff (hd : d ∈ db.devices.rows) (json : String) :
    Unchanged texts db (db.setDeviceSettings d.id json) ↔ ¬ db.SettingsShown texts d json := by
  have hframe := withSettings_frame d.id json
  rw [unchanged_iff (rows_setDeviceSettings db d.id json) (fun d => (hframe d).1)
    (fun d => (hframe d).2.1) (fun d => (hframe d).2.2) rfl]
  have hview : ∀ n, (db.setDeviceSettings d.id json).view n =
      { db.view n with devices := (db.view n).devices.map (withSettings d.id json) } := by
    intro n
    rw [Db.view, shownDevices_setDeviceSettings]
    rfl
  simp only [hview, config_withSettings_iff]
  constructor
  · rintro h ⟨hstored, hactive, hshown⟩
    obtain ⟨e, he⟩ := getNetwork_isSome.mp hstored
    rcases hshown with hown | ⟨hendpoint, _, hne, d', hd', rfl, hnetwork, hactive'⟩
    · exact hown ((h d hd hactive e he).2 rfl)
    have hpeer := (h d' hd' hactive' e (by rw [hnetwork, he])).1 d.shown ?_ (Ne.symm hne) rfl
    · exact hendpoint hpeer
    · rw [hnetwork]
      exact mem_shownDevices.mpr ⟨d, hd, ⟨rfl, hactive⟩, rfl⟩
  · intro h d' hd' hactive' e he
    have hstored := getNetwork_isSome.mpr ⟨e, he⟩
    constructor
    · intro p hp hne hid
      obtain ⟨d₀, hd₀, hactive₀, rfl⟩ := mem_shownDevices.mp hp
      obtain rfl : d₀ = d := device_eq hd₀ hd hid
      by_contra hendpoint
      refine h ⟨hactive₀.1 ▸ hstored, hactive₀.2, .inr ⟨hendpoint, d'.id, Ne.symm hne, d', hd', rfl,
        ?_, hactive'⟩⟩
      exact hactive₀.1.symm
    · intro hid
      obtain rfl := device_eq hd' hd hid
      by_contra hown
      exact h ⟨hstored, hactive', .inl hown⟩

end

end Fluxpeer.Control
