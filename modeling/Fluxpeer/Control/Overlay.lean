import Fluxpeer.Control.Enrollment
import Fluxpeer.Control.Effects

/-!
# Overlay addresses of the second family

The allocator looks for a host that no active device has in its IPv4 address, and gives it out in
both families. An import stores whatever IPv6 address it is given, with any IPv4 address or none.
The IPv6 addresses of a network are therefore distinct as long as imported ones are new and those
of the range of the allocator come with the IPv4 address of the same host.
-/

namespace Fluxpeer.Control

open Lib Net

section

variable (text : AddrText)

def denoted (a : Option String) : Option IpAddr := a.bind text.parse

/-- No two active devices of a network have IPv6 addresses that denote one address. -/
def Db.V6Distinct (db : Db) : Prop :=
  ∀ d ∈ db.devices.rows, ∀ d' ∈ db.devices.rows, d.status = .active → d'.status = .active →
    d.networkId = d'.networkId → d.id ≠ d'.id →
    ∀ a, denoted text d.addressV6 = some a → denoted text d'.addressV6 ≠ some a

/-- An IPv6 address of the range of the allocator comes with the IPv4 address of its host. -/
def Paired (net : Network) (v4 v6 : Option String) : Prop :=
  ∀ ula host, parseV6Prefix net.ipv6Ula = .ok ula → host ∈ deviceHosts →
    denoted text v6 = some (v6At ula host) → (v4.bind (parseV4 text)).map lastOctet = some host

/-- The devices that an import creates have new IPv6 addresses, each paired with its IPv4
address. -/
def ImportsFree (net : Network) :
    List IpAddr → List String → List (ImportDevice × String) → Prop
  | _, _, [] => True
  | taken, seen, (d, key) :: rest =>
    if key ∈ seen then ImportsFree net taken seen rest
    else (∀ a, denoted text d.addressV6 = some a → a ∉ taken) ∧ Paired text net d.addressV4 d.addressV6 ∧
      ImportsFree net ((denoted text d.addressV6).toList ++ taken) (key :: seen) rest

/-- The IPv6 addresses of the active devices of a network. -/
def Db.takenV6 (db : Db) (networkId : String) : List IpAddr :=
  db.devices.select fun d =>
    if d.networkId = networkId ∧ d.status = .active then denoted text d.addressV6 else none

/-- The keys that an import skips. -/
def Db.activeKeys (db : Db) (networkId : String) : List String :=
  ((db.listDevices networkId).filter fun d => d.status = .active).map (·.wgPublicKey)

/-- An import that is about to run has new and paired addresses. -/
def Task.ImportsFree (db : Db) : Task → Prop
  | .transaction (.importDevices networkId devices keys) _ =>
    ∀ net, db.getNetwork networkId = some net →
      Control.ImportsFree text net (db.takenV6 text networkId) (db.activeKeys networkId)
        (devices.zip keys)
  | _ => True

def Event.ImportsFree (s : Server) : Event → Prop
  | .advance id _ => ∀ r, s.calls id = some r → r.task.ImportsFree text s.db
  | _ => True

end

/-! ## Rows that stay -/

/-- What of a device concerns its place in the overlay. -/
def DeviceRow.place (d : DeviceRow) : String × String × Option String × Option String :=
  (d.id, d.networkId, d.addressV4, d.addressV6)

/-- The active devices were active before, at the same place. -/
def Retains (db db' : Db) : Prop :=
  ∀ d' ∈ db'.devices.rows, d'.status = .active →
    ∃ d ∈ db.devices.rows, d.status = .active ∧ d.place = d'.place

section

variable {text : AddrText} {draw : String} {db db' db'' : Db} {next : Option Task}
  {tx : Transaction}

lemma Retains.of_eq (h : db'.devices = db.devices) : Retains db db' := by
  intro d hd hactive
  rw [h] at hd
  exact ⟨d, hd, hactive, rfl⟩

lemma Retains.trans (h : Retains db db') (h' : Retains db' db'') : Retains db db'' := by
  intro d'' hd'' hactive''
  obtain ⟨d', hd', hactive', hplace'⟩ := h' d'' hd'' hactive''
  obtain ⟨d, hd, hactive, hplace⟩ := h d' hd' hactive'
  exact ⟨d, hd, hactive, hplace.trans hplace'⟩

/-- An update that revokes devices or leaves them at their place. -/
lemma Retains.of_update {p : DeviceRow → Bool} {f : DeviceRow → DeviceRow}
    {hf : Table.Narrows DeviceRow.indexes f}
    (h : ∀ d, (f d).status = .active → d.status = .active ∧ d.place = (f d).place) :
    Retains db { db with devices := db.devices.update p f hf } := by
  intro d' hd' hactive'
  obtain ⟨d, hd, rfl⟩ := List.mem_map.mp hd'
  refine ⟨d, hd, ?_⟩
  split at hactive'
  · next hp =>
    rw [if_pos hp]
    exact h d hactive'
  · next hp =>
    rw [if_neg hp]
    exact ⟨hactive', rfl⟩

lemma retains_revokeDevices (p : DeviceRow → Bool) : Retains db (db.revokeDevices p) :=
  .of_update fun _ h => nomatch h

lemma retains_setDeviceToken (deviceId token : String) :
    Retains db (db.setDeviceToken deviceId token) :=
  .of_update fun _ h => ⟨h, rfl⟩

lemma retains_setDeviceEndpoints (deviceId : String) (endpoints : List String) :
    Retains db (db.setDeviceEndpoints deviceId endpoints) :=
  .of_update fun _ h => ⟨h, rfl⟩

lemma devices_foldl_bumpNetworkEpoch (ids : List String) (db : Db) :
    (ids.foldl Db.bumpNetworkEpoch db).devices = db.devices := by
  induction ids generalizing db with
  | nil => rfl
  | cons id ids ih => exact ih (db.bumpNetworkEpoch id)

/-- A transaction that neither enrols nor imports. -/
lemma Transaction.Commits.retains (h : tx.Commits text draw db db' next)
    (htx : ¬ tx.IsEnrolment) : Retains db db' := by
  cases h with
  | enrollKnown | enroll | importNone | importDevices => exact absurd trivial htx
  | deleteNetwork | revokeDevice => exact (retains_revokeDevices _).trans (.of_eq rfl)
  | advertiseRoute normal add =>
    obtain ⟨_, -, -, rfl⟩ := addRoute_eq_ok add
    exact .of_eq rfl
  | requestRoute authorized normal absent add =>
    obtain ⟨_, -, -, rfl⟩ := addRoute_eq_ok add
    exact .of_eq rfl
  | registerRelay insert =>
    obtain ⟨relays, -, rfl⟩ := insertRelay_eq_ok insert
    exact .of_eq (devices_foldl_bumpNetworkEpoch _ _)
  | updateRelay => exact .of_eq (devices_foldl_bumpNetworkEpoch _ _)
  | setEndpoints => exact (retains_setDeviceEndpoints _ _).trans (.of_eq rfl)
  | _ => exact .of_eq rfl

lemma Task.Writes.retains {task : Task} (h : task.Writes text draw db db')
    (htask : ∀ tx attempt, task = .transaction tx attempt → ¬ tx.IsEnrolment) : Retains db db' := by
  cases h with
  | commits h => exact h.retains (htask _ _ rfl)
  | settings | rename => exact .of_update fun _ h => ⟨h, rfl⟩
  | _ => exact .of_eq rfl

/-! ## Distinct and paired addresses -/

/-- The addresses of active devices are distinct and paired, and their networks are known. -/
structure Db.Overlaid (text : AddrText) (known : String → Prop) (db : Db) : Prop where
  known : ∀ d ∈ db.devices.rows, d.status = .active → known d.networkId
  distinct : db.V6Distinct text
  paired : ∀ d ∈ db.devices.rows, d.status = .active → ∀ net ∈ db.networks.rows,
    net.id = d.networkId → Paired text net d.addressV4 d.addressV6

variable {known : String → Prop}

lemma Paired.congr {net net' : Network} {v4 v6 : Option String} (h : Paired text net v4 v6)
    (hula : net'.ipv6Ula = net.ipv6Ula) : Paired text net' v4 v6 := by
  rw [Paired, hula]
  exact h

/-- Active devices that stay at their place, while networks keep their prefix. -/
lemma Db.Overlaid.retains (h : db.Overlaid text known) (hretains : Retains db db')
    (hnetworks : ∀ net' ∈ db'.networks.rows, ∀ d ∈ db.devices.rows, d.status = .active →
      net'.id = d.networkId → ∃ net ∈ db.networks.rows, net'.id = net.id ∧ net'.ipv6Ula = net.ipv6Ula) :
    db'.Overlaid text known := by
  refine ⟨?_, ?_, ?_⟩
  · intro d' hd' hactive'
    obtain ⟨d, hd, hactive, hplace⟩ := hretains d' hd' hactive'
    simp only [DeviceRow.place, Prod.mk.injEq] at hplace
    rw [← hplace.2.1]
    exact h.known d hd hactive
  · intro d₁' h₁' d₂' h₂' hactive₁' hactive₂' hnetwork hid
    obtain ⟨d₁, h₁, hactive₁, hplace₁⟩ := hretains d₁' h₁' hactive₁'
    obtain ⟨d₂, h₂, hactive₂, hplace₂⟩ := hretains d₂' h₂' hactive₂'
    simp only [DeviceRow.place, Prod.mk.injEq] at hplace₁ hplace₂
    obtain ⟨hid₁, hnetwork₁, -, hv6₁⟩ := hplace₁
    obtain ⟨hid₂, hnetwork₂, -, hv6₂⟩ := hplace₂
    rw [← hv6₁, ← hv6₂]
    rw [← hnetwork₁, ← hnetwork₂] at hnetwork
    rw [← hid₁, ← hid₂] at hid
    exact h.distinct d₁ h₁ d₂ h₂ hactive₁ hactive₂ hnetwork hid
  · intro d' hd' hactive' net' hnet' hid'
    obtain ⟨d, hd, hactive, hplace⟩ := hretains d' hd' hactive'
    simp only [DeviceRow.place, Prod.mk.injEq] at hplace
    obtain ⟨-, hnetwork, hv4, hv6⟩ := hplace
    rw [← hnetwork] at hid'
    obtain ⟨net, hnet, hid, hula⟩ := hnetworks net' hnet' d hd hactive hid'
    rw [← hv4, ← hv6]
    exact (h.paired d hd hactive net hnet (hid.symm.trans hid')).congr hula

/-- A device with a new and paired address comes into the table. -/
lemma Db.Overlaid.insertDevice {d : Device} (h : db.Overlaid text known)
    (hknown : known d.networkId)
    (hnew : ∀ d' ∈ db.devices.rows, d'.status = .active → d'.networkId = d.networkId →
      ∀ a, denoted text d.addressV6 = some a → denoted text d'.addressV6 ≠ some a)
    (hpaired : ∀ net ∈ db.networks.rows, net.id = d.networkId →
      Paired text net d.addressV4 d.addressV6)
    (hinsert : db.insertDevice d = .ok db') : db'.Overlaid text known := by
  obtain ⟨key, devices, -, hrow, rfl⟩ := insertDevice_eq_ok hinsert
  have hrows : ∀ d', d' ∈ devices.rows ↔ d' ∈ db.devices.rows ∨
      d' = ⟨{ d with wgPublicKey := key }, none, none, none⟩ := by
    intro d'
    rw [Table.mem_insert? hrow]
  refine ⟨?_, ?_, ?_⟩
  · intro d' hd' hactive
    rcases (hrows d').mp hd' with hd' | rfl
    · exact h.known d' hd' hactive
    · exact hknown
  · intro d₁ h₁ d₂ h₂ hactive₁ hactive₂ hnetwork hid a ha
    rcases (hrows d₁).mp h₁ with h₁ | rfl
    · rcases (hrows d₂).mp h₂ with h₂ | rfl
      · exact h.distinct d₁ h₁ d₂ h₂ hactive₁ hactive₂ hnetwork hid a ha
      · exact fun ha' => hnew d₁ h₁ hactive₁ hnetwork a ha' ha
    · rcases (hrows d₂).mp h₂ with h₂ | rfl
      · exact hnew d₂ h₂ hactive₂ hnetwork.symm a ha
      · exact absurd rfl hid
  · intro d' hd' hactive net hnet hid
    rcases (hrows d').mp hd' with hd' | rfl
    · exact h.paired d' hd' hactive net hnet hid
    · exact hpaired net hnet hid

/-! ## Enrolment and imports -/

/-- The pair of addresses that the allocator gives out. -/
lemma paired_allocated {net : Network} {base : Block 4} {ula : List Nat} {host : UInt8}
    (hula : parseV6Prefix net.ipv6Ula = .ok ula) :
    Paired text net (some (text.display (v4At base host))) (some (text.display (v6At ula host))) := by
  intro ula' host' hula' _ hdenoted
  rw [hula] at hula'
  cases hula'
  rw [denoted, Option.bind_some, text.parse_display, Option.some.injEq] at hdenoted
  obtain rfl := v6At_inj hdenoted
  have hparse : parseV4 text (text.display (v4At base host)) =
      some ⟨[base.get 0, base.get 1, base.get 2, host], rfl⟩ := parseV4_display _
  rw [Option.bind_some, hparse]
  rfl

/-- A host in use is the host of an active device. -/
lemma mem_usedHosts_of_paired {d : DeviceRow} {host : UInt8} (hd : d ∈ db.devices.rows)
    (hactive : d.status = .active)
    (h : (d.addressV4.bind (parseV4 text)).map lastOctet = some host) :
    host ∈ usedHosts text (db.listDevices d.networkId) := by
  obtain ⟨octets, hbind, rfl⟩ := Option.map_eq_some_iff.mp h
  obtain ⟨v4, hv4, hparse⟩ := Option.bind_eq_some_iff.mp hbind
  refine List.mem_map.mpr ⟨octets, List.mem_filterMap.mpr ⟨v4, ?_, hparse⟩, rfl⟩
  refine List.mem_filterMap.mpr ⟨d.toDevice, List.mem_filter.mpr ⟨?_, ?_⟩, hv4⟩
  · exact mem_listDevices.mpr ⟨d, hd, rfl, rfl⟩
  · exact decide_eq_true hactive

lemma Db.Overlaid.of_eq (h : db.Overlaid text known) (hdevices : db'.devices = db.devices)
    (hnetworks : db'.networks = db.networks) : db'.Overlaid text known :=
  h.retains (.of_eq hdevices) fun net hnet _ _ _ _ => ⟨net, hnetworks ▸ hnet, rfl, rfl⟩

lemma Db.Overlaid.setDeviceToken (h : db.Overlaid text known) (deviceId token : String) :
    (db.setDeviceToken deviceId token).Overlaid text known :=
  h.retains (retains_setDeviceToken deviceId token) fun net hnet _ _ _ _ => ⟨net, hnet, rfl, rfl⟩

lemma Db.Overlaid.setDeviceEndpoints (h : db.Overlaid text known) (deviceId : String)
    (endpoints : List String) : (db.setDeviceEndpoints deviceId endpoints).Overlaid text known :=
  h.retains (retains_setDeviceEndpoints deviceId endpoints) fun net hnet _ _ _ _ =>
    ⟨net, hnet, rfl, rfl⟩

lemma Db.Overlaid.bumpNetworkEpoch (h : db.Overlaid text known) (id : String) :
    (db.bumpNetworkEpoch id).Overlaid text known := by
  refine h.retains (.of_eq rfl) fun net' hnet' _ _ _ _ => ?_
  obtain ⟨net, hnet, rfl⟩ := List.mem_map.mp hnet'
  refine ⟨net, hnet, ?_⟩
  split <;> exact ⟨rfl, rfl⟩

lemma Db.Overlaid.imports {net : Network} {taken : List IpAddr} {seen : List String}
    {items : List (ImportDevice × String)} {created : List Device}
    (himports : Imports net.id db seen items db' created) (h : db.Overlaid text known)
    (hnet : net ∈ db.networks.rows) (hknown : known net.id)
    (htaken : ∀ d ∈ db.devices.rows, d.status = .active → d.networkId = net.id →
      ∀ a, denoted text d.addressV6 = some a → a ∈ taken)
    (hfree : ImportsFree text net taken seen items) : db'.Overlaid text known := by
  induction himports generalizing taken with
  | nil => exact h
  | skip hseen rest ih =>
    unfold ImportsFree at hfree
    rw [if_pos hseen] at hfree
    exact ih h hnet htaken hfree
  | @create db db₁ _ _ d key _ _ _ hseen row insert rest ih =>
    unfold ImportsFree at hfree
    rw [if_neg hseen] at hfree
    obtain ⟨hnew, hpaired, hfree⟩ := hfree
    subst row
    have hoverlaid : db₁.Overlaid text known := by
      have hdrawn : Db.Overlaid text known { db with entity := db.entity + 1 } := h.of_eq rfl rfl
      refine hdrawn.insertDevice hknown ?_ ?_ insert
      · intro d' hd' hactive hnetwork a ha hd6
        exact hnew a ha (htaken d' hd' hactive hnetwork a hd6)
      · intro net' hnet' hid
        rw [network_eq hnet' hnet hid]
        exact hpaired
    obtain ⟨key', devices, -, hrow, rfl⟩ := insertDevice_eq_ok insert
    refine ih (hoverlaid.setDeviceEndpoints _ _) hnet ?_ hfree
    -- the endpoints leave the devices at their place
    intro d' hd' hactive hnetwork a ha
    obtain ⟨d₀, hd₀, hactive₀, hplace⟩ := retains_setDeviceEndpoints _ _ d' hd' hactive
    simp only [DeviceRow.place, Prod.mk.injEq] at hplace
    obtain ⟨-, hnetwork₀, -, hv6⟩ := hplace
    rw [← hnetwork₀] at hnetwork
    rw [← hv6] at ha
    rcases (Table.mem_insert? hrow).mp hd₀ with hd₀ | rfl
    · exact List.mem_append_right _ (htaken d₀ hd₀ hactive₀ hnetwork a ha)
    · exact List.mem_append_left _ (Option.mem_toList.mpr ha)

/-- An enrolment or an import. -/
lemma Db.Overlaid.commits {attempt : Nat} (h : db.Overlaid text known)
    (hknown : ∀ net ∈ db.networks.rows, known net.id) (htx : tx.IsEnrolment)
    (himports : (Task.transaction tx attempt).ImportsFree text db)
    (hcommits : tx.Commits text draw db db' next) : db'.Overlaid text known := by
  cases hcommits with
  | enrollKnown => exact h.setDeviceToken _ _
  | @enroll code name key now _ net base ula host _ db₁ _ _ hnet hula hhost hfree row insert =>
    subst row
    have hoverlaid : db₁.Overlaid text known := by
      have hdrawn : Db.Overlaid text known
          { (db.consumeInvite code now).1 with entity := db.entity + 1 } := h.of_eq rfl rfl
      refine hdrawn.insertDevice (hknown net hnet) ?_ ?_ insert
      · -- a device with the new address would have its host in use
        intro d hd hactive (hnetwork : d.networkId = net.id) a ha hd6
        rw [denoted, Option.bind_some, text.parse_display] at ha
        cases ha
        have hpair := h.paired d hd hactive net hnet hnetwork.symm ula host hula hhost hd6
        rw [← hnetwork] at hfree
        exact hfree (mem_usedHosts_of_paired hd hactive hpair)
      · intro net' hnet' hid
        rw [network_eq hnet' hnet hid]
        exact paired_allocated hula
    exact (hoverlaid.setDeviceToken _ _).bumpNetworkEpoch _
  | importNone => exact h
  | importDevices stored imports =>
    obtain rfl := id_of_getNetwork stored
    have hmem := Table.mem_of_find? stored
    refine (h.imports imports hmem (hknown _ hmem) ?_ (himports _ stored)).bumpNetworkEpoch _
    intro d hd hactive hnetwork a ha
    exact List.mem_filterMap.mpr ⟨d, hd, (if_pos ⟨hnetwork, hactive⟩).trans ha⟩
  | _ => exact absurd htx id

end

/-! ## Runs -/

section

variable {text : AddrText} {known : String → Prop} {db : Db}

lemma Db.Overlaid.mono {known' : String → Prop} (h : db.Overlaid text known)
    (hmono : ∀ n, known n → known' n) : db.Overlaid text known' :=
  ⟨fun d hd hactive => hmono _ (h.known d hd hactive), h.distinct, h.paired⟩

end

namespace Server

variable {text : AddrText} {s s' : Server}

structure Overlaid (text : AddrText) (s : Server) : Prop where
  sound : s.Sound text
  db : s.db.Overlaid text s.Known

lemma Sound.known_of_mem (h : s.Sound text) {net : Network} (hnet : net ∈ s.db.networks.rows) :
    s.Known net.id :=
  h.known (epoch_of_mem hnet)

lemma Overlaid.step {e : Event} (h : s.Overlaid text) (hstep : s.step text e = some s')
    (hfree : e.ImportsFree text s) : s'.Overlaid text := by
  refine ⟨h.sound.step hstep, ?_⟩
  have hmono : ∀ n, s.Known n → s'.Known n := fun n hknown => hknown.step h.sound hstep
  rcases step_db hstep with ⟨hdb, -⟩ | ⟨id, env, r, rfl, hid, hdb⟩
  · rw [hdb]
    exact h.db.mono hmono
  rw [hdb]
  refine Db.Overlaid.mono ?_ hmono
  have htask := h.sound.tasks id r hid
  by_cases henrol : ∃ tx attempt, r.task = .transaction tx attempt ∧ tx.IsEnrolment
  · obtain ⟨tx, attempt, hr, htx⟩ := henrol
    have hfree := hfree r hid
    rw [hr] at hfree ⊢
    rcases step_transaction tx attempt env rfl with hcommits | ⟨hsame, -⟩
    · exact h.db.commits (fun net hnet => h.sound.known_of_mem hnet) htx hfree hcommits
    · exact hsame.symm ▸ h.db
  · refine h.db.retains ((r.task.writes text s.db env).retains fun tx attempt hr htx =>
      henrol ⟨tx, attempt, hr, htx⟩) ?_
    intro net' hnet' d hd hactive hnetwork
    rcases step_networks env htask hnet' with ⟨net, hnet, hkept⟩ | hnew
    · exact ⟨net, hnet, hkept.id, hkept.ipv6Ula⟩
    · -- the network of an active device is not created again
      exact absurd hnetwork ((h.db.known d hd hactive).inserts id r net' hid hnew)

def quiet : Env := ⟨"", none⟩

end Server

end Fluxpeer.Control
