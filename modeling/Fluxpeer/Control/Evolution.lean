import Fluxpeer.Control.Commits

/-!
# What a step does to the database

Every statement and every transaction changes the tables in a few ways only: identifiers come from
the sequence and are never used twice, devices stay in their network and are never active again once
revoked, networks keep their pools and their epochs grow. `Evolves` says this of two databases. It
is proved for each statement, and it composes, so that it holds of the transactions and of all that
happens between two states of a run.
-/

namespace Fluxpeer.Control

open Lib Net

/-- An identifier that the sequence has given out. -/
def Issued (kind : String) (db : Db) (id : String) : Prop :=
  ∃ seq, seq ≤ db.entity ∧ id = kind ++ Nat.repr seq

/-- An identifier that the sequence gave out between two databases. -/
def IssuedBetween (kind : String) (db db' : Db) (id : String) : Prop :=
  ∃ seq, db.entity < seq ∧ seq ≤ db'.entity ∧ id = kind ++ Nat.repr seq

variable {kind id : String}

lemma issued_of_between {db db' : Db} (h : IssuedBetween kind db db' id) :
    Issued kind db' id := by
  obtain ⟨seq, -, hle, heq⟩ := h
  exact ⟨seq, hle, heq⟩

lemma Issued.mono {db db' : Db} (h : Issued kind db id) (hle : db.entity ≤ db'.entity) :
    Issued kind db' id := by
  obtain ⟨seq, hseq, heq⟩ := h
  exact ⟨seq, hseq.trans hle, heq⟩

/-- Reading the digits back gives the number. -/
lemma eq_of_repr_eq {m n : Nat} (h : Nat.repr m = Nat.repr n) : m = n := by
  have hread := congrArg (fun s => Nat.ofDigitChars 10 s.toList 0) h
  simpa [Nat.repr_eq_ofList_toDigits, Nat.ofDigitChars_ten_toDigits] using hread

/-- The numbers that the sequence gives out are new. -/
lemma IssuedBetween.not_issued {db db' : Db} (h : IssuedBetween kind db db' id) :
    ¬ Issued kind db id := by
  rintro ⟨seq', hle, heq'⟩
  obtain ⟨seq, hlt, -, heq⟩ := h
  have hseq : seq = seq' := eq_of_repr_eq ((String.append_right_inj kind).mp (heq.symm.trans heq'))
  omega

def Network.pools (n : Network) : String × String := (n.ipv4Pool, n.ipv6Ula)

/-- What becomes of a network that is not deleted. -/
structure NetworkStep (n n' : Network) : Prop where
  id : n'.id = n.id
  ipv4Pool : n'.ipv4Pool = n.ipv4Pool
  ipv6Ula : n'.ipv6Ula = n.ipv6Ula
  epoch : n.configEpoch ≤ n'.configEpoch

/-- What becomes of a device, when a credential is drawn as `draw`. -/
structure DeviceStep (draw : String) (d d' : DeviceRow) : Prop where
  id : d'.id = d.id
  networkId : d'.networkId = d.networkId
  key : d'.wgPublicKey = d.wgPublicKey
  live : d'.status = .active → d.status = .active ∧ d'.addressV4 = d.addressV4
  token : d'.authToken = d.authToken ∨ d'.authToken = none ∨ d'.authToken = some draw

structure NewDevice (text : AddrText) (draw : String) (db db' : Db) (d : DeviceRow) : Prop where
  issued : IssuedBetween "dev-" db db' d.id
  key : ∃ key, d.wgPublicKey = PublicKey.canonical key
  v4 : d.status = .active → ∀ a ∈ d.addressV4, ∃ octets, a = text.display (.v4 octets)
  token : d.authToken = none ∨ d.authToken = some draw

structure NewRoute (db db' : Db) (r : Route) : Prop where
  issued : IssuedBetween "route-" db db' r.id
  pending : r.approved = false

structure Evolves (text : AddrText) (draw : String) (db db' : Db) : Prop where
  entity : db.entity ≤ db'.entity
  networks : ∀ n' ∈ db'.networks.rows, ∃ n ∈ db.networks.rows, NetworkStep n n'
  devices : ∀ d' ∈ db'.devices.rows,
    (∃ d ∈ db.devices.rows, DeviceStep draw d d') ∨ NewDevice text draw db db' d'
  kept : ∀ d ∈ db.devices.rows, ∃ d' ∈ db'.devices.rows, DeviceStep draw d d'
  routes : ∀ r ∈ db'.routes.rows, r ∈ db.routes.rows ∨ NewRoute db db' r

section

variable {text : AddrText} {draw : String} {db db' db'' : Db}

lemma NetworkStep.refl (n : Network) : NetworkStep n n := ⟨rfl, rfl, rfl, le_rfl⟩

lemma NetworkStep.trans {n n' n'' : Network} (h : NetworkStep n n') (h' : NetworkStep n' n'') :
    NetworkStep n n'' :=
  ⟨h'.id.trans h.id, h'.ipv4Pool.trans h.ipv4Pool, h'.ipv6Ula.trans h.ipv6Ula,
    h.epoch.trans h'.epoch⟩

lemma NetworkStep.pools {n n' : Network} (h : NetworkStep n n') : n'.pools = n.pools := by
  rw [Network.pools, h.ipv4Pool, h.ipv6Ula, Network.pools]

lemma DeviceStep.refl (d : DeviceRow) : DeviceStep draw d d :=
  ⟨rfl, rfl, rfl, fun h => ⟨h, rfl⟩, .inl rfl⟩

lemma DeviceStep.trans {d d' d'' : DeviceRow} (h : DeviceStep draw d d')
    (h' : DeviceStep draw d' d'') : DeviceStep draw d d'' where
  id := h'.id.trans h.id
  networkId := h'.networkId.trans h.networkId
  key := h'.key.trans h.key
  live hactive := by
    obtain ⟨hactive', hv4'⟩ := h'.live hactive
    obtain ⟨hactive, hv4⟩ := h.live hactive'
    exact ⟨hactive, hv4'.trans hv4⟩
  token := by
    rcases h'.token with hsame | hset
    · rw [hsame]
      exact h.token
    · exact .inr hset

lemma NewDevice.step {d d' : DeviceRow} (h : NewDevice text draw db db' d)
    (hstep : DeviceStep draw d d') (hle : db'.entity ≤ db''.entity) :
    NewDevice text draw db db'' d' where
  issued := by
    obtain ⟨seq, hlt, hseq, heq⟩ := h.issued
    exact ⟨seq, hlt, hseq.trans hle, hstep.id.trans heq⟩
  key := by
    rw [hstep.key]
    exact h.key
  v4 hactive := by
    obtain ⟨hactive', hv4⟩ := hstep.live hactive
    rw [hv4]
    exact h.v4 hactive'
  token := by
    rcases hstep.token with hsame | hset
    · rw [hsame]
      exact h.token
    · exact hset

lemma IssuedBetween.widen (h : IssuedBetween kind db' db'' id) (hle : db.entity ≤ db'.entity) :
    IssuedBetween kind db db'' id := by
  obtain ⟨seq, hlt, hseq, heq⟩ := h
  exact ⟨seq, hle.trans_lt hlt, hseq, heq⟩

lemma IssuedBetween.extend (h : IssuedBetween kind db db' id) (hle : db'.entity ≤ db''.entity) :
    IssuedBetween kind db db'' id := by
  obtain ⟨seq, hlt, hseq, heq⟩ := h
  exact ⟨seq, hlt, hseq.trans hle, heq⟩

lemma Evolves.trans (h : Evolves text draw db db') (h' : Evolves text draw db' db'') :
    Evolves text draw db db'' where
  entity := h.entity.trans h'.entity
  networks n'' hn'' := by
    obtain ⟨n', hn', hstep'⟩ := h'.networks n'' hn''
    obtain ⟨n, hn, hstep⟩ := h.networks n' hn'
    exact ⟨n, hn, hstep.trans hstep'⟩
  devices d'' hd'' := by
    rcases h'.devices d'' hd'' with ⟨d', hd', hstep'⟩ | hnew
    · rcases h.devices d' hd' with ⟨d, hd, hstep⟩ | hnew
      · exact .inl ⟨d, hd, hstep.trans hstep'⟩
      · exact .inr (hnew.step hstep' h'.entity)
    · exact .inr ⟨hnew.issued.widen h.entity, hnew.key, hnew.v4, hnew.token⟩
  kept d hd := by
    obtain ⟨d', hd', hstep⟩ := h.kept d hd
    obtain ⟨d'', hd'', hstep'⟩ := h'.kept d' hd'
    exact ⟨d'', hd'', hstep.trans hstep'⟩
  routes r hr := by
    rcases h'.routes r hr with hr' | hnew
    · rcases h.routes r hr' with hr | hnew
      · exact .inl hr
      · exact .inr ⟨hnew.issued.extend h'.entity, hnew.pending⟩
    · exact .inr ⟨hnew.issued.widen h.entity, hnew.pending⟩

/-- A step that leaves networks, devices and routes alone. -/
lemma Evolves.of_eq (hentity : db.entity ≤ db'.entity) (hnetworks : db'.networks = db.networks)
    (hdevices : db'.devices = db.devices) (hroutes : db'.routes = db.routes) :
    Evolves text draw db db' where
  entity := hentity
  networks n hn := ⟨n, hnetworks ▸ hn, .refl n⟩
  devices d hd := .inl ⟨d, hdevices ▸ hd, .refl d⟩
  kept d hd := ⟨d, hdevices ▸ hd, .refl d⟩
  routes _ hr := .inl (hroutes ▸ hr)

lemma Evolves.refl (db : Db) : Evolves text draw db db := .of_eq le_rfl rfl rfl rfl

/-- A step that changes devices only, each in the way a device may change. -/
lemma Evolves.of_devices {p : DeviceRow → Bool} {f : DeviceRow → DeviceRow}
    {hf : Table.Narrows DeviceRow.indexes f} (hstep : ∀ d ∈ db.devices.rows, DeviceStep draw d (f d)) :
    Evolves text draw db { db with devices := db.devices.update p f hf } where
  entity := le_rfl
  networks n hn := ⟨n, hn, .refl n⟩
  devices d' hd' := by
    obtain ⟨d, hd, rfl⟩ := List.mem_map.mp hd'
    refine .inl ⟨d, hd, ?_⟩
    split
    · exact hstep d hd
    · exact .refl d
  kept d hd := by
    refine ⟨_, List.mem_map.mpr ⟨d, hd, rfl⟩, ?_⟩
    split
    · exact hstep d hd
    · exact .refl d
  routes _ hr := .inl hr

/-! ## Statements -/

lemma evolves_setDeviceToken (db : Db) (deviceId : String) :
    Evolves text draw db (db.setDeviceToken deviceId draw) :=
  .of_devices fun _ _ => ⟨rfl, rfl, rfl, fun h => ⟨h, rfl⟩, .inr (.inr rfl)⟩

lemma evolves_setDeviceEndpoints (db : Db) (deviceId : String) (endpoints : List String) :
    Evolves text draw db (db.setDeviceEndpoints deviceId endpoints) :=
  .of_devices fun _ _ => ⟨rfl, rfl, rfl, fun h => ⟨h, rfl⟩, .inl rfl⟩

lemma evolves_setDeviceSettings (db : Db) (deviceId json : String) :
    Evolves text draw db (db.setDeviceSettings deviceId json) :=
  .of_devices fun _ _ => ⟨rfl, rfl, rfl, fun h => ⟨h, rfl⟩, .inl rfl⟩

lemma evolves_setDeviceName (db : Db) (deviceId name : String) :
    Evolves text draw db (db.setDeviceName deviceId name) :=
  .of_devices fun _ _ => ⟨rfl, rfl, rfl, fun h => ⟨h, rfl⟩, .inl rfl⟩

lemma evolves_revokeDevices (db : Db) (p : DeviceRow → Bool) :
    Evolves text draw db (db.revokeDevices p) :=
  .of_devices fun _ _ => ⟨rfl, rfl, rfl, (fun h => nomatch h), .inr (.inl rfl)⟩

lemma evolves_bumpNetworkEpoch (db : Db) (id : String) :
    Evolves text draw db (db.bumpNetworkEpoch id) where
  entity := le_rfl
  networks n' hn' := by
    obtain ⟨n, hn, rfl⟩ := List.mem_map.mp hn'
    refine ⟨n, hn, ?_⟩
    split
    · exact ⟨rfl, rfl, rfl, Nat.le_succ _⟩
    · exact .refl n
  devices d hd := .inl ⟨d, hd, .refl d⟩
  kept d hd := ⟨d, hd, .refl d⟩
  routes _ hr := .inl hr

lemma evolves_foldl_bumpNetworkEpoch (db : Db) (ids : List String) :
    Evolves text draw db (ids.foldl Db.bumpNetworkEpoch db) :=
  List.foldlRecOn ids _ (.refl db) fun db' h id _ => h.trans (evolves_bumpNetworkEpoch db' id)

lemma evolves_dropNetwork (db : Db) (id : String) : Evolves text draw db (db.dropNetwork id) where
  entity := le_rfl
  networks n hn := ⟨n, (Table.mem_delete.mp hn).1, .refl n⟩
  devices d hd := .inl ⟨d, hd, .refl d⟩
  kept d hd := ⟨d, hd, .refl d⟩
  routes _ hr := .inl hr

lemma evolves_deleteRoutes (db : Db) (p : Route → Bool) :
    Evolves text draw db (db.deleteRoutes p) where
  entity := le_rfl
  networks n hn := ⟨n, hn, .refl n⟩
  devices d hd := .inl ⟨d, hd, .refl d⟩
  kept d hd := ⟨d, hd, .refl d⟩
  routes _ hr := .inl (Table.mem_delete.mp hr).1

/-- A device with a number of its own comes into the table. -/
lemma evolves_insertDevice {d : Device} (hid : d.id = "dev-" ++ Nat.repr (db.entity + 1))
    (hv4 : ∀ a ∈ d.addressV4, ∃ octets, a = text.display (.v4 octets))
    (h : Db.insertDevice { db with entity := db.entity + 1 } d = .ok db') :
    Evolves text draw db db' := by
  obtain ⟨key, devices, hkey, hinsert, rfl⟩ := insertDevice_eq_ok h
  refine ⟨Nat.le_succ _, fun n hn => ⟨n, hn, .refl n⟩, ?_, ?_, fun r hr => .inl hr⟩
  · intro d' hd'
    rcases (Table.mem_insert? hinsert).mp hd' with hd' | rfl
    · exact .inl ⟨d', hd', .refl d'⟩
    · obtain ⟨k, -, hcanonical⟩ := Option.map_eq_some_iff.mp hkey
      exact .inr ⟨⟨_, Nat.lt_succ_self _, le_rfl, hid⟩, ⟨k, hcanonical.symm⟩, fun _ => hv4, .inl rfl⟩
  · intro d' hd'
    exact ⟨d', (Table.mem_insert? hinsert).mpr (.inl hd'), .refl d'⟩

lemma evolves_addRoute {networkId deviceId cidr : String} {route : Route}
    (h : db.addRoute networkId deviceId cidr = .ok (db', route)) : Evolves text draw db db' := by
  obtain ⟨routes, hinsert, hroute, rfl⟩ := addRoute_eq_ok h
  refine ⟨Nat.le_succ _, fun n hn => ⟨n, hn, .refl n⟩, fun d hd => .inl ⟨d, hd, .refl d⟩,
    fun d hd => ⟨d, hd, .refl d⟩, ?_⟩
  intro r hr
  rw [Table.mem_insert? hinsert] at hr
  rcases hr with hr | rfl
  · exact .inl hr
  · refine .inr ⟨⟨db.entity + 1, Nat.lt_succ_self _, le_rfl, ?_⟩, ?_⟩
    · rw [hroute]
    · rw [hroute]

/-! ## Transactions -/

/-- What has been checked of the arguments of a transaction: fixed addresses are written as the
allocator writes them. -/
def Transaction.Prepared (text : AddrText) : Transaction → Prop
  | .importDevices _ devices _ =>
    ∀ d ∈ devices, ∀ a ∈ d.addressV4, ∃ octets, a = text.display (.v4 octets)
  | _ => True

lemma Imports.evolves {networkId : String} {seen : List String}
    {items : List (ImportDevice × String)} {created : List Device}
    (h : Imports networkId db seen items db' created)
    (hv4 : ∀ item ∈ items, ∀ a ∈ item.1.addressV4, ∃ octets, a = text.display (.v4 octets)) :
    Evolves text draw db db' := by
  induction h with
  | nil => exact .refl _
  | skip known rest ih => exact ih fun item hitem => hv4 item (List.mem_cons_of_mem _ hitem)
  | create new row insert rest ih =>
    subst row
    have hrest := ih fun item hitem => hv4 item (List.mem_cons_of_mem _ hitem)
    exact (evolves_insertDevice rfl (hv4 _ List.mem_cons_self) insert).trans
      ((evolves_setDeviceEndpoints _ _ _).trans hrest)

lemma Transaction.Commits.evolves {tx : Transaction} {next : Option Task}
    (h : tx.Commits text draw db db' next) (hprepared : tx.Prepared text) :
    Evolves text draw db db' := by
  cases h with
  | nextSeq => exact .of_eq (Nat.le_succ _) rfl rfl rfl
  | createInvite | revokeInvite | reportStats => exact .of_eq le_rfl rfl rfl rfl
  | @deleteNetwork networkId =>
    -- the tables are changed one by one, in any order
    refine .trans (.trans (evolves_revokeDevices db fun d => d.networkId = networkId)
      (evolves_deleteRoutes _ fun r => r.networkId = networkId)) ?_
    refine (evolves_bumpNetworkEpoch _ networkId).trans ((evolves_dropNetwork _ networkId).trans ?_)
    exact .of_eq le_rfl rfl rfl rfl
  | enrollKnown => exact evolves_setDeviceToken db _
  | @enroll code name key now _ _ _ _ _ _ db₁ _ _ _ _ _ _ row insert =>
    subst row
    have hconsume : Evolves text draw db (db.consumeInvite code now).1 := .of_eq le_rfl rfl rfl rfl
    refine (hconsume.trans (evolves_insertDevice rfl ?_ insert)).trans
      ((evolves_setDeviceToken db₁ _).trans (evolves_bumpNetworkEpoch _ _))
    rintro a ⟨⟩
    exact ⟨_, rfl⟩
  | importNone | keepRoute => exact .refl db
  | importDevices stored imports =>
    refine (imports.evolves fun item hitem => ?_).trans (evolves_bumpNetworkEpoch _ _)
    exact hprepared item.1 (List.of_mem_zip hitem).1
  | revokeDevice => exact (evolves_revokeDevices db _).trans (evolves_bumpNetworkEpoch _ _)
  | advertiseRoute normal add => exact evolves_addRoute add
  | withdrawRoute => exact evolves_deleteRoutes db _
  | requestRoute authorized normal absent add => exact evolves_addRoute add
  | registerRelay insert =>
    obtain ⟨relays, -, rfl⟩ := insertRelay_eq_ok insert
    refine .trans ?_ (evolves_foldl_bumpNetworkEpoch _ _)
    exact .of_eq (Nat.le_succ _) rfl rfl rfl
  | updateRelay =>
    refine .trans ?_ (evolves_foldl_bumpNetworkEpoch _ _)
    exact .of_eq le_rfl rfl rfl rfl
  | setEndpoints => exact (evolves_setDeviceEndpoints db _ _).trans (evolves_bumpNetworkEpoch _ _)

end

end Fluxpeer.Control
