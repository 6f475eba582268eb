import Fluxpeer.Control.Server

/-!
# What a step of a call does

`Commits` lists what a transaction has found and written when it succeeds, and `Writes` what a step
of a call has written. What every step keeps is proved from these, and not from the text of the
transactions.
-/

namespace Fluxpeer.Control

open Lib Net Db

section

variable {text : AddrText} {draw : String} {db db' : Db} {networkId : String}
  {items : List (ImportDevice × String)} {seen : List String} {net : Network} {route : Route}

/-! ## Statements -/

/-- A result of a transaction with what follows it taken off. -/
lemma map_eq_ok {ε α β : Type*} {x : Except ε α} {f : α → β} {b : β} (h : x.map f = .ok b) :
    ∃ a, x = .ok a ∧ f a = b := by
  cases x with
  | error e => cases h
  | ok a =>
    cases h
    exact ⟨a, rfl, rfl⟩

lemma next_eq_ok {seq : Nat} (h : db.next = .ok (db', seq)) :
    seq = db.entity + 1 ∧ db' = { db with entity := seq } := by
  unfold next at h
  split at h
  · cases h
    exact ⟨rfl, rfl⟩
  · cases h

lemma insertDevice_eq_ok {d : Device} (h : db.insertDevice d = .ok db') :
    ∃ key devices, PublicKey.normalize d.wgPublicKey = some key ∧
      db.devices.insert? ⟨{ d with wgPublicKey := key }, none, none, none⟩ = some devices ∧
      db' = { db with devices } := by
  unfold insertDevice at h
  split at h
  · cases h
  next key hkey =>
  split at h
  · next devices hinsert =>
    cases h
    exact ⟨key, devices, hkey, hinsert, rfl⟩
  · cases h

lemma insertRoute_eq_ok {r : Route} (h : db.insertRoute r = .ok db') :
    ∃ routes, db.routes.insert? r = some routes ∧ db' = { db with routes } := by
  unfold insertRoute at h
  split at h
  · next routes hinsert =>
    cases h
    exact ⟨routes, hinsert, rfl⟩
  · cases h

lemma insertRelay_eq_ok {r : RelayNode} (h : db.insertRelay r = .ok db') :
    ∃ relays, db.relays.insert? r = some relays ∧ db' = { db with relays } := by
  unfold insertRelay at h
  split at h
  · next relays hinsert =>
    cases h
    exact ⟨relays, hinsert, rfl⟩
  · cases h

lemma insertNetwork_eq_ok (h : db.insertNetwork net = .ok db') :
    ∃ networks, db.networks.insert? net = some networks ∧ db' = { db with networks } := by
  unfold insertNetwork at h
  split at h
  · next networks hinsert =>
    cases h
    exact ⟨networks, hinsert, rfl⟩
  · cases h

lemma addRoute_eq_ok {networkId deviceId cidr : String}
    (h : db.addRoute networkId deviceId cidr = .ok (db', route)) :
    ∃ routes, db.routes.insert? route = some routes ∧
      route = ⟨"route-" ++ Nat.repr (db.entity + 1), networkId, deviceId, cidr, false⟩ ∧
      db' = { db with entity := db.entity + 1, routes } := by
  unfold addRoute at h
  split at h
  · cases h
  next db₁ seq hnext =>
  obtain ⟨rfl, rfl⟩ := next_eq_ok hnext
  dsimp only at h
  split at h
  · cases h
  next hok =>
  cases h
  obtain ⟨routes, hinsert, rfl⟩ := insertRoute_eq_ok hok
  exact ⟨routes, hinsert, rfl, rfl⟩

lemma allocateAddress_eq_ok {devices : List Device} {v4 v6 : IpAddr}
    (h : allocateAddress text net devices = .ok (v4, v6)) :
    ∃ base ula host, v4 = v4At base host ∧ v6 = v6At ula host ∧
      parseV6Prefix net.ipv6Ula = .ok ula ∧ host ∈ deviceHosts ∧ host ∉ usedHosts text devices := by
  unfold allocateAddress at h
  split at h
  · cases h
  next base _ =>
  split at h
  · cases h
  next ula hula =>
  split at h
  · cases h
  next host hhost =>
  cases h
  refine ⟨base, ula, host, rfl, rfl, hula, List.mem_of_find?_eq_some hhost, ?_⟩
  simpa using List.find?_some hhost

/-! ## Transactions -/

/-- The loop of an import: the keys it has seen, what it is given and the devices it creates. -/
inductive Imports (networkId : String) :
    Db → List String → List (ImportDevice × String) → Db → List Device → Prop
  | nil {db : Db} {seen : List String} : Imports networkId db seen [] db []
  | skip {db db' : Db} {seen : List String} {d : ImportDevice} {key : String}
      {items : List (ImportDevice × String)} {created : List Device} (known : key ∈ seen)
      (rest : Imports networkId db seen items db' created) :
      Imports networkId db seen ((d, key) :: items) db' created
  | create {db db₁ db' : Db} {seen : List String} {d : ImportDevice} {key : String}
      {items : List (ImportDevice × String)} {device : Device} {created : List Device}
      (new : key ∉ seen)
      (row : device = ⟨"dev-" ++ Nat.repr (db.entity + 1), networkId, d.name, key, d.addressV4,
        d.addressV6, .active⟩)
      (insert : Db.insertDevice { db with entity := db.entity + 1 } device = .ok db₁)
      (rest : Imports networkId (db₁.setDeviceEndpoints device.id d.endpoints) (key :: seen) items db'
        created) :
      Imports networkId db seen ((d, key) :: items) db' (device :: created)

lemma importEach_imports {created : List Device} {skipped : List String}
    (h : importEach networkId db seen items = .ok (db', created, skipped)) :
    Imports networkId db seen items db' created := by
  induction items generalizing db seen created skipped with
  | nil =>
    cases h
    exact .nil
  | cons item rest ih =>
    obtain ⟨d, key⟩ := item
    unfold importEach at h
    split at h
    · next hseen =>
      obtain ⟨_, hrest, ⟨⟩⟩ := map_eq_ok h
      exact .skip hseen (ih hrest)
    · next hseen =>
      split at h
      · cases h
      next db₁ seq hnext =>
      obtain ⟨rfl, rfl⟩ := next_eq_ok hnext
      dsimp only at h
      split at h
      · cases h
      next db₂ hinsert =>
      obtain ⟨_, hrest, ⟨⟩⟩ := map_eq_ok h
      exact .create hseen rfl hinsert (ih hrest)

lemma Imports.eq_of_nil (h : Imports networkId db seen items db' []) : db' = db := by
  generalize hcreated : ([] : List Device) = created at h
  induction h with
  | nil => rfl
  | skip known rest ih => exact ih hcreated
  | create => cases hcreated

/-- The ways in which a transaction succeeds, with the database it commits and what its call does
next. -/
inductive Transaction.Commits (text : AddrText) (draw : String) (db : Db) :
    Transaction → Db → Option Task → Prop
  | nextSeq {name : String} {idx : Nat} :
      Commits text draw db (.nextSeq name idx) { db with entity := db.entity + 1 }
        (some (.insertNetwork (newNetwork name idx (db.entity + 1))))
  | createInvite {networkId : String} {expiresAt : Option Int} {maxUses : Option Nat} {net : Network}
      {invites : Table Invite.indexes} (stored : db.getNetwork networkId = some net)
      (insert : db.invites.insert? ⟨draw, networkId, expiresAt, maxUses, 0⟩ = some invites) :
      Commits text draw db (.createInvite networkId expiresAt maxUses) { db with invites } none
  | deleteNetwork {networkId : String} {net : Network} {members : List String} :
      Commits text draw db (.deleteNetwork networkId)
        (((((((db.revokeDevices fun d => d.networkId = networkId).deleteStats
          fun s => s.deviceId ∈ members).deleteInvites fun i => i.networkId = networkId).deleteRoutes
          fun r => r.networkId = networkId).deleteRelays
          fun r => r.networkId = some networkId).bumpNetworkEpoch networkId).dropNetwork networkId)
        (some (.closeChannel networkId (net.configEpoch + 1)))
  | revokeInvite {networkId code : String} {p : Invite → Bool} :
      Commits text draw db (.revokeInvite networkId code) (db.deleteInvites p) none
  | enrollKnown {code name key : String} {now : Int} {device : Device} :
      Commits text draw db (.enroll code name key now) (db.setDeviceToken device.id draw)
        (notifyAll [device.networkId])
  | enroll {code name key : String} {now : Int} {invite : Invite} {net : Network} {base : Block 4}
      {ula : List Nat} {host : UInt8} {device : Device} {db₁ : Db}
      (invited : db.getInvite code = some invite) (consumed : (db.consumeInvite code now).2 = 1)
      (stored : net ∈ db.networks.rows) (parsed : parseV6Prefix net.ipv6Ula = .ok ula)
      (inRange : host ∈ deviceHosts) (free : host ∉ usedHosts text (db.listDevices net.id))
      (row : device = ⟨"dev-" ++ Nat.repr (db.entity + 1), net.id, name, key,
        some (text.display (v4At base host)), some (text.display (v6At ula host)), .active⟩)
      (insert : Db.insertDevice { (db.consumeInvite code now).1 with entity := db.entity + 1 } device =
        .ok db₁) :
      Commits text draw db (.enroll code name key now)
        ((db₁.setDeviceToken device.id draw).bumpNetworkEpoch net.id) (notifyAll [net.id])
  | importNone {networkId : String} {devices : List ImportDevice} {keys : List String} :
      Commits text draw db (.importDevices networkId devices keys) db (notifyAll [networkId])
  | importDevices {networkId : String} {devices : List ImportDevice} {keys : List String}
      {net : Network} {db₁ : Db} {created : List Device}
      (stored : db.getNetwork networkId = some net)
      (imports : Imports networkId db
        (((db.listDevices networkId).filter fun d => d.status = .active).map (·.wgPublicKey))
        (devices.zip keys) db₁ created) :
      Commits text draw db (.importDevices networkId devices keys) (db₁.bumpNetworkEpoch networkId)
        (notifyAll [networkId])
  | revokeDevice {deviceId : String} {device : Device} (found : db.getDevice deviceId = some device) :
      Commits text draw db (.revokeDevice deviceId)
        ((db.revokeDevices fun d => d.id = deviceId).bumpNetworkEpoch device.networkId)
        (notifyAll [device.networkId])
  | advertiseRoute {deviceId cidr cidr' : String} {dev : Device} {route : Route} {db' : Db}
      (normal : normalizePrefix text cidr = some cidr')
      (add : db.addRoute dev.networkId deviceId cidr' = .ok (db', route)) :
      Commits text draw db (.advertiseRoute deviceId cidr) db' none
  | withdrawRoute {device token cidr cidr' : String}
      (authorized : token ≠ "" ∧ db.getDeviceToken device = some token) :
      Commits text draw db (.deviceRouteChange device token cidr true)
        (db.deleteRoutes fun r => r.deviceId = device ∧ r.cidr = cidr' ∧ r.approved = false) none
  | keepRoute {device token cidr : String}
      (authorized : token ≠ "" ∧ db.getDeviceToken device = some token) :
      Commits text draw db (.deviceRouteChange device token cidr false) db none
  | requestRoute {device token cidr cidr' : String} {dev : Device} {route : Route} {db' : Db}
      (authorized : token ≠ "" ∧ db.getDeviceToken device = some token)
      (normal : normalizePrefix text cidr = some cidr')
      (absent : ¬ (db.listRoutesForDevice device).any (fun r => r.cidr = cidr') = true)
      (add : db.addRoute dev.networkId device cidr' = .ok (db', route)) :
      Commits text draw db (.deviceRouteChange device token cidr false) db' none
  | registerRelay {region url : String} {networkId stunUrl nodeId publicKey : Option String}
      {anytls : Bool} {relay : RelayNode} {db₁ : Db}
      (insert : Db.insertRelay { db with entity := db.entity + 1 } relay = .ok db₁) :
      Commits text draw db (.registerRelay region url networkId anytls stunUrl nodeId publicKey)
        ((db₁.networksInScope [relay.networkId]).foldl Db.bumpNetworkEpoch db₁)
        (notifyAll (db₁.networksInScope [relay.networkId]))
  | updateRelay {relay old : RelayNode} (found : db.getRelay relay.id = some old) :
      Commits text draw db (.updateRelay relay)
        (((db.setRelay relay).networksInScope [old.networkId, relay.networkId]).foldl
          Db.bumpNetworkEpoch (db.setRelay relay))
        (notifyAll ((db.setRelay relay).networksInScope [old.networkId, relay.networkId]))
  | setEndpoints {deviceId : String} {endpoints : List String} {device : Device}
      (found : db.getDevice deviceId = some device) :
      Commits text draw db (.setEndpoints deviceId endpoints)
        ((db.setDeviceEndpoints deviceId endpoints).bumpNetworkEpoch device.networkId)
        (notifyAll [device.networkId])
  | reportStats {report : DeviceStats} {stats : Table DeviceStats.indexes} :
      Commits text draw db (.reportStats report) { db with stats } none

lemma createInviteOnce_commits {expiresAt : Option Int} {maxUses : Option Nat} {invite : Invite}
    (h : db.createInviteOnce networkId expiresAt maxUses draw = .ok (db', invite)) :
    Transaction.Commits text draw db (.createInvite networkId expiresAt maxUses) db' none := by
  unfold createInviteOnce at h
  split at h
  · cases h
  next net hnet =>
  dsimp only at h
  split at h
  · cases h
  next hok =>
  cases h
  unfold insertInvite at hok
  split at hok
  · next hinsert =>
    cases hok
    exact .createInvite hnet hinsert
  · cases hok

lemma enrollOnce_commits {code name key : String} {now : Int} {device : Device} {token : String}
    (h : db.enrollOnce text code name key now draw = .ok (db', device, token)) :
    Transaction.Commits text draw db (.enroll code name key now) db' (notifyAll [device.networkId]) := by
  unfold enrollOnce at h
  split at h
  · cases h
  next invite hinvite =>
  split at h
  · cases h
  split at h
  · cases h
  next net hnet =>
  dsimp only at h
  split at h
  · cases h
    exact .enrollKnown
  split at h
  · cases h
  next hcount =>
  unfold enrollDevice at h
  split at h
  · cases h
  next halloc =>
  obtain ⟨base, ula, host, rfl, rfl, hula, hhost, hfree⟩ := allocateAddress_eq_ok halloc
  split at h
  · cases h
  next hnext =>
  obtain ⟨rfl, rfl⟩ := next_eq_ok hnext
  dsimp only at h
  split at h
  · cases h
  next hinsert =>
  cases h
  exact .enroll hinvite (not_not.mp hcount) (Table.mem_of_find? hnet) hula hhost hfree
    rfl hinsert

lemma importOnce_commits {devices : List ImportDevice} {keys : List String}
    {result : List Device × List String}
    (h : db.importOnce networkId devices keys = .ok (db', result)) :
    Transaction.Commits text draw db (.importDevices networkId devices keys) db'
      (notifyAll [networkId]) := by
  unfold importOnce at h
  split at h
  · cases h
  next net hnet =>
  dsimp only at h
  split at h
  · cases h
  next himport =>
  have himports := importEach_imports himport
  cases h
  split
  · next hempty =>
    rw [List.isEmpty_iff.mp hempty] at himports
    rw [himports.eq_of_nil]
    exact .importNone
  · exact .importDevices hnet himports

lemma advertiseRouteOnce_commits {deviceId cidr : String}
    (h : db.advertiseRouteOnce text deviceId cidr = .ok (db', route)) :
    Transaction.Commits text draw db (.advertiseRoute deviceId cidr) db' none := by
  unfold advertiseRouteOnce at h
  split at h
  · cases h
  split at h
  · cases h
  split at h
  · cases h
  · split at h
    · cases h
    · next hnormal => exact .advertiseRoute hnormal h

variable (draw) in
lemma deviceRouteChangeOnce_commits {device token cidr : String} {withdraw : Bool}
    {routes : List Route}
    (h : db.deviceRouteChangeOnce text device token cidr withdraw = .ok (db', routes)) :
    Transaction.Commits text draw db (.deviceRouteChange device token cidr withdraw) db' none := by
  unfold deviceRouteChangeOnce at h
  split at h
  · cases h
  next htoken =>
  rw [not_or, not_not] at htoken
  split at h
  · cases h
  next hnormal =>
  cases withdraw with
  | true =>
    simp only [if_true] at h
    split at h
    · cases h
    · cases h
      exact .withdrawRoute htoken
  | false =>
    simp only [Bool.false_eq_true, if_false] at h
    split at h
    · cases h
      exact .keepRoute htoken
    next habsent =>
    split at h
    · cases h
    split at h
    · cases h
    · next hadd =>
      cases h
      exact .requestRoute htoken hnormal habsent hadd

lemma registerRelayOnce_commits {region url : String}
    {networkId stunUrl nodeId publicKey : Option String} {anytls : Bool} {networks : List String}
    (h : db.registerRelayOnce region url networkId anytls stunUrl nodeId publicKey =
      .ok (db', networks)) :
    Transaction.Commits text draw db
      (.registerRelay region url networkId anytls stunUrl nodeId publicKey) db'
      (notifyAll networks) := by
  unfold registerRelayOnce at h
  split at h
  · cases h
  split at h
  · cases h
  next hnext =>
  obtain ⟨rfl, rfl⟩ := next_eq_ok hnext
  dsimp only at h
  split at h
  · cases h
  · next hinsert =>
    cases h
    exact .registerRelay hinsert

/-- A transaction that succeeds does so in one of the ways listed. -/
lemma Transaction.commits {tx : Transaction} {next : Option Task}
    (h : tx.run text db draw = .ok (db', next)) : tx.Commits text draw db db' next := by
  cases tx with
  | nextSeq name idx =>
    obtain ⟨⟨db₁, seq⟩, hrun, heq⟩ := map_eq_ok h
    cases heq
    obtain ⟨rfl, rfl⟩ := next_eq_ok hrun
    exact .nextSeq
  | createInvite =>
    obtain ⟨_, hrun, ⟨⟩⟩ := map_eq_ok h
    exact createInviteOnce_commits hrun
  | deleteNetwork =>
    obtain ⟨_, hrun, ⟨⟩⟩ := map_eq_ok h
    unfold deleteNetworkOnce at hrun
    split at hrun <;> cases hrun
    exact .deleteNetwork
  | revokeInvite =>
    obtain ⟨_, hrun, ⟨⟩⟩ := map_eq_ok h
    unfold revokeInviteOnce at hrun
    split at hrun
    · cases hrun
    · dsimp only at hrun
      split at hrun <;> cases hrun
      exact .revokeInvite
  | enroll =>
    obtain ⟨_, hrun, ⟨⟩⟩ := map_eq_ok h
    exact enrollOnce_commits hrun
  | importDevices =>
    obtain ⟨_, hrun, ⟨⟩⟩ := map_eq_ok h
    exact importOnce_commits hrun
  | revokeDevice =>
    obtain ⟨_, hrun, ⟨⟩⟩ := map_eq_ok h
    unfold revokeDeviceOnce at hrun
    split at hrun
    · cases hrun
    · next hfound =>
      cases hrun
      exact .revokeDevice hfound
  | advertiseRoute =>
    obtain ⟨_, hrun, ⟨⟩⟩ := map_eq_ok h
    exact advertiseRouteOnce_commits hrun
  | deviceRouteChange =>
    obtain ⟨_, hrun, ⟨⟩⟩ := map_eq_ok h
    exact deviceRouteChangeOnce_commits draw hrun
  | registerRelay =>
    obtain ⟨_, hrun, ⟨⟩⟩ := map_eq_ok h
    exact registerRelayOnce_commits hrun
  | updateRelay =>
    obtain ⟨_, hrun, ⟨⟩⟩ := map_eq_ok h
    unfold updateRelayOnce at hrun
    split at hrun
    · cases hrun
    split at hrun
    · cases hrun
    · next hfound =>
      cases hrun
      exact .updateRelay hfound
  | setEndpoints =>
    obtain ⟨_, hrun, ⟨⟩⟩ := map_eq_ok h
    unfold setEndpointsOnce at hrun
    split at hrun
    · split at hrun
      · cases hrun
      · next hfound =>
        cases hrun
        exact .setEndpoints hfound
    · cases hrun
  | reportStats =>
    obtain ⟨_, hrun, ⟨⟩⟩ := map_eq_ok h
    unfold reportStatsOnce at hrun
    split at hrun <;> cases hrun
    unfold upsertDeviceStats
    split <;> exact .reportStats

/-! ## Steps of calls -/

/-- One attempt at a transaction: it commits, or it leaves the database alone and the call tries
again or gives up. -/
lemma step_transaction (tx : Transaction) (attempt : Nat) (env : Env) {step : Db × Option Task}
    (h : (Task.transaction tx attempt).step text env db = step) :
    tx.Commits text env.draw db step.1 step.2 ∨
      step.1 = db ∧ ∀ task, step.2 = some task → ∃ attempt', task = .transaction tx attempt' := by
  subst h
  simp only [Task.step]
  split
  · next result hattempt =>
    unfold Transaction.attempt at hattempt
    split at hattempt
    · cases hattempt
    · exact .inl (Transaction.commits hattempt)
  · refine .inr ⟨rfl, fun task htask => ?_⟩
    obtain ⟨attempt', -, rfl⟩ := Option.map_eq_some_iff.mp htask
    exact ⟨attempt', rfl⟩

/-- What a step of a call writes. -/
inductive Task.Writes (text : AddrText) (draw : String) (db : Db) : Task → Db → Prop
  | commits {tx : Transaction} {attempt : Nat} {db' : Db} {next : Option Task}
      (h : tx.Commits text draw db db' next) : Writes text draw db (.transaction tx attempt) db'
  | insertNetwork {net : Network} {networks : Table Network.indexes}
      (insert : db.networks.insert? net = some networks) :
      Writes text draw db (.insertNetwork net) { db with networks }
  | approve {routeId networkId : String} :
      Writes text draw db (.approveWrite routeId networkId) (db.setRouteApproved routeId true)
  | delete {routeId : String} {read : Route} :
      Writes text draw db (.deleteWrite routeId read) (db.deleteRoute routeId)
  | settings {deviceId json networkId : String} :
      Writes text draw db (.settingsWrite deviceId json networkId) (db.setDeviceSettings deviceId json)
  | rename {deviceId name : String} :
      Writes text draw db (.renameWrite deviceId name) (db.setDeviceName deviceId name)
  | bump {networkId : String} :
      Writes text draw db (.bump networkId) (db.bumpNetworkEpoch networkId)
  | nothing {task : Task} : Writes text draw db task db

variable (text db) in
lemma Task.writes (task : Task) (env : Env) :
    task.Writes text env.draw db (task.step text env db).1 := by
  cases task with
  | transaction tx attempt =>
    rcases step_transaction tx attempt env rfl with hcommits | ⟨hsame, -⟩
    · exact .commits hcommits
    · rw [hsame]
      exact .nothing
  | insertNetwork net =>
    simp only [Task.step]
    split
    · next hinsert =>
      obtain ⟨networks, hrow, rfl⟩ := insertNetwork_eq_ok hinsert
      exact .insertNetwork hrow
    · exact .nothing
  | approveWrite => exact .approve
  | deleteWrite => exact .delete
  | settingsWrite => exact .settings
  | renameWrite => exact .rename
  | bump => exact .bump
  | notifyRead networkId rest =>
    simp only [Task.step]
    split <;> exact .nothing
  | _ => exact .nothing

/-- Nothing is left to do for a call but to tell the watchers. -/
def Task.Spent : Task → Prop
  | .openChannel _ | .bumpRead _ | .bumpSend _ _ | .notifyRead _ _ | .notifySend _ _ _
  | .closeChannel _ _ => True
  | _ => False

lemma spent_of_mem_notifyAll {ids : List String} {task : Task} (h : task ∈ notifyAll ids) :
    task.Spent := by
  cases ids with
  | nil => cases h
  | cons id ids =>
    cases h
    trivial

/-- What a step of a call leads to: the database after it and the next step. -/
inductive Task.Leads (db : Db) : Task → Db → Task → Prop
  | spent {task task' : Task} {db' : Db} (h : task'.Spent) : Leads db task db' task'
  | bump {task : Task} {db' : Db} {networkId : String}
      (other : ∀ tx attempt, task ≠ .transaction tx attempt) : Leads db task db' (.bump networkId)
  | rename {task : Task} {db' : Db} {deviceId name : String}
      (other : ∀ tx attempt, task ≠ .transaction tx attempt) :
      Leads db task db' (.renameWrite deviceId name)
  | approve {routeId : String} {r : Route} (found : db.getRoute routeId = some r) :
      Leads db (.approveRead routeId) db (.approveWrite routeId r.networkId)
  | delete {routeId : String} {r : Route} (found : db.getRoute routeId = some r) :
      Leads db (.deleteRead routeId) db (.deleteWrite routeId r)
  | settings {deviceId json : String} {d : Device} (found : db.getDevice deviceId = some d) :
      Leads db (.settingsRead deviceId json) db (.settingsWrite deviceId json d.networkId)
  | again {tx : Transaction} {attempt attempt' : Nat} :
      Leads db (.transaction tx attempt) db (.transaction tx attempt')
  | drawn {name : String} {idx attempt : Nat} :
      Leads db (.transaction (.nextSeq name idx) attempt) { db with entity := db.entity + 1 }
        (.insertNetwork (newNetwork name idx (db.entity + 1)))

lemma step_leads {task task' : Task} {env : Env} (h : task.step text env db = (db', some task')) :
    task.Leads db db' task' := by
  cases task with
  | transaction tx attempt =>
    rcases step_transaction tx attempt env h with hcommits | ⟨hsame, hretry⟩
    · generalize hnext : (db', some task').2 = next at hcommits
      cases hcommits with
      | nextSeq =>
        cases hnext
        exact .drawn
      | deleteNetwork =>
        cases hnext
        exact .spent trivial
      | createInvite | revokeInvite | advertiseRoute | withdrawRoute | keepRoute | requestRoute
      | reportStats => cases hnext
      | _ => exact .spent (spent_of_mem_notifyAll hnext.symm)
    · obtain ⟨attempt', rfl⟩ := hretry task' rfl
      cases hsame
      exact .again
  | insertNetwork net =>
    simp only [Task.step] at h
    split at h <;> cases h
    exact .spent trivial
  | approveRead routeId =>
    obtain ⟨rfl, hnext⟩ := Prod.mk.inj h
    obtain ⟨r, hfound, rfl⟩ := Option.map_eq_some_iff.mp hnext
    exact .approve hfound
  | deleteRead routeId =>
    obtain ⟨rfl, hnext⟩ := Prod.mk.inj h
    obtain ⟨r, hfound, rfl⟩ := Option.map_eq_some_iff.mp hnext
    exact .delete hfound
  | settingsRead deviceId json =>
    obtain ⟨rfl, hnext⟩ := Prod.mk.inj h
    obtain ⟨d, hfound, rfl⟩ := Option.map_eq_some_iff.mp hnext
    exact .settings hfound
  | renameRead =>
    obtain ⟨_, -, rfl⟩ := Option.map_eq_some_iff.mp (congrArg Prod.snd h)
    exact .rename nofun
  | bumpRead =>
    obtain ⟨_, -, rfl⟩ := Option.map_eq_some_iff.mp (congrArg Prod.snd h)
    exact .spent trivial
  | deleteWrite =>
    simp only [Task.step] at h
    split at h <;> cases h
    exact .bump nofun
  | notifyRead =>
    simp only [Task.step] at h
    split at h
    · cases h
      exact .spent trivial
    · exact .spent (spent_of_mem_notifyAll (congrArg Prod.snd h))
  | notifySend => exact .spent (spent_of_mem_notifyAll (congrArg Prod.snd h))
  | approveWrite | settingsWrite =>
    cases h
    exact .bump nofun
  | bump =>
    cases h
    exact .spent trivial
  | _ => cases h

end

end Fluxpeer.Control
