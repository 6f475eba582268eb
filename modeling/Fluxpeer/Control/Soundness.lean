import Fluxpeer.Control.Evolution

/-!
# What holds in every run

Between its steps a call relies on what it read: the network of a route or a device, the number of
a network that it is about to insert. `Task.Sound` says what each call may rely on, and `Db.Sound`
what is true of the rows of the database. Both hold in every state of every run.
-/

namespace Fluxpeer.Control

open Lib Net Table

section

variable {text : AddrText} {db db' : Db}

/-! ## Steps of calls -/

/-- The two statements that are not covered by `Evolves`: a network comes into being, and a route
is approved. -/
def Task.Ordinary : Task → Prop
  | .insertNetwork _ | .approveWrite _ _ => False
  | _ => True

/-- The pools of a network are those of some index. -/
def Pooled (n : Network) : Prop := ∃ idx, n.ipv4Pool = ipv4Pool idx ∧ n.ipv6Ula = ipv6Ula idx

/-- What a call may rely on between its steps: what it read of a row stays true of the row. -/
def Task.Sound (text : AddrText) (db : Db) : Task → Prop
  | .transaction tx _ => tx.Prepared text
  | .insertNetwork net =>
    Issued "net-" db net.id ∧ (∀ n ∈ db.networks.rows, n.id ≠ net.id) ∧ Pooled net
  | .approveWrite routeId networkId =>
    Issued "route-" db routeId ∧ ∀ r ∈ db.routes.rows, r.id = routeId → r.networkId = networkId
  | .deleteWrite routeId read =>
    Issued "route-" db routeId ∧ ∀ r ∈ db.routes.rows, r.id = routeId → r.networkId = read.networkId
  | .settingsWrite deviceId _ networkId =>
    ∃ d ∈ db.devices.rows, d.id = deviceId ∧ d.networkId = networkId
  | _ => True

variable {draw : String} {task : Task} {net : Network} {idx : Nat} {c : Call}

lemma Task.Writes.evolves (h : task.Writes text draw db db') (hordinary : task.Ordinary)
    (htask : task.Sound text db) : Evolves text draw db db' := by
  cases h with
  | commits h => exact h.evolves htask
  | insertNetwork | approve => cases hordinary
  | delete => exact evolves_deleteRoutes db _
  | settings => exact evolves_setDeviceSettings db _ _
  | rename => exact evolves_setDeviceName db _ _
  | bump => exact evolves_bumpNetworkEpoch db _
  | nothing => exact .refl db

/-- A route that was seen keeps its network, because its identifier is not used again. -/
lemma route_evolves {routeId networkId : String} (h : Evolves text draw db db')
    (hissued : Issued "route-" db routeId)
    (hroute : ∀ r ∈ db.routes.rows, r.id = routeId → r.networkId = networkId) :
    ∀ r ∈ db'.routes.rows, r.id = routeId → r.networkId = networkId := by
  intro r hr hid
  rcases h.routes r hr with hr | hnew
  · exact hroute r hr hid
  · exact absurd (hid ▸ hissued) hnew.issued.not_issued

lemma Task.Sound.evolves (hsound : task.Sound text db) (h : Evolves text draw db db') :
    task.Sound text db' := by
  cases task with
  | insertNetwork net =>
    obtain ⟨hissued, hfresh, hpooled⟩ := hsound
    refine ⟨hissued.mono h.entity, ?_, hpooled⟩
    intro n' hn'
    obtain ⟨n, hn, hstep⟩ := h.networks n' hn'
    rw [hstep.id]
    exact hfresh n hn
  | approveWrite routeId networkId =>
    exact ⟨hsound.1.mono h.entity, route_evolves h hsound.1 hsound.2⟩
  | deleteWrite routeId read =>
    exact ⟨hsound.1.mono h.entity, route_evolves h hsound.1 hsound.2⟩
  | settingsWrite deviceId json networkId =>
    obtain ⟨d, hd, hid, hnetwork⟩ := hsound
    obtain ⟨d', hd', hstep⟩ := h.kept d hd
    exact ⟨d', hd', hstep.id.trans hid, hstep.networkId.trans hnetwork⟩
  | _ => exact hsound

lemma Task.Sound.setRouteApproved (hsound : task.Sound text db) (id : String) (approved : Bool) :
    task.Sound text (db.setRouteApproved id approved) := by
  have hrows : ∀ routeId networkId,
      (∀ r ∈ db.routes.rows, r.id = routeId → r.networkId = networkId) →
      ∀ r ∈ (db.setRouteApproved id approved).routes.rows, r.id = routeId →
        r.networkId = networkId := by
    intro routeId networkId hroute r' hr' hid
    obtain ⟨r, hr, rfl⟩ := List.mem_map.mp hr'
    split at hid <;> split <;> exact hroute r hr hid
  cases task with
  | approveWrite routeId networkId => exact ⟨hsound.1, hrows _ _ hsound.2⟩
  | deleteWrite routeId read => exact ⟨hsound.1, hrows _ _ hsound.2⟩
  | _ => exact hsound

lemma Task.Sound.insertNetwork (hsound : task.Sound text db)
    (hother : ∀ net', task = .insertNetwork net' → net'.id ≠ net.id)
    (h : db.insertNetwork net = .ok db') : task.Sound text db' := by
  obtain ⟨networks, hinsert, rfl⟩ := insertNetwork_eq_ok h
  cases task with
  | insertNetwork net' =>
    obtain ⟨hissued, hfresh, hpooled⟩ := hsound
    refine ⟨hissued, ?_, hpooled⟩
    intro n hn
    rw [mem_insert? hinsert] at hn
    rcases hn with hn | rfl
    · exact hfresh n hn
    · exact (hother net' rfl).symm
  | _ => exact hsound

lemma Task.Sound.of_spent (h : task.Spent) : task.Sound text db := by
  cases task <;> trivial

/-! ## Every run -/

lemma exists_of_mem_mapM {α β : Type*} {f : α → Option β} {l : List α} {l' : List β} {b : β}
    (h : l.mapM f = some l') (hb : b ∈ l') : ∃ a ∈ l, f a = some b := by
  induction l generalizing l' with
  | nil =>
    cases h
    cases hb
  | cons a l ih =>
    rw [List.mapM_cons] at h
    obtain ⟨c, hc, hrest⟩ := Option.bind_eq_some_iff.mp h
    obtain ⟨cs, hcs, heq⟩ := Option.bind_eq_some_iff.mp hrest
    cases heq
    rcases List.mem_cons.mp hb with rfl | hb
    · exact ⟨a, List.mem_cons_self, hc⟩
    · obtain ⟨a', ha', hfa'⟩ := ih hcs hb
      exact ⟨a', List.mem_cons_of_mem _ ha', hfa'⟩

/-- A stored device: its identifier, key and address are of the forms the program writes. -/
structure DeviceSound (text : AddrText) (db : Db) (d : DeviceRow) : Prop where
  issued : Issued "dev-" db d.id
  key : ∃ key, d.wgPublicKey = PublicKey.canonical key
  v4 : d.status = .active → ∀ a ∈ d.addressV4, ∃ octets, a = text.display (.v4 octets)

lemma DeviceSound.mono {d : DeviceRow} (h : DeviceSound text db d)
    (hle : db.entity ≤ db'.entity) : DeviceSound text db' d :=
  ⟨h.issued.mono hle, h.key, h.v4⟩

/-- The database holds only rows the program wrote. -/
structure Db.Sound (text : AddrText) (db : Db) : Prop where
  networks : ∀ n ∈ db.networks.rows, Issued "net-" db n.id ∧ Pooled n
  routes : ∀ r ∈ db.routes.rows, Issued "route-" db r.id
  devices : ∀ d ∈ db.devices.rows, DeviceSound text db d

lemma Db.Sound.evolves (hsound : db.Sound text) (h : Evolves text draw db db') :
    db'.Sound text where
  networks n' hn' := by
    obtain ⟨n, hn, hstep⟩ := h.networks n' hn'
    obtain ⟨hissued, idx, hv4, hv6⟩ := hsound.networks n hn
    rw [hstep.id]
    exact ⟨hissued.mono h.entity, idx, hstep.ipv4Pool.trans hv4, hstep.ipv6Ula.trans hv6⟩
  routes r hr := by
    rcases h.routes r hr with hr | hnew
    · exact (hsound.routes r hr).mono h.entity
    · exact issued_of_between hnew.issued
  devices d' hd' := by
    rcases h.devices d' hd' with ⟨d, hd, hstep⟩ | hnew
    · obtain ⟨hissued, hkey, hv4⟩ := hsound.devices d hd
      refine ⟨hstep.id ▸ hissued.mono h.entity, hstep.key ▸ hkey, ?_⟩
      intro hactive
      obtain ⟨hactive, heq⟩ := hstep.live hactive
      rw [heq]
      exact hv4 hactive
    · exact ⟨issued_of_between hnew.issued, hnew.key, hnew.v4⟩

lemma Db.Sound.setRouteApproved (hsound : db.Sound text) (id : String) (approved : Bool) :
    (db.setRouteApproved id approved).Sound text where
  networks := hsound.networks
  routes r' hr' := by
    obtain ⟨r, hr, rfl⟩ := List.mem_map.mp hr'
    split <;> exact hsound.routes r hr
  devices d hd := (hsound.devices d hd).mono le_rfl

lemma Db.Sound.insertNetwork (hsound : db.Sound text) (hissued : Issued "net-" db net.id)
    (hpooled : Pooled net) (h : db.insertNetwork net = .ok db') : db'.Sound text := by
  obtain ⟨networks, hinsert, rfl⟩ := insertNetwork_eq_ok h
  refine ⟨?_, hsound.routes, fun d hd => (hsound.devices d hd).mono le_rfl⟩
  intro n hn
  rw [mem_insert? hinsert] at hn
  rcases hn with hn | rfl
  · exact hsound.networks n hn
  · exact ⟨hissued, hpooled⟩

/-- A step of a call keeps the database sound. -/
lemma Task.Sound.step (htask : task.Sound text db) (hsound : db.Sound text) (env : Env) :
    (task.step text env db).1.Sound text := by
  by_cases hordinary : task.Ordinary
  · exact hsound.evolves ((task.writes text db env).evolves hordinary htask)
  cases task with
  | approveWrite routeId networkId => exact hsound.setRouteApproved routeId true
  | insertNetwork net =>
    simp only [Task.step]
    split
    · next hinsert => exact hsound.insertNetwork htask.1 htask.2.2 hinsert
    · exact hsound
  | _ => exact absurd trivial hordinary

/-- A network that is stored after a step was so before, or is the one inserted in it. -/
lemma step_networks (env : Env) (htask : task.Sound text db) {n' : Network}
    (h : n' ∈ (task.step text env db).1.networks.rows) :
    (∃ n ∈ db.networks.rows, NetworkStep n n') ∨ task = .insertNetwork n' := by
  by_cases hordinary : task.Ordinary
  · exact .inl (((task.writes text db env).evolves hordinary htask).networks n' h)
  cases task with
  | approveWrite routeId networkId => exact .inl ⟨n', h, .refl n'⟩
  | insertNetwork net =>
    simp only [Task.step] at h
    split at h
    · next hinsert =>
      obtain ⟨networks, hrow, rfl⟩ := insertNetwork_eq_ok hinsert
      rw [mem_insert? hrow] at h
      rcases h with hold | rfl
      · exact .inl ⟨n', hold, .refl n'⟩
      · exact .inr rfl
    · exact .inl ⟨n', h, .refl n'⟩
  | _ => exact absurd trivial hordinary

lemma step_devices (env : Env) (htask : task.Sound text db) {d : DeviceRow}
    (hd : d ∈ db.devices.rows) :
    ∃ d' ∈ (task.step text env db).1.devices.rows, DeviceStep env.draw d d' := by
  have hwrites := task.writes text db env
  generalize (task.step text env db).1 = db' at hwrites ⊢
  by_cases hordinary : task.Ordinary
  · exact (hwrites.evolves hordinary htask).kept d hd
  cases hwrites with
  | insertNetwork | approve | nothing => exact ⟨d, hd, .refl d⟩
  | _ => exact absurd trivial hordinary

lemma route_of_getRoute {routeId : String} {r : Route} (h : db.getRoute routeId = some r) :
    r ∈ db.routes.rows ∧ r.id = routeId :=
  ⟨mem_of_find? h, by simpa using find?_some h⟩

/-- The primary key picks one route. -/
lemma route_eq {r r' : Route} (hr : r ∈ db.routes.rows) (hr' : r' ∈ db.routes.rows)
    (hid : r.id = r'.id) : r = r' :=
  eq_of_index List.mem_cons_self hr hr' rfl (by rw [hid])

/-- The primary key picks one network. -/
lemma network_eq {n n' : Network} (hn : n ∈ db.networks.rows) (hn' : n' ∈ db.networks.rows)
    (hid : n.id = n'.id) : n = n' :=
  eq_of_index List.mem_cons_self hn hn' rfl (by rw [hid])

/-- A step of a call leaves it with what it may rely on. -/
lemma Task.Sound.next {task' : Task} {env : Env} (htask : task.Sound text db)
    (hsound : db.Sound text) (h : (task.step text env db).2 = some task') :
    task'.Sound text (task.step text env db).1 := by
  generalize hstep : task.step text env db = result at h ⊢
  obtain ⟨db', next⟩ := result
  subst h
  cases step_leads hstep with
  | spent h => exact .of_spent h
  | bump | rename => trivial
  | approve found | delete found =>
    obtain ⟨hr, rfl⟩ := route_of_getRoute found
    exact ⟨hsound.routes _ hr, fun r' hr' hid => by rw [route_eq hr' hr hid]⟩
  | settings found =>
    obtain ⟨row, hrow, rfl⟩ := Option.map_eq_some_iff.mp found
    exact ⟨row, mem_of_find? hrow, by simpa using find?_some hrow, rfl⟩
  | again => exact htask
  | drawn =>
    refine ⟨⟨_, le_rfl, rfl⟩, ?_, _, rfl, rfl⟩
    intro n hn heq
    have hnew : IssuedBetween "net-" db { db with entity := db.entity + 1 } n.id :=
      ⟨_, Nat.lt_succ_self _, le_rfl, heq⟩
    exact hnew.not_issued (hsound.networks n hn).1

lemma start_sound (h : c.start text idx = some task) : task.Sound text db := by
  cases c with
  | enroll code name wgPublicKey now =>
    obtain ⟨key, -, rfl⟩ := Option.map_eq_some_iff.mp h
    trivial
  | importDevices networkId devices =>
    obtain ⟨devices', hdevices, hkeys⟩ := Option.bind_eq_some_iff.mp h
    obtain ⟨keys, -, rfl⟩ := Option.map_eq_some_iff.mp hkeys
    intro d' hd' a ha
    obtain ⟨d, -, hd⟩ := exists_of_mem_mapM hdevices hd'
    unfold canonicalAddress at hd
    split at hd
    · next hnone =>
      cases hd
      rw [hnone] at ha
      cases ha
    · obtain ⟨octets, -, rfl⟩ := Option.map_eq_some_iff.mp hd
      cases ha
      exact ⟨octets, rfl⟩
  | _ =>
    cases h
    trivial

/-- What a call can begin with. -/
def Task.Initial : Task → Prop
  | .transaction _ attempt => attempt = 0
  | .approveRead _ | .deleteRead _ | .settingsRead _ _ | .renameRead _ _ => True
  | _ => False

lemma start_initial (h : c.start text idx = some task) : task.Initial := by
  cases c with
  | enroll code name wgPublicKey now =>
    obtain ⟨key, -, rfl⟩ := Option.map_eq_some_iff.mp h
    rfl
  | importDevices networkId devices =>
    obtain ⟨devices', -, hkeys⟩ := Option.bind_eq_some_iff.mp h
    obtain ⟨keys, -, rfl⟩ := Option.map_eq_some_iff.mp hkeys
    rfl
  | _ =>
    cases h
    trivial

lemma start_ne_insertNetwork (h : c.start text idx = some task) (net : Network) :
    task ≠ .insertNetwork net := by
  rintro rfl
  exact start_initial h

namespace Server

structure Sound (text : AddrText) (s : Server) : Prop where
  db : s.db.Sound text
  tasks : ∀ id r, s.calls id = some r → r.task.Sound text s.db
  /-- No two calls are about to insert one network. -/
  inserts : ∀ id id' r r' net net', s.calls id = some r → s.calls id' = some r' →
    r.task = .insertNetwork net → r'.task = .insertNetwork net' → net.id = net'.id → id = id'
  unused : ∀ id, s.nextCall ≤ id → s.calls id = none

variable {s s' : Server}

@[simp] lemma onSender_calls (s : Server) (store : StoreId) (networkId : String)
    (f : Channel → Channel) : (s.onSender store networkId f).calls = s.calls := by
  unfold onSender
  split <;> rfl

@[simp] lemma onSender_nextCall (s : Server) (store : StoreId) (networkId : String)
    (f : Channel → Channel) : (s.onSender store networkId f).nextCall = s.nextCall := by
  unfold onSender
  split <;> rfl

@[simp] lemma onSender_db (s : Server) (store : StoreId) (networkId : String)
    (f : Channel → Channel) : (s.onSender store networkId f).db = s.db := by
  unfold onSender
  split <;> rfl

@[simp] lemma publish_nextCall (s : Server) (store : StoreId) (task : Task) :
    (s.publish store task).nextCall = s.nextCall := by
  cases task <;> simp [publish, addChannel, setStore]

/-- Watching does not touch the database or the calls. -/
lemma subscribe_frame (s : Server) (store : StoreId) (networkId : String) :
    (s.subscribe store networkId).1.db = s.db ∧ (s.subscribe store networkId).1.calls = s.calls ∧
      (s.subscribe store networkId).1.nextCall = s.nextCall := by
  unfold subscribe
  split <;> exact ⟨rfl, rfl, rfl⟩

variable (text) in
lemma call_frame (s : Server) (store : StoreId) (c : Call) :
    (s.call text store c).db = s.db ∧ (s.call text store c).nextCall = s.nextCall + 1 ∧
      (s.call text store c).calls = Function.update s.calls s.nextCall
        ((c.start text (s.stores store).netIndex).map (⟨store, ·⟩)) := by
  unfold Server.call
  cases c.isCreate <;> exact ⟨rfl, rfl, rfl⟩

variable {e : Event}

/-- The database changes only in a step of a call. -/
lemma step_db (h : s.step text e = some s') :
    (s'.db = s.db ∧ ∀ id env, e ≠ .advance id env) ∨
      ∃ id env r, e = .advance id env ∧ s.calls id = some r ∧
        s'.db = (r.task.step text env s.db).1 := by
  cases e with
  | call store c =>
    cases h
    exact .inl ⟨(call_frame text s store c).1, fun _ _ => by simp⟩
  | advance id env =>
    obtain ⟨r, hid, rfl⟩ := Option.map_eq_some_iff.mp h
    exact .inr ⟨id, env, r, rfl, hid, rfl⟩
  | subscribe store networkId =>
    cases h
    exact .inl ⟨(subscribe_frame s store networkId).1, fun _ _ => by simp⟩
  | unsubscribe id =>
    simp only [Server.step] at h
    split at h
    · cases h
    · cases h
      exact .inl ⟨rfl, fun _ _ => by simp⟩
  | connect store =>
    cases h
    exact .inl ⟨rfl, fun _ _ => by simp⟩

/-- Where a call in progress comes from: it was so before, it was a step behind, or it has just
begun. -/
lemma step_calls (h : s.step text e = some s') {id : CallId} {r' : Running}
    (hid : s'.calls id = some r') :
    (s.calls id = some r' ∧ ∀ env, e ≠ .advance id env) ∨
      (∃ env r, e = .advance id env ∧ s.calls id = some r ∧ r'.store = r.store ∧
        (r.task.step text env s.db).2 = some r'.task) ∨
      ∃ store c, e = .call store c ∧ id = s.nextCall ∧ r'.store = store ∧
        c.start text (s.stores store).netIndex = some r'.task := by
  cases e with
  | call store c =>
    cases h
    rw [(call_frame text s store c).2.2, Function.update_apply] at hid
    split at hid
    · next heq =>
      obtain ⟨task, hstart, rfl⟩ := Option.map_eq_some_iff.mp hid
      exact .inr (.inr ⟨store, c, rfl, heq, rfl, hstart⟩)
    · exact .inl ⟨hid, fun _ => by simp⟩
  | advance id₀ env =>
    obtain ⟨r, hid₀, rfl⟩ := Option.map_eq_some_iff.mp h
    change Function.update s.calls id₀ _ id = some r' at hid
    rw [Function.update_apply] at hid
    split at hid
    · next heq =>
      subst heq
      obtain ⟨task, hnext, rfl⟩ := Option.map_eq_some_iff.mp hid
      exact .inr (.inl ⟨env, r, rfl, hid₀, rfl, hnext⟩)
    · next hne => exact .inl ⟨hid, fun _ heq => hne (Event.advance.inj heq).1.symm⟩
  | subscribe store networkId =>
    cases h
    exact .inl ⟨(subscribe_frame s store networkId).2.1 ▸ hid, fun _ => by simp⟩
  | unsubscribe id₀ =>
    simp only [Server.step] at h
    split at h
    · cases h
    · cases h
      exact .inl ⟨hid, fun _ => by simp⟩
  | connect store =>
    cases h
    exact .inl ⟨(Option.filter_eq_some_iff.mp hid).1, fun _ => by simp⟩

/-- The numbers of calls are given out in order. -/
lemma step_nextCall (h : s.step text e = some s') :
    s.nextCall ≤ s'.nextCall ∧ ∀ store c, e = .call store c → s'.nextCall = s.nextCall + 1 := by
  cases e with
  | call store c =>
    cases h
    have hnext := (call_frame text s store c).2.1
    exact ⟨by rw [hnext]; exact Nat.le_succ _, fun _ _ _ => hnext⟩
  | advance id env =>
    obtain ⟨r, hid, rfl⟩ := Option.map_eq_some_iff.mp h
    exact ⟨(publish_nextCall s r.store r.task).ge, fun _ _ heq => nomatch heq⟩
  | subscribe store networkId =>
    cases h
    exact ⟨(subscribe_frame s store networkId).2.2.ge, fun _ _ heq => nomatch heq⟩
  | unsubscribe id =>
    simp only [Server.step] at h
    split at h
    · cases h
    · cases h
      exact ⟨le_rfl, fun _ _ heq => nomatch heq⟩
  | connect store =>
    cases h
    exact ⟨le_rfl, fun _ _ heq => nomatch heq⟩

lemma init_sound : (init).Sound text where
  db := ⟨(fun _ h => nomatch h), (fun _ h => nomatch h), fun _ h => nomatch h⟩
  tasks _ _ h := nomatch h
  inserts _ _ _ _ _ _ h := nomatch h
  unused _ _ := rfl

/-- What other calls rely on is left alone by a step of a call. -/
lemma Sound.other (h : s.Sound text) {id id' : CallId} {r r' : Running} (env : Env)
    (hid : s.calls id = some r) (hid' : s.calls id' = some r') (hne : id' ≠ id) :
    r'.task.Sound text (r.task.step text env s.db).1 := by
  have htask := h.tasks id r hid
  have htask' := h.tasks id' r' hid'
  by_cases hordinary : r.task.Ordinary
  · exact htask'.evolves ((r.task.writes text s.db env).evolves hordinary htask)
  cases hr : r.task with
  | approveWrite routeId networkId => exact htask'.setRouteApproved routeId true
  | insertNetwork net =>
    simp only [Task.step]
    split
    · next hinsert =>
      refine htask'.insertNetwork ?_ hinsert
      intro net' hr' heq
      exact hne (h.inserts id' id r' r net' net hid' hid hr' hr heq)
    · exact htask'
  | _ =>
    rw [hr] at hordinary
    exact absurd trivial hordinary

/-- A call that is about to insert a network has just drawn its number. -/
lemma step_insertNetwork {task : Task} {env : Env}
    (h : (task.step text env db).2 = some (.insertNetwork net)) :
    IssuedBetween "net-" db (task.step text env db).1 net.id := by
  generalize hstep : task.step text env db = result at h ⊢
  obtain ⟨db', next⟩ := result
  subst h
  cases step_leads hstep with
  | spent h => cases h
  | drawn => exact ⟨_, Nat.lt_succ_self _, le_rfl, rfl⟩

lemma Sound.step (h : s.Sound text) (hstep : s.step text e = some s') : s'.Sound text := by
  refine ⟨?_, ?_, ?_, ?_⟩
  · rcases step_db hstep with ⟨hdb, -⟩ | ⟨id, env, r, -, hid, hdb⟩
    · rw [hdb]
      exact h.db
    · rw [hdb]
      exact (h.tasks id r hid).step h.db env
  · intro id r' hid'
    rcases step_calls hstep hid' with ⟨hold, hne⟩ | ⟨env, r, rfl, hid, -, hnext⟩ |
      ⟨store, c, rfl, -, -, hstart⟩
    · rcases step_db hstep with ⟨hdb, -⟩ | ⟨id₀, env, r, rfl, hid, hdb⟩
      · rw [hdb]
        exact h.tasks id r' hold
      · rw [hdb]
        exact h.other env hid hold fun heq => hne env (heq ▸ rfl)
    · obtain ⟨r₀, hid₀, rfl⟩ := Option.map_eq_some_iff.mp hstep
      cases hid₀.symm.trans hid
      exact (h.tasks id r hid).next h.db hnext
    · cases hstep
      rw [(call_frame text s store c).1]
      exact start_sound hstart
  · intro id₁ id₂ r₁ r₂ net₁ net₂ hid₁ hid₂ hr₁ hr₂ heq
    -- A call about to insert has a number of its own, unlike any that was about to before.
    have hfresh : ∀ id env r net id' r' net', s.calls id = some r →
        (r.task.step text env s.db).2 = some (.insertNetwork net) → s.calls id' = some r' →
        r'.task = .insertNetwork net' → net.id ≠ net'.id := by
      intro id env r net id' r' net' hid hnext hid' hr' heq
      have htask' := h.tasks id' r' hid'
      rw [hr'] at htask'
      exact (step_insertNetwork hnext).not_issued (heq ▸ htask'.1)
    rcases step_calls hstep hid₁ with ⟨hold₁, -⟩ | ⟨env₁, r, he₁, hid, -, hnext₁⟩ |
      ⟨store, c, -, -, -, hstart⟩
    · rcases step_calls hstep hid₂ with ⟨hold₂, -⟩ | ⟨env₂, r, -, hid, -, hnext₂⟩ |
        ⟨store, c, -, -, -, hstart⟩
      · exact h.inserts id₁ id₂ r₁ r₂ net₁ net₂ hold₁ hold₂ hr₁ hr₂ heq
      · exact absurd heq.symm (hfresh id₂ env₂ r net₂ id₁ r₁ net₁ hid (hr₂ ▸ hnext₂) hold₁ hr₁)
      · exact absurd hr₂ (start_ne_insertNetwork hstart net₂)
    · rcases step_calls hstep hid₂ with ⟨hold₂, -⟩ | ⟨env₂, r', he₂, -, -, -⟩ |
        ⟨store, c, -, -, -, hstart⟩
      · exact absurd heq (hfresh id₁ env₁ r net₁ id₂ r₂ net₂ hid (hr₁ ▸ hnext₁) hold₂ hr₂)
      · exact (Event.advance.inj (he₁.symm.trans he₂)).1
      · exact absurd hr₂ (start_ne_insertNetwork hstart net₂)
    · exact absurd hr₁ (start_ne_insertNetwork hstart net₁)
  · intro id hle
    obtain ⟨hnext, hcall⟩ := step_nextCall hstep
    cases hid : s'.calls id with
    | none => rfl
    | some r' =>
      rcases step_calls hstep hid with ⟨hold, -⟩ | ⟨env, r, -, hold, -, -⟩ |
        ⟨store, c, heq, rfl, -, -⟩
      · rw [h.unused id (hnext.trans hle)] at hold
        cases hold
      · rw [h.unused id (hnext.trans hle)] at hold
        cases hold
      · rw [hcall store c heq] at hle
        exact absurd hle (Nat.not_succ_le_self _)

/-- Every state of every run is sound. -/
lemma sound_of_run {es : List Event} (h : runFrom (step text) init es = some s) : s.Sound text :=
  inv_of_runFrom (fun _ _ _ hsound hstep => hsound.step hstep) init_sound h

/-- From every state of every run on, a device is not lost, moved or given another key, and it does
not come back to life. -/
theorem devices_last (text : AddrText) (es es' : List Event) :
    Always (step text) (fun s => ∀ d ∈ s.db.devices.rows, Always (step text) (fun s' =>
      ∃ d' ∈ s'.db.devices.rows, d'.id = d.id ∧ d'.networkId = d.networkId ∧
        d'.wgPublicKey = d.wgPublicKey ∧
        (d'.status = .active → d.status = .active ∧ d'.addressV4 = d.addressV4)) s es')
      init es := by
  refine always_of_forall (fun _ _ _ hs hstep => hs.step hstep) (fun s hs d hd => ?_) init_sound
  refine always_of_forall ?_ (fun _ => And.right)
    ⟨hs, d, hd, rfl, rfl, rfl, fun hactive => ⟨hactive, rfl⟩⟩
  rintro s e s' ⟨hs, d', hd', hlasts⟩ hstep
  refine ⟨hs.step hstep, ?_⟩
  rcases step_db hstep with ⟨hdb, -⟩ | ⟨id, env, r, -, hr, hdb⟩
  · exact ⟨d', hdb ▸ hd', hlasts⟩
  · obtain ⟨d'', hd'', hid, hnetwork, hkey, hlive, -⟩ := step_devices env (hs.tasks id r hr) hd'
    exact ⟨d'', hdb ▸ hd'', by grind⟩

end Server

end

end Fluxpeer.Control
