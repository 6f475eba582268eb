import Fluxpeer.Control.Failures

/-!
# Route requests of devices

A device asks for a route or withdraws one in a transaction of its own, while administrators
approve and delete routes by single statements that do not wait for it. Here the transaction runs
statement by statement, with what others commit in between. It has the lock of the sequence from its
first statement on, so no other transaction that takes it comes between, and the lock of the rows of
its prefix from the `UPDATE` that leaves them as they are, so no administrator changes those.

What the transaction has read stays true to its end, and its commit is the transaction as one step
on the database of that moment.
-/

namespace Fluxpeer.Control

open Lib Net Table

/-! ## The transaction statement by statement -/

/-- A call of `device_route_change`. -/
structure RouteChange where
  device : String
  token : String
  /-- The `prefix` of the source. -/
  cidr : String
  withdraw : Bool
  attempt : Nat

/-- What the transaction has written. -/
inductive Edit
  | keep
  | remove (ids : List String)
  | add (route : Route)

def Edit.apply (db : Db) : Edit → Except SqlStoreError Db
  | .keep => .ok db
  | .remove ids => .ok (db.deleteRoutes fun r => r.id ∈ ids)
  | .add route => { db with entity := db.entity + 1 }.insertRoute route

/-- The next statement of the transaction. -/
inductive Phase
  /-- `SELECT auth_token` -/
  | token
  /-- `SELECT COUNT(*)`, for the kind of refusal. -/
  | known
  /-- `UPDATE route SET approved = approved` -/
  | lock (cidr : String)
  | list (cidr : String)
  | delete (cidr : String)
  | device (cidr : String)
  | next (cidr networkId : String)
  | insert (route : Route)
  /-- The list that is returned. -/
  | relist (edit : Edit)
  | commit (edit : Edit) (routes : List Route)

inductive Outcome
  /-- The transaction goes on, with the rows it has locked by the statement. -/
  | go (phase : Phase) (locked : List String)
  | fail (e : SqlStoreError)
  | done (db : Db) (routes : List Route)

namespace RouteChange

/-- The row is about the prefix of the request. -/
def Concerns (c : RouteChange) (cidr : String) (r : Route) : Prop := r.deviceId = c.device ∧ r.cidr = cidr

instance (c : RouteChange) (cidr : String) (r : Route) : Decidable (c.Concerns cidr r) :=
  inferInstanceAs (Decidable (_ ∧ _))

variable (text : AddrText) (c : RouteChange) (db : Db)

def run : Phase → Outcome
  | .token =>
    if c.token = "" ∨ db.getDeviceToken c.device ≠ some c.token then .go .known []
    else
      match normalizePrefix text c.cidr with
      | none => .fail .invalidPrefix
      | some cidr => .go (.lock cidr) []
  | .known =>
    .fail (if c.token ≠ "" ∧ 0 < db.devices.count (db.holdsToken c.token) then .deviceForbidden
      else .deviceUnauthorized)
  | .lock cidr =>
    .go (.list cidr) (db.routes.select fun r => if c.Concerns cidr r then some r.id else none)
  | .list cidr =>
    let routes := db.listRoutesForDevice c.device
    if c.withdraw then
      if routes.any fun r => r.cidr = cidr ∧ r.approved then .fail .routeApproved
      else .go (.delete cidr) []
    else if routes.any fun r => r.cidr = cidr then .go (.relist .keep) []
    else .go (.device cidr) []
  | .delete cidr =>
    .go (.relist (.remove (db.routes.select fun r =>
      if c.Concerns cidr r ∧ r.approved = false then some r.id else none))) []
  | .device cidr =>
    match db.getDevice c.device with
    | none => .fail .deviceNotFound
    | some dev => .go (.next cidr dev.networkId) []
  | .next cidr networkId =>
    match db.next with
    | .error e => .fail e
    | .ok (_, seq) =>
      .go (.insert ⟨"route-" ++ Nat.repr seq, networkId, c.device, cidr, false⟩) []
  | .insert route =>
    match (Edit.add route).apply db with
    | .error e => .fail e
    | .ok _ => .go (.relist (.add route)) []
  | .relist edit =>
    match edit.apply db with
    | .error e => .fail e
    | .ok own => .go (.commit edit (orderBy (fun r : Route => [r.cidr.toList, r.id.toList])
        (own.listRoutesForDevice c.device))) []
  | .commit edit routes =>
    match edit.apply db with
    | .error e => .fail e
    | .ok db => .done db routes

end RouteChange

/-! ## Beside other calls -/

/-- The transaction that has the lock of the sequence. -/
structure Held where
  id : CallId
  phase : Phase
  /-- The rows of the route table that it has locked. -/
  locked : List String

def Task.Waits (held : Option Held) : Task → Bool
  | .transaction tx _ =>
    match tx with
    -- these two lock the row of their device only
    | .setEndpoints .. | .reportStats _ => false
    | _ => held.isSome
  | .approveWrite routeId _ | .deleteWrite routeId _ => held.any fun h => routeId ∈ h.locked
  | _ => false

/-- The call is one that the model runs statement by statement. -/
def Call.isRouteChange : Call → Bool
  | .deviceRouteChange .. => true
  | _ => false

structure Requests where
  db : Db
  calls : CallId → Option Task
  changes : CallId → Option RouteChange
  held : Option Held
  nextCall : CallId

namespace Requests

inductive Event
  | request (device token cidr : String) (withdraw : Bool)
  /-- A call takes the lock of the sequence. -/
  | begin (id : CallId) (fault : Option DbError)
  /-- The transaction that has the lock runs its next statement. -/
  | statement (fault : Option DbError)
  | call (idx : Nat) (c : Call)
  | advance (id : CallId) (env : Env)

def init : Requests :=
  { db := .empty, calls := fun _ => none, changes := fun _ => none, held := none, nextCall := 0 }

/-- The transaction is rolled back, and the call starts again or returns the error. -/
def rollback (s : Requests) (id : CallId) (c : RouteChange) (e : SqlStoreError) : Requests :=
  { s with
    held := none
    changes := Function.update s.changes id
      ((nextAttempt false c.attempt e).map fun attempt => { c with attempt }) }

def settle (s : Requests) (h : Held) (c : RouteChange) : Outcome → Requests
  | .go phase locked => { s with held := some { h with phase, locked := h.locked ++ locked } }
  | .fail e => s.rollback h.id c e
  | .done db _ => { s with db, held := none, changes := Function.update s.changes h.id none }

variable (text : AddrText)

/-- What the transaction with the lock does next. -/
def outcome (s : Requests) (h : Held) (c : RouteChange) (fault : Option DbError) : Outcome :=
  match fault with
  | some e => .fail (.db e)
  | none => c.run text s.db h.phase

def step (s : Requests) : Event → Option Requests
  | .request device token cidr withdraw =>
    some { s with
      changes := Function.update s.changes s.nextCall (some ⟨device, token, cidr, withdraw, 0⟩)
      nextCall := s.nextCall + 1 }
  | .begin id fault =>
    match s.held, s.changes id with
    | none, some c =>
      match fault with
      | some e => some (s.rollback id c (.db e))
      | none => some { s with held := some ⟨id, .token, []⟩ }
    | _, _ => none
  | .statement fault =>
    match s.held with
    | none => none
    | some h => (s.changes h.id).map fun c => s.settle h c (s.outcome text h c fault)
  | .call idx c =>
    if c.isRouteChange then none
    else some { s with
      calls := Function.update s.calls s.nextCall (c.start text idx), nextCall := s.nextCall + 1 }
  | .advance id env =>
    match s.calls id with
    | none => none
    | some task =>
      if task.Waits s.held then none
      else
        match task.failure text env s.db with
        | some _ => some { s with calls := Function.update s.calls id none }
        | none =>
          let (db, next) := task.step text env s.db
          some { s with db, calls := Function.update s.calls id next }

end Requests

/-! ## What stays true -/

namespace RouteChange

/-- The call has shown the token of its device. -/
def Authorized (c : RouteChange) (db : Db) : Prop :=
  c.token ≠ "" ∧ db.getDeviceToken c.device = some c.token

/-- The prefix is the one of the call, and all rows about it are locked. -/
structure Locks (text : AddrText) (c : RouteChange) (db : Db) (locked : List String) (cidr : String) :
    Prop where
  authorized : c.Authorized db
  normal : normalizePrefix text c.cidr = some cidr
  rows : ∀ r ∈ db.routes.rows, c.Concerns cidr r → r.id ∈ locked

/-- What the edit relies on. -/
def Justifies (c : RouteChange) (db : Db) (cidr : String) : Edit → Prop
  | .keep => c.withdraw = false ∧ ∃ r ∈ db.routes.rows, c.Concerns cidr r
  | .remove ids => c.withdraw = true ∧
    (∀ r ∈ db.routes.rows, c.Concerns cidr r → r.approved = false) ∧
    ∀ r ∈ db.routes.rows, r.id ∈ ids ↔ c.Concerns cidr r
  | .add route => c.withdraw = false ∧ (∀ r ∈ db.routes.rows, ¬ c.Concerns cidr r) ∧
    db.entity < 9223372036854775807 ∧
    ∃ networkId, (db.getDevice c.device).map (·.networkId) = some networkId ∧
      route = ⟨"route-" ++ Nat.repr (db.entity + 1), networkId, c.device, cidr, false⟩

/-- What the transaction has read before a statement is true of the database. -/
def Holds (text : AddrText) (c : RouteChange) (db : Db) (locked : List String) : Phase → Prop
  | .token | .known => True
  | .lock cidr => c.Authorized db ∧ normalizePrefix text c.cidr = some cidr
  | .list cidr => c.Locks text db locked cidr
  | .delete cidr => c.Locks text db locked cidr ∧ c.withdraw = true ∧
    ∀ r ∈ db.routes.rows, c.Concerns cidr r → r.approved = false
  | .device cidr => c.Locks text db locked cidr ∧ c.withdraw = false ∧
    ∀ r ∈ db.routes.rows, ¬ c.Concerns cidr r
  | .next cidr networkId => c.Locks text db locked cidr ∧ c.withdraw = false ∧
    (∀ r ∈ db.routes.rows, ¬ c.Concerns cidr r) ∧
    (db.getDevice c.device).map (·.networkId) = some networkId
  | .insert route => ∃ cidr, c.Locks text db locked cidr ∧ c.Justifies db cidr (.add route)
  | .relist edit | .commit edit _ => ∃ cidr, c.Locks text db locked cidr ∧ c.Justifies db cidr edit

end RouteChange

/-! ## Steps of others -/

section

variable {text : AddrText} {db db' : Db} {locked : List String} {id token : String}

lemma getDeviceToken_eq_some : db.getDeviceToken id = some token ↔
    ∃ d ∈ db.devices.rows, d.id = id ∧ d.status = .active ∧ (db.getNetwork d.networkId).isSome ∧
      d.authToken = some token := by
  unfold Db.getDeviceToken
  constructor
  · intro h
    obtain ⟨d, hfind, htoken⟩ := Option.bind_eq_some_iff.mp h
    have hrow := find?_some hfind
    simp only [decide_eq_true_eq] at hrow
    obtain ⟨hid, hactive, hstored⟩ := hrow
    exact ⟨d, mem_of_find? hfind, hid, hactive, hstored, htoken⟩
  · rintro ⟨d, hd, rfl, hactive, hstored, htoken⟩
    cases hfind : db.devices.find? fun d' => d'.id = d.id ∧ d'.status = .active ∧
        (db.getNetwork d'.networkId).isSome with
    | none =>
      have hnot := List.find?_eq_none.mp hfind d hd
      simp only [hactive, hstored, and_self, decide_true, not_true_eq_false] at hnot
    | some d' =>
      have hrow := find?_some hfind
      simp only [decide_eq_true_eq] at hrow
      rw [device_eq (mem_of_find? hfind) hd hrow.1, Option.bind_some, htoken]

/-- What a step without the lock of the sequence leaves alone. -/
structure Quiet (locked : List String) (db db' : Db) : Prop where
  entity : db'.entity = db.entity
  token : ∀ id token, db.getDeviceToken id = some token → db'.getDeviceToken id = some token
  device : ∀ id, (db'.getDevice id).map (·.networkId) = (db.getDevice id).map (·.networkId)
  came : ∀ r' ∈ db'.routes.rows, ∃ r ∈ db.routes.rows, r.id = r'.id ∧ r.deviceId = r'.deviceId ∧
    r.cidr = r'.cidr ∧ (r.id ∈ locked → r = r')
  stays : ∀ r ∈ db.routes.rows, r.id ∈ locked → r ∈ db'.routes.rows

lemma token_of_eq (hdevices : db'.devices = db.devices)
    (hnetworks : ∀ n, (db.getNetwork n).isSome → (db'.getNetwork n).isSome)
    (h : db.getDeviceToken id = some token) : db'.getDeviceToken id = some token := by
  obtain ⟨d, hd, hid, hactive, hstored, htoken⟩ := getDeviceToken_eq_some.mp h
  exact getDeviceToken_eq_some.mpr
    ⟨d, hdevices ▸ hd, hid, hactive, hnetworks _ hstored, htoken⟩

/-- Devices and routes stay, and no network goes. -/
lemma Quiet.of_eq (hentity : db'.entity = db.entity) (hdevices : db'.devices = db.devices)
    (hroutes : db'.routes = db.routes)
    (hnetworks : ∀ n, (db.getNetwork n).isSome → (db'.getNetwork n).isSome) :
    Quiet locked db db' where
  entity := hentity
  token _ _ h := token_of_eq hdevices hnetworks h
  device id := by rw [Db.getDevice, Db.deviceRow, hdevices, Db.getDevice, Db.deviceRow]
  came r hr := ⟨r, hroutes ▸ hr, rfl, rfl, rfl, fun _ => rfl⟩
  stays r hr _ := hroutes ▸ hr

lemma Quiet.refl (db : Db) : Quiet locked db db := .of_eq rfl rfl rfl fun _ h => h

lemma Quiet.trans {db'' : Db} (h : Quiet locked db db') (h' : Quiet locked db' db'') :
    Quiet locked db db'' where
  entity := h'.entity.trans h.entity
  token id token htoken := h'.token id token (h.token id token htoken)
  device id := (h'.device id).trans (h.device id)
  came r'' hr'' := by
    obtain ⟨r', hr', hid', hdevice', hcidr', hsame'⟩ := h'.came r'' hr''
    obtain ⟨r, hr, hid, hdevice, hcidr, hsame⟩ := h.came r' hr'
    refine ⟨r, hr, hid.trans hid', hdevice.trans hdevice', hcidr.trans hcidr', fun hlocked => ?_⟩
    rw [hsame hlocked]
    exact hsame' (hid ▸ hlocked)
  stays r hr hlocked := h'.stays r (h.stays r hr hlocked) hlocked

/-- Devices change in what neither their token nor their network depends on. -/
lemma Quiet.of_devices {p : DeviceRow → Bool} {f : DeviceRow → DeviceRow}
    {hf : Table.Narrows DeviceRow.indexes f} (hid : ∀ d, (f d).id = d.id)
    (hnetwork : ∀ d, (f d).networkId = d.networkId) (hstatus : ∀ d, (f d).status = d.status)
    (htoken : ∀ d, (f d).authToken = d.authToken) :
    Quiet locked db { db with devices := db.devices.update p f hf } where
  entity := rfl
  token id token h := by
    obtain ⟨d, hd, hdid, hactive, hstored, hdtoken⟩ := getDeviceToken_eq_some.mp h
    refine getDeviceToken_eq_some.mpr ⟨_, List.mem_map_of_mem hd, ?_⟩
    split
    · exact ⟨(hid d).trans hdid, (hstatus d).trans hactive, (hnetwork d).symm ▸ hstored,
        (htoken d).trans hdtoken⟩
    · exact ⟨hdid, hactive, hstored, hdtoken⟩
  device id := by
    have hrow : Db.deviceRow { db with devices := db.devices.update p f hf } id =
        (db.deviceRow id).map fun d => if p d then f d else d :=
      find?_update hf fun d _ _ => by rw [hid]
    rw [Db.getDevice, hrow, Db.getDevice, Option.map_map, Option.map_map, Option.map_map]
    congr 1
    funext d
    simp only [Function.comp_apply]
    split
    · exact hnetwork d
    · rfl
  came r hr := ⟨r, hr, rfl, rfl, rfl, fun _ => rfl⟩
  stays _ hr _ := hr

lemma isSome_getNetwork_bump (id : String) {n : String} (h : (db.getNetwork n).isSome) :
    ((db.bumpNetworkEpoch id).getNetwork n).isSome := by
  rw [getNetwork_bumpNetworkEpoch, Option.isSome_map]
  exact h

/-- A step that does not wait for the transaction with the lock. -/
lemma Task.Writes.quiet {draw : String} {task : Task} {h : Held}
    (hwrites : task.Writes text draw db db') (hwaits : task.Waits (some h) = false) :
    Quiet h.locked db db' := by
  cases hwrites with
  | commits hcommits =>
    cases hcommits with
    | @setEndpoints deviceId endpoints =>
      have hset : Quiet h.locked db (db.setDeviceEndpoints deviceId endpoints) :=
        .of_devices (fun _ => rfl) (fun _ => rfl) (fun _ => rfl) fun _ => rfl
      exact hset.trans (.of_eq rfl rfl rfl fun _ => isSome_getNetwork_bump _)
    | reportStats => exact .of_eq rfl rfl rfl fun _ h => h
    | _ => cases hwaits
  | insertNetwork insert =>
    refine .of_eq rfl rfl rfl fun n hn => ?_
    rw [Db.getNetwork] at hn
    rw [Db.getNetwork, find?_insert? insert, Option.isSome_or, hn, Bool.true_or]
  | @approve routeId networkId =>
    have hfree : routeId ∉ h.locked := by simpa [Task.Waits] using hwaits
    refine ⟨rfl, fun _ _ h => h, fun _ => rfl, ?_, ?_⟩
    · intro r' hr'
      obtain ⟨r, hr, rfl⟩ := List.mem_map.mp hr'
      refine ⟨r, hr, ?_⟩
      split
      · next hid =>
        exact ⟨rfl, rfl, rfl, fun hlocked => absurd (of_decide_eq_true hid ▸ hlocked) hfree⟩
      · exact ⟨rfl, rfl, rfl, fun _ => rfl⟩
    · intro r hr hlocked
      refine List.mem_map.mpr ⟨r, hr, if_neg ?_⟩
      intro hid
      exact hfree (of_decide_eq_true hid ▸ hlocked)
  | @delete routeId read =>
    have hfree : routeId ∉ h.locked := by simpa [Task.Waits] using hwaits
    refine ⟨rfl, fun _ _ h => h, fun _ => rfl, ?_, ?_⟩
    · intro r hr
      exact ⟨r, (mem_delete.mp hr).1, rfl, rfl, rfl, fun _ => rfl⟩
    · intro r hr hlocked
      refine mem_delete.mpr ⟨hr, decide_eq_false fun hid => ?_⟩
      exact hfree (hid ▸ hlocked)
  | settings | rename =>
    exact .of_devices (fun _ => rfl) (fun _ => rfl) (fun _ => rfl) fun _ => rfl
  | bump => exact .of_eq rfl rfl rfl fun _ => isSome_getNetwork_bump _
  | nothing => exact .refl db

end

/-! ## What has been read stays true -/

namespace RouteChange

variable {text : AddrText} {c : RouteChange} {db db' : Db} {locked : List String} {cidr : String}

lemma Locks.quiet (h : c.Locks text db locked cidr) (hquiet : Quiet locked db db') :
    c.Locks text db' locked cidr where
  authorized := ⟨h.authorized.1, hquiet.token _ _ h.authorized.2⟩
  normal := h.normal
  rows r' hr' hconcerns := by
    obtain ⟨r, hr, hid, hdevice, hcidr, -⟩ := hquiet.came r' hr'
    rw [← hid]
    exact h.rows r hr ⟨hdevice.trans hconcerns.1, hcidr.trans hconcerns.2⟩

/-- The rows about the prefix are the same. -/
lemma Locks.concerned (h : c.Locks text db locked cidr) (hquiet : Quiet locked db db') {r : Route}
    (hconcerns : c.Concerns cidr r) : r ∈ db'.routes.rows ↔ r ∈ db.routes.rows := by
  constructor
  · intro hr'
    obtain ⟨r₀, hr, -, hdevice, hcidr, hsame⟩ := hquiet.came r hr'
    have hlocked := h.rows r₀ hr ⟨hdevice.trans hconcerns.1, hcidr.trans hconcerns.2⟩
    rw [← hsame hlocked]
    exact hr
  · exact fun hr => hquiet.stays r hr (h.rows r hr hconcerns)

lemma Justifies.quiet {edit : Edit} (h : c.Justifies db cidr edit)
    (hlocks : c.Locks text db locked cidr) (hquiet : Quiet locked db db') :
    c.Justifies db' cidr edit := by
  cases edit with
  | keep =>
    obtain ⟨hwithdraw, r, hr, hconcerns⟩ := h
    exact ⟨hwithdraw, r, (hlocks.concerned hquiet hconcerns).mpr hr, hconcerns⟩
  | remove ids =>
    obtain ⟨hwithdraw, hpending, hids⟩ := h
    refine ⟨hwithdraw, ?_, ?_⟩
    · intro r hr hconcerns
      exact hpending r ((hlocks.concerned hquiet hconcerns).mp hr) hconcerns
    · intro r' hr'
      obtain ⟨r, hr, hid, hdevice, hcidr, -⟩ := hquiet.came r' hr'
      rw [← hid, hids r hr, Concerns, Concerns, hdevice, hcidr]
  | add route =>
    obtain ⟨hwithdraw, hnone, hentity, networkId, hnetwork, hroute⟩ := h
    refine ⟨hwithdraw, ?_, ?_, networkId, ?_, ?_⟩
    · intro r hr hconcerns
      exact hnone r ((hlocks.concerned hquiet hconcerns).mp hr) hconcerns
    · rw [hquiet.entity]
      exact hentity
    · rw [hquiet.device]
      exact hnetwork
    · rw [hquiet.entity]
      exact hroute

lemma Holds.quiet {phase : Phase} (h : c.Holds text db locked phase)
    (hquiet : Quiet locked db db') : c.Holds text db' locked phase := by
  cases phase with
  | token | known => trivial
  | lock cidr => exact ⟨⟨h.1.1, hquiet.token _ _ h.1.2⟩, h.2⟩
  | list cidr => exact Locks.quiet h hquiet
  | delete cidr =>
    obtain ⟨hlocks, hwithdraw, hpending⟩ := h
    refine ⟨hlocks.quiet hquiet, hwithdraw, fun r hr hconcerns => ?_⟩
    exact hpending r ((hlocks.concerned hquiet hconcerns).mp hr) hconcerns
  | device cidr =>
    obtain ⟨hlocks, hwithdraw, hnone⟩ := h
    refine ⟨hlocks.quiet hquiet, hwithdraw, fun r hr hconcerns => ?_⟩
    exact hnone r ((hlocks.concerned hquiet hconcerns).mp hr) hconcerns
  | next cidr networkId =>
    obtain ⟨hlocks, hwithdraw, hnone, hnetwork⟩ := h
    refine ⟨hlocks.quiet hquiet, hwithdraw, fun r hr hconcerns => ?_, ?_⟩
    · exact hnone r ((hlocks.concerned hquiet hconcerns).mp hr) hconcerns
    · rw [hquiet.device]
      exact hnetwork
  | insert | relist | commit =>
    obtain ⟨cidr, hlocks, hjustifies⟩ := h
    exact ⟨cidr, hlocks.quiet hquiet, hjustifies.quiet hlocks hquiet⟩

/-! ## Statements of the transaction -/

lemma any_listRoutesForDevice {p : Route → Bool} : (db.listRoutesForDevice c.device).any p = true ↔
    ∃ r ∈ db.routes.rows, r.deviceId = c.device ∧ p r = true := by
  rw [List.any_eq_true]
  constructor
  · rintro ⟨r, hr, hp⟩
    obtain ⟨r', hr', hrow⟩ := List.mem_filterMap.mp hr
    split at hrow
    · next hdevice =>
      cases hrow
      exact ⟨r, hr', hdevice, hp⟩
    · cases hrow
  · rintro ⟨r, hr, hdevice, hp⟩
    exact ⟨r, List.mem_filterMap.mpr ⟨r, hr, if_pos hdevice⟩, hp⟩

lemma Locks.widen (h : c.Locks text db locked cidr) (more : List String) :
    c.Locks text db (locked ++ more) cidr :=
  ⟨h.authorized, h.normal, fun r hr hconcerns => List.mem_append_left _ (h.rows r hr hconcerns)⟩

lemma next_ok_lt {seq : Nat} (h : db.next = .ok (db', seq)) : db.entity < 9223372036854775807 := by
  unfold Db.next at h
  split at h
  · assumption
  · cases h

/-- A statement finds out what the next one relies on. -/
lemma Holds.go {phase phase' : Phase} {more : List String} (h : c.Holds text db locked phase)
    (hrun : c.run text db phase = .go phase' more) : c.Holds text db (locked ++ more) phase' := by
  cases phase with
  | token =>
    simp only [run] at hrun
    split at hrun
    · cases hrun
      trivial
    next htoken =>
    split at hrun
    · cases hrun
    next cidr hnormal =>
    cases hrun
    rw [not_or, not_not] at htoken
    exact ⟨htoken, hnormal⟩
  | known => cases hrun
  | lock cidr =>
    cases hrun
    refine ⟨h.1, h.2, fun r hr hconcerns => List.mem_append_right _ ?_⟩
    exact List.mem_filterMap.mpr ⟨r, hr, if_pos hconcerns⟩
  | list cidr =>
    have hlocks : c.Locks text db locked cidr := h
    simp only [run] at hrun
    split at hrun
    · next hwithdraw =>
      split at hrun
      · cases hrun
      next hany =>
      cases hrun
      refine ⟨hlocks.widen _, hwithdraw, fun r hr hconcerns => Bool.eq_false_iff.mpr fun happroved => ?_⟩
      exact hany (any_listRoutesForDevice.mpr
        ⟨r, hr, hconcerns.1, decide_eq_true ⟨hconcerns.2, happroved⟩⟩)
    · next hwithdraw =>
      have hwithdraw := Bool.eq_false_iff.mpr hwithdraw
      split at hrun
      · next hany =>
        cases hrun
        obtain ⟨r, hr, hdevice, hcidr⟩ := any_listRoutesForDevice.mp hany
        exact ⟨cidr, hlocks.widen _, hwithdraw, r, hr, hdevice, of_decide_eq_true hcidr⟩
      · next hany =>
        cases hrun
        refine ⟨hlocks.widen _, hwithdraw, fun r hr hconcerns => ?_⟩
        exact hany (any_listRoutesForDevice.mpr ⟨r, hr, hconcerns.1, decide_eq_true hconcerns.2⟩)
  | delete cidr =>
    obtain ⟨hlocks, hwithdraw, hpending⟩ := h
    cases hrun
    refine ⟨cidr, hlocks.widen _, hwithdraw, hpending, fun r hr => ?_⟩
    rw [select, List.mem_filterMap]
    constructor
    · rintro ⟨r', hr', hrow⟩
      split at hrow
      · next hconcerns =>
        rw [← route_eq hr' hr (Option.some.inj hrow)]
        exact hconcerns.1
      · cases hrow
    · exact fun hconcerns => ⟨r, hr, if_pos ⟨hconcerns, hpending r hr hconcerns⟩⟩
  | device cidr =>
    obtain ⟨hlocks, hwithdraw, hnone⟩ := h
    simp only [run] at hrun
    split at hrun
    · cases hrun
    · next dev hdev =>
      cases hrun
      exact ⟨hlocks.widen _, hwithdraw, hnone, by rw [hdev]; rfl⟩
  | next cidr networkId =>
    obtain ⟨hlocks, hwithdraw, hnone, hnetwork⟩ := h
    simp only [run] at hrun
    split at hrun
    · cases hrun
    next seq hnext =>
    cases hrun
    obtain ⟨rfl, -⟩ := next_eq_ok hnext
    exact ⟨cidr, hlocks.widen _, hwithdraw, hnone, next_ok_lt hnext, networkId, hnetwork, rfl⟩
  | insert | relist =>
    obtain ⟨cidr, hlocks, hjustifies⟩ := h
    simp only [run] at hrun
    split at hrun
    · cases hrun
    · cases hrun
      exact ⟨cidr, hlocks.widen _, hjustifies⟩
  | commit edit routes =>
    simp only [run] at hrun
    split at hrun <;> cases hrun

/-- The edit is what the transaction as one step does to the database. -/
lemma Justifies.apply {edit : Edit} (hlocks : c.Locks text db locked cidr)
    (h : c.Justifies db cidr edit) (happly : edit.apply db = .ok db') :
    ∃ routes, db.deviceRouteChangeOnce text c.device c.token c.cidr c.withdraw = .ok (db', routes) := by
  have htoken : ¬ (c.token = "" ∨ db.getDeviceToken c.device ≠ some c.token) := by
    rw [not_or, not_not]
    exact hlocks.authorized
  unfold Db.deviceRouteChangeOnce
  rw [if_neg htoken, hlocks.normal]
  cases edit with
  | keep =>
    obtain ⟨hwithdraw, r, hr, hconcerns⟩ := h
    cases happly
    have hany : (db.listRoutesForDevice c.device).any (fun r => decide (r.cidr = cidr)) = true :=
      any_listRoutesForDevice.mpr ⟨r, hr, hconcerns.1, decide_eq_true hconcerns.2⟩
    simp only [hwithdraw, Bool.false_eq_true, if_false, hany, if_true]
    exact ⟨_, rfl⟩
  | remove ids =>
    obtain ⟨hwithdraw, hpending, hids⟩ := h
    cases happly
    have hany : ¬ (db.listRoutesForDevice c.device).any
        (fun r => decide (r.cidr = cidr ∧ r.approved = true)) = true := by
      rw [any_listRoutesForDevice]
      rintro ⟨r, hr, hdevice, hcidr⟩
      obtain ⟨hcidr, happroved⟩ := of_decide_eq_true hcidr
      rw [hpending r hr ⟨hdevice, hcidr⟩] at happroved
      cases happroved
    have hdelete : db.deleteRoutes (fun r => decide (r.id ∈ ids)) = db.deleteRoutes
        (fun r => decide (r.deviceId = c.device ∧ r.cidr = cidr ∧ r.approved = false)) := by
      refine congrArg (fun routes => { db with routes }) (eq_of_rows ?_)
      refine List.filter_congr fun r hr => congrArg not (decide_eq_decide.mpr ?_)
      rw [hids r hr]
      exact ⟨fun hconcerns => ⟨hconcerns.1, hconcerns.2, hpending r hr hconcerns⟩,
        fun hmatch => ⟨hmatch.1, hmatch.2.1⟩⟩
    simp only [hwithdraw, if_true, if_neg hany]
    rw [hdelete]
    exact ⟨_, rfl⟩
  | add route =>
    obtain ⟨hwithdraw, hnone, hentity, networkId, hnetwork, rfl⟩ := h
    have hany : ¬ (db.listRoutesForDevice c.device).any (fun r => decide (r.cidr = cidr)) = true := by
      rw [any_listRoutesForDevice]
      rintro ⟨r, hr, hdevice, hcidr⟩
      exact hnone r hr ⟨hdevice, of_decide_eq_true hcidr⟩
    obtain ⟨dev, hdev, rfl⟩ := Option.map_eq_some_iff.mp hnetwork
    have hadd : db.addRoute dev.networkId c.device cidr = .ok (db', ⟨"route-" ++ Nat.repr (db.entity + 1),
        dev.networkId, c.device, cidr, false⟩) := by
      rw [Db.addRoute, Db.next, if_pos hentity]
      simp only
      rw [show Db.insertRoute { db with entity := db.entity + 1 } _ = .ok db' from happly]
    simp only [hwithdraw, Bool.false_eq_true, if_false, if_neg hany, hdev, hadd]
    exact ⟨_, rfl⟩

end RouteChange

end Fluxpeer.Control
