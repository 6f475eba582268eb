import Fluxpeer.Control.View

/-!
# Effects on a network

What a transaction and a step of a call do to the view and the epoch of a network.
-/

namespace Fluxpeer.Control

open Lib Net

/-- What a transaction does to a network: its configurations do not show it, or its epoch is larger
after it, or the network is not there any more. -/
inductive Effect (n : String) (db db' : Db) : Prop
  | unseen (h : Unseen n db db')
  | bumped {e e' : Nat} (he : db.epoch n = some e) (he' : db'.epoch n = some e') (hlt : e < e')
  | gone (h : db'.epoch n = none)

section

variable {text : AddrText} {draw : String} {n : String} {db db' : Db} {task : Task}
  {networkId : String} {ids : List String}

/-! ## Bumps -/

lemma epoch_congr (h : db'.networks = db.networks) : db'.epoch n = db.epoch n := by
  rw [Db.epoch, Db.getNetwork, h, Db.epoch, Db.getNetwork]

lemma epoch_foldl_bumpNetworkEpoch (db : Db) (ids : List String) :
    (ids.foldl Db.bumpNetworkEpoch db).epoch n = (db.epoch n).map (· + ids.count n) := by
  induction ids generalizing db with
  | nil => simp
  | cons id ids ih =>
    rw [List.foldl_cons, ih]
    by_cases heq : n = id
    · subst heq
      rw [epoch_bumpNetworkEpoch, Option.map_map, List.count_cons_self]
      congr 1
      funext e
      simp only [Function.comp]
      omega
    · rw [(unseen_bumpNetworkEpoch heq).epoch, List.count_cons_of_ne (Ne.symm heq)]

lemma unseen_foldl_bumpNetworkEpoch (h : n ∉ ids) :
    Unseen n db (ids.foldl Db.bumpNetworkEpoch db) :=
  List.foldlRecOn ids _ (.refl db) fun _ hdb _ hid =>
    hdb.trans (unseen_bumpNetworkEpoch fun heq => h (heq ▸ hid))

/-- A transaction that bumps every network that sees what it does. -/
lemma Effect.bumpAll (hepoch : db'.epoch n = db.epoch n)
    (hother : n ∉ ids → db.epoch n ≠ none → Unseen n db db') :
    Effect n db (ids.foldl Db.bumpNetworkEpoch db') := by
  cases he : db.epoch n with
  | none =>
    refine .gone ?_
    rw [epoch_foldl_bumpNetworkEpoch, hepoch, he]
    rfl
  | some e =>
    by_cases hmem : n ∈ ids
    · have hcount := List.count_pos_iff.mpr hmem
      have he' : (ids.foldl Db.bumpNetworkEpoch db').epoch n = some (e + ids.count n) := by
        rw [epoch_foldl_bumpNetworkEpoch, hepoch, he]
        rfl
      exact .bumped he he' (by omega)
    · exact .unseen ((hother hmem (by simp [he])).trans (unseen_foldl_bumpNetworkEpoch hmem))

lemma Effect.bump {id : String} (hepoch : db'.epoch n = db.epoch n)
    (hother : n ≠ id → Unseen n db db') : Effect n db (db'.bumpNetworkEpoch id) := by
  change Effect n db ([id].foldl Db.bumpNetworkEpoch db')
  exact .bumpAll hepoch fun hmem _ => hother fun heq => hmem (heq ▸ List.mem_cons_self)

/-! ## Transactions -/

lemma epoch_insertDevice {d : Device} (h : db.insertDevice d = .ok db') :
    db'.epoch n = db.epoch n := by
  obtain ⟨_, _, -, -, rfl⟩ := insertDevice_eq_ok h
  exact epoch_congr rfl

/-- A step that only draws a number. -/
lemma unseen_entity (entity : Nat) : Unseen n db { db with entity } := .of_eq rfl rfl rfl rfl

/-- What the loop of an import does: other networks do not see it. -/
lemma Imports.unseen {seen : List String} {items : List (ImportDevice × String)}
    {created : List Device} (h : Imports networkId db seen items db' created) :
    db'.networks = db.networks ∧ ∀ n, n ≠ networkId → Unseen n db db' := by
  induction h with
  | nil => exact ⟨rfl, fun _ _ => .refl _⟩
  | skip known rest ih => exact ih
  | create new row insert rest ih =>
    subst row
    constructor
    · obtain ⟨_, _, -, -, rfl⟩ := insertDevice_eq_ok insert
      exact ih.1
    · intro n hne
      refine .trans (.trans (unseen_entity _) (unseen_insertDevice hne insert)) (.trans ?_ (ih.2 n hne))
      -- The endpoints are those of the device just inserted.
      obtain ⟨key', devices, -, hrow, rfl⟩ := insertDevice_eq_ok insert
      have hmem := (Table.mem_insert? hrow).mpr (.inr rfl)
      exact unseen_setDeviceEndpoints (d := ⟨⟨_, networkId, _, key', _, _, .active⟩, none, none, none⟩)
        hmem hne _

lemma getDevice_eq_some {deviceId : String} {device : Device}
    (h : db.getDevice deviceId = some device) :
    ∃ d ∈ db.devices.rows, d.id = deviceId ∧ d.toDevice = device := by
  obtain ⟨d, hrow, rfl⟩ := Option.map_eq_some_iff.mp h
  exact ⟨d, Table.mem_of_find? hrow, by simpa using Table.find?_some hrow, rfl⟩

/-- A stored network that is not among those in scope is outside of every scope. -/
lemma not_in_scope {scopes : List (Option String)} (hstored : db.epoch n ≠ none)
    (hmem : n ∉ db.networksInScope scopes) : none ∉ scopes ∧ some n ∉ scopes := by
  obtain ⟨e, he⟩ := Option.ne_none_iff_exists'.mp hstored
  obtain ⟨net, hget, -⟩ := Option.map_eq_some_iff.mp he
  have hid := id_of_getNetwork hget
  have hscope : ¬ (none ∈ scopes ∨ some n ∈ scopes) := by
    intro hscope
    refine hmem (List.mem_filterMap.mpr ⟨net, Table.mem_of_find? hget, ?_⟩)
    rw [hid, if_pos hscope]
  exact not_or.mp hscope

lemma unseen_deleteNetwork {next : Option Task}
    (h : (Transaction.deleteNetwork networkId).Commits text draw db db' next) (hne : n ≠ networkId) :
    Unseen n db db' := by
  cases h
  refine .trans ?_ (unseen_dropNetwork hne)
  refine .trans ?_ (unseen_bumpNetworkEpoch hne)
  refine .trans ?_ (unseen_deleteRelays ?_)
  · refine .trans ?_ (unseen_deleteRoutes ?_)
    · refine .trans (unseen_revokeDevices ?_) (.of_eq rfl rfl rfl rfl)
      intro d _ hp
      rw [of_decide_eq_true hp]
      exact Ne.symm hne
    · intro r _ hp hr
      exact absurd (hr.symm.trans (of_decide_eq_true hp)) hne
  · intro r hp
    have hscope : r.networkId = some networkId := of_decide_eq_true hp
    rw [hscope]
    exact ⟨fun hsome => hne (Option.some.inj hsome).symm, by simp⟩

lemma Transaction.Commits.effect {tx : Transaction} {next : Option Task}
    (h : tx.Commits text draw db db' next) : Effect n db db' := by
  have hcommits := h
  cases h with
  | nextSeq | createInvite | revokeInvite | reportStats => exact .unseen (.of_eq rfl rfl rfl rfl)
  | @deleteNetwork networkId =>
    by_cases heq : n = networkId
    · subst heq
      exact .gone (epoch_dropNetwork _ n)
    · exact .unseen (unseen_deleteNetwork hcommits heq)
  | enrollKnown => exact .unseen (unseen_setDeviceToken db _ _)
  | enroll invited consumed stored parsed inRange free row insert =>
    subst row
    refine .bump ?_ ?_
    · rw [(unseen_setDeviceToken _ _ _).epoch, epoch_insertDevice insert]
      exact epoch_congr rfl
    · intro hne
      refine .trans (.trans ?_ (unseen_insertDevice hne insert)) (unseen_setDeviceToken _ _ _)
      exact .of_eq rfl rfl rfl rfl
  | importNone | keepRoute => exact .unseen (.refl db)
  | importDevices stored imports => exact .bump (epoch_congr imports.unseen.1) (imports.unseen.2 n)
  | revokeDevice found =>
    obtain ⟨d, hd, rfl, rfl⟩ := getDevice_eq_some found
    exact .bump (epoch_congr rfl) fun hne => unseen_revokeDevices fun d' hd' hid =>
      ne_network_of_id hd hne hd' hid
  | advertiseRoute normal add => exact .unseen (unseen_addRoute add)
  | withdrawRoute =>
    exact .unseen (unseen_deleteRoutes fun r _ hp _ => (of_decide_eq_true hp).2.2)
  | requestRoute authorized normal absent add => exact .unseen (unseen_addRoute add)
  | @registerRelay _ _ _ _ _ _ _ relay db₁ insert =>
    have hepoch : db₁.epoch n = db.epoch n := by
      obtain ⟨relays, -, rfl⟩ := insertRelay_eq_ok insert
      exact epoch_congr rfl
    refine .bumpAll hepoch fun hmem hstored => ?_
    obtain ⟨hshared, hown⟩ := not_in_scope (hepoch ▸ hstored) hmem
    refine .trans (unseen_entity _) (unseen_insertRelay ?_ ?_ insert)
    · exact fun heq => hown (heq ▸ List.mem_cons_self)
    · exact fun heq => hshared (heq ▸ List.mem_cons_self)
  | @updateRelay relay old found =>
    have hepoch : (db.setRelay relay).epoch n = db.epoch n := epoch_congr rfl
    refine .bumpAll hepoch fun hmem hstored => ?_
    obtain ⟨hshared, hown⟩ := not_in_scope (hepoch ▸ hstored) hmem
    simp only [List.mem_cons, List.not_mem_nil, or_false, not_or] at hshared hown
    exact unseen_setRelay found ⟨Ne.symm hown.1, Ne.symm hshared.1⟩
      ⟨Ne.symm hown.2, Ne.symm hshared.2⟩
  | setEndpoints found =>
    obtain ⟨d, hd, rfl, rfl⟩ := getDevice_eq_some found
    exact .bump (epoch_congr rfl) fun hne => unseen_setDeviceEndpoints hd hne _

/-! ## Steps of calls -/

inductive StepEffect (n : String) (db : Db) (task : Task) (result : Db × Option Task) : Prop
  | effect (h : Effect n db result.1)
  /-- The bump is what the call does next. -/
  | owed (h : result.2 = some (.bump n))
  | created {net : Network} (h : task = .insertNetwork net) (hid : net.id = n)
  /-- A route is deleted that was approved after the call had read it. -/
  | overlooked {routeId : String} {read r : Route} (h : task = .deleteWrite routeId read)
      (hread : read.approved = false) (hr : r ∈ db.routes.rows) (hid : r.id = routeId)
      (hnetwork : r.networkId = n) (happroved : r.approved = true)

lemma Task.effect (env : Env) (htask : task.Sound text db) :
    StepEffect n db task (task.step text env db) := by
  cases task with
  | transaction tx attempt =>
    rcases step_transaction tx attempt env rfl with hcommits | ⟨hsame, -⟩
    · exact .effect hcommits.effect
    · exact .effect (.unseen (hsame.symm ▸ .refl db))
  | insertNetwork net =>
    by_cases heq : net.id = n
    · exact .created rfl heq
    refine .effect (.unseen ?_)
    simp only [Task.step]
    split
    · next hinsert => exact unseen_insertNetwork (Ne.symm heq) hinsert
    · exact .refl db
  | approveWrite routeId networkId =>
    by_cases heq : networkId = n
    · exact .owed (heq ▸ rfl)
    · refine .effect (.unseen (unseen_setRouteApproved fun r hr hid => ?_))
      rw [htask.2 r hr hid]
      exact heq
  | deleteWrite routeId read =>
    by_cases hread : read.approved = true
    · by_cases heq : read.networkId = n
      · exact .owed (by simp [Task.step, hread, heq])
      · refine .effect (.unseen (unseen_deleteRoutes fun r hr hid hnetwork => ?_))
        exact absurd ((htask.2 r hr (of_decide_eq_true hid)).symm.trans hnetwork) heq
    · by_cases hrow : ∃ r ∈ db.routes.rows, r.id = routeId ∧ r.networkId = n ∧ r.approved = true
      · obtain ⟨r, hr, hid, hnetwork, happroved⟩ := hrow
        exact .overlooked rfl (Bool.eq_false_iff.mpr hread) hr hid hnetwork happroved
      · refine .effect (.unseen (unseen_deleteRoutes fun r hr hid hnetwork => ?_))
        exact Bool.eq_false_iff.mpr fun happroved =>
          hrow ⟨r, hr, of_decide_eq_true hid, hnetwork, happroved⟩
  | settingsWrite deviceId json networkId =>
    obtain ⟨d, hd, rfl, rfl⟩ := htask
    by_cases heq : d.networkId = n
    · exact .owed (heq ▸ rfl)
    · exact .effect (.unseen (unseen_setDeviceSettings hd (Ne.symm heq) json))
  | renameWrite deviceId name => exact .effect (.unseen (unseen_setDeviceName db deviceId name))
  | bump networkId => exact .effect (.bump rfl fun hne => .refl db)
  | notifyRead networkId rest =>
    refine .effect (.unseen ?_)
    simp only [Task.step]
    split <;> exact .refl db
  | _ => exact .effect (.unseen (.refl db))

/-- What is left of a call that only has to tell the watchers. -/
lemma Task.Spent.step (h : task.Spent) (env : Env) :
    (task.step text env db).1 = db ∧ ∀ task', (task.step text env db).2 = some task' → task'.Spent := by
  cases task with
  | openChannel | bumpSend | closeChannel => exact ⟨rfl, fun _ h => nomatch h⟩
  | bumpRead networkId =>
    refine ⟨rfl, fun task' hnext => ?_⟩
    obtain ⟨net, -, rfl⟩ := Option.map_eq_some_iff.mp hnext
    trivial
  | notifyRead networkId rest =>
    simp only [Task.step]
    split
    · exact ⟨rfl, fun task' hnext => by cases hnext; trivial⟩
    · exact ⟨rfl, fun task' hnext => spent_of_mem_notifyAll hnext⟩
  | notifySend networkId epoch rest => exact ⟨rfl, fun task' hnext => spent_of_mem_notifyAll hnext⟩
  | _ => cases h

/-- A call that has moved an epoch on is done with the database. -/
lemma spent_of_epoch_ne {task task' : Task} {env : Env}
    (hne : (task.step text env db).1.epoch n ≠ db.epoch n)
    (hnext : (task.step text env db).2 = some task') : task'.Spent := by
  cases task with
  | transaction tx attempt =>
    generalize hstep : (Task.transaction tx attempt).step text env db = result at hne hnext
    obtain ⟨db', next⟩ := result
    subst hnext
    cases step_leads hstep with
    | spent h => exact h
    | again => exact absurd rfl hne
    | drawn => exact absurd (epoch_congr rfl) hne
    | bump other | rename other => exact absurd rfl (other tx attempt)
  | insertNetwork net =>
    simp only [Task.step] at hnext
    split at hnext
    · cases hnext
      trivial
    · cases hnext
  | bump networkId =>
    cases hnext
    trivial
  | notifyRead networkId rest =>
    simp only [Task.step] at hne
    split at hne <;> exact absurd rfl hne
  | approveWrite | deleteWrite | settingsWrite | renameWrite => exact absurd (epoch_congr rfl) hne
  | _ => exact absurd rfl hne

/-! ## Epochs only grow -/

lemma epoch_of_mem {net : Network} (h : net ∈ db.networks.rows) :
    db.epoch net.id = some net.configEpoch := by
  rw [Db.epoch]
  cases hget : db.getNetwork net.id with
  | none => simpa using List.find?_eq_none.mp hget net h
  | some net' =>
    rw [network_eq (Table.mem_of_find? hget) h (id_of_getNetwork hget)]
    rfl

lemma exists_of_epoch {e : Nat} (h : db.epoch n = some e) :
    ∃ net ∈ db.networks.rows, net.id = n ∧ net.configEpoch = e := by
  obtain ⟨net, hget, rfl⟩ := Option.map_eq_some_iff.mp h
  exact ⟨net, Table.mem_of_find? hget, id_of_getNetwork hget, rfl⟩

/-- An epoch that a step leaves was there before, as large or smaller, unless the network is new. -/
lemma step_epoch (env : Env) (htask : task.Sound text db) {e' : Nat}
    (h : (task.step text env db).1.epoch n = some e') :
    (∃ e ≤ e', db.epoch n = some e) ∨ ∃ net, task = .insertNetwork net ∧ net.id = n := by
  obtain ⟨net', hmem', rfl, rfl⟩ := exists_of_epoch h
  rcases step_networks env htask hmem' with ⟨net, hmem, hstep⟩ | hnew
  · rw [hstep.id]
    exact .inl ⟨net.configEpoch, hstep.epoch, epoch_of_mem hmem⟩
  · exact .inr ⟨net', hnew, rfl⟩

/-- Numbers are given out in order. -/
lemma step_entity (env : Env) (htask : task.Sound text db) :
    db.entity ≤ (task.step text env db).1.entity := by
  by_cases hordinary : task.Ordinary
  · exact ((task.writes text db env).evolves hordinary htask).entity
  cases task with
  | approveWrite => exact le_rfl
  | insertNetwork net =>
    simp only [Task.step]
    split
    · next hinsert =>
      obtain ⟨networks, -, rfl⟩ := insertNetwork_eq_ok hinsert
      exact le_rfl
    · exact le_rfl
  | _ => exact absurd trivial hordinary

end

namespace Server

/-- A network that is or was there: its identifier is not used again. -/
structure Known (n : String) (s : Server) : Prop where
  issued : Issued "net-" s.db n
  inserts : ∀ id r net, s.calls id = some r → r.task = .insertNetwork net → net.id ≠ n

variable {text : AddrText} {n : String} {s s' : Server}

lemma Sound.known (h : s.Sound text) {e : Nat} (he : s.db.epoch n = some e) : s.Known n := by
  obtain ⟨net, hmem, rfl, -⟩ := exists_of_epoch he
  refine ⟨(h.db.networks net hmem).1, ?_⟩
  intro id r net' hid hr
  have htask := h.tasks id r hid
  rw [hr] at htask
  exact (htask.2.1 net hmem).symm

lemma Known.step (hknown : s.Known n) (h : s.Sound text) {e : Event}
    (hstep : s.step text e = some s') : s'.Known n where
  issued := by
    rcases step_db hstep with ⟨hdb, -⟩ | ⟨id, env, r, -, hid, hdb⟩
    · rw [hdb]
      exact hknown.issued
    · rw [hdb]
      exact hknown.issued.mono (step_entity env (h.tasks id r hid))
  inserts id r' net hid hr := by
    rcases step_calls hstep hid with ⟨hold, -⟩ | ⟨env, r, -, -, -, hnext⟩ | ⟨store, c, -, -, -, hstart⟩
    · exact hknown.inserts id r' net hold hr
    · rw [hr] at hnext
      rintro rfl
      exact (step_insertNetwork hnext).not_issued hknown.issued
    · exact absurd hr (start_ne_insertNetwork hstart net)

lemma Known.epoch_le (hknown : s.Known n) (h : s.Sound text) {e : Event}
    (hstep : s.step text e = some s') {e' : Nat} (he' : s'.db.epoch n = some e') :
    ∃ e₀ ≤ e', s.db.epoch n = some e₀ := by
  rcases step_db hstep with ⟨hdb, -⟩ | ⟨id, env, r, -, hid, hdb⟩
  · exact ⟨e', le_rfl, hdb ▸ he'⟩
  rw [hdb] at he'
  rcases step_epoch env (h.tasks id r hid) he' with hle | ⟨net, hr, hnet⟩
  · exact hle
  · exact absurd hnet (hknown.inserts id r net hid hr)

end Server

end Fluxpeer.Control
