import Fluxpeer.Control.Shown

/-!
# Calls that fail

A call returns at its first statement that fails. In a transaction everything is undone then. The
calls that approve a route, delete one or change settings run their statements one by one: what
they wrote stays when the bump of the epoch fails, and the epoch stays bumped when the read behind
it fails. Whether that shows in a configuration depends on the database before the call.
-/

namespace Fluxpeer.Control

open Lib Net

/-! ## Calls alone with the database -/

section

variable (text : AddrText)

def missing {α : Type} (fault : Option DbError) (row : Option α) (e : SqlStoreError) :
    Option SqlStoreError :=
  match fault with
  | some e => some (.db e)
  | none => if row.isSome then none else some e

def Task.failure (env : Env) (db : Db) : Task → Option SqlStoreError
  | .transaction tx attempt =>
    match tx.attempt text env db with
    | .ok _ => none
    | .error e => if (nextAttempt tx.legacyPgRetry attempt e).isSome then none else some e
  | .insertNetwork net =>
    match env.fault, db.insertNetwork net with
    | some e, _ => some (.db e)
    | none, .error e => some e
    | none, .ok _ => none
  | .approveRead routeId | .deleteRead routeId =>
    missing env.fault (db.getRoute routeId) .routeNotFound
  | .settingsRead deviceId _ | .renameRead deviceId _ =>
    missing env.fault (db.getDevice deviceId) .deviceNotFound
  | .approveWrite .. | .deleteWrite .. | .settingsWrite .. | .renameWrite .. | .bump _ | .bumpRead _ =>
    env.fault.map .db
  -- no statement, or one whose error is only logged
  | .openChannel _ | .bumpSend .. | .notifyRead .. | .notifySend .. | .closeChannel .. => none

/-- The steps of a call from a task on, one environment for each: the database at the end and what
the call returns. -/
def Task.finish : List Env → Db → Task → Option (Db × Except SqlStoreError Unit)
  | [], _, _ => none
  | env :: envs, db, task =>
    match task.failure text env db with
    | some e => some (db, .error e)
    | none =>
      match task.step text env db with
      | (db, none) => some (db, .ok ())
      | (db, some task) => Task.finish envs db task

/-- The error of a call with arguments that are refused. -/
def Call.refusal : Call → SqlStoreError
  | .importDevices _ devices =>
    if (devices.mapM (canonicalAddress text)).isSome then .invalidKey else .invalidAddress
  | _ => .invalidKey

def Call.perform (idx : Nat) (envs : List Env) (db : Db) (c : Call) :
    Option (Db × Except SqlStoreError Unit) :=
  match c.start text idx with
  | some task => task.finish text envs db
  | none => some (db, .error (c.refusal text))

end

/-- The calls that change what configurations show. -/
def Call.IsMutator : Call → Bool
  | .enroll .. | .importDevices .. | .revokeDevice _ | .deleteNetwork _ | .approveRoute _
  | .deleteRoute _ | .setDeviceSettings .. | .advertiseRoute .. => true
  | _ => false

def failing (envs : List Env) : Option Nat := envs.findIdx? (·.fault.isSome)

/-- What the call does before the statement that fails does not show. -/
def Call.Clean (texts : Texts) (db : Db) (envs : List Env) : Call → Prop
  | .approveRoute routeId => ∀ r, db.getRoute routeId = some r →
    (failing envs = some 2 → ¬ (r.approved = false ∧ db.RouteShown texts r)) ∧
      (failing envs = some 3 → db.getNetwork r.networkId = none)
  | .deleteRoute routeId => ∀ r, db.getRoute routeId = some r → r.approved = true →
    (failing envs = some 2 → ¬ db.RouteShown texts r) ∧
      (failing envs = some 3 → db.getNetwork r.networkId = none)
  | .setDeviceSettings deviceId json => ∀ d, db.deviceRow deviceId = some d →
    (failing envs = some 2 → ¬ db.SettingsShown texts d json) ∧
      (failing envs = some 3 → db.getNetwork d.networkId = none)
  | _ => True

/-! ## Calls that return an error -/

section

variable {text : AddrText} {db db' w : Db} {n : String} {envs : List Env} {error : SqlStoreError}

lemma failing_cons (env : Env) (envs : List Env) : failing (env :: envs) =
    if env.fault.isSome then some 0 else (failing envs).map (· + 1) :=
  List.findIdx?_cons

/-- A statement that fails leaves the database as it was, and otherwise the call goes on. -/
lemma finish_statement {task next : Task} (hfailure : ∀ env, task.failure text env db = env.fault.map .db)
    (hstep : ∀ env, task.step text env db = (w, some next))
    (h : task.finish text envs db = some (db', .error error)) :
    failing envs = some 0 ∧ db' = db ∨ ∃ envs', failing envs = (failing envs').map (· + 1) ∧
      next.finish text envs' w = some (db', .error error) := by
  cases envs with
  | nil => cases h
  | cons env envs =>
    rw [Task.finish, hfailure, hstep] at h
    rw [failing_cons]
    cases hfault : env.fault with
    | some e =>
      rw [hfault] at h
      cases h
      exact .inl ⟨rfl, rfl⟩
    | none =>
      rw [hfault] at h
      exact .inr ⟨envs, rfl, h⟩

/-- Neither a notification nor the end of a broadcaster fails the call. -/
def Task.Silent : Task → Prop
  | .bumpSend .. | .notifyRead .. | .notifySend .. | .closeChannel .. => True
  | _ => False

lemma silent_of_mem_notifyAll {ids : List String} {task : Task} (h : task ∈ notifyAll ids) :
    task.Silent := by
  cases ids with
  | nil => cases h
  | cons id ids =>
    cases h
    trivial

lemma Task.Silent.next {task task' : Task} {env : Env} (htask : task.Silent)
    (h : (task.step text env db).2 = some task') : task'.Silent := by
  cases task with
  | bumpSend | closeChannel => cases h
  | notifyRead networkId rest =>
    simp only [Task.step] at h
    split at h
    · cases h
      trivial
    · exact silent_of_mem_notifyAll h
  | notifySend networkId epoch rest => exact silent_of_mem_notifyAll h
  | _ => exact absurd htask id

lemma Task.Silent.finish_ne {task : Task} (htask : task.Silent) :
    task.finish text envs db ≠ some (db', .error error) := by
  induction envs generalizing db task with
  | nil => exact nofun
  | cons env envs ih =>
    have hfailure : task.failure text env db = none := by
      cases task with
      | bumpSend | closeChannel | notifyRead | notifySend => rfl
      | _ => exact absurd htask id
    rw [Task.finish, hfailure]
    rcases hstep : task.step text env db with ⟨db₁, next⟩
    cases next with
    | none => exact nofun
    | some task' =>
      have hnext : (task.step text env db).2 = some task' := by rw [hstep]
      exact ih (htask.next hnext)

/-- The bump of an epoch and the read behind it. -/
lemma finish_bump (h : (Task.bump n).finish text envs db = some (db', .error error)) :
    failing envs = some 0 ∧ db' = db ∨ failing envs = some 1 ∧ db' = db.bumpNetworkEpoch n := by
  rcases finish_statement (fun _ => rfl) (fun _ => rfl) h with hfirst | ⟨envs', hfailing, hrest⟩
  · exact .inl hfirst
  right
  cases envs' with
  | nil => cases hrest
  | cons env envs' =>
    rw [Task.finish] at hrest
    rw [hfailing, failing_cons]
    cases hfault : env.fault with
    | some e =>
      rw [show Task.failure text env (db.bumpNetworkEpoch n) (.bumpRead n) = some (.db e) by
        rw [Task.failure, hfault]; rfl] at hrest
      cases hrest
      exact ⟨rfl, rfl⟩
    | none =>
      rw [show Task.failure text env (db.bumpNetworkEpoch n) (.bumpRead n) = none by
        rw [Task.failure, hfault]; rfl] at hrest
      dsimp only [Task.step] at hrest
      split at hrest
      · cases hrest
      next hsend =>
      obtain ⟨net, -, heq⟩ := Option.map_eq_some_iff.mp (congrArg Prod.snd hsend)
      cases heq
      exact absurd hrest (Task.Silent.finish_ne trivial)

/-- The calls that read a row, write and bump the epoch of a network. -/
lemma finish_read_write_bump {read write : Task}
    (hread : ∀ env, read.failure text env db = env.fault.map .db)
    (hreads : ∀ env, read.step text env db = (db, some write))
    (hwrite : ∀ env, write.failure text env db = env.fault.map .db)
    (hwrites : ∀ env, write.step text env db = (w, some (.bump n)))
    (h : read.finish text envs db = some (db', .error error)) :
    (failing envs = some 0 ∨ failing envs = some 1) ∧ db' = db ∨ failing envs = some 2 ∧ db' = w ∨
      failing envs = some 3 ∧ db' = w.bumpNetworkEpoch n := by
  rcases finish_statement hread hreads h with ⟨hfailing, rfl⟩ | ⟨envs₁, hfailing, h⟩
  · exact .inl ⟨.inl hfailing, rfl⟩
  rcases finish_statement hwrite hwrites h with ⟨hfailing₁, rfl⟩ | ⟨envs₂, hfailing₁, h⟩
  · exact .inl ⟨.inr (by rw [hfailing, hfailing₁]; rfl), rfl⟩
  · rcases finish_bump h with ⟨hfailing₂, rfl⟩ | ⟨hfailing₂, rfl⟩
    · exact .inr (.inl ⟨by rw [hfailing, hfailing₁, hfailing₂]; rfl, rfl⟩)
    · exact .inr (.inr ⟨by rw [hfailing, hfailing₁, hfailing₂]; rfl, rfl⟩)

/-- Behind a transaction, watchers are told or a network is inserted. -/
lemma Transaction.Commits.silent {tx : Transaction} {draw : String} {next : Option Task} {task : Task}
    (h : tx.Commits text draw db db' next) (htx : ∀ name idx, tx ≠ .nextSeq name idx)
    (hnext : next = some task) : task.Silent := by
  cases h with
  | @nextSeq name idx => exact absurd rfl (htx name idx)
  | deleteNetwork =>
    cases hnext
    trivial
  | createInvite | revokeInvite | advertiseRoute | withdrawRoute | keepRoute | requestRoute
  | reportStats => cases hnext
  | _ => exact silent_of_mem_notifyAll hnext

/-- A transaction that fails has changed nothing. -/
lemma finish_transaction {tx : Transaction} {attempt : Nat}
    (htx : ∀ name idx, tx ≠ .nextSeq name idx)
    (h : (Task.transaction tx attempt).finish text envs db = some (db', .error error)) : db' = db := by
  induction envs generalizing attempt with
  | nil => cases h
  | cons env envs ih =>
    rw [Task.finish] at h
    simp only [Task.failure, Task.step] at h
    cases hattempt : tx.attempt text env db with
    | ok result =>
      rw [hattempt] at h
      obtain ⟨db₁, next⟩ := result
      cases next with
      | none => cases h
      | some task =>
        refine absurd h (Task.Silent.finish_ne ?_)
        unfold Transaction.attempt at hattempt
        split at hattempt
        · cases hattempt
        · exact (Transaction.commits hattempt).silent htx rfl
    | error e =>
      rw [hattempt] at h
      cases hnext : nextAttempt tx.legacyPgRetry attempt e with
      | none =>
        simp only [hnext] at h
        cases h
        rfl
      | some attempt' =>
        simp only [hnext] at h
        exact ih h

end

/-! ## Calls -/

section

variable {texts : Texts} {db db' w : Db} {n : String} {envs : List Env} {error : SqlStoreError}

lemma bumpNetworkEpoch_of_none (h : db.getNetwork n = none) : db.bumpNetworkEpoch n = db := by
  have hrows : (db.bumpNetworkEpoch n).networks.rows = db.networks.rows := by
    refine (List.map_congr_left fun net hnet => ?_).trans (List.map_id _)
    exact if_neg (List.find?_eq_none.mp h net hnet)
  exact congrArg (fun networks => { db with networks }) (Table.eq_of_rows hrows)

/-- The epoch is bumped behind a write that is seen in stored networks only. -/
lemma unchanged_bump_iff (hnetworks : w.networks = db.networks)
    (hhidden : db.getNetwork n = none → Unchanged texts db w) :
    Unchanged texts db (w.bumpNetworkEpoch n) ↔ db.getNetwork n = none := by
  constructor
  · intro h
    have hepoch := h.epochs n
    rw [epoch_bumpNetworkEpoch, epoch_congr hnetworks] at hepoch
    cases he : db.epoch n with
    | none => exact Option.map_eq_none_iff.mp he
    | some e =>
      rw [he] at hepoch
      exact absurd (Option.some.inj hepoch) (Nat.succ_ne_self e)
  · intro h
    have hw : w.getNetwork n = none := by rwa [Db.getNetwork, hnetworks]
    rw [bumpNetworkEpoch_of_none hw]
    exact hhidden h

/-- A call that reads, writes and bumps: what shows of it depends on the statement that fails. -/
lemma unchanged_iff_of_write {shown : Prop} (hwrite : Unchanged texts db w ↔ ¬ shown)
    (hnetworks : w.networks = db.networks) (hstored : shown → (db.getNetwork n).isSome)
    (h : (failing envs = some 0 ∨ failing envs = some 1) ∧ db' = db ∨ failing envs = some 2 ∧ db' = w ∨
      failing envs = some 3 ∧ db' = w.bumpNetworkEpoch n) :
    Unchanged texts db db' ↔ (failing envs = some 2 → ¬ shown) ∧
      (failing envs = some 3 → db.getNetwork n = none) := by
  have hhidden : db.getNetwork n = none → Unchanged texts db w := by
    intro hnone
    refine hwrite.mpr fun hshown => ?_
    have := hstored hshown
    rw [hnone] at this
    cases this
  rcases h with ⟨hfailing | hfailing, rfl⟩ | ⟨hfailing, rfl⟩ | ⟨hfailing, rfl⟩
  · rw [hfailing]
    exact iff_of_true (.refl _) ⟨nofun, nofun⟩
  · rw [hfailing]
    exact iff_of_true (.refl _) ⟨nofun, nofun⟩
  · rw [hfailing, hwrite]
    exact ⟨fun h => ⟨fun _ => h, nofun⟩, fun h => h.1 rfl⟩
  · rw [hfailing, unchanged_bump_iff hnetworks hhidden]
    exact ⟨fun h => ⟨nofun, fun _ => h⟩, fun h => h.2 rfl⟩

/-- The read of a row that is not there ends the call. -/
lemma finish_missing {text : AddrText} {task : Task}
    (hfailure : ∀ env, ∃ e, task.failure text env db = some e)
    (h : task.finish text envs db = some (db', .error error)) : db' = db := by
  cases envs with
  | nil => cases h
  | cons env envs =>
    obtain ⟨e, he⟩ := hfailure env
    rw [Task.finish, he] at h
    cases h
    rfl

lemma missing_none {α : Type} (fault : Option DbError) (e : SqlStoreError) :
    ∃ e', missing fault (none : Option α) e = some e' := by
  cases fault <;> exact ⟨_, rfl⟩

lemma missing_some {α : Type} (fault : Option DbError) (row : α) (e : SqlStoreError) :
    missing fault (some row) e = fault.map .db := by
  cases fault <;> rfl

lemma approve_unchanged_iff {routeId : String}
    (h : (Task.approveRead routeId).finish texts.addr envs db = some (db', .error error)) :
    Unchanged texts db db' ↔ (Call.approveRoute routeId).Clean texts db envs := by
  cases hget : db.getRoute routeId with
  | none =>
    obtain rfl : db' = db := by
      refine finish_missing (fun env => ?_) h
      rw [Task.failure, hget]
      exact missing_none env.fault _
    refine iff_of_true (.refl db') fun r hr => ?_
    rw [hget] at hr
    cases hr
  | some r =>
    obtain ⟨hr, rfl⟩ := route_of_getRoute hget
    have hcases := finish_read_write_bump (fun env => by rw [Task.failure, hget, missing_some])
      (fun env => by rw [Task.step, hget]; rfl) (fun _ => rfl) (fun _ => rfl) h
    have hstored : r.approved = false ∧ db.RouteShown texts r → (db.getNetwork r.networkId).isSome :=
      fun h => h.2.1
    rw [unchanged_iff_of_write (unchanged_approve_iff hr) rfl hstored hcases]
    simp only [Call.Clean, hget, Option.some.injEq, forall_eq']

lemma delete_unchanged_iff {routeId : String}
    (h : (Task.deleteRead routeId).finish texts.addr envs db = some (db', .error error)) :
    Unchanged texts db db' ↔ (Call.deleteRoute routeId).Clean texts db envs := by
  cases hget : db.getRoute routeId with
  | none =>
    obtain rfl : db' = db := by
      refine finish_missing (fun env => ?_) h
      rw [Task.failure, hget]
      exact missing_none env.fault _
    refine iff_of_true (.refl _) fun r hr => ?_
    rw [hget] at hr
    cases hr
  | some r =>
    obtain ⟨hr, rfl⟩ := route_of_getRoute hget
    have hread : ∀ env, (Task.deleteRead r.id).failure texts.addr env db = env.fault.map .db :=
      fun env => by rw [Task.failure, hget, missing_some]
    have hreads : ∀ env, (Task.deleteRead r.id).step texts.addr env db =
        (db, some (.deleteWrite r.id r)) := fun env => by rw [Task.step, hget]; rfl
    by_cases happroved : r.approved = true
    · have hwrites : ∀ env, (Task.deleteWrite r.id r).step texts.addr env db =
          (db.deleteRoute r.id, some (.bump r.networkId)) :=
        fun env => by rw [Task.step, if_pos happroved]
      have hcases := finish_read_write_bump hread hreads (fun _ => rfl) hwrites h
      have hstored : db.RouteShown texts r → (db.getNetwork r.networkId).isSome := fun h => h.1
      rw [unchanged_iff_of_write (unchanged_delete_iff hr happroved) rfl hstored hcases]
      simp only [Call.Clean, hget, Option.some.injEq, forall_eq', happroved, forall_const]
    · -- a route that is not approved is deleted by the last statement
      have hclean : (Call.deleteRoute r.id).Clean texts db envs := by
        intro r' hr' happroved'
        rw [hget] at hr'
        cases hr'
        exact absurd happroved' happroved
      refine iff_of_true ?_ hclean
      rcases finish_statement hread hreads h with ⟨-, rfl⟩ | ⟨envs', -, hrest⟩
      · exact .refl _
      cases envs' with
      | nil => cases hrest
      | cons env envs' =>
        rw [Task.finish] at hrest
        cases hfault : env.fault with
        | some e =>
          simp only [Task.failure, hfault, Option.map_some] at hrest
          cases hrest
          exact .refl _
        | none =>
          simp only [Task.failure, hfault, Option.map_none, Task.step, if_neg happroved] at hrest
          cases hrest

lemma settings_unchanged_iff {deviceId json : String}
    (h : (Task.settingsRead deviceId json).finish texts.addr envs db = some (db', .error error)) :
    Unchanged texts db db' ↔ (Call.setDeviceSettings deviceId json).Clean texts db envs := by
  cases hrow : db.deviceRow deviceId with
  | none =>
    obtain rfl : db' = db := by
      refine finish_missing (fun env => ?_) h
      rw [Task.failure, Db.getDevice, hrow]
      exact missing_none env.fault _
    refine iff_of_true (.refl _) fun d hd => ?_
    rw [hrow] at hd
    cases hd
  | some d =>
    have hd : d ∈ db.devices.rows := Table.mem_of_find? hrow
    obtain rfl : d.id = deviceId := by simpa using Table.find?_some hrow
    have hcases := finish_read_write_bump
      (fun env => by rw [Task.failure, Db.getDevice, hrow, Option.map_some, missing_some])
      (fun env => by rw [Task.step, Db.getDevice, hrow]; rfl) (fun _ => rfl) (fun _ => rfl) h
    have hstored : db.SettingsShown texts d json → (db.getNetwork d.networkId).isSome := fun h => h.1
    rw [unchanged_iff_of_write (unchanged_settings_iff hd json) rfl hstored hcases]
    simp only [Call.Clean, hrow, Option.some.injEq, forall_eq']

lemma transaction_unchanged {tx : Transaction}
    (h : (Task.transaction tx 0).finish texts.addr envs db = some (db', .error error))
    (htx : ∀ name idx, tx ≠ .nextSeq name idx) : Unchanged texts db db' := by
  rw [finish_transaction htx h]
  exact .refl db

variable (texts) in
/-- A mutation that returns an error has changed no configuration and no epoch exactly if what it
did before the statement that failed does not show. -/
theorem failed_mutation_unchanged_iff (idx : Nat) (c : Call) (hc : c.IsMutator = true)
    (envs : List Env) (db db' : Db) (error : SqlStoreError)
    (h : c.perform texts.addr idx envs db = some (db', .error error)) :
    Unchanged texts db db' ↔ c.Clean texts db envs := by
  unfold Call.perform at h
  split at h
  · next task hstart =>
    cases c with
    | approveRoute routeId =>
      cases hstart
      exact approve_unchanged_iff h
    | deleteRoute routeId =>
      cases hstart
      exact delete_unchanged_iff h
    | setDeviceSettings deviceId json =>
      cases hstart
      exact settings_unchanged_iff h
    | enroll code name wgPublicKey now =>
      obtain ⟨key, -, rfl⟩ := Option.map_eq_some_iff.mp hstart
      exact iff_of_true (transaction_unchanged h nofun) trivial
    | importDevices networkId devices =>
      obtain ⟨devices', -, hstart⟩ := Option.bind_eq_some_iff.mp hstart
      obtain ⟨keys, -, rfl⟩ := Option.map_eq_some_iff.mp hstart
      exact iff_of_true (transaction_unchanged h nofun) trivial
    | deleteNetwork | revokeDevice | advertiseRoute =>
      cases hstart
      exact iff_of_true (transaction_unchanged h nofun) trivial
    | _ => cases hc
  · -- the arguments are refused before the first statement
    next hstart =>
    cases h
    refine iff_of_true (.refl db) ?_
    cases c with
    | approveRoute | deleteRoute | setDeviceSettings => cases hstart
    | _ => trivial

end

/-! ## A failed approval -/

def sampleTexts : Texts := ⟨.plain, fun _ => ⟨none, none, none⟩⟩

/-- A network with two devices, one of which advertises a route. -/
def advertisedRun : List Event :=
  [.call 0 (.createNetwork "a"), .advance 0 ⟨"", none⟩, .advance 0 ⟨"", none⟩,
    .call 0 (.createInvite "net-1" none none), .advance 1 ⟨"code", none⟩,
    .call 0 (.enroll "code" "d" (String.ofList (List.replicate 64 '1')) 0), .advance 2 ⟨"s", none⟩,
    .call 0 (.enroll "code" "e" (String.ofList (List.replicate 64 '2')) 0), .advance 3 ⟨"t", none⟩,
    .call 0 (.advertiseRoute "dev-2" "10.0.0.0/8"), .advance 4 ⟨"", none⟩]

def failsAt (k : Nat) : List Env := List.replicate k ⟨"", none⟩ ++ [⟨"", some .other⟩]

/-- What a device is told to route to its peers. -/
def routedTo (db : Db) (id : String) : Option (List (List String)) :=
  (db.deviceConfig sampleTexts id).toOption.map fun config => config.peers.map (·.allowedIps)

/-- The bump behind an approval fails, and the other device has the route. -/
theorem approval_stays_after_failure :
    ∃ s db', runFrom (Server.step .plain) .init advertisedRun = some s ∧
      (Call.approveRoute "route-4").perform .plain 0 (failsAt 2) s.db =
        some (db', .error (.db .other)) ∧ ¬ Unchanged sampleTexts s.db db' := by
  have hrun : (runFrom (Server.step .plain) .init advertisedRun).any (fun s =>
      ((Call.approveRoute "route-4").perform .plain 0 (failsAt 2) s.db).any fun (db', result) =>
        decide (result = .error (.db .other)) && decide (routedTo db' "dev-3" ≠ routedTo s.db "dev-3")) =
      true := by decide +kernel
  obtain ⟨s, hs, hperform⟩ := (Option.any_eq_true ..).mp hrun
  obtain ⟨⟨db', result⟩, hperform, hcheck⟩ := (Option.any_eq_true ..).mp hperform
  obtain ⟨hresult, hrouted⟩ := Bool.and_eq_true_iff.mp hcheck
  obtain rfl := of_decide_eq_true hresult
  refine ⟨s, db', hs, hperform, fun h => of_decide_eq_true hrouted ?_⟩
  rw [routedTo, h.configs, routedTo]

theorem failed_mutation_unchanged_iff_firstStatement :
    ∃ s db', runFrom (Server.step .plain) .init advertisedRun = some s ∧
      (Call.approveRoute "route-4").perform .plain 0 (failsAt 1) s.db =
        some (db', .error (.db .other)) ∧ Unchanged sampleTexts s.db db' := by
  have hrun : (runFrom (Server.step .plain) .init advertisedRun).any (fun s =>
      ((Call.approveRoute "route-4").perform .plain 0 (failsAt 1) s.db).any fun (_, result) =>
        decide (result = .error (.db .other))) = true := by decide +kernel
  obtain ⟨s, hs, hperform⟩ := (Option.any_eq_true ..).mp hrun
  obtain ⟨⟨db', result⟩, hperform, hresult⟩ := (Option.any_eq_true ..).mp hperform
  obtain rfl := of_decide_eq_true hresult
  refine ⟨s, db', hs, hperform, ?_⟩
  refine (failed_mutation_unchanged_iff sampleTexts 0 _ rfl _ s.db db' _ hperform).mpr ?_
  exact fun _ _ => ⟨nofun, nofun⟩

end Fluxpeer.Control
