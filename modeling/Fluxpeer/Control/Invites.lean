import Fluxpeer.Control.Accounting

/-!
# Uses of invites

An invite is consumed in the middle of the transaction that creates the device, and what fails later
in the transaction undoes it. So the uses of an invite are the devices created through it, in every
run of the calls on the database, and the same holds of the store in memory.
-/

namespace Fluxpeer.Control

open Lib Net Table

section

variable {text : AddrText} {db db' db'' : Db}

/-! ## Statements that leave the invites alone -/

def NetworksKept (db db' : Db) : Prop :=
  ∀ n ∈ db.networks.rows, ∃ n' ∈ db'.networks.rows, n'.id = n.id

/-- The invites are the same and the networks still stored. -/
structure Aside (db db' : Db) : Prop where
  invites : db'.invites = db.invites
  networks : NetworksKept db db'

lemma NetworksKept.of_eq (h : db'.networks = db.networks) : NetworksKept db db' := fun n hn =>
  ⟨n, h ▸ hn, rfl⟩

lemma Aside.of_eq (hinvites : db'.invites = db.invites) (h : db'.networks = db.networks) :
    Aside db db' := ⟨hinvites, .of_eq h⟩

lemma Aside.refl (db : Db) : Aside db db := .of_eq rfl rfl

lemma NetworksKept.trans (h : NetworksKept db db') (h' : NetworksKept db' db'') :
    NetworksKept db db'' := by
  intro n hn
  obtain ⟨n', hn', hid'⟩ := h n hn
  obtain ⟨n'', hn'', hid''⟩ := h' n' hn'
  exact ⟨n'', hn'', hid''.trans hid'⟩

lemma Aside.trans (h : Aside db db') (h' : Aside db' db'') : Aside db db'' :=
  ⟨h'.invites.trans h.invites, h.networks.trans h'.networks⟩

lemma Aside.bump (h : Aside db db') (id : String) : Aside db (db'.bumpNetworkEpoch id) := by
  refine h.trans ⟨rfl, fun n hn => ⟨_, List.mem_map.mpr ⟨n, hn, rfl⟩, ?_⟩⟩
  split <;> rfl

lemma Aside.bumpAll (h : Aside db db') (ids : List String) :
    Aside db (ids.foldl Db.bumpNetworkEpoch db') :=
  List.foldlRecOn ids _ h fun _ h id _ => h.bump id

lemma Imports.aside {networkId : String} {seen : List String}
    {items : List (ImportDevice × String)} {created : List Device}
    (h : Imports networkId db seen items db' created) : Aside db db' := by
  induction h with
  | nil => exact .refl _
  | skip known rest ih => exact ih
  | create new row insert rest ih =>
    obtain ⟨_, _, -, -, rfl⟩ := insertDevice_eq_ok insert
    exact ⟨ih.invites, ih.networks⟩

/-! ## Enrolment -/

/-- A device is created: the invite is consumed and there is one more row. -/
structure Enrols (db : Db) (code : String) (now : Int) (db' : Db) : Prop where
  consumed : ∃ invite, db.getInvite code = some invite ∧ Db.consumable code now invite = true
  invites : db'.invites = (db.consumeInvite code now).1.invites
  networks : NetworksKept db db'
  devices : db'.devices.rows.length = db.devices.rows.length + 1

variable {code : String} {invite : Invite} {task : Task} {now : Int} {draw : String}

lemma consumable_of_count (h : db.getInvite code = some invite)
    (hcount : (db.consumeInvite code now).2 = 1) : Db.consumable code now invite = true := by
  obtain ⟨hmem, hcode⟩ := getInvite_eq_some h
  have hpos : 0 < db.invites.rows.countP (Db.consumable code now) := by
    rw [show db.invites.rows.countP (Db.consumable code now) = 1 from hcount]
    exact Nat.one_pos
  obtain ⟨i, hi, hp⟩ := List.countP_pos_iff.mp hpos
  have hicode : i.code = code := (of_decide_eq_true hp).1
  rwa [invite_eq hi hmem (hicode.trans hcode.symm)] at hp

/-- What a step of a call does to the invites and, if it enrols, to the number of devices. -/
inductive Redeems (db : Db) (task : Task) (db' : Db) : Prop
  | aside (h : Aside db db')
    (same : ∀ code name key now attempt,
      task = .transaction (.enroll code name key now) attempt →
        db'.devices.rows.length = db.devices.rows.length)
  | invited {invite : Invite} (h : db.invites.insert? invite = some db'.invites)
    (unused : invite.uses = 0) (stored : ∃ n ∈ db.networks.rows, n.id = invite.networkId)
    (networks : db'.networks = db.networks)
    (other : ∀ code name key now attempt, task ≠ .transaction (.enroll code name key now) attempt)
  | removed {p : Invite → Bool} (h : db'.invites = db.invites.delete p)
    (networks : ∀ i ∈ db'.invites.rows, (∃ n ∈ db.networks.rows, n.id = i.networkId) →
      ∃ n ∈ db'.networks.rows, n.id = i.networkId)
    (other : ∀ code name key now attempt, task ≠ .transaction (.enroll code name key now) attempt)
  | enrolled {code name key : String} {now : Int} {attempt : Nat}
    (task : task = .transaction (.enroll code name key now) attempt) (h : Enrols db code now db')

lemma Transaction.Commits.redeems {tx : Transaction} {attempt : Nat} {next : Option Task}
    (h : tx.Commits text draw db db' next) : Redeems db (.transaction tx attempt) db' := by
  cases h with
  | createInvite stored insert =>
    refine .invited insert rfl ⟨_, mem_of_find? stored, ?_⟩ rfl (by simp)
    simpa using find?_some stored
  | @deleteNetwork networkId =>
    refine .removed (p := fun i => i.networkId = networkId) rfl ?_ (by simp)
    rintro i hi ⟨n, hn, hid⟩
    obtain ⟨n', hn', hid'⟩ := ((Aside.refl db).bump networkId).networks n hn
    refine ⟨n', mem_delete.mpr ⟨hn', ?_⟩, hid'.trans hid⟩
    simpa [hid', hid] using (mem_delete.mp hi).2
  | revokeInvite => exact .removed rfl (fun _ _ => id) (by simp)
  | enrollKnown => exact .aside (.of_eq rfl rfl) fun _ _ _ _ _ _ => List.length_map _
  | enroll invited consumed stored parsed inRange free row insert =>
    obtain ⟨key, rows, -, hrow, rfl⟩ := insertDevice_eq_ok insert
    refine .enrolled rfl ⟨⟨_, invited, consumable_of_count invited consumed⟩, rfl,
      ((Aside.refl db).bump _).networks, ?_⟩
    simp [Db.bumpNetworkEpoch, Db.setDeviceToken, update, rows_insert? hrow,
      Db.consumeInvite]
  | importNone | keepRoute => exact .aside (.refl db) (by simp)
  | importDevices stored imports => exact .aside (imports.aside.bump _) (by simp)
  | revokeDevice | setEndpoints =>
    refine .aside (Aside.bump ?_ _) (by simp)
    exact .of_eq rfl rfl
  | advertiseRoute normal add =>
    obtain ⟨_, -, -, rfl⟩ := addRoute_eq_ok add
    exact .aside (.of_eq rfl rfl) (by simp)
  | requestRoute authorized normal absent add =>
    obtain ⟨_, -, -, rfl⟩ := addRoute_eq_ok add
    exact .aside (.of_eq rfl rfl) (by simp)
  | registerRelay insert =>
    obtain ⟨relays, -, rfl⟩ := insertRelay_eq_ok insert
    refine .aside (Aside.bumpAll ?_ _) (by simp)
    exact .of_eq rfl rfl
  | updateRelay =>
    refine .aside (Aside.bumpAll ?_ _) (by simp)
    exact .of_eq rfl rfl
  | _ => exact .aside (.of_eq rfl rfl) (by simp)

lemma Task.Writes.redeems (h : task.Writes text draw db db') : Redeems db task db' := by
  cases h with
  | commits h => exact h.redeems
  | insertNetwork insert =>
    exact .aside ⟨rfl, fun n hn => ⟨n, (mem_insert? insert).mpr (.inl hn), rfl⟩⟩ nofun
  | bump => exact .aside ((Aside.refl db).bump _) nofun
  | nothing => exact .aside (.refl db) fun _ _ _ _ _ _ => rfl
  | _ => exact .aside (.of_eq rfl rfl) nofun

/-! ## Runs -/

lemma getInvite_of_mem {i : Invite} (hi : i ∈ db.invites.rows) : db.getInvite i.code = some i := by
  cases h : db.getInvite i.code with
  | none =>
    have hnone := List.find?_eq_none.mp h i hi
    simp at hnone
  | some i' =>
    obtain ⟨hmem, hcode⟩ := getInvite_eq_some h
    rw [invite_eq hmem hi hcode]

def Task.code? : Task → Option String
  | .transaction (.enroll code _ _ _) _ => some code
  | _ => none

lemma Task.code?_eq_none
    (h : ∀ code name key now attempt, task ≠ .transaction (.enroll code name key now) attempt) :
    task.code? = none := by
  unfold Task.code?
  split
  · next heq => exact absurd rfl (h _ _ _ _ _)
  · rfl

/-- The devices created through each invite, after a step to `db'` that enrols with the code
`used`. A code that is not stored starts over. -/
def Db.tally (db db' : Db) (used : Option String) (created : String → Nat) (code : String) : Nat :=
  if (db'.getInvite code).isNone then 0
  else if used = some code then
    created code + (db'.devices.rows.length - db.devices.rows.length)
  else created code

/-- The counters of the invites against the devices created through them, and their networks. -/
structure Db.Accounted (db : Db) (created : String → Nat) : Prop where
  uses : ∀ i ∈ db.invites.rows, i.uses = created i.code ∧ ∀ m ∈ i.maxUses, i.uses ≤ m
  unused : ∀ code, db.getInvite code = none → created code = 0
  stored : ∀ i ∈ db.invites.rows, ∃ n ∈ db.networks.rows, n.id = i.networkId

variable {created : String → Nat} {name key token : String} {used : Option String}

lemma tally_of_mem {i : Invite} (hi : i ∈ db'.invites.rows) :
    db.tally db' used created i.code =
      created i.code + if used = some i.code then
        db'.devices.rows.length - db.devices.rows.length else 0 := by
  rw [Db.tally, getInvite_of_mem hi]
  split
  · next h => cases h
  · split <;> rfl

lemma tally_unused (code : String) (h : db'.getInvite code = none) :
    db.tally db' used created code = 0 := by
  rw [Db.tally, h]
  rfl

lemma Db.Accounted.redeems (h : db.Accounted created) (hredeems : Redeems db task db') :
    db'.Accounted (db.tally db' task.code? created) := by
  refine ⟨?_, tally_unused, ?_⟩
  · intro i' hi'
    rw [tally_of_mem hi']
    cases hredeems with
    | aside haside hsame =>
      rw [haside.invites] at hi'
      have hzero : (if task.code? = some i'.code then
          db'.devices.rows.length - db.devices.rows.length else 0) = 0 := by
        split
        · next hcode =>
          unfold Task.code? at hcode
          split at hcode
          · rw [hsame _ _ _ _ _ rfl, Nat.sub_self]
          · cases hcode
        · rfl
      rw [hzero]
      exact h.uses i' hi'
    | @invited invite hinsert hunused hstored hnetworks hother =>
      rw [Task.code?_eq_none hother, if_neg nofun, Nat.add_zero]
      have hrows := rows_insert? hinsert
      have hnodup : db'.invites.rows.Nodup := nodup_rows List.mem_cons_self fun _ => rfl
      have hinvite : invite ∈ db'.invites.rows := hrows ▸ List.mem_append_right _ List.mem_cons_self
      rw [hrows, List.mem_append, List.mem_singleton] at hi'
      rcases hi' with hi' | rfl
      · exact h.uses i' hi'
      have hnone : db.getInvite i'.code = none := by
        rw [Option.eq_none_iff_forall_ne_some]
        intro i hi
        obtain ⟨hmem, hcode⟩ := getInvite_eq_some hi
        -- the primary key admits no second row with the code
        have heq : i = i' := invite_eq (hrows ▸ List.mem_append_left _ hmem) hinvite hcode
        rw [hrows, List.nodup_append] at hnodup
        exact hnodup.2.2 i hmem i' List.mem_cons_self heq
      rw [hunused, h.unused _ hnone]
      exact ⟨rfl, fun _ _ => Nat.zero_le _⟩
    | removed hdelete hnetworks hother =>
      rw [Task.code?_eq_none hother, if_neg nofun, Nat.add_zero]
      rw [hdelete, mem_delete] at hi'
      exact h.uses i' hi'.1
    | @enrolled code name key now attempt htask henrols =>
      subst htask
      obtain ⟨invite, hinvite, hconsumable⟩ := henrols.consumed
      obtain ⟨hmem, hcode⟩ := getInvite_eq_some hinvite
      rw [henrols.invites] at hi'
      obtain ⟨i, hi, rfl⟩ := List.mem_map.mp hi'
      obtain ⟨huses, hlimit⟩ := h.uses i hi
      by_cases hcode' : i.code = code
      · cases invite_eq hi hmem (hcode'.trans hcode.symm)
        rw [if_pos hconsumable]
        have hgrown : db'.devices.rows.length - db.devices.rows.length = 1 := by
          rw [henrols.devices]
          omega
        have hcode? : Task.code? (.transaction (.enroll code name key now) attempt) =
            some invite.code := congrArg some hcode'.symm
        refine ⟨?_, fun m hm => ?_⟩
        · simp only [huses, hcode?, hgrown, if_true]
        · exact (of_decide_eq_true hconsumable).2.2 m hm
      · have hskip : Db.consumable code now i = false :=
          decide_eq_false fun hall => hcode' hall.1
        have hother : Task.code? (.transaction (.enroll code name key now) attempt) ≠
            some i.code := fun heq => hcode' (Option.some.inj heq).symm
        rw [if_neg (by simp [hskip])]
        exact ⟨by rw [if_neg hother]; exact huses, hlimit⟩
  · intro i' hi'
    cases hredeems with
    | aside haside hsame =>
      obtain ⟨n, hn, hid⟩ := h.stored i' (haside.invites ▸ hi')
      obtain ⟨n', hn', hid'⟩ := haside.networks n hn
      exact ⟨n', hn', hid'.trans hid⟩
    | @invited invite hinsert hunused hstored hnetworks hother =>
      rw [mem_insert? hinsert] at hi'
      rw [hnetworks]
      rcases hi' with hi' | rfl
      · exact h.stored i' hi'
      · exact hstored
    | removed hdelete hnetworks hother =>
      refine hnetworks i' hi' ?_
      rw [hdelete, mem_delete] at hi'
      exact h.stored i' hi'.1
    | enrolled htask henrols =>
      rw [henrols.invites] at hi'
      obtain ⟨i, hi, rfl⟩ := List.mem_map.mp hi'
      obtain ⟨n, hn, hid⟩ := h.stored i hi
      obtain ⟨n', hn', hid'⟩ := henrols.networks n hn
      refine ⟨n', hn', ?_⟩
      split <;> exact hid'.trans hid

lemma enrollOnce_expired {e : Int} (hinvite : db.getInvite code = some invite)
    (he : invite.expiresAt = some e) (hnow : e ≤ now) :
    db.enrollOnce text code name key now token = .error .invalidInvite := by
  simp [Db.enrollOnce, hinvite, he, hnow]

lemma enrollOnce_existing (h : db.Accounted created) {d : DeviceRow}
    (hinvite : db.getInvite code = some invite) (hexpiry : ∀ e ∈ invite.expiresAt, now < e)
    (hd : d ∈ db.devices.rows) (hnetwork : d.networkId = invite.networkId)
    (hactive : d.status = .active) (hkey : d.wgPublicKey = key) :
    db.enrollOnce text code name key now token =
      .ok (db.setDeviceToken d.id token, d.toDevice, token) := by
  have hvalid : invite.expiresAt.any (· ≤ now) = false := by
    cases he : invite.expiresAt with
    | none => rfl
    | some e => simpa using hexpiry e he
  obtain ⟨n, hn, hid⟩ := h.stored invite (getInvite_eq_some hinvite).1
  obtain ⟨net, hnet⟩ : ∃ net, db.getNetwork invite.networkId = some net := by
    rw [← Option.isSome_iff_exists]
    exact List.find?_isSome.mpr ⟨n, hn, by simpa using hid⟩
  have hnetId : net.id = invite.networkId := by simpa using find?_some hnet
  have hfind : (db.listDevices net.id).find? (fun d => d.status = .active ∧ d.wgPublicKey = key) =
      some d.toDevice := by
    cases hfound : (db.listDevices net.id).find? fun d => d.status = .active ∧ d.wgPublicKey = key with
    | none => exact absurd hkey (ne_key_of_find?_none hfound d hd (hnetwork.trans hnetId.symm) hactive)
    | some device =>
      obtain ⟨d', hd', hnetwork', rfl⟩ := mem_listDevices.mp (List.mem_of_find?_eq_some hfound)
      have ⟨hactive', hkey'⟩ : d'.status = .active ∧ d'.wgPublicKey = key := by
        simpa using List.find?_some hfound
      -- an active key of a network belongs to one device
      have heq : d' = d := by
        refine eq_of_index activeKey_mem hd' hd (if_pos hactive') ?_
        rw [DeviceRow.activeKey, if_pos hactive, hnetwork, hnetwork', hnetId, hkey, hkey']
      rw [heq]
  simp only [Db.enrollOnce, hinvite, hvalid, hnet, hfind]
  rfl

end

namespace Server

variable (text : AddrText)

def used (s : Server) : Event → Option String
  | .advance id _ => (s.calls id).bind (·.task.code?)
  | _ => none

/-- A step of the server, with the devices created through each invite. -/
def countedStep (t : Server × (String → Nat)) (e : Event) : Option (Server × (String → Nat)) :=
  (t.1.step text e).map fun s' => (s', t.1.db.tally s'.db (t.1.used e) t.2)

variable {text}

lemma accounted_step {t t' : Server × (String → Nat)} {e : Event} (h : t.1.db.Accounted t.2)
    (hstep : countedStep text t e = some t') : t'.1.db.Accounted t'.2 := by
  obtain ⟨s', hs', rfl⟩ := Option.map_eq_some_iff.mp hstep
  rcases step_db hs' with ⟨hdb, hother⟩ | ⟨id, env, r, rfl, hid, hdb⟩
  · have hused : t.1.used e = none := by
      cases e with
      | advance id env => exact absurd rfl (hother id env)
      | _ => rfl
    -- with no call in progress this is a step that leaves the database alone
    have htask : Redeems t.1.db (.openChannel "") s'.db := hdb ▸ .aside (.refl _) nofun
    simpa only [hused, Task.code?] using h.redeems htask
  · have hused : t.1.used (.advance id env) = r.task.code? := by simp [used, hid]
    have htask : Redeems t.1.db r.task s'.db := hdb ▸ (r.task.writes text t.1.db env).redeems
    simpa only [hused] using h.redeems htask

lemma accounted_of_run {es : List Event} {t : Server × (String → Nat)}
    (h : runFrom (countedStep text) (.init, fun _ => 0) es = some t) : t.1.db.Accounted t.2 := by
  have hinit : (init).db.Accounted fun _ => 0 :=
    ⟨fun _ hi => (List.not_mem_nil hi).elim, fun _ _ => rfl, fun _ hi => (List.not_mem_nil hi).elim⟩
  have hkeep : ∀ (t : Server × (String → Nat)) e t', t.1.db.Accounted t.2 →
      countedStep text t e = some t' → t'.1.db.Accounted t'.2 := fun _ _ _ => accounted_step
  exact inv_of_runFrom hkeep hinit h

end Server

/-- In every run of either store the uses of an invite are the devices created through it, and stay
within its limit; an expired invite enrols nobody; a key that is active in the network of an
unexpired invite gets its device back and the invite is as it was, used up or not; and an enrolment
that fails leaves the store as it was. The store in memory counts uses in 32 bits, which suffices as
long as the invite is limited or no device is revoked. -/
theorem uses_count_created_devices (text : AddrText) :
    (∀ es (t : Server × (String → Nat)),
      runFrom (Server.countedStep text) (.init, fun _ => 0) es = some t →
      (∀ code invite, t.1.db.getInvite code = some invite →
        invite.uses = t.2 code ∧ ∀ m, invite.maxUses = some m → invite.uses ≤ m) ∧
      (∀ code name key now token invite e, t.1.db.getInvite code = some invite →
        invite.expiresAt = some e → e ≤ now →
        t.1.db.enrollOnce text code name key now token = .error .invalidInvite) ∧
      (∀ code name key now token invite d, t.1.db.getInvite code = some invite →
        (∀ e ∈ invite.expiresAt, now < e) → d ∈ t.1.db.devices.rows →
        d.networkId = invite.networkId → d.status = .active → d.wgPublicKey = key →
        ∃ db', t.1.db.enrollOnce text code name key now token = .ok (db', d.toDevice, token) ∧
          db'.invites = t.1.db.invites) ∧
      (∀ id env store code name key now attempt e t',
        t.1.calls id = some ⟨store, .transaction (.enroll code name key now) attempt⟩ →
        (Transaction.enroll code name key now).attempt text env t.1.db = .error e →
        Server.countedStep text t (.advance id env) = some t' → t'.1.db = t.1.db) ∧
      ∀ store c s', t.1.step text (.call store c) = some s' → s'.db = t.1.db) ∧
    ∀ ops,
      (∀ code invite, (Memory.counted text ops).1.invites.lookup code = some invite →
        invite.uses = (Memory.counted text ops).2 code % 2 ^ 32 ∧
        ((∀ op ∈ ops, op.isRevoke = false) ∨ invite.maxUses.isSome = true →
          invite.uses = (Memory.counted text ops).2 code) ∧
        ∀ m, invite.maxUses = some m → invite.uses ≤ m) ∧
      (∀ code name wgPublicKey now invite e,
        (Memory.counted text ops).1.invites.lookup code = some invite → invite.expiresAt = some e →
        e ≤ now → ∃ error,
          (Memory.counted text ops).1.enroll text code name wgPublicKey now = .error error) ∧
      (∀ code name wgPublicKey key now invite id device,
        PublicKey.normalize wgPublicKey = some key →
        (Memory.counted text ops).1.invites.lookup code = some invite →
        (∀ e ∈ invite.expiresAt, now < e) →
        (Memory.counted text ops).1.devices.lookup id = some device → device.status = .active →
        device.networkId = invite.networkId → device.wgPublicKey = key →
        (Memory.counted text ops).1.enroll text code name wgPublicKey now =
          .ok ((Memory.counted text ops).1, device)) ∧
      ∀ code name wgPublicKey now error,
        (Memory.counted text ops).1.enroll text code name wgPublicKey now = .error error →
        (Memory.counted text (ops ++ [.enroll code name wgPublicKey now])).1 =
          (Memory.counted text ops).1 := by
  constructor
  · intro es t hrun
    have haccounted := Server.accounted_of_run hrun
    refine ⟨?_, ?_, ?_, ?_, ?_⟩
    · intro code invite hinvite
      obtain ⟨hmem, rfl⟩ := getInvite_eq_some hinvite
      exact haccounted.uses invite hmem
    · intro code name key now token invite e hinvite he hnow
      exact enrollOnce_expired hinvite he hnow
    · intro code name key now token invite d hinvite hexpiry hd hnetwork hactive hkey
      exact ⟨_, enrollOnce_existing haccounted hinvite hexpiry hd hnetwork hactive hkey, rfl⟩
    · intro id env store code name key now attempt e t' hid hfail hstep
      obtain ⟨s', hs', rfl⟩ := Option.map_eq_some_iff.mp hstep
      obtain ⟨r, hid', rfl⟩ := Option.map_eq_some_iff.mp hs'
      cases hid.symm.trans hid'
      simp only [Server.advance, Task.step, hfail]
    · intro store c s' hstep
      cases hstep
      exact (Server.call_frame text t.1 store c).1
  · intro ops
    have hsound := (Memory.counted_sound text ops).1
    refine ⟨fun _ _ => Memory.counted_uses, ?_, ?_, ?_⟩
    · intro code name wgPublicKey now invite e hinvite he hnow
      exact Memory.enroll_expired hinvite he hnow
    · intro code name wgPublicKey key now invite id device hkey hinvite hexpiry hdevice hactive
        hnetwork hsame
      exact Memory.enroll_existing hsound hkey hinvite hexpiry hdevice hactive hnetwork hsame
    · intro code name wgPublicKey now error hfail
      simp only [Memory.counted, List.foldl_append, List.foldl_cons, List.foldl_nil,
        Memory.countedStep, Memory.step]
      rw [show (List.foldl (Memory.countedStep text) (Memory.new, fun _ => 0) ops).1.enroll text code
        name wgPublicKey now = .error error from hfail]

def enrolledRun : List Event :=
  inviteRun ++ [.call 0 (.enroll "code" "d" (String.ofList (List.replicate 64 '0')) 0),
    .advance 2 ⟨"token", none⟩]

def enrolledOps : List Memory.Op :=
  [.drawNetwork "a" 0, .insertNetwork 0, .createInvite "net-1" none (some 1) "code",
    .enroll "code" "d" (String.ofList (List.replicate 64 '0')) 0]

theorem uses_count_created_devices_enrolledRun :
    (∃ t, runFrom (Server.countedStep .plain) (.init, fun _ => 0) enrolledRun = some t ∧
      t.2 "code" = 1 ∧ ∃ invite, t.1.db.getInvite "code" = some invite ∧ invite.uses = 1) ∧
    ∃ invite, (Memory.counted .plain enrolledOps).1.invites.lookup "code" = some invite ∧
      invite.uses = 1 := by
  obtain ⟨hsql, hmemory⟩ := uses_count_created_devices .plain
  constructor
  · refine ⟨_, rfl, by decide +kernel, ⟨"code", "net-1", none, some 1, 1⟩, by decide +kernel, ?_⟩
    rw [((hsql enrolledRun _ rfl).1 "code" ⟨"code", "net-1", none, some 1, 1⟩ (by decide +kernel)).1]
    decide +kernel
  · refine ⟨⟨"code", "net-1", none, some 1, 1⟩, by decide +kernel, ?_⟩
    have huses := ((hmemory enrolledOps).1 "code" ⟨"code", "net-1", none, some 1, 1⟩
      (by decide +kernel)).2.1 (.inr rfl)
    rw [huses]
    decide +kernel

end Fluxpeer.Control
