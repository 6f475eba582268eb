import Fluxpeer.Control.Soundness

/-!
# Address pools

A network gets the pools of the next index of its store. The index is kept in memory: a store that
connects takes the number of stored networks for it. As long as a store runs, the pools that it has
given out are those of the indexes below its own, so no two networks share one until the indexes
wrap around. A store that connects keeps this up only if the stored networks have the pools of the
indexes below their number; after a deletion they need not.
-/

namespace Fluxpeer.Control

open Lib Net

/-! ## The pools of an index -/

def poolsAt (idx : Nat) : String × String := (ipv4Pool idx, ipv6Ula idx)

variable {i j : Nat}

lemma ipv4Pool_inj (hi : i < 200) (hj : j < 200) (h : ipv4Pool i = ipv4Pool j) : i = j := by
  have hrepr : Nat.repr (i % 200 + 16) = Nat.repr (j % 200 + 16) := by
    simpa [ipv4Pool, String.append_left_inj, String.append_right_inj] using h
  have := eq_of_repr_eq hrepr
  omega

lemma hexDigit_inj {m n : Nat} (hm : m < 16) (hn : n < 16)
    (h : PublicKey.hexDigit m = PublicKey.hexDigit n) : m = n := by
  have hall : ∀ m : Fin 16, ∀ n : Fin 16,
      PublicKey.hexDigit m.val = PublicKey.hexDigit n.val → m = n := by decide
  exact congrArg Fin.val (hall ⟨m, hm⟩ ⟨n, hn⟩ h)

lemma ipv6Ula_inj (hi : i < 65536) (hj : j < 65536) (h : ipv6Ula i = ipv6Ula j) : i = j := by
  have hhex : hex4 (i % 65536) = hex4 (j % 65536) := by
    simpa [ipv6Ula, String.append_left_inj, String.append_right_inj] using h
  have hdigits := String.ofList_injective hhex
  simp only [List.map_cons, List.map_nil, List.cons.injEq, and_true] at hdigits
  obtain ⟨h₃, h₂, h₁, h₀⟩ := hdigits
  have e₃ := hexDigit_inj (by omega) (by omega) h₃
  have e₂ := hexDigit_inj (by omega) (by omega) h₂
  have e₁ := hexDigit_inj (by omega) (by omega) h₁
  have e₀ := hexDigit_inj (by omega) (by omega) h₀
  omega

lemma poolsAt_inj (hi : i < 200) (hj : j < 200) (h : poolsAt i = poolsAt j) : i = j :=
  ipv4Pool_inj hi hj (congrArg Prod.fst h)

/-! ## Pools in use -/

def Task.pools? : Task → Option (String × String)
  | .transaction (.nextSeq _ idx) _ => some (poolsAt idx)
  | .insertNetwork net => some net.pools
  | _ => none

lemma Task.Spent.pools? {task : Task} (h : task.Spent) : task.pools? = none := by
  cases task with
  | transaction | insertNetwork => cases h
  | _ => rfl

section

variable {text : AddrText} {db : Db} {p : String × String}

lemma start_pools? {c : Call} {idx : Nat} {task : Task} (h : c.start text idx = some task)
    (hp : task.pools? = some p) : c.isCreate = true ∧ p = poolsAt idx := by
  cases c with
  | createNetwork name =>
    cases h
    cases hp
    exact ⟨rfl, rfl⟩
  | enroll code name wgPublicKey now =>
    obtain ⟨key, -, rfl⟩ := Option.map_eq_some_iff.mp h
    cases hp
  | importDevices networkId devices =>
    obtain ⟨devices', -, hkeys⟩ := Option.bind_eq_some_iff.mp h
    obtain ⟨keys, -, rfl⟩ := Option.map_eq_some_iff.mp hkeys
    cases hp
  | _ =>
    cases h
    cases hp

/-- A call keeps the pools it drew, and has none left once the network is inserted. -/
lemma step_pools? {task task' : Task} {env : Env} (h : (task.step text env db).2 = some task')
    (hp : task'.pools? = some p) : task.pools? = some p ∧ ∀ net, task ≠ .insertNetwork net := by
  generalize hstep : task.step text env db = result at h
  obtain ⟨db', next⟩ := result
  subst h
  cases step_leads hstep with
  | spent h =>
    rw [h.pools?] at hp
    cases hp
  | @again tx =>
    cases tx with
    | nextSeq name idx => exact ⟨hp, nofun⟩
    | _ => cases hp
  | drawn => exact ⟨hp, nofun⟩
  | _ => cases hp

end

namespace Server

/-- All calls are those of one store, and the pools in use are different ones below its index. -/
structure Spread (store : StoreId) (s : Server) : Prop where
  own : ∀ id r, s.calls id = some r → r.store = store
  stored : ∀ n ∈ s.db.networks.rows, ∃ i < (s.stores store).netIndex, n.pools = poolsAt i
  apart : ∀ n ∈ s.db.networks.rows, ∀ n' ∈ s.db.networks.rows, n.pools = n'.pools → n = n'
  drawn : ∀ id r p, s.calls id = some r → r.task.pools? = some p →
    (∃ i < (s.stores store).netIndex, p = poolsAt i) ∧ ∀ n ∈ s.db.networks.rows, n.pools ≠ p
  calls : ∀ id id' r r' p, s.calls id = some r → s.calls id' = some r' →
    r.task.pools? = some p → r'.task.pools? = some p → id = id'

variable {text : AddrText} {store : StoreId} {s s' : Server}

lemma init_spread : init.Spread store where
  own _ _ h := nomatch h
  stored _ h := nomatch h
  apart _ h := nomatch h
  drawn _ _ _ h := nomatch h
  calls _ _ _ _ _ h := nomatch h

/-- A network for each index at most. -/
lemma Spread.length_le (h : s.Spread store) :
    s.db.networks.rows.length ≤ (s.stores store).netIndex := by
  choose! index hlt hpools using h.stored
  have hnodup : s.db.networks.rows.Nodup := by
    have hkeys := s.db.networks.unique _ List.mem_cons_self
    rw [List.filterMap_eq_map'] at hkeys
    exact hkeys.of_map
  have hindex : (s.db.networks.rows.map index).Nodup := by
    refine hnodup.map_on ?_
    intro n hn n' hn' heq
    exact h.apart n hn n' hn' (by rw [hpools n hn, hpools n' hn', heq])
  have hsub : s.db.networks.rows.map index ⊆ List.range (s.stores store).netIndex := by
    intro i hi
    obtain ⟨n, hn, rfl⟩ := List.mem_map.mp hi
    exact List.mem_range.mpr (hlt n hn)
  simpa using (hindex.subperm hsub).length_le

@[simp] lemma onSender_stores (s : Server) (store : StoreId) (networkId : String)
    (f : Channel → Channel) : (s.onSender store networkId f).stores = s.stores := by
  unfold onSender
  split <;> rfl

lemma publish_netIndex (s : Server) (store store' : StoreId) (task : Task) :
    ((s.publish store task).stores store').netIndex = (s.stores store').netIndex := by
  have hset : ∀ (s : Server) epochTx,
      ((s.setStore store { s.stores store with epochTx }).stores store').netIndex =
        (s.stores store').netIndex := by
    intro s epochTx
    by_cases heq : store' = store
    · simp [setStore, heq]
    · simp [setStore, heq]
  cases task with
  | openChannel networkId =>
    exact (hset _ _).trans (by rw [onSender_stores])
  | bumpSend | notifySend => exact congrArg (fun stores => (stores store').netIndex) (onSender_stores ..)
  | closeChannel networkId epoch =>
    exact (hset _ _).trans (by rw [onSender_stores])
  | _ => rfl

lemma subscribe_netIndex (s : Server) (store store' : StoreId) (networkId : String) :
    ((s.subscribe store networkId).1.stores store').netIndex = (s.stores store').netIndex := by
  unfold subscribe
  split
  · rfl
  · by_cases heq : store' = store
    · simp [addChannel, setChannel, setStore, heq]
    · simp [addChannel, setChannel, setStore, heq]

lemma Spread.of_eq (h : s.Spread store) (hdb : s'.db = s.db) (hcalls : s'.calls = s.calls)
    (hindex : (s'.stores store).netIndex = (s.stores store).netIndex) : s'.Spread store := by
  obtain ⟨ho, hs, ha, hd, hc⟩ := h
  exact ⟨hcalls ▸ ho, hdb ▸ hindex ▸ hs, hdb ▸ ha, hdb ▸ hcalls ▸ hindex ▸ hd, hcalls ▸ hc⟩

lemma Spread.advance (h : s.Spread store) (hsound : s.Sound text) {id : CallId} {r : Running}
    (env : Env) (hid : s.calls id = some r) : (s.advance text id env r).Spread store := by
  have htask := hsound.tasks id r hid
  have hindex : ((s.advance text id env r).stores store).netIndex = (s.stores store).netIndex :=
    publish_netIndex s r.store store r.task
  -- A call about to insert was so before, with the same pools.
  have hcalls : ∀ id' r', (s.advance text id env r).calls id' = some r' →
      (id' = id ∧ r'.store = r.store ∧ (r.task.step text env s.db).2 = some r'.task) ∨
        (id' ≠ id ∧ s.calls id' = some r') := by
    intro id' r' hid'
    change Function.update s.calls id _ id' = some r' at hid'
    rw [Function.update_apply] at hid'
    split at hid'
    · next heq =>
      obtain ⟨task, hnext, rfl⟩ := Option.map_eq_some_iff.mp hid'
      exact .inl ⟨heq, rfl, hnext⟩
    · next hne => exact .inr ⟨hne, hid'⟩
  refine ⟨?_, ?_, ?_, ?_, ?_⟩
  · intro id' r' hid'
    rcases hcalls id' r' hid' with ⟨-, hstore, -⟩ | ⟨-, hold⟩
    · exact hstore.trans (h.own id r hid)
    · exact h.own id' r' hold
  · intro n' hn'
    rw [hindex]
    rcases step_networks env htask hn' with ⟨n, hn, hstep⟩ | hnew
    · rw [hstep.pools]
      exact h.stored n hn
    · exact (h.drawn id r n'.pools hid (by rw [hnew]; rfl)).1
  · intro n₁' hn₁' n₂' hn₂' heq
    rcases step_networks env htask hn₁' with ⟨n₁, hn₁, hstep₁⟩ | hnew₁
    · rcases step_networks env htask hn₂' with ⟨n₂, hn₂, hstep₂⟩ | hnew₂
      · rw [hstep₁.pools, hstep₂.pools] at heq
        have := h.apart n₁ hn₁ n₂ hn₂ heq
        subst this
        exact network_eq hn₁' hn₂' (hstep₁.id.trans hstep₂.id.symm)
      · rw [hstep₁.pools] at heq
        exact absurd heq ((h.drawn id r n₂'.pools hid (by rw [hnew₂]; rfl)).2 n₁ hn₁)
    · rcases step_networks env htask hn₂' with ⟨n₂, hn₂, hstep₂⟩ | hnew₂
      · rw [hstep₂.pools] at heq
        exact absurd heq.symm ((h.drawn id r n₁'.pools hid (by rw [hnew₁]; rfl)).2 n₂ hn₂)
      · rw [hnew₁] at hnew₂
        exact Task.insertNetwork.inj hnew₂
  · intro id' r' p hid' hp
    rw [hindex]
    rcases hcalls id' r' hid' with ⟨-, -, hnext⟩ | ⟨hne, hold⟩
    · obtain ⟨hp, hno⟩ := step_pools? hnext hp
      obtain ⟨hlt, hstored⟩ := h.drawn id r p hid hp
      refine ⟨hlt, fun n' hn' => ?_⟩
      rcases step_networks env htask hn' with ⟨n, hn, hstep⟩ | hnew
      · rw [hstep.pools]
        exact hstored n hn
      · exact absurd hnew (hno n')
    · obtain ⟨hlt, hstored⟩ := h.drawn id' r' p hold hp
      refine ⟨hlt, fun n' hn' => ?_⟩
      rcases step_networks env htask hn' with ⟨n, hn, hstep⟩ | hnew
      · rw [hstep.pools]
        exact hstored n hn
      · rintro rfl
        exact hne (h.calls id' id r' r _ hold hid hp (by rw [hnew]; rfl))
  · intro id₁ id₂ r₁ r₂ p hid₁ hid₂ hp₁ hp₂
    rcases hcalls id₁ r₁ hid₁ with ⟨rfl, -, hnext₁⟩ | ⟨hne₁, hold₁⟩
    · rcases hcalls id₂ r₂ hid₂ with ⟨rfl, -, -⟩ | ⟨hne₂, hold₂⟩
      · rfl
      · exact h.calls id₁ id₂ r r₂ p hid hold₂ (step_pools? hnext₁ hp₁).1 hp₂
    · rcases hcalls id₂ r₂ hid₂ with ⟨rfl, -, hnext₂⟩ | ⟨hne₂, hold₂⟩
      · exact h.calls id₁ id₂ r₁ r p hold₁ hid hp₁ (step_pools? hnext₂ hp₂).1
      · exact h.calls id₁ id₂ r₁ r₂ p hold₁ hold₂ hp₁ hp₂

/-- The indexes that a store has drawn after a call. -/
lemma call_netIndex (s : Server) (store : StoreId) (c : Call) :
    ((s.call text store c).stores store).netIndex =
      (s.stores store).netIndex + (if c.isCreate then 1 else 0) := by
  unfold Server.call
  cases c.isCreate <;> simp [setStore]

lemma Spread.call (h : s.Spread store) (c : Call)
    (hindex : c.isCreate = true → (s.stores store).netIndex < 200) :
    (s.call text store c).Spread store := by
  have hdb : (s.call text store c).db = s.db := by
    unfold Server.call
    cases c.isCreate <;> rfl
  have hle : (s.stores store).netIndex ≤ ((s.call text store c).stores store).netIndex := by
    rw [call_netIndex]
    omega
  -- Every call is an old one, or the new one with the pools of the store's index.
  have hcalls : ∀ id r, (s.call text store c).calls id = some r →
      (id ≠ s.nextCall ∧ s.calls id = some r) ∨
        (id = s.nextCall ∧ r.store = store ∧ ∀ p, r.task.pools? = some p →
          c.isCreate = true ∧ p = poolsAt (s.stores store).netIndex) := by
    intro id r hid
    have hupdate : (s.call text store c).calls = Function.update s.calls s.nextCall
        ((c.start text (s.stores store).netIndex).map (⟨store, ·⟩)) := by
      unfold Server.call
      cases c.isCreate <;> rfl
    rw [hupdate, Function.update_apply] at hid
    split at hid
    · next heq =>
      obtain ⟨task, hstart, rfl⟩ := Option.map_eq_some_iff.mp hid
      exact .inr ⟨heq, rfl, fun p hp => start_pools? hstart hp⟩
    · next hne => exact .inl ⟨hne, hid⟩
  -- The pools of the store's index are not in use.
  have hfresh : ∀ i < (s.stores store).netIndex, c.isCreate = true →
      poolsAt i ≠ poolsAt (s.stores store).netIndex := by
    intro i hi hcreate heq
    have := poolsAt_inj (hi.trans (hindex hcreate)) (hindex hcreate) heq
    omega
  refine ⟨?_, ?_, hdb ▸ h.apart, ?_, ?_⟩
  · intro id r hid
    rcases hcalls id r hid with ⟨-, hold⟩ | ⟨-, hstore, -⟩
    · exact h.own id r hold
    · exact hstore
  · intro n hn
    obtain ⟨i, hi, hpools⟩ := h.stored n (hdb ▸ hn)
    exact ⟨i, hi.trans_le hle, hpools⟩
  · intro id r p hid hp
    rw [hdb]
    rcases hcalls id r hid with ⟨-, hold⟩ | ⟨-, -, hnew⟩
    · obtain ⟨⟨i, hi, hpools⟩, hstored⟩ := h.drawn id r p hold hp
      exact ⟨⟨i, hi.trans_le hle, hpools⟩, hstored⟩
    obtain ⟨hcreate, rfl⟩ := hnew p hp
    refine ⟨⟨_, ?_, rfl⟩, fun n hn => ?_⟩
    · rw [call_netIndex, if_pos hcreate]
      omega
    · obtain ⟨i, hi, hpools⟩ := h.stored n hn
      rw [hpools]
      exact hfresh i hi hcreate
  · intro id id' r r' p hid hid' hp hp'
    have hclash : ∀ id r, s.calls id = some r → r.task.pools? = some p → c.isCreate = true →
        p ≠ poolsAt (s.stores store).netIndex := by
      intro id r hid hp hcreate
      obtain ⟨⟨i, hi, rfl⟩, -⟩ := h.drawn id r p hid hp
      exact hfresh i hi hcreate
    rcases hcalls id r hid with ⟨-, hold⟩ | ⟨heq, -, hnew⟩
    · rcases hcalls id' r' hid' with ⟨-, hold'⟩ | ⟨-, -, hnew'⟩
      · exact h.calls id id' r r' p hold hold' hp hp'
      · obtain ⟨hcreate, hpools⟩ := hnew' p hp'
        exact absurd hpools (hclash id r hold hp hcreate)
    · rcases hcalls id' r' hid' with ⟨-, hold'⟩ | ⟨heq', -, -⟩
      · obtain ⟨hcreate, hpools⟩ := hnew p hp
        exact absurd hpools (hclash id' r' hold' hp' hcreate)
      · exact heq.trans heq'.symm

/-- No call is left after a restart of the only store. -/
lemma Spread.connect (h : s.Spread store)
    (hstored : ∀ n ∈ s.db.networks.rows, ∃ i < s.db.networks.rows.length, n.pools = poolsAt i) :
    (s.connect store).Spread store := by
  have hcalls : ∀ id, (s.connect store).calls id = none := by
    intro id
    change (s.calls id).filter _ = none
    cases hid : s.calls id with
    | none => rfl
    | some r => simp [Option.filter, h.own id r hid]
  have hindex : ((s.connect store).stores store).netIndex = s.db.networks.rows.length := by
    simp [Server.connect, setStore, closeAll, Db.countNetworks]
  refine ⟨?_, ?_, h.apart, ?_, ?_⟩
  · intro id r hid
    rw [hcalls] at hid
    cases hid
  · rw [hindex]
    exact hstored
  · intro id r p hid
    rw [hcalls] at hid
    cases hid
  · intro id id' r r' p hid
    rw [hcalls] at hid
    cases hid

end Server

/-! ## Runs of one server -/

def Db.PoolsApart (db : Db) : Prop :=
  db.networks.rows.Pairwise fun n n' => n.ipv4Pool ≠ n'.ipv4Pool ∧ n.ipv6Ula ≠ n'.ipv6Ula

def Event.isCreate : Event → Bool
  | .call _ c => c.isCreate
  | _ => false

/-- There is one server, and it restarts only while the stored networks have the pools of the
indexes below their number. -/
def RestartsInOrder (store : StoreId) (s : Server) : Event → Server → Prop
  | .call store' _, _ => store' = store
  | .connect store', _ => store' = store ∧
    ∀ n ∈ s.db.networks.rows, ∃ i < s.db.networks.rows.length, n.pools = poolsAt i
  | _, _ => True

namespace Server

variable {text : AddrText} {store : StoreId} {s s' : Server}

lemma Spread.poolsApart (h : s.Spread store) (hbound : (s.stores store).netIndex ≤ 200) :
    s.db.PoolsApart := by
  have hkeys := s.db.networks.unique _ List.mem_cons_self
  rw [List.filterMap_eq_map', List.Nodup, List.pairwise_map] at hkeys
  refine hkeys.imp_of_mem ?_
  intro n n' hn hn' hne
  obtain ⟨i, hi, hpools⟩ := h.stored n hn
  obtain ⟨i', hi', hpools'⟩ := h.stored n' hn'
  -- Networks of one index are one network.
  have hindex : i ≠ i' := by
    rintro rfl
    exact hne (by rw [h.apart n hn n' hn' (hpools.trans hpools'.symm)])
  obtain ⟨hv4, hv6⟩ := Prod.mk.inj hpools
  obtain ⟨hv4', hv6'⟩ := Prod.mk.inj hpools'
  rw [hv4, hv4', hv6, hv6']
  exact ⟨fun heq => hindex (ipv4Pool_inj (by omega) (by omega) heq),
    fun heq => hindex (ipv6Ula_inj (by omega) (by omega) heq)⟩

/-- One step keeps the pools apart, and draws an index only for a create call. -/
lemma Spread.step (h : s.Spread store) (hsound : s.Sound text) {e : Event}
    (hstep : s.step text e = some s') (hcond : RestartsInOrder store s e s')
    (hindex : e.isCreate = true → (s.stores store).netIndex < 200) :
    s'.Spread store ∧ (s'.stores store).netIndex ≤
      (s.stores store).netIndex + (if e.isCreate then 1 else 0) := by
  cases e with
  | call store' c =>
    cases hstep
    cases hcond
    exact ⟨h.call c hindex, (call_netIndex s store c).le⟩
  | advance id env =>
    obtain ⟨r, hid, rfl⟩ := Option.map_eq_some_iff.mp hstep
    exact ⟨h.advance hsound env hid, (publish_netIndex s r.store store r.task).le⟩
  | subscribe store' networkId =>
    cases hstep
    obtain ⟨hdb, hcalls, -⟩ := subscribe_frame s store' networkId
    have hindex := subscribe_netIndex s store' store networkId
    exact ⟨h.of_eq hdb hcalls hindex, hindex.le⟩
  | unsubscribe id =>
    simp only [Server.step] at hstep
    split at hstep
    · cases hstep
    · cases hstep
      exact ⟨h.of_eq rfl rfl rfl, le_rfl⟩
  | connect store' =>
    cases hstep
    obtain ⟨rfl, hstored⟩ := hcond
    refine ⟨h.connect hstored, ?_⟩
    have : ((s.connect store').stores store').netIndex = s.db.networks.rows.length := by
      simp [Server.connect, setStore, closeAll, Db.countNetworks]
    rw [this]
    exact h.length_le

/-- The run: `drawn` is the number of indexes drawn so far, which bounds the index of the store. -/
lemma Spread.always (h : s.Spread store) (hsound : s.Sound text) {es : List Event} (drawn : Nat)
    (hdrawn : (s.stores store).netIndex ≤ drawn) (hcount : drawn + es.countP Event.isCreate ≤ 200)
    (hes : EveryStep (Server.step text) (RestartsInOrder store) s es) :
    Always (Server.step text) (fun s => s.db.PoolsApart) s es := by
  induction es generalizing s drawn with
  | nil => exact h.poolsApart (by simpa using hdrawn.trans hcount)
  | cons e es ih =>
    rw [List.countP_cons] at hcount
    refine ⟨h.poolsApart (by omega), fun s' hstep => ?_⟩
    obtain ⟨hcond, hrest⟩ := hes s' hstep
    have hindex : e.isCreate = true → (s.stores store).netIndex < 200 := by
      intro hcreate
      rw [if_pos hcreate] at hcount
      omega
    obtain ⟨h', hle⟩ := h.step hsound hstep hcond hindex
    refine ih h' (hsound.step hstep) (drawn + if e.isCreate then 1 else 0) ?_ ?_ hrest
    · omega
    · omega

end Server

/-- Two networks are created, the first is deleted, and after a restart a third is created. -/
def restartRun : List Event :=
  let run := fun id : CallId => Event.advance id ⟨"", none⟩
  [.call 0 (.createNetwork "a"), run 0, run 0, run 0, .call 0 (.createNetwork "b"), run 1, run 1, run 1,
    .call 0 (.deleteNetwork "net-1"), run 2, run 2, .connect 0, .call 0 (.createNetwork "c"), run 3, run 3]

/-- The third network gets the pools of the second, which is still there. -/
theorem pools_shared_after_restart : restartRun.countP Event.isCreate ≤ 200 ∧
    ∃ s, runFrom (Server.step .plain) .init restartRun = some s ∧ ¬ s.db.PoolsApart :=
  ⟨by decide, _, rfl, by unfold Db.PoolsApart; decide +kernel⟩

/-- Networks of one server never share a pool, if at most 200 are created and the server restarts
only while the stored networks have the pools of the indexes below their number. -/
theorem pools_apart_of_restartsInOrder (text : AddrText) (store : StoreId) (es : List Event)
    (hcreates : es.countP Event.isCreate ≤ 200)
    (hes : EveryStep (Server.step text) (RestartsInOrder store) .init es) :
    Always (Server.step text) (fun s => s.db.PoolsApart) .init es :=
  Server.init_spread.always Server.init_sound 0 le_rfl (by simpa using hcreates) hes

/-- A restart at which the number of stored networks is the next index. -/
def orderlyRun : List Event :=
  let run := fun id : CallId => Event.advance id ⟨"", none⟩
  [.call 0 (.createNetwork "a"), run 0, run 0, .connect 0, .call 0 (.createNetwork "b"), run 1, run 1]

theorem pools_apart_of_restartsInOrder_orderlyRun :
    EveryStep (Server.step .plain) (RestartsInOrder 0) .init orderlyRun ∧
      Always (Server.step .plain) (fun s => s.db.PoolsApart) .init orderlyRun := by
  have hes : EveryStep (Server.step .plain) (RestartsInOrder 0) .init orderlyRun := by
    refine .cons rfl rfl ?_
    refine .cons rfl trivial ?_
    refine .cons rfl trivial ?_
    rintro _ ⟨⟩
    refine ⟨⟨rfl, ?_⟩, ?_⟩
    · decide +kernel
    refine .cons rfl rfl ?_
    refine .cons rfl trivial ?_
    rintro _ ⟨⟩
    exact ⟨trivial, trivial⟩
  exact ⟨hes, pools_apart_of_restartsInOrder .plain 0 orderlyRun (by decide) hes⟩
end Fluxpeer.Control
