import Fluxpeer.Node.Outstanding
import Fluxpeer.Node.Reconcile

/-!
# Membership across workers

The reconciler sends each worker the changes for its peers, and every worker takes the messages of
its own mailbox in order. What a worker will have once its mailbox is empty is known in advance:
`drained` reads it off the messages. That agrees with the maps of the reconciler throughout, so
peers and routes converge in any order.

The status registry is shared. A worker that drops a peer removes the entry of the key, also when
another worker has the peer by then; the registry converges in runs where that does not happen.
-/

namespace Fluxpeer.Node

open Lib Crypto Net WorkerMsg HashMap DataPlane

variable {P : Primitives} {candidates : List SocketAddr} {todo : List PeerChange}
  {change : PeerChange}

/-! ## The keys of a worker -/

def WorkerMsg.isMembership : WorkerMsg → Bool
  | .addPeer .. | .removePeer _ => true
  | _ => false

/-- Whether a worker has a key after a message. -/
def WorkerMsg.effect (pk : Key) (has : Bool) : WorkerMsg → Bool
  | .addPeer pk' _ _ => has || decide (pk = pk')
  | .removePeer pk' => has && decide (pk ≠ pk')
  | _ => has

namespace Shard

variable {cfg : Config P} {env : Env} {s s' : Shard P} {peer : Peer P} {t t' : Tables}

def keys (s : Shard P) : List Key := s.peers.map Peer.pubkey

@[simp] lemma keys_setPeer : (s.setPeer peer).keys = s.keys := Keyed.map_key_set

lemma QuietSteps.keys (h : s.QuietSteps s') : s'.keys = s.keys := by
  induction h with
  | refl => rfl
  | tail _ hstep ih =>
    cases hstep with
    | tables => exact ih
    | peer => rw [keys_setPeer, ← ih]; rfl

lemma Silent.keys (h : s.Silent s') : s'.keys = s.keys := by
  have hkeys := congrArg (List.map Prod.fst) h.asking
  rw [List.map_map, List.map_map] at hkeys
  exact hkeys

variable {pk : Key} {out : List Output}

lemma onAddPeer_keys {initiator : Bool} :
    (s.onAddPeer cfg env pk candidates initiator).1.keys =
      if pk ∈ s.keys then s.keys else s.keys ++ [pk] := by
  have hany : s.peers.any (·.pubkey = pk) = true ↔ pk ∈ s.keys := by simp [keys]
  have hprobe : ∀ t, (tickProbe cfg env (env.draws 0) t
      (Peer.fresh cfg pk candidates)).2.1.pubkey = pk := fun t => tickProbe_touched.pubkey
  unfold onAddPeer
  by_cases hmem : pk ∈ s.keys
  · rw [if_pos (hany.mpr hmem), if_pos hmem]
  rw [if_neg (hany.not.mpr hmem), if_neg hmem]
  dsimp only
  split
  · split <;> simp [keys, Peer.withRaw, Peer.withInit, hprobe]
  · simp [keys, hprobe]

lemma onRemovePeer_keys : (s.onRemovePeer pk).keys = s.keys.filter (· ≠ pk) := by
  unfold onRemovePeer
  split
  · simp [keys, List.filter_map, Function.comp_def]
  next hany =>
  symm
  rw [List.filter_eq_self]
  intro pk' hmem
  obtain ⟨peer, hpeer, rfl⟩ := List.mem_map.mp hmem
  simp only [List.any_eq_true, not_exists, not_and, decide_eq_true_eq] at hany
  simpa using hany peer hpeer

variable {msg : WorkerMsg}

/-- Only membership messages change the keys of a worker. -/
lemma handle_keys (hunique : s.Unique) (h : s.handle cfg env msg = some (s', out))
    (hmsg : msg.isMembership = false) : s'.keys = s.keys := by
  cases msg with
  | tick =>
    obtain ⟨⟨t', peers', sent⟩, htick, hrest⟩ := Option.bind_eq_some_iff.mp h
    cases hrest
    exact QuietSteps.keys (tickFrom_quietSteps htick hunique)
  | udpIn src bytes =>
    change s.onUdpIn cfg env src bytes = some (s', out) at h
    unfold onUdpIn at h
    split at h
    · obtain rfl := congrArg Prod.fst (Option.some.inj h)
      exact QuietSteps.keys (onDisco_quietSteps hunique)
    split at h
    · exact (acceptInit_silent h).keys
    split at h
    · cases h
      rfl
    · exact (deliverWg_silent h).keys
  | relayIn sender bytes => exact (onFramed_silent h).keys
  | tcpIn sender bytes => exact (onFramed_silent h).keys
  | tcpConn pk connGen out =>
    cases h
    exact onTcpConn_silent.keys
  | tunEgress pk pkt => exact (onTunEgress_silent hunique h).keys
  | addPeer pk candidates initiator => cases hmsg
  | removePeer pk => cases hmsg
  | updateCandidates pk candidates =>
    obtain rfl := congrArg Prod.fst (Option.some.inj h)
    exact QuietSteps.keys onUpdateCandidates_quietSteps

/-- What a message does to the keys of a worker. -/
lemma mem_keys_handle (hunique : s.Unique) (h : s.handle cfg env msg = some (s', out)) :
    decide (pk ∈ s'.keys) = msg.effect pk (decide (pk ∈ s.keys)) := by
  by_cases hmsg : msg.isMembership = true
  · cases msg with
    | addPeer pk' candidates initiator =>
      obtain rfl : (s.onAddPeer cfg env pk' candidates initiator).1 = s' :=
        congrArg Prod.fst (Option.some.inj h)
      rw [onAddPeer_keys, effect]
      split
      · next hmem =>
        by_cases hpk : pk = pk'
        · simp [hpk, hmem]
        · simp [hpk]
      · simp
    | removePeer pk' =>
      cases h
      rw [onRemovePeer_keys, effect]
      simp
    | _ => cases hmsg
  · rw [handle_keys hunique h (Bool.eq_false_iff.mpr hmsg)]
    cases msg with
    | addPeer pk' candidates initiator => exact absurd rfl hmsg
    | removePeer pk' => exact absurd rfl hmsg
    | _ => rfl

end Shard

/-! ## What a change does to the maps -/

namespace Reconciler

variable {text : AddrText} {r r' : Reconciler} {sent : Sent}

def widOf (r : Reconciler) (pk : Key) : Option Nat := (r.known.lookup pk).map (·.1)

/-- The change as others see it: who is assigned to which worker, and what is sent. -/
inductive Applied (r : Reconciler) : PeerChange → Reconciler → Sent → Prop
  | removed {pk : Key} {wid : Nat} {r' : Reconciler} (found : r.widOf pk = some wid)
    (wids : ∀ pk', r'.widOf pk' = if pk' = pk then none else r.widOf pk')
    (lookup : ∀ pk', r'.peerToWid.lookup pk' = if pk' = pk then none else r.peerToWid.lookup pk')
    (routes : ∀ e ∈ r'.allowed.routes, e ∈ r.allowed.routes ∧ e.peer ≠ pk) :
    Applied r (.remove pk) r' [(wid, .removePeer pk)]
  | added {peer : PeerInfo} {wid : Nat} {candidates : List SocketAddr} {initiator : Bool}
    {r' : Reconciler}
    (wids : ∀ pk', r'.widOf pk' = if pk' = peer.pubkey then some wid else r.widOf pk')
    (lookup : ∀ pk', r'.peerToWid.lookup pk' =
      if pk' = peer.pubkey then some wid else r.peerToWid.lookup pk')
    (routes : ∀ e ∈ r'.allowed.routes, e ∈ r.allowed.routes ∧ e.peer ≠ peer.pubkey ∨
      e.peer = peer.pubkey ∧ e.worker = wid) :
    Applied r (.add peer) r' [(wid, .addPeer peer.pubkey candidates initiator)]
  | kept {change : PeerChange} {r' : Reconciler} {sent : Sent} (notAdd : ∀ peer, change ≠ .add peer)
    (wids : ∀ pk', r'.widOf pk' = r.widOf pk')
    (lookup : ∀ pk', r'.peerToWid.lookup pk' = r.peerToWid.lookup pk')
    (routes : ∀ e ∈ r'.allowed.routes, e ∈ r.allowed.routes ∨ r.widOf e.peer = some e.worker)
    (quiet : ∀ m ∈ sent, m.2.isMembership = false) : Applied r change r' sent

lemma widOf_eq_some {pk : Key} {wid : Nat} {x : List SocketAddr × List String}
    (h : r.known.lookup pk = some (wid, x)) : r.widOf pk = some wid := by
  rw [widOf, h]
  rfl

lemma Applied.unknown {change : PeerChange} (h : ∀ peer, change ≠ .add peer) : r.Applied change r [] :=
  .kept h (fun _ => rfl) (fun _ => rfl) (fun _ => .inl) (by simp)

variable (text r) in
lemma apply_applied (change : PeerChange) :
    r.Applied change (r.apply text change).1 (r.apply text change).2 := by
  cases change with
  | remove pk =>
    simp only [apply, removePeer]
    cases hknown : r.known.lookup pk with
    | none => exact .unknown (by simp)
    | some entry =>
      obtain ⟨wid, cands, prefixes⟩ := entry
      simp only [routeRemove, replaceAllowed, hknown]
      refine .removed (widOf_eq_some hknown) ?_ ?_ ?_
      · intro pk'
        simp only [widOf, lookup_erase]
        split <;> rfl
      · intro pk'
        exact lookup_erase ..
      · intro e he
        rcases RouteTable.mem_withPeer.mp he with ⟨he, hne⟩ | ⟨hmem, -⟩
        · rcases RouteTable.mem_withPeer.mp he with ⟨he, -⟩ | ⟨hmem, -⟩
          · exact ⟨he, hne⟩
          · cases hmem
        · cases hmem
  | add peer =>
    refine .added ?_ ?_ ?_
    · intro pk'
      simp only [apply, addPeer, routeAdd, replaceAllowed, widOf, lookup_insert]
      split <;> rfl
    · intro pk'
      exact lookup_insert ..
    · intro e he
      rcases RouteTable.mem_withPeer.mp he with h | ⟨-, hpeer, hworker⟩
      · exact .inl h
      · exact .inr ⟨hpeer, hworker⟩
  | endpoints peer =>
    simp only [apply, updateCandidates]
    cases hknown : r.known.lookup peer.pubkey with
    | none => exact .unknown (by simp)
    | some entry =>
      obtain ⟨wid, cands, prefixes⟩ := entry
      refine .kept (by simp) ?_ (fun _ => rfl) (fun _ => .inl) ?_
      · intro pk'
        simp only [widOf, lookup_insert]
        split
        · next heq => rw [heq, hknown]; rfl
        · rfl
      · intro m hm
        rw [List.mem_singleton.mp hm]
        rfl
  | routes peer =>
    simp only [apply, updateRoutes]
    cases hknown : r.known.lookup peer.pubkey with
    | none => exact .unknown (by simp)
    | some entry =>
      obtain ⟨wid, cands, prefixes⟩ := entry
      refine .kept (by simp) ?_ (fun _ => rfl) ?_ (by simp)
      · intro pk'
        simp only [replaceAllowed, widOf, lookup_insert]
        split
        · next heq => rw [heq, hknown]; rfl
        · rfl
      · intro e he
        rcases RouteTable.mem_withPeer.mp he with ⟨he, -⟩ | ⟨-, hpeer, hworker⟩
        · exact .inl he
        · rw [hpeer, hworker]
          exact .inr (widOf_eq_some hknown)

end Reconciler

/-! ## The changes of a snapshot -/

/-- The peers of a configuration, one for each key. -/
structure Snapshot where
  peers : List PeerInfo
  distinct : (peers.map (·.pubkey)).Nodup

namespace Reconciler

variable {text : AddrText} {r : Reconciler} {desired : List PeerInfo}

/-- The changes left to do lead to the keys of the snapshot, and add a peer only while it is not
known. -/
structure Pursues (text : AddrText) (r : Reconciler) (todo : List PeerChange)
    (desired : List PeerInfo) : Prop where
  target : ∀ pk, ((r.applyAll text todo).widOf pk).isSome = true ↔ ∃ p ∈ desired, p.pubkey = pk
  fresh : ∀ front peer back, todo = front ++ .add peer :: back →
    (r.applyAll text front).widOf peer.pubkey = none

lemma isSome_widOf {pk : Key} : (r.widOf pk).isSome = (r.known.view pk).isSome := by
  rw [widOf, KnownPeers.view, Option.isSome_map, Option.isSome_map]

lemma mem_of_add_mem {known : KnownPeers} {peer : PeerInfo}
    (h : .add peer ∈ peerChanges known desired) :
    peer ∈ desired ∧ known.view peer.pubkey = none := by
  rcases List.mem_append.mp h with h | h
  · obtain ⟨pk, -, heq⟩ := List.mem_map.mp h
    cases heq
  obtain ⟨p, hp, hchange⟩ := List.mem_flatMap.mp h
  unfold changesFor at hchange
  split at hchange
  · rcases List.mem_append.mp hchange with h | h
    · split at h
      · cases h
      · cases List.mem_singleton.mp h
    · split at h
      · cases List.mem_singleton.mp h
      · cases h
  · next hnone =>
    cases List.mem_singleton.mp hchange
    exact ⟨hp, by rw [KnownPeers.view, hnone]; rfl⟩

lemma pursues_peerChanges (s : Snapshot) : r.Pursues text (peerChanges r.known s.peers) s.peers := by
  constructor
  · intro pk
    rw [isSome_widOf]
    exact isSome_view_iff s.distinct pk
  · intro front peer back hsplit
    have hadd : PeerChange.add peer ∈ peerChanges r.known s.peers := by
      rw [hsplit]
      simp
    obtain ⟨hpeer, hunknown⟩ := mem_of_add_mem hadd
    have hlookup : r.known.lookup peer.pubkey = none := by
      rw [KnownPeers.view, Option.map_eq_none_iff] at hunknown
      exact hunknown
    -- the changes of the key are this one, so none of them comes before it
    have hfilter : (peerChanges r.known s.peers).filter (·.key = peer.pubkey) =
        changesFor r.known peer := filter_peerChanges s.distinct hpeer
    have hfront : front.filter (·.key = peer.pubkey) = [] := by
      rw [hsplit, List.filter_append, List.filter_cons_of_pos (by simp [PeerChange.key]), changesFor,
        hlookup] at hfilter
      have hlength := congrArg List.length hfilter
      simp only [List.length_append, List.length_cons, List.length_nil] at hlength
      exact List.length_eq_zero_iff.mp (by omega)
    rw [← Option.not_isSome_iff_eq_none, isSome_widOf, view_applyAll, hfront, List.foldl_nil, hunknown]
    decide

lemma Pursues.apply (h : r.Pursues text (change :: todo) desired) :
    (r.apply text change).1.Pursues text todo desired := by
  constructor
  · exact h.target
  · intro front peer back hsplit
    exact h.fresh (change :: front) peer back (by rw [hsplit]; rfl)

end Reconciler

/-! ## The fleet -/

/-- The reconciler, the mailboxes of the workers, and the registry they share. -/
structure Fleet (P : Primitives) where
  reconciler : Reconciler
  /-- The changes of the last snapshot that are not applied yet. -/
  todo : List PeerChange
  desired : List PeerInfo
  mail : Nat → List WorkerMsg
  plane : DataPlane P
  status : Finset Key

namespace Fleet

inductive Event
  /-- The reconciler takes the next snapshot. -/
  | snapshot (s : Snapshot)
  /-- It applies the next change. -/
  | apply
  /-- A worker takes the next message of the reconciler. -/
  | drain (wid : Nat) (env : Env)
  /-- A worker takes another message. -/
  | serve (wid : Nat) (msg : WorkerMsg) (env : Env)

def new (P : Primitives) (ownPub : Key) (n : Nat) : Fleet P where
  reconciler :=
    { ownPub, n, known := ∅, ordinal := 0, peerToWid := ∅, candToWid := ∅, allowed := .default }
  todo := []
  desired := []
  mail := fun _ => []
  plane := .new P
  status := ∅

def post (mail : Nat → List WorkerMsg) (m : Nat × WorkerMsg) : Nat → List WorkerMsg :=
  Function.update mail m.1 (mail m.1 ++ [m.2])

/-- What `on_add_peer` and `on_remove_peer` do to the registry. -/
def statusAfter (keys : List Key) (status : Finset Key) : WorkerMsg → Finset Key
  | .addPeer pk _ _ => if pk ∈ keys then status else insert pk status
  | .removePeer pk => if pk ∈ keys then status.erase pk else status
  | _ => status

variable (text : AddrText) (cfg : Config P)

def step (f : Fleet P) : Event → Option (Fleet P)
  | .snapshot s =>
    match f.todo with
    | [] => some { f with todo := peerChanges f.reconciler.known s.peers, desired := s.peers }
    | _ :: _ => none
  | .apply =>
    match f.todo with
    | [] => none
    | change :: todo =>
      let (r, sent) := f.reconciler.apply text change
      some { f with reconciler := r, todo, mail := sent.foldl post f.mail }
  | .drain wid env =>
    match f.mail wid with
    | [] => none
    | msg :: rest => (f.plane.next? cfg ⟨wid, msg, env⟩).map fun plane =>
      { f with
        plane
        mail := Function.update f.mail wid rest
        status := statusAfter (f.plane.shard wid).keys f.status msg }
  | .serve wid msg env =>
    if msg.isMembership then none
    else (f.plane.next? cfg ⟨wid, msg, env⟩).map fun plane => { f with plane }

def Has (f : Fleet P) (wid : Nat) (pk : Key) : Prop := pk ∈ (f.plane.shard wid).keys

instance (f : Fleet P) (wid : Nat) (pk : Key) : Decidable (f.Has wid pk) :=
  inferInstanceAs (Decidable (pk ∈ (f.plane.shard wid).keys))

/-- Whether a worker has a key once it has taken the messages. -/
def drained (pk : Key) (has : Bool) (mail : List WorkerMsg) : Bool :=
  mail.foldl (fun has msg => msg.effect pk has) has

/-- No change is left to apply and no message to take. -/
def Settled (f : Fleet P) : Prop := f.todo = [] ∧ ∀ wid, f.mail wid = []

/-- Each desired peer is with the worker that the maps name and with no other, no other peer is
anywhere, and the registry has the desired peers. -/
structure Converged (f : Fleet P) : Prop where
  placed : ∀ p ∈ f.desired, ∃ wid, f.reconciler.peerToWid.lookup p.pubkey = some wid ∧
    ∀ wid', f.Has wid' p.pubkey ↔ wid' = wid
  once : ∀ wid, (f.plane.shard wid).keys.Nodup
  known : ∀ wid pk, f.Has wid pk → ∃ p ∈ f.desired, p.pubkey = pk
  routed : ∀ e ∈ f.reconciler.allowed.routes,
    f.reconciler.peerToWid.lookup e.peer = some e.worker ∧ f.Has e.worker e.peer
  status : ∀ pk, pk ∈ f.status ↔ ∃ p ∈ f.desired, p.pubkey = pk

/-! ## The invariant -/

structure Coherent (f : Fleet P) : Prop where
  members : ∀ wid pk, drained pk (decide (f.Has wid pk)) (f.mail wid) = true ↔
    f.reconciler.widOf pk = some wid
  wids : ∀ pk, f.reconciler.peerToWid.lookup pk = f.reconciler.widOf pk
  routes : ∀ e ∈ f.reconciler.allowed.routes, f.reconciler.widOf e.peer = some e.worker
  once : ∀ wid, (f.plane.shard wid).keys.Nodup
  pursues : f.reconciler.Pursues text f.todo f.desired
  status : ∀ pk, pk ∈ f.status ↔ ∃ wid, f.Has wid pk

variable {text cfg} {f f' : Fleet P}

lemma Coherent.converged (h : f.Coherent text) (hsettled : f.Settled) : f.Converged := by
  obtain ⟨htodo, hmail⟩ := hsettled
  have hhas : ∀ wid pk, f.Has wid pk ↔ f.reconciler.widOf pk = some wid := by
    intro wid pk
    rw [← h.members wid pk, hmail wid]
    exact decide_eq_true_iff.symm
  have htarget : ∀ pk, (f.reconciler.widOf pk).isSome = true ↔ ∃ p ∈ f.desired, p.pubkey = pk := by
    have := h.pursues.target
    rwa [htodo] at this
  refine ⟨?_, h.once, ?_, ?_, ?_⟩
  · intro p hp
    obtain ⟨wid, hwid⟩ := Option.isSome_iff_exists.mp ((htarget p.pubkey).mpr ⟨p, hp, rfl⟩)
    refine ⟨wid, (h.wids _).trans hwid, ?_⟩
    intro wid'
    rw [hhas, hwid, Option.some.injEq]
    exact eq_comm
  · intro wid pk hpk
    rw [hhas] at hpk
    exact (htarget pk).mp (by rw [hpk]; rfl)
  · intro e he
    have hwid := h.routes e he
    exact ⟨(h.wids _).trans hwid, (hhas _ _).mpr hwid⟩
  · intro pk
    rw [h.status, ← htarget, Option.isSome_iff_exists]
    simp only [hhas]

/-! ### Steps of the reconciler -/

variable {msg : WorkerMsg}

lemma drained_append (pk : Key) (has : Bool) (mail : List WorkerMsg) (msg : WorkerMsg) :
    drained pk has (mail ++ [msg]) = msg.effect pk (drained pk has mail) := by
  rw [drained, List.foldl_append]
  rfl

/-- What a mailbox comes to after one more message. -/
lemma drained_post {mail : Nat → List WorkerMsg} {m : Nat × WorkerMsg} (wid : Nat) (pk : Key)
    (has : Bool) : drained pk has (post mail m wid) =
      if wid = m.1 then m.2.effect pk (drained pk has (mail wid)) else drained pk has (mail wid) := by
  unfold post
  split
  · next heq =>
    subst heq
    rw [Function.update_self, drained_append]
  · next hne => rw [Function.update_of_ne hne]

lemma effect_of_not_membership (h : msg.isMembership = false) (pk : Key) (has : Bool) :
    msg.effect pk has = has := by
  cases msg with
  | addPeer _ _ _ => cases h
  | removePeer _ => cases h
  | _ => rfl

lemma effect_addPeer_of_ne {pk pk' : Key} {initiator has : Bool} (h : pk ≠ pk') :
    (addPeer pk' candidates initiator).effect pk has = has := by
  simp [effect, h]

lemma effect_removePeer_of_ne {pk pk' : Key} {has : Bool} (h : pk ≠ pk') :
    (removePeer pk').effect pk has = has := by
  simp [effect, h]

lemma drained_posts {sent : Sent} (h : ∀ m ∈ sent, m.2.isMembership = false)
    (mail : Nat → List WorkerMsg) (wid : Nat) (pk : Key) (has : Bool) :
    drained pk has (sent.foldl post mail wid) = drained pk has (mail wid) := by
  induction sent generalizing mail with
  | nil => rfl
  | cons m sent ih =>
    rw [List.foldl_cons, ih (fun m hm => h m (List.mem_cons_of_mem _ hm)), drained_post,
      effect_of_not_membership (h m List.mem_cons_self), ite_self]

lemma Coherent.apply (h : f.Coherent text) (htodo : f.todo = change :: todo) :
    Coherent text { f with
      reconciler := (f.reconciler.apply text change).1
      todo
      mail := (f.reconciler.apply text change).2.foldl post f.mail } := by
  have hpursues := h.pursues
  rw [htodo] at hpursues
  have happlied := f.reconciler.apply_applied text change
  have hnext := hpursues.apply
  generalize (f.reconciler.apply text change).1 = r' at happlied hnext ⊢
  generalize (f.reconciler.apply text change).2 = sent at happlied ⊢
  cases happlied with
  | removed found wids lookup routes =>
    next pk wid =>
    refine ⟨?_, ?_, ?_, h.once, hnext, h.status⟩
    · intro wid' pk'
      rw [List.foldl_cons, List.foldl_nil, drained_post, wids]
      by_cases hpk : pk' = pk
      · subst hpk
        rw [if_pos rfl]
        refine iff_of_false ?_ nofun
        split
        · simp [effect]
        next hne =>
        intro hdrained
        have hwid := (h.members wid' pk').mp hdrained
        rw [found] at hwid
        exact hne (Option.some.inj hwid).symm
      · rw [if_neg hpk, ← h.members wid' pk']
        split
        · rw [effect_removePeer_of_ne hpk]
          rfl
        · rfl
    · intro pk'
      rw [lookup, wids, h.wids]
    · intro e he
      obtain ⟨he, hne⟩ := routes e he
      rw [wids, if_neg hne]
      exact h.routes e he
  | added wids lookup routes =>
    next peer wid candidates initiator =>
    have hfresh : f.reconciler.widOf peer.pubkey = none := hpursues.fresh [] peer todo rfl
    refine ⟨?_, ?_, ?_, h.once, hnext, h.status⟩
    · intro wid' pk'
      rw [List.foldl_cons, List.foldl_nil, drained_post, wids]
      by_cases hpk : pk' = peer.pubkey
      · subst hpk
        rw [if_pos rfl]
        split
        · next heq => simp [effect, heq]
        next hne =>
        refine iff_of_false ?_ fun heq => hne (Option.some.inj heq).symm
        intro hdrained
        have hwid := (h.members wid' _).mp hdrained
        rw [hfresh] at hwid
        cases hwid
      · rw [if_neg hpk, ← h.members wid' pk']
        split
        · rw [effect_addPeer_of_ne hpk]
          rfl
        · rfl
    · intro pk'
      rw [lookup, wids, h.wids]
    · intro e he
      rw [wids]
      rcases routes e he with ⟨he, hne⟩ | ⟨hpeer, hworker⟩
      · rw [if_neg hne]
        exact h.routes e he
      · rw [if_pos hpeer, hworker]
  | kept notAdd wids lookup routes quiet =>
    refine ⟨?_, ?_, ?_, h.once, hnext, h.status⟩
    · intro wid' pk'
      rw [drained_posts quiet, wids]
      exact h.members wid' pk'
    · intro pk'
      rw [lookup, wids, h.wids]
    · intro e he
      rw [wids]
      rcases routes e he with he | hwid
      · exact h.routes e he
      · exact hwid

/-! ### Steps of the workers -/

variable {wid : Nat} {env : Env} {plane : DataPlane P}

/-- What a message leaves of the keys of each worker. -/
lemma has_of_next (hstep : f.plane.next? cfg ⟨wid, msg, env⟩ = some plane)
    (hunique : (f.plane.shard wid).Unique) (wid' : Nat) (pk : Key) :
    decide (pk ∈ (plane.shard wid').keys) =
      if wid' = wid then msg.effect pk (decide (f.Has wid' pk)) else decide (f.Has wid' pk) := by
  obtain ⟨s, out, hhandle, rfl⟩ := next?_eq_some hstep
  split
  · next heq =>
    subst heq
    rw [shard_setShard_self]
    exact Shard.mem_keys_handle hunique hhandle
  · next hne =>
    rw [shard_setShard_of_ne s hne]
    rfl

lemma once_of_next (hstep : f.plane.next? cfg ⟨wid, msg, env⟩ = some plane)
    (h : ∀ wid, (f.plane.shard wid).keys.Nodup) (wid' : Nat) : (plane.shard wid').keys.Nodup := by
  obtain ⟨s, out, hhandle, rfl⟩ := next?_eq_some hstep
  by_cases heq : wid' = wid
  · subst heq
    rw [shard_setShard_self]
    exact (Shard.handle_handled (h wid') hhandle).unique (h wid')
  · rw [shard_setShard_of_ne s heq]
    exact h wid'

/-- A worker drops a peer only while no other worker has it. -/
def Event.Solitary (f : Fleet P) : Event → Prop
  | .drain wid _ => ∀ pk rest, f.mail wid = .removePeer pk :: rest → f.Has wid pk →
    ∀ wid', f.Has wid' pk → wid' = wid
  | _ => True

/-- The registry follows the workers. -/
lemma status_of_next (hstep : f.plane.next? cfg ⟨wid, msg, env⟩ = some plane)
    (hunique : (f.plane.shard wid).Unique)
    (hstatus : ∀ pk, pk ∈ f.status ↔ ∃ wid, f.Has wid pk)
    (hsolitary : ∀ pk, msg = .removePeer pk → f.Has wid pk → ∀ wid', f.Has wid' pk → wid' = wid)
    (pk : Key) : pk ∈ statusAfter (f.plane.shard wid).keys f.status msg ↔
      ∃ wid', pk ∈ (plane.shard wid').keys := by
  have hhas : ∀ wid', pk ∈ (plane.shard wid').keys ↔
      (if wid' = wid then msg.effect pk (decide (f.Has wid' pk)) else decide (f.Has wid' pk)) =
        true := by
    intro wid'
    rw [← has_of_next hstep hunique wid' pk, decide_eq_true_iff]
  simp only [hhas]
  have hsame (hquiet : ∀ has, msg.effect pk has = has) :
      (∃ wid', (if wid' = wid then msg.effect pk (decide (f.Has wid' pk))
        else decide (f.Has wid' pk)) = true) ↔ pk ∈ f.status := by
    simp only [hquiet, ite_self, decide_eq_true_iff, hstatus]
  cases msg with
  | addPeer pk' candidates initiator =>
    by_cases hpk : pk = pk'
    · subst hpk
      refine iff_of_true ?_ ⟨wid, by simp [effect]⟩
      rw [statusAfter]
      split
      · next hmem => exact (hstatus pk).mpr ⟨wid, hmem⟩
      · exact Finset.mem_insert_self _ _
    · rw [hsame fun _ => effect_addPeer_of_ne hpk, statusAfter]
      split
      · rfl
      · simp [hpk]
  | removePeer pk' =>
    by_cases hpk : pk = pk'
    · subst hpk
      by_cases hmem : f.Has wid pk
      · refine iff_of_false ?_ ?_
        · have hkeys : pk ∈ (f.plane.shard wid).keys := hmem
          simp [statusAfter, hkeys]
        · rintro ⟨wid', hwid'⟩
          split at hwid'
          · simp [effect] at hwid'
          · next hne => exact hne (hsolitary pk rfl hmem wid' (of_decide_eq_true hwid'))
      · -- the worker did not have it, so nothing changes
        have hkeys : pk ∉ (f.plane.shard wid).keys := hmem
        rw [statusAfter, if_neg hkeys, hstatus]
        refine exists_congr fun wid' => ?_
        split
        · next heq =>
          subst heq
          simp [effect, hmem]
        · exact decide_eq_true_iff.symm
    · rw [hsame fun _ => effect_removePeer_of_ne hpk, statusAfter]
      split
      · simp [hpk]
      · rfl
  | tick | udpIn | relayIn | tcpIn | tcpConn | tunEgress | updateCandidates =>
    rw [hsame fun _ => rfl]
    rfl

lemma Coherent.drain {rest : List WorkerMsg} (h : f.Coherent text)
    (hmail : f.mail wid = msg :: rest) (hstep : f.plane.next? cfg ⟨wid, msg, env⟩ = some plane)
    (hsolitary : (Event.drain wid env).Solitary f) :
    Coherent text { f with
      plane
      mail := Function.update f.mail wid rest
      status := statusAfter (f.plane.shard wid).keys f.status msg } := by
  refine ⟨?_, h.wids, h.routes, once_of_next hstep h.once, h.pursues, ?_⟩
  · intro wid' pk
    rw [← h.members wid' pk]
    change drained pk (decide (pk ∈ (plane.shard wid').keys)) (Function.update f.mail wid rest wid') =
      true ↔ _
    rw [has_of_next hstep (h.once wid) wid' pk]
    by_cases heq : wid' = wid
    · subst heq
      rw [if_pos rfl, Function.update_self, hmail]
      rfl
    · rw [if_neg heq, Function.update_of_ne heq]
  · refine status_of_next hstep (h.once wid) h.status ?_
    rintro pk rfl hhas
    exact hsolitary pk rest hmail hhas

lemma Coherent.serve (h : f.Coherent text) (hmsg : msg.isMembership = false)
    (hstep : f.plane.next? cfg ⟨wid, msg, env⟩ = some plane) : Coherent text { f with plane } := by
  have hhas : ∀ wid' pk, pk ∈ (plane.shard wid').keys ↔ f.Has wid' pk := by
    intro wid' pk
    have := has_of_next hstep (h.once wid) wid' pk
    rw [effect_of_not_membership hmsg, ite_self] at this
    exact decide_eq_decide.mp this
  refine ⟨?_, h.wids, h.routes, once_of_next hstep h.once, h.pursues, ?_⟩
  · intro wid' pk
    rw [← h.members wid' pk]
    change drained pk (decide (pk ∈ (plane.shard wid').keys)) _ = true ↔ _
    rw [decide_eq_decide.mpr (hhas wid' pk)]
  · intro pk
    rw [h.status]
    exact exists_congr fun wid' => (hhas wid' pk).symm

/-! ## Runs -/

lemma Coherent.step {e : Event} (h : f.Coherent text) (hstep : f.step text cfg e = some f')
    (hsolitary : e.Solitary f) : f'.Coherent text := by
  cases e with
  | snapshot s =>
    simp only [Fleet.step] at hstep
    split at hstep
    · cases hstep
      exact ⟨h.members, h.wids, h.routes, h.once, Reconciler.pursues_peerChanges s, h.status⟩
    · cases hstep
  | apply =>
    simp only [Fleet.step] at hstep
    split at hstep
    · cases hstep
    · next htodo =>
      cases hstep
      exact h.apply htodo
  | drain wid env =>
    simp only [Fleet.step] at hstep
    split at hstep
    · cases hstep
    · next hmail =>
      obtain ⟨plane, hnext, rfl⟩ := Option.map_eq_some_iff.mp hstep
      exact h.drain hmail hnext hsolitary
  | serve wid msg env =>
    simp only [Fleet.step] at hstep
    split at hstep
    · cases hstep
    · next hmsg =>
      obtain ⟨plane, hnext, rfl⟩ := Option.map_eq_some_iff.mp hstep
      exact h.serve (Bool.eq_false_iff.mpr hmsg) hnext

lemma coherent_new (ownPub : Key) (n : Nat) : (new P ownPub n).Coherent text := by
  refine ⟨?_, fun _ => rfl, nofun, fun _ => List.nodup_nil, ⟨?_, ?_⟩, ?_⟩
  · intro wid pk
    have hnone : ¬ (new P ownPub n).Has wid pk := List.not_mem_nil
    rw [decide_eq_false hnone]
    exact iff_of_false nofun nofun
  · intro pk
    exact iff_of_false nofun (by rintro ⟨p, ⟨⟩, -⟩)
  · intro front peer back hsplit
    have := congrArg List.length hsplit
    simp [new] at this
  · intro pk
    exact iff_of_false (Finset.notMem_empty pk) (by rintro ⟨wid, ⟨⟩⟩)

variable (text cfg) in
/-- In a run in which workers drop peers only while no other worker has them, the fleet has
converged whenever it is settled. -/
theorem converged_of_solitary (ownPub : Key) (n : Nat) (es : List Event)
    (hsolitary : EveryStep (step text cfg) (fun f e _ => e.Solitary f) (new P ownPub n) es) :
    Always (step text cfg) (fun f => f.Settled → f.Converged) (new P ownPub n) es := by
  have hkeep : ∀ f e f', Coherent text f → step text cfg f e = some f' → e.Solitary f →
      Coherent text f' := fun _ _ _ h hstep hsolitary => h.step hstep hsolitary
  exact always_of_inv hkeep (fun _ => Coherent.converged) (coherent_new ownPub n) hsolitary

def onePeer : Snapshot where
  peers := [Reconciler.sampleInfo []]
  distinct := List.nodup_singleton _

def noPeer : Snapshot where
  peers := []
  distinct := List.nodup_nil

def sampleEnv : Env := (DataPlane.sampleEvent 0 .tick).env

/-- The peer is added to the first worker, removed and added to the second one. -/
def moved : List Event :=
  [.snapshot onePeer, .apply, .drain 0 sampleEnv, .snapshot noPeer, .apply, .snapshot onePeer, .apply]

/-- The second worker adds the peer before the first one drops it. -/
def overtaken : List Event := moved ++ [.drain 1 sampleEnv, .drain 0 sampleEnv]

def inOrder : List Event := moved ++ [.drain 0 sampleEnv, .drain 1 sampleEnv]

def sampleStep : Fleet Primitives.transparent → Event → Option (Fleet Primitives.transparent) :=
  step .plain DataPlane.sampleConfig

def twoWorkers : Fleet Primitives.transparent := new _ DataPlane.samplePeer 2

/-- The peer is with the second worker, and the registry does not have it. -/
theorem overtaken_not_converged : ∃ f, runFrom sampleStep twoWorkers overtaken = some f ∧
    f.Settled ∧ ¬ f.Converged := by
  obtain ⟨f, hf⟩ : ∃ f, runFrom sampleStep twoWorkers overtaken = some f :=
    Option.isSome_iff_exists.mp (by decide +kernel)
  have hseen : (runFrom sampleStep twoWorkers overtaken).map
      (fun f => (f.todo.isEmpty, (f.mail 0).isEmpty, (f.mail 1).isEmpty)) =
        some (true, true, true) := by decide +kernel
  have hbeyond : (runFrom sampleStep twoWorkers overtaken).map (fun f => fun wid => f.mail (wid + 2)) =
      some fun _ => [] := rfl
  have hstatus : (runFrom sampleStep twoWorkers overtaken).map
      (fun f => (f.desired.map (·.pubkey), decide (Reconciler.samplePeerKey ∈ f.status))) =
        some ([Reconciler.samplePeerKey], false) := by decide +kernel
  rw [hf, Option.map_some, Option.some.injEq] at hseen hbeyond hstatus
  simp only [Prod.mk.injEq, List.isEmpty_iff, decide_eq_false_iff_not] at hseen hstatus
  refine ⟨f, hf, ⟨hseen.1, ?_⟩, ?_⟩
  · intro wid
    match wid with
    | 0 => exact hseen.2.1
    | 1 => exact hseen.2.2
    | wid + 2 => exact congrFun hbeyond wid
  · intro h
    have hdesired : Reconciler.samplePeerKey ∈ f.desired.map (·.pubkey) := by
      rw [hstatus.1]
      exact List.mem_singleton_self _
    exact hstatus.2 ((h.status _).mpr (List.mem_map.mp hdesired))

/-- The first worker drops the peer before the second one adds it. -/
theorem converged_of_solitary_inOrder :
    Always sampleStep (fun f => f.Settled → f.Converged) twoWorkers inOrder := by
  refine converged_of_solitary .plain DataPlane.sampleConfig DataPlane.samplePeer 2 inOrder ?_
  refine .cons rfl trivial ?_
  refine .cons rfl trivial ?_
  refine .cons rfl nofun ?_
  refine .cons rfl trivial ?_
  refine .cons rfl trivial ?_
  refine .cons rfl trivial ?_
  refine .cons rfl trivial ?_
  refine .cons rfl ?_ ?_
  · intro pk rest _ _ wid' hhas
    match wid' with
    | 0 => rfl
    | wid + 1 => cases hhas
  · rintro _ ⟨⟩
    exact ⟨nofun, trivial⟩

end Fleet

end Fluxpeer.Node
