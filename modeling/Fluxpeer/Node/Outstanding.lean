import Fluxpeer.Node.Changes
import Fluxpeer.Lib.Tickets

/-!
# What a message does to the outstanding probes

A probe that waits for its answer is a ticket: the peer holds it until it expires, and the routes
that all workers share name the peer. Probes are started by ticks, by new peers and candidates and
by the challenge of a ping's source; they are redeemed by pongs, and by nothing else. Every other
message leaves the probes and the routes alone.
-/

namespace Fluxpeer.Node

open Lib Crypto Net Tunnel Relation Peer Keyed HashMap

variable {P : Primitives} {targets : List SocketAddr} {nonce : Option (Block 4)}
  {routes routes' : Routes} {p p' : Probes}

/-- What of a peer has to do with its probes. -/
def Peer.asking (peer : Peer P) : Key × Key × HashMap TxId (List SocketAddr × Nat) :=
  (peer.pubkey, peer.discoKey, peer.probes.pending)

section Asking

variable {peer : Peer P}

@[simp] lemma asking_withRaw (raw : RawCryptor P) : (peer.withRaw raw).asking = peer.asking := rfl

@[simp] lemma asking_rebuilt (raw : RawCryptor P) : (peer.rebuilt raw).asking = peer.asking := rfl

@[simp] lemma asking_answered (init : Bytes) (now : Nat) :
    (peer.answered init now).asking = peer.asking := rfl

@[simp] lemma asking_withResp (resp : Bytes) : (peer.withResp resp).asking = peer.asking := rfl

@[simp] lemma asking_withInit (init : Bytes) (now : Nat) :
    (peer.withInit init now).asking = peer.asking := rfl

@[simp] lemma asking_established (now : Nat) : (peer.established now).asking = peer.asking := rfl

@[simp] lemma asking_heard (now : Nat) : (peer.heard now).asking = peer.asking := rfl

@[simp] lemma asking_authenticatedData : peer.authenticatedData.asking = peer.asking := rfl

@[simp] lemma asking_setPath (src : Option SocketAddr) (via : Via) (now : Nat) :
    (peer.setPath src via now).asking = peer.asking := by
  cases via <;> rfl

@[simp] lemma asking_noteRtt (now : Nat) : (peer.noteRtt now).asking = peer.asking := by
  unfold noteRtt
  split <;> rfl

lemma pubkey_of_asking {peer' : Peer P} (h : peer'.asking = peer.asking) :
    peer'.pubkey = peer.pubkey :=
  congrArg (·.1) h

end Asking

namespace Probes

end Probes

namespace Tables

variable {t : Tables} {idx : Option UInt32} {pk : Key}

@[simp] lemma insertIndex_routes : (t.insertIndex idx pk).routes = t.routes := by
  cases idx <;> rfl

@[simp] lemma confirmIndex_routes : (t.confirmIndex idx pk).routes = t.routes := by
  cases idx <;> rfl

end Tables

namespace Shard

variable {cfg : Config P} {env : Env} {s s' : Shard P} {peer peer' : Peer P} {t t' : Tables}
  {s'' : Shard P}

/-! ## Messages that leave the probes alone -/

structure Silent (s s' : Shard P) : Prop where
  asking : s'.peers.map Peer.asking = s.peers.map Peer.asking
  routes : s'.tables.routes = s.tables.routes

lemma Silent.refl (s : Shard P) : s.Silent s := ⟨rfl, rfl⟩

lemma Silent.trans (h : s.Silent s') (h' : s'.Silent s'') : s.Silent s'' :=
  ⟨h'.asking.trans h.asking, h'.routes.trans h.routes⟩

lemma silent_withTables (hroutes : t.routes = s.tables.routes) : s.Silent (s.withTables t) :=
  ⟨rfl, hroutes⟩

lemma silent_setPeer (found : s.findPeer peer.pubkey = some peer)
    (hasking : peer'.asking = peer.asking) (hroutes : t.routes = s.tables.routes) :
    s.Silent ((s.withTables t).setPeer peer') := by
  refine ⟨map_set ?_ hasking, hroutes⟩
  rw [pubkey_of_asking hasking]
  exact found

variable {pk : Key} {bytes : Bytes} {src : Option SocketAddr} {via : Via}

lemma answerInit_silent {resp : Option Bytes} {role : Role} (found : s.findPeer pk = some peer)
    (hasking : peer'.asking = peer.asking) :
    s.Silent (s.answerInit cfg env peer' bytes src via resp role).1 := by
  have hfound := findPeer_self found
  unfold answerInit
  cases resp with
  | none => exact silent_setPeer hfound (by simp [hasking]) rfl
  | some resp => exact silent_setPeer hfound (by simp [hasking]) (by simp)

lemma acceptFresh_silent {draw : Draw} :
    s.Silent (s.acceptFresh cfg env draw bytes src via).1 := by
  unfold acceptFresh
  dsimp only
  split
  · next resp pk _ _ =>
    split
    · exact ⟨rfl, rfl⟩
    · next peer found =>
      refine Silent.trans ?_ (answerInit_silent found (asking_rebuilt _))
      exact silent_withTables rfl
  · exact ⟨rfl, rfl⟩

variable {out : List Output}

lemma acceptInit_silent {draw : Draw}
    (h : s.acceptInit cfg env draw bytes src via = some (s', out)) : s.Silent s' := by
  unfold acceptInit at h
  split at h
  · cases h
    exact .refl s
  split at h
  · obtain rfl := congrArg Prod.fst (Option.some.inj h)
    exact acceptFresh_silent
  next peer hpeer =>
  have hfound : s.findPeer peer.pubkey = some peer := rekeyPeer_found hpeer
  split at h
  · cases h
  · obtain rfl := congrArg Prod.fst (Option.some.inj h)
    exact answerInit_silent hfound (asking_withRaw _)
  · obtain rfl := congrArg Prod.fst (Option.some.inj h)
    exact (silent_setPeer hfound (asking_withRaw _) rfl).trans acceptFresh_silent

lemma handleWg_silent {draw : Draw} {pkt : Option Bytes}
    (found : s.findPeer peer.pubkey = some peer)
    (h : s.handleWg cfg env draw peer bytes src via = some (s', out, pkt)) : s.Silent s' := by
  unfold handleWg at h
  split at h
  · split at h
    · cases h
      exact silent_setPeer found (asking_withRaw _) rfl
    dsimp only at h
    split at h
    · cases h
    · cases h
      exact silent_setPeer found (by simp) (by simp)
  · split at h
    · split at h
      · cases h
      · cases h
        exact silent_setPeer found (asking_withRaw _) rfl
      · cases h
        exact silent_setPeer found (by simp) (by simp)
    · cases h
      exact .refl s

lemma deliverWg_silent (h : s.deliverWg cfg env pk bytes src via = some (s', out)) :
    s.Silent s' := by
  unfold deliverWg at h
  split at h
  · cases h
    exact .refl s
  next peer found =>
  obtain ⟨⟨s₁, out₁, pkt⟩, hwg, hrest⟩ := Option.bind_eq_some_iff.mp h
  cases hrest
  exact handleWg_silent (findPeer_self found) hwg

lemma onFramed_silent (h : s.onFramed cfg env pk bytes via = some (s', out)) : s.Silent s' := by
  unfold onFramed at h
  split at h
  · exact acceptInit_silent h
  · exact deliverWg_silent h

lemma onTcpConn_silent {connGen : Nat} {out : Option Nat} :
    s.Silent (s.onTcpConn pk connGen out) := by
  unfold onTcpConn
  split
  · exact .refl s
  next peer found =>
  have hfound := findPeer_self found
  split
  · exact silent_setPeer (t := s.tables) hfound rfl rfl
  · split
    · exact silent_setPeer (t := s.tables) hfound rfl rfl
    · exact .refl s

lemma onTunEgress_silent {pkt : Bytes} (hunique : s.Unique)
    (h : s.onTunEgress cfg env pk pkt = some (s', out)) : s.Silent s' := by
  unfold onTunEgress at h
  split at h
  · cases h
    exact .refl s
  next peer found =>
  have hfound : s.findPeer peer.pubkey = some peer :=
    find_of_mem hunique (List.mem_of_find?_eq_some found)
  obtain ⟨⟨raw, result⟩, -, hrest⟩ := Option.bind_eq_some_iff.mp h
  dsimp only at hrest
  split at hrest
  · cases hrest
    exact silent_setPeer (t := s.tables) hfound (asking_withRaw _) rfl
  split at hrest
  · split at hrest <;> cases hrest
    · exact silent_setPeer hfound (asking_withRaw _) (by simp)
    · exact silent_setPeer (t := s.tables) hfound (asking_withRaw _) rfl
  · split at hrest <;> cases hrest <;>
      exact silent_setPeer (t := s.tables) hfound (asking_withRaw _) rfl

/-! ## Probes of one peer -/

/-- A change to a peer and the tables that starts at most one probe. -/
inductive Asks (now : Nat) : Tables × Peer P → Tables × Peer P → Prop
  | other {t t' : Tables} {peer peer' : Peer P} (asking : peer'.asking = peer.asking)
    (routes : t'.routes = t.routes) : Asks now (t, peer) (t', peer')
  | start {t : Tables} {peer : Peer P} {targets : List SocketAddr} {nonce : Option (Block 4)}
    {probes : Probes} {routes : Routes} {id : Option TxId}
    (started : peer.probes.start peer.pubkey targets t.routes now nonce = (probes, routes, id)) :
    Asks now (t, peer) ({ t with routes := routes }, { peer with probes := probes })

variable {now : Nat} {x : Tables × Peer P} {y : Tables × Peer P}

lemma Asks.keys (h : Asks now x y) : y.2.pubkey = x.2.pubkey ∧ y.2.discoKey = x.2.discoKey := by
  cases h with
  | other asking routes => exact ⟨congrArg (·.1) asking, congrArg (·.2.1) asking⟩
  | start started => exact ⟨rfl, rfl⟩

abbrev AsksAll (now : Nat) : Tables × Peer P → Tables × Peer P → Prop := ReflTransGen (Asks now)

lemma AsksAll.keys (h : AsksAll now x y) :
    y.2.pubkey = x.2.pubkey ∧ y.2.discoKey = x.2.discoKey := by
  induction h with
  | refl => exact ⟨rfl, rfl⟩
  | tail _ hstep ih => exact ⟨hstep.keys.1.trans ih.1, hstep.keys.2.trans ih.2⟩

section Tick

variable {draw : Draw}

variable {sent : List Output}

end Tick

/-! ## The probes of a worker -/

/-- The probes that the peers wait for, and whose they are by the shared routes. -/
def book (s : Shard P) : Book Key TxId (List SocketAddr) Key where
  held pk id := (s.findPeer pk).bind fun peer => peer.probes.pending.lookup id
  named id := s.tables.routes.lookup id

/-- Every peer has the key that it shares with this node. -/
def Paired (cfg : Config P) (s : Shard P) : Prop :=
  ∀ peer ∈ s.peers, peer.discoKey = discoShared P cfg.ownPriv peer.pubkey

/-- Probes may have been started, and none was taken. -/
structure Asked (cfg : Config P) (now : Nat) (s s' : Shard P) : Prop where
  turns : Book.Turns id now s.book s'.book
  paired : s.Paired cfg → s'.Paired cfg

lemma Asked.trans (h : Asked cfg now s s') (h' : Asked cfg now s' s'') : Asked cfg now s s'' :=
  ⟨h.turns.trans h'.turns, h'.paired ∘ h.paired⟩

variable {candidates : List SocketAddr}

/-- A datagram answers a probe that a peer waits for: it is a pong under the peer's key, from an
address that the probe was for. -/
structure Answers (cfg : Config P) (pk : Key) (src : SocketAddr) (dgram : Bytes) (txId : TxId)
    (targets : List SocketAddr) : Prop where
  pong : ∃ addr used, Disco.decode (dgram.drop discoMagic.length) = .ok (.pong txId addr, used) ∧
    discoAuthed P (discoShared P cfg.ownPriv pk) dgram (dgram.drop discoMagic.length) used = true
  target : src ∈ targets

end Shard

end Fluxpeer.Node
