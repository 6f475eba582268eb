import Fluxpeer.Crypto.Primitives
import Fluxpeer.Lib.HashMap

/-!
# The relay hub

The registry of a relay: for each public key the connection of its current session. A frame for a
key goes into the queue of that connection, which holds at most `cap` frames; what does not fit is
dropped. Every operation runs under one lock and is one step here.

Channels and link sessions are shared with the tasks that serve the connections, so they are kept
by their ids next to the registry. A connection that leaves the registry is dropped, and with it
the link session that it was authenticated by is invalidated.
-/

namespace Fluxpeer.Relay

open Lib Crypto

abbrev PublicKey := Key

inductive Frame
  | clientInfo (pubkey : PublicKey) (protocolVersion : UInt32)
  | serverInfo (protocolVersion : UInt32)
  /-- To the relay: forward the payload to a key. -/
  | sendPacket (dst : PublicKey) (payload : Bytes)
  /-- From the relay: a payload that came from a key. -/
  | recvPacket (src : PublicKey) (payload : Bytes)
  | ping (data : Block 8)
  | pong (data : Block 8)
  | peerGone (pubkey : PublicKey)
  | health
  | restarting
deriving DecidableEq

/-! ## Channels -/

/-- A bounded queue with one reader. -/
structure Channel (cap : Nat) where
  queue : List Frame
  /-- The reader is gone. -/
  closed : Bool
  bounded : queue.length ≤ cap

namespace Channel

variable {cap : Nat}

def empty : Channel cap := ⟨[], false, Nat.zero_le cap⟩

inductive TrySend
  | ok
  | full
  | closed
deriving DecidableEq

def trySend (c : Channel cap) (frame : Frame) : Channel cap × TrySend :=
  if c.closed then (c, .closed)
  else if h : c.queue.length < cap then
    (⟨c.queue ++ [frame], c.closed, by simpa using Nat.succ_le_of_lt h⟩, .ok)
  else (c, .full)

def pop (c : Channel cap) : Channel cap :=
  ⟨c.queue.tail, c.closed, by simpa using Nat.le_succ_of_le c.bounded⟩

def close (_ : Channel cap) : Channel cap := ⟨[], true, Nat.zero_le cap⟩

lemma mem_trySend {c : Channel cap} {frame f : Frame} (h : f ∈ (c.trySend frame).1.queue) :
    f ∈ c.queue ∨ f = frame := by
  unfold trySend at h
  split at h
  · exact .inl h
  split at h
  · simpa using h
  · exact .inl h

end Channel

/-! ## The registry -/

abbrev ChannelId := Nat

abbrev AuthId := Nat

structure Connection where
  tx : ChannelId
  auth : Option AuthId
deriving DecidableEq

structure Hub (cap : Nat) where
  peers : HashMap PublicKey Connection
  channels : ChannelId → Channel cap
  /-- The id of the next channel. -/
  nextChannel : ChannelId
  /-- The link sessions that were not invalidated. -/
  active : AuthId → Bool

inductive Routed
  | delivered
  | dropped (dst : PublicKey)
  | peerGone (dst : PublicKey)
  | ignored
deriving DecidableEq

namespace Hub

variable {cap : Nat}

/-- `with_capacity`: a queue holds one frame at least. -/
def withCapacity (queueCap : Nat) : Hub (max queueCap 1) := ⟨∅, fun _ => .empty, 0, fun _ => true⟩

def setChannel (h : Hub cap) (tx : ChannelId) (c : Channel cap) : Hub cap :=
  { h with channels := Function.update h.channels tx c }

def invalidate (h : Hub cap) (auth : AuthId) : Hub cap :=
  { h with active := Function.update h.active auth false }

/-- What happens to a connection that leaves the registry. -/
def dropConnection (h : Hub cap) (c : Option Connection) : Hub cap :=
  match c.bind (·.auth) with
  | none => h
  | some auth => h.invalidate auth

/-- Register a session in the place of any other of the key. -/
def connectAuthenticated (h : Hub cap) (pubkey : PublicKey) (auth : Option AuthId) :
    Hub cap × ChannelId :=
  let tx := h.nextChannel
  let old := h.peers.lookup pubkey
  let h := { h.setChannel tx .empty with nextChannel := tx + 1 }
  (dropConnection { h with peers := h.peers.insert pubkey ⟨tx, auth⟩ } old, tx)

/-- Whether the session is the registered one of the key. -/
def current (h : Hub cap) (pubkey : PublicKey) (tx : ChannelId) : Bool :=
  (h.peers.lookup pubkey).any (·.tx = tx)

def disconnectSession (h : Hub cap) (pubkey : PublicKey) (tx : ChannelId) : Hub cap :=
  if h.current pubkey tx then
    dropConnection { h with peers := h.peers.erase pubkey } (h.peers.lookup pubkey)
  else h

def trySend (h : Hub cap) (tx : ChannelId) (frame : Frame) : Hub cap × Channel.TrySend :=
  let (c, result) := (h.channels tx).trySend frame
  (h.setChannel tx c, result)

def routeSession (h : Hub cap) (src : PublicKey) (session : Option ChannelId) (frame : Frame) :
    Hub cap × Routed :=
  match frame with
  | .sendPacket dst payload =>
    if session.any (!h.current src ·) then (h, .ignored)
    else
      match h.peers.lookup dst with
      | none => (h, .peerGone dst)
      | some conn =>
        match h.trySend conn.tx (.recvPacket src payload) with
        | (h, .ok) => (h, .delivered)
        | (h, .full) => (h, .dropped dst)
        | (h, .closed) => (h, .peerGone dst)
  | _ => (h, .ignored)

/-! ## What the operations change -/

/-- Nothing but queues has changed. -/
structure SameRegistry (h h' : Hub cap) : Prop where
  peers : h'.peers = h.peers
  nextChannel : h'.nextChannel = h.nextChannel
  active : h'.active = h.active

variable {h : Hub cap} {pubkey k src : PublicKey} {tx c : ChannelId} {auth : Option AuthId}
  {session : Option ChannelId} {frame f : Frame} {a : AuthId}

lemma SameRegistry.refl (h : Hub cap) : h.SameRegistry h := ⟨rfl, rfl, rfl⟩

lemma sameRegistry_trySend : h.SameRegistry (h.trySend tx frame).1 := ⟨rfl, rfl, rfl⟩

lemma mem_trySend (hmem : f ∈ ((h.trySend tx frame).1.channels c).queue) :
    f ∈ (h.channels c).queue ∨ c = tx ∧ f = frame := by
  simp only [trySend, setChannel, Function.update_apply] at hmem
  split at hmem
  · next heq =>
    subst heq
    rcases Channel.mem_trySend hmem with hold | hnew
    · exact .inl hold
    · exact .inr ⟨rfl, hnew⟩
  · exact .inl hmem

lemma current_iff : h.current pubkey tx = true ↔
    ∃ c, h.peers.lookup pubkey = some c ∧ c.tx = tx := by
  simp [current, Option.any_eq_true]

lemma sameRegistry_routeSession : h.SameRegistry (h.routeSession src session frame).1 := by
  unfold routeSession
  split
  · next dst payload =>
    split
    · exact .refl h
    split
    · exact .refl h
    next conn _ =>
    have hsame : h.SameRegistry (h.trySend conn.tx (.recvPacket src payload)).1 :=
      sameRegistry_trySend
    split <;> next hsend =>
      rw [hsend] at hsame
      exact hsame
  · exact .refl h

/-- The only frame that routing adds: the payload, under the key of the session, in the queue of
the connection registered for the destination. -/
lemma mem_routeSession
    (hmem : f ∈ ((h.routeSession src (some tx) frame).1.channels c).queue) :
    f ∈ (h.channels c).queue ∨ ∃ dst payload, frame = .sendPacket dst payload ∧
      f = .recvPacket src payload ∧ h.current src tx = true ∧ h.current dst c = true := by
  unfold routeSession at hmem
  split at hmem
  · next dst payload =>
    split at hmem
    · exact .inl hmem
    next hcurrent =>
    split at hmem
    · exact .inl hmem
    next conn hconn =>
    have hsent : f ∈ ((h.trySend conn.tx (.recvPacket src payload)).1.channels c).queue := by
      split at hmem <;> next hsend => simpa [hsend] using hmem
    rcases mem_trySend hsent with hold | ⟨rfl, rfl⟩
    · exact .inl hold
    · refine .inr ⟨dst, payload, rfl, rfl, ?_, ?_⟩
      · simpa using hcurrent
      · exact current_iff.mpr ⟨conn, hconn, rfl⟩
  · exact .inl hmem

variable (src frame) in
/-- A session that is not the registered one of its key gets nothing through. -/
lemma routeSession_of_not_current (hnot : h.current src tx = false) :
    (h.routeSession src (some tx) frame).1 = h ∧
      (h.routeSession src (some tx) frame).2 = .ignored := by
  unfold routeSession
  split
  · rw [if_pos (by simpa using hnot)]
    exact ⟨rfl, rfl⟩
  · exact ⟨rfl, rfl⟩

/-! ### Connections that leave -/

@[simp] lemma dropConnection_peers (h : Hub cap) (old : Option Connection) :
    (h.dropConnection old).peers = h.peers := by
  unfold dropConnection
  split <;> rfl

@[simp] lemma dropConnection_channels (h : Hub cap) (old : Option Connection) :
    (h.dropConnection old).channels = h.channels := by
  unfold dropConnection
  split <;> rfl

@[simp] lemma dropConnection_nextChannel (h : Hub cap) (old : Option Connection) :
    (h.dropConnection old).nextChannel = h.nextChannel := by
  unfold dropConnection
  split <;> rfl

lemma invalidate_inactive {a b : AuthId} (hinactive : h.active a = false) :
    (h.invalidate b).active a = false := by
  simp only [invalidate, Function.update_apply]
  split
  · rfl
  · exact hinactive

/-- A link session that was invalidated stays so, and the one of the connection joins it. -/
lemma dropConnection_inactive {old : Option Connection}
    (ha : h.active a = false ∨ ∃ c, old = some c ∧ c.auth = some a) :
    (h.dropConnection old).active a = false := by
  unfold dropConnection
  split
  · next hnone =>
    rcases ha with ha | ⟨c, rfl, hauth⟩
    · exact ha
    · rw [Option.bind_some, hauth] at hnone
      cases hnone
  · next auth hauth =>
    rcases ha with ha | ⟨c, rfl, hc⟩
    · exact invalidate_inactive ha
    · rw [Option.bind_some, hc] at hauth
      cases hauth
      simp [invalidate]

lemma lookup_connectAuthenticated :
    (h.connectAuthenticated pubkey auth).1.peers.lookup k =
      if k = pubkey then some ⟨h.nextChannel, auth⟩ else h.peers.lookup k := by
  rw [connectAuthenticated, dropConnection_peers, HashMap.lookup_insert]
  rfl

lemma lookup_disconnectSession :
    (h.disconnectSession pubkey tx).peers.lookup k =
      if k = pubkey ∧ h.current pubkey tx then none else h.peers.lookup k := by
  unfold disconnectSession
  split
  · next hcurrent =>
    rw [dropConnection_peers, HashMap.lookup_erase]
    simp [hcurrent]
  · next hcurrent => simp [hcurrent]

@[simp] lemma nextChannel_connectAuthenticated :
    (h.connectAuthenticated pubkey auth).1.nextChannel = h.nextChannel + 1 := by
  rw [connectAuthenticated, dropConnection_nextChannel]

@[simp] lemma nextChannel_disconnectSession :
    (h.disconnectSession pubkey tx).nextChannel = h.nextChannel := by
  unfold disconnectSession
  split
  · rw [dropConnection_nextChannel]
  · rfl

lemma connectAuthenticated_inactive
    (ha : h.active a = false ∨ ∃ c, h.peers.lookup pubkey = some c ∧ c.auth = some a) :
    (h.connectAuthenticated pubkey auth).1.active a = false :=
  dropConnection_inactive ha

lemma disconnectSession_inactive (ha : h.active a = false ∨
      h.current pubkey tx = true ∧ ∃ c, h.peers.lookup pubkey = some c ∧ c.auth = some a) :
    (h.disconnectSession pubkey tx).active a = false := by
  unfold disconnectSession
  split
  · exact dropConnection_inactive (ha.imp_right And.right)
  next hnot =>
  rcases ha with ha | ⟨hcurrent, _⟩
  · exact ha
  · exact absurd hcurrent hnot

/-- No queue has a frame that it did not have. -/
def Fewer (h h' : Hub cap) : Prop := ∀ c, (h'.channels c).queue ⊆ (h.channels c).queue

lemma fewer_setChannel {channel : Channel cap} (hsub : channel.queue ⊆ (h.channels tx).queue) :
    h.Fewer (h.setChannel tx channel) := by
  intro c
  simp only [setChannel, Function.update_apply]
  split
  · next heq =>
    rw [heq]
    exact hsub
  · exact List.Subset.refl _

lemma fewer_connectAuthenticated : h.Fewer (h.connectAuthenticated pubkey auth).1 := by
  intro c
  rw [connectAuthenticated, dropConnection_channels]
  exact fewer_setChannel (List.nil_subset _) c

lemma fewer_disconnectSession : h.Fewer (h.disconnectSession pubkey tx) := by
  intro c
  unfold disconnectSession
  split
  · rw [dropConnection_channels]
    exact List.Subset.refl _
  · exact List.Subset.refl _

end Hub

end Fluxpeer.Relay
