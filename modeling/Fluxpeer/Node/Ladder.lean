import Fluxpeer.Node.Routing

/-!
# The ladder of transports

Which way a packet goes to a peer is decided in three places: `send_to_peer`, the data path of
`on_tun_egress`, and the status that `on_tick` publishes. They do not agree everywhere. The data
path does not look at `prefer_tcp`, and the status not at `prefer_relay` before it says TCP; the two
theorems here say exactly when that shows.
-/

namespace Fluxpeer.Node

open Lib Crypto Net Tunnel

inductive Transport
  | none
  | udpDirect
  | tcpDirect
  | relay
deriving DecidableEq

/-- The transport of a packet to a peer. -/
def Output.transport : Output → Transport
  | .udp .. | .gso .. => .udpDirect
  | .tcp .. => .tcpDirect
  | .relay .. => .relay
  | .tun _ | .handshake .. => .none

def transportOf (out : List Output) : Transport := (out.head?.map Output.transport).getD .none

section

variable {P : Primitives}

/-- The transport that `on_tick` publishes for a peer. -/
def publishedTransport (cfg : Config P) (env : Env) (peer : Peer P) : Transport :=
  if !peer.handshaked then .none
  else if !cfg.forceRelay && !peer.preferRelay && !peer.preferTcp && peer.directAddr.isSome then
    .udpDirect
  else if !cfg.forceRelay && peer.tcpOut.isSome then .tcpDirect
  else if relayUp cfg env then .relay
  else if peer.directAddr.isSome then .udpDirect
  else .none

/-- The peer is to be reached over TCP, or over the relay for want of a connection, and has an
address for UDP as well. -/
def Peer.avoidsUdp (cfg : Config P) (env : Env) (peer : Peer P) : Bool :=
  !cfg.forceRelay && !peer.preferRelay && peer.preferTcp && peer.directAddr.isSome &&
    (peer.tcpOut.isSome || relayUp cfg env)

/-- The peer is to be reached over the relay while a TCP connection is still open. -/
def Peer.avoidsTcp (cfg : Config P) (peer : Peer P) : Bool :=
  !cfg.forceRelay && peer.preferRelay && peer.tcpOut.isSome

variable {cfg : Config P} {env : Env} {s : Shard P} {peer : Peer P} {bytes : Bytes}

lemma transportOf_gso (addr : Option SocketAddr) :
    transportOf (addr.toList.map (.gso · bytes)) =
      if addr.isSome then .udpDirect else .none := by
  cases addr <;> rfl

/-- The transport of `send_to_peer`, rung by rung. -/
lemma transportOf_sendToPeer :
    transportOf (sendToPeer cfg env peer bytes) =
      if !cfg.forceRelay && !peer.preferRelay && !peer.preferTcp && peer.directAddr.isSome then
        .udpDirect
      else if !cfg.forceRelay && !peer.preferRelay && peer.tcpOut.isSome then .tcpDirect
      else if relayUp cfg env then .relay
      else if peer.directAddr.isSome then .udpDirect
      else .none := by
  unfold sendToPeer
  split
  · next h =>
    obtain ⟨addr, haddr⟩ := Option.isSome_iff_exists.mp (Bool.and_eq_true_iff.mp h).2
    rw [haddr]
    rfl
  · split
    · next h =>
      obtain ⟨conn, hconn⟩ := Option.isSome_iff_exists.mp (Bool.and_eq_true_iff.mp h).2
      rw [hconn]
      rfl
    · split
      · rfl
      · cases peer.directAddr <;> rfl

lemma published_iff (hshaken : peer.handshaked = true) :
    publishedTransport cfg env peer = transportOf (sendToPeer cfg env peer bytes) ↔
      peer.avoidsTcp cfg = false := by
  rw [transportOf_sendToPeer]
  unfold publishedTransport Peer.avoidsTcp
  rw [hshaken]
  -- what is left is a statement about six flags
  generalize cfg.forceRelay = forced, peer.preferRelay = relayed, peer.preferTcp = tcp,
    peer.directAddr.isSome = direct, peer.tcpOut.isSome = conn, relayUp cfg env = up
  revert forced relayed tcp direct conn up
  decide

/-- How a data packet leaves `on_tun_egress`. -/
lemma onTunEgress_data {pkt enc : Bytes} {raw : RawCryptor P}
    (hfind : s.peers.find? (fun p => p.pubkey = peer.pubkey && p.handshaked) = some peer)
    (hsend : peer.raw.onSend pkt env.ebuf.toList
      (env.ambient (env.draws 0).ephemeral (env.draws 0)) = some (raw, .ok enc))
    (hdata : enc.head? ≠ some tHandshakeInit) :
    s.onTunEgress cfg env peer.pubkey pkt = some (s.setPeer (peer.withRaw raw),
      if !cfg.forceRelay && !peer.preferRelay && peer.directAddr.isSome then
        peer.directAddr.toList.map (.gso · enc)
      else sendToPeer cfg env peer enc) := by
  have hsame : sendToPeer cfg env (peer.withRaw raw) enc = sendToPeer cfg env peer enc := rfl
  simp only [Shard.onTunEgress, hfind, hsend, bind, Option.bind, if_neg hdata]
  by_cases hdirect : (!cfg.forceRelay && !peer.preferRelay && peer.directAddr.isSome) = true
  · rw [if_pos hdirect]
    exact if_pos hdirect
  · rw [if_neg hdirect, ← hsame]
    exact if_neg hdirect

lemma egress_iff {enc : Bytes} :
    transportOf (if !cfg.forceRelay && !peer.preferRelay && peer.directAddr.isSome then
        peer.directAddr.toList.map (.gso · enc) else sendToPeer cfg env peer enc) =
      transportOf (sendToPeer cfg env peer enc) ↔ peer.avoidsUdp cfg env = false := by
  unfold Peer.avoidsUdp
  rw [apply_ite transportOf, transportOf_sendToPeer, transportOf_gso]
  generalize cfg.forceRelay = forced, peer.preferRelay = relayed, peer.preferTcp = tcp,
    peer.directAddr.isSome = direct, peer.tcpOut.isSome = conn, relayUp cfg env = up
  revert forced relayed tcp direct conn up
  decide

/-- A data packet to a handshaked peer leaves on the transport of `send_to_peer` exactly if the peer
does not avoid UDP, and the status says that transport exactly if it does not avoid TCP. -/
theorem one_ladder_iff (cfg : Config P) (env : Env) (s : Shard P) (peer : Peer P)
    (hfind : s.peers.find? (fun p => p.pubkey = peer.pubkey && p.handshaked) = some peer) :
    (∀ pkt raw enc, peer.raw.onSend pkt env.ebuf.toList
        (env.ambient (env.draws 0).ephemeral (env.draws 0)) = some (raw, .ok enc) →
      enc.head? ≠ some tHandshakeInit →
      ∃ s' out, s.onTunEgress cfg env peer.pubkey pkt = some (s', out) ∧
        (transportOf out = transportOf (sendToPeer cfg env peer enc) ↔
          peer.avoidsUdp cfg env = false)) ∧
    ∀ bytes, publishedTransport cfg env peer = transportOf (sendToPeer cfg env peer bytes) ↔
      peer.avoidsTcp cfg = false := by
  have hshaken : peer.handshaked = true := by
    have := List.find?_some hfind
    exact (Bool.and_eq_true_iff.mp this).2
  refine ⟨?_, fun _ => published_iff hshaken⟩
  intro pkt raw enc hsend hdata
  exact ⟨_, _, onTunEgress_data hfind hsend hdata, egress_iff⟩

end

/-! ## A peer that answers over TCP -/

namespace DataPlane

def openConfig : Config Primitives.transparent := { sampleConfig with forceRelay := false }

def sampleAddr : SocketAddr := .v4 (192 ::ᵥ 0 ::ᵥ 2 ::ᵥ 1 ::ᵥ .nil) 51820

/-- The peer is added with a candidate, which sends it an INIT, and a TCP connection comes up. -/
def dialed : List Event :=
  [sampleEvent 0 (.addPeer samplePeer [sampleAddr] true),
    sampleEvent 0 (.tcpConn samplePeer 1 (some 7))]

def dialedInit : Bytes :=
  match (DataPlane.new Primitives.transparent).step openConfig (sampleEvent 0
      (.addPeer samplePeer [sampleAddr] true)) with
  | some (_, out) => (out.findSome? fun
    | .udp _ bytes => if bytes.head? = some tHandshakeInit then some bytes else none
    | _ => none).getD []
  | none => []

def dialedAnswer : Bytes :=
  match Noise.sampleResponder.decapsulate dialedInit (List.replicate 148 0)
      (some (Primitives.xorKey [4] [])) 0 with
  | some (_, .ok (.writeToNetwork resp)) => resp
  | _ => []

def answeredOverTcp : List Event := dialed ++ [sampleEvent 0 (.tcpIn samplePeer dialedAnswer)]

def answeredOverRelay : List Event := dialed ++ [sampleEvent 0 (.relayIn samplePeer dialedAnswer)]

def laterEnv : Env := (sampleEvent 1 .tick).env

/-- A data packet to the peer leaves over UDP while `send_to_peer` would use TCP. -/
def leavesOverUdp (d : DataPlane Primitives.transparent) : Bool :=
  match (d.shard 0).peers.find? (fun p => p.pubkey = samplePeer && p.handshaked),
    (d.shard 0).onTunEgress openConfig laterEnv samplePeer [5] with
  | some peer, some (_, [.gso addr bytes]) =>
    decide (bytes.head? = some tData ∧ addr = sampleAddr ∧
      sendToPeer openConfig laterEnv peer bytes = [.tcp 7 bytes])
  | _, _ => false

/-- The status of the peer says TCP while `send_to_peer` would use the relay. -/
def saysTcp (d : DataPlane Primitives.transparent) : Bool :=
  match (d.shard 0).peers.find? (fun p => p.pubkey = samplePeer && p.handshaked) with
  | some peer => decide (publishedTransport openConfig laterEnv peer = .tcpDirect ∧
      sendToPeer openConfig laterEnv peer [] = [.relay samplePeer []])
  | none => false

theorem ladders_differ :
    (∃ d, runFrom (next? openConfig) (.new _) answeredOverTcp = some d ∧ d.leavesOverUdp = true) ∧
      ∃ d, runFrom (next? openConfig) (.new _) answeredOverRelay = some d ∧ d.saysTcp = true := by
  have hudp : (runFrom (next? openConfig) (.new _) answeredOverTcp).any leavesOverUdp = true := by
    decide +kernel
  have htcp : (runFrom (next? openConfig) (.new _) answeredOverRelay).any saysTcp = true := by
    decide +kernel
  exact ⟨(Option.any_eq_true ..).mp hudp, (Option.any_eq_true ..).mp htcp⟩

theorem one_ladder_iff_answeredOverRelay :
    ∃ d peer, runFrom (next? openConfig) (.new _) answeredOverRelay = some d ∧
      (d.shard 0).peers.find? (fun p => p.pubkey = samplePeer && p.handshaked) = some peer ∧
      peer.avoidsTcp openConfig = true ∧
      ∀ bytes, publishedTransport openConfig laterEnv peer ≠
        transportOf (sendToPeer openConfig laterEnv peer bytes) := by
  have hcheck : (runFrom (next? openConfig) (.new _) answeredOverRelay).any (fun d =>
      ((d.shard 0).peers.find? fun p => p.pubkey = samplePeer && p.handshaked).any fun peer =>
        decide (peer.pubkey = samplePeer) && peer.avoidsTcp openConfig) = true := by
    decide +kernel
  obtain ⟨d, hrun, hd⟩ := (Option.any_eq_true ..).mp hcheck
  obtain ⟨peer, hfind, hpeer⟩ := (Option.any_eq_true ..).mp hd
  obtain ⟨hkey, havoids⟩ := Bool.and_eq_true_iff.mp hpeer
  refine ⟨d, peer, hrun, hfind, havoids, ?_⟩
  intro bytes heq
  rw [← of_decide_eq_true hkey] at hfind
  have hno := ((one_ladder_iff openConfig laterEnv (d.shard 0) peer hfind).2 bytes).mp heq
  rw [havoids] at hno
  cases hno

end DataPlane

end Fluxpeer.Node
