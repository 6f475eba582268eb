import Fluxpeer.Node.Probes
import Fluxpeer.Tunnel.Cryptor

/-!
# Peers

What a worker keeps for each peer: its cryptor and the path to reach it by. The counters and the
status that others read are left out; no handler looks at them. Times are in nanoseconds, and a
handler reads the clock once.
-/

namespace Fluxpeer.Node

open Lib Crypto Net Tunnel

/-- What is fixed while a node runs. -/
structure Config (P : Primitives) where
  ownPriv : Key
  ownPub : Key
  forceRelay : Bool
  /-- There is a relay to send to. -/
  relay : Bool
  ownPub_eq : ownPub = P.publicKey ownPriv

/-- The random bytes that handling one peer may use. -/
structure Draw where
  /-- The ephemeral key for a call on the peer's cryptor. -/
  ephemeral : Option Key
  padding : Session.PaddingDraw
  /-- The ephemeral key for a cryptor that is built anew. -/
  fresh : Option Key
  /-- The ephemeral keys of a rekey over the relay and of an aged session. -/
  silent : Option Key
  aged : Option Key
  /-- The nonces of the first probe and of a second one. -/
  nonce : Option (Block 4)
  secondNonce : Option (Block 4)

/-- What handling one message reads from outside. -/
structure Env where
  clock : Clock
  relayAvailable : Bool
  /-- The verdict of the route table in force on a decrypted packet of a peer. -/
  acceptsSource : Key → Bytes → Bool
  /-- The buffers of the worker, with what earlier messages left in them. -/
  ebuf : Block 2048
  dbuf : Block 2048
  /-- The random bytes for the peer at a position. -/
  draws : Nat → Draw

namespace Env

def now (env : Env) : Nat := env.clock.instant

def nanos : Nat := 1000000000

/-- `disco::now`: seconds since the epoch. -/
def secs (env : Env) : Nat := (env.clock.unix.getD 0) / nanos

def ambient (env : Env) (ephemeral : Option Key) (draw : Draw) : Ambient :=
  ⟨env.clock, env.now, ephemeral, draw.padding⟩

end Env

/-- Which way a packet came. -/
inductive Via
  | udpDirect
  | tcpDirect
  | relay
deriving DecidableEq

/-- How a handshake was completed. -/
inductive Role
  | initiator
  | responder
  | rekeyResponder
deriving DecidableEq

/-- What a handler does to the world. -/
inductive Output
  | udp (addr : SocketAddr) (bytes : Bytes)
  | tcp (conn : Nat) (bytes : Bytes)
  | relay (pk : Key) (bytes : Bytes)
  /-- A datagram handed to the batch for the UDP socket. -/
  | gso (addr : SocketAddr) (bytes : Bytes)
  | tun (packet : Bytes)
  /-- `mark_handshake` on the status of a peer, with the handshake that it reports. -/
  | handshake (pk : Key) (role : Role)
deriving DecidableEq

structure Peer (P : Primitives) where
  probes : Probes
  pubkey : Key
  discoKey : Key
  candidates : List SocketAddr
  raw : RawCryptor P
  directAddr : Option SocketAddr
  preferRelay : Bool
  preferTcp : Bool
  discoValidated : Bool
  handshaked : Bool
  initPacket : Option Bytes
  lastInit : Option Bytes
  lastResp : Option Bytes
  retries : UInt32
  lastRecv : Option Nat
  relayPinned : Bool
  lastRecvDirect : Option Nat
  pinnedAt : Option Nat
  lastUpgrade : Option Nat
  flaps : Nat
  tcpOut : Option Nat
  tcpGen : Nat
  handshakeAt : Option Nat
  rtt : Option Nat
  initSentAt : Option Nat
  rekeyAfter : Option Nat
  rekeyDelay : Nat

/-- Little-endian number at an offset, if in bounds. -/
def leU32 (b : Bytes) (off : Nat) : Option UInt32 :=
  if off + 4 ≤ b.length then some (readU32 b off) else none

/-- The order of public keys, which decides who initiates. -/
def keyLt (a b : Key) : Bool := decide (a.toList < b.toList)

namespace Peer

variable {P : Primitives}

def fresh (cfg : Config P) (pubkey : Key) (candidates : List SocketAddr) : Peer P where
  probes := .default
  pubkey := pubkey
  discoKey := discoShared P cfg.ownPriv pubkey
  candidates := candidates
  raw := .new P
  directAddr := if cfg.forceRelay then none else candidates.head?
  preferRelay := cfg.forceRelay
  preferTcp := false
  discoValidated := false
  handshaked := false
  initPacket := none
  lastInit := none
  lastResp := none
  retries := 0
  lastRecv := none
  relayPinned := false
  lastRecvDirect := none
  pinnedAt := none
  lastUpgrade := none
  flaps := 0
  tcpOut := none
  tcpGen := 0
  handshakeAt := none
  rtt := none
  initSentAt := none
  rekeyAfter := none
  rekeyDelay := 5

def withRaw (peer : Peer P) (raw : RawCryptor P) : Peer P := { peer with raw := raw }

/-- The peer with a cryptor that an INIT of it created. -/
def rebuilt (peer : Peer P) (raw : RawCryptor P) : Peer P :=
  { peer with raw := raw, handshaked := true }

/-- The INIT that opens the first handshake, kept to be sent again. -/
def withInit (peer : Peer P) (init : Bytes) (now : Nat) : Peer P :=
  { peer with initSentAt := some now, initPacket := some init }

/-- New candidates have to be validated. -/
def withCandidates (peer : Peer P) (candidates : List SocketAddr) : Peer P :=
  { peer with candidates := candidates, discoValidated := false }

def heard (peer : Peer P) (now : Nat) : Peer P := { peer with lastRecv := some now }

def answered (peer : Peer P) (init : Bytes) (now : Nat) : Peer P :=
  { peer with lastInit := some init, lastRecv := some now, handshakeAt := some now }

/-- The response to the INIT, kept to be sent again. -/
def withResp (peer : Peer P) (resp : Bytes) : Peer P := { peer with lastResp := some resp }

def established (peer : Peer P) (now : Nat) : Peer P :=
  { peer with handshaked := true, lastRecv := some now, handshakeAt := some now }

def noteRekey (peer : Peer P) (now : Nat) : Peer P :=
  { peer with
    rekeyAfter := some (now + peer.rekeyDelay * Env.nanos)
    rekeyDelay := min (peer.rekeyDelay * 2) 120 }

def authenticatedData (peer : Peer P) : Peer P :=
  { peer with rekeyAfter := none, rekeyDelay := 5 }

/-- Fold the time since the last INIT into the smoothed round trip. -/
def noteRtt (peer : Peer P) (now : Nat) : Peer P :=
  match peer.initSentAt with
  | none => peer
  | some t =>
    let sample := now - t
    { peer with
      initSentAt := none
      rtt := some (match peer.rtt with
        | some r => (r * 4 + sample) / 5
        | none => sample) }

/-- Start a probe of `targets`: the peer with the probe noted, the routes and the datagram. -/
def discoPingTo (cfg : Config P) (env : Env) (peer : Peer P) (routes : Routes)
    (targets : List SocketAddr) (nonce : Option (Block 4)) : Peer P × Routes × Option Bytes :=
  let (probes, routes, id) := peer.probes.start peer.pubkey targets routes env.secs nonce
  ({ peer with probes := probes }, routes,
    id.map fun txId => authDiscoDgram P peer.discoKey (.ping txId cfg.ownPub))

def discoPing (cfg : Config P) (env : Env) (peer : Peer P) (routes : Routes)
    (nonce : Option (Block 4)) : Peer P × Routes × Option Bytes :=
  let targets := match peer.directAddr with
    | some addr =>
      if peer.candidates.contains addr then peer.candidates else peer.candidates ++ [addr]
    | none => peer.candidates
  discoPingTo cfg env peer routes targets nonce

/-- Adopt the transport that an authenticated packet came on. -/
def setPath (peer : Peer P) (src : Option SocketAddr) (via : Via) (now : Nat) : Peer P :=
  match via with
  | .udpDirect =>
    { peer with
      directAddr := src.or peer.directAddr
      lastRecvDirect := some now
      preferTcp := false
      preferRelay := peer.relayPinned && peer.preferRelay }
  | .tcpDirect =>
    { peer with
      preferTcp := true
      lastRecvDirect := some now
      preferRelay := peer.relayPinned && peer.preferRelay }
  | .relay => { peer with preferRelay := true }

end Peer

def relayUp {P : Primitives} (cfg : Config P) (env : Env) : Bool := cfg.relay && env.relayAvailable

/-- Send to a peer down the ladder: UDP, TCP, relay, and UDP as the last resort. -/
def sendToPeer {P : Primitives} (cfg : Config P) (env : Env) (peer : Peer P) (bytes : Bytes) :
    List Output :=
  if !cfg.forceRelay && !peer.preferRelay && !peer.preferTcp && peer.directAddr.isSome then
    peer.directAddr.toList.map (.udp · bytes)
  else if !cfg.forceRelay && !peer.preferRelay && peer.tcpOut.isSome then
    peer.tcpOut.toList.map (.tcp · bytes)
  else if relayUp cfg env then [.relay peer.pubkey bytes]
  else peer.directAddr.toList.map (.udp · bytes)

end Fluxpeer.Node
