import Fluxpeer.Lib.Keyed
import Fluxpeer.Node.IndexTable
import Fluxpeer.Node.Peer

/-!
# Workers

A worker owns a shard of the peers and handles one message at a time. Besides its index table it
uses what it shares with the other workers: the map of index owners, the probe routes and the
counter of session bases. These make up its `Tables`. A handler returns what it leaves behind and
what it sent, or nothing where a call into the cryptor does not return.
-/

namespace Fluxpeer.Node

open Lib Crypto Net Tunnel

def tHandshakeInit : UInt8 := 1

def tHandshakeResp : UInt8 := 2

def tData : UInt8 := 4

def livenessDeadSecs : Nat := 5

def rekeyAfterSecs : Nat := 120

structure Tables where
  table : IndexTable
  owner : IndexOwner
  routes : Routes
  peerIndex : UInt32

namespace Tables

def insertIndex (t : Tables) (idx : Option UInt32) (pk : Key) : Tables :=
  match idx with
  | none => t
  | some idx =>
    let (table, owner) := t.table.insert t.owner idx pk
    { t with table := table, owner := owner }

def confirmIndex (t : Tables) (idx : Option UInt32) (pk : Key) : Tables :=
  match idx with
  | none => t
  | some idx =>
    let (table, owner) := t.table.confirm t.owner idx pk
    { t with table := table, owner := owner }

def removeIndices (t : Tables) (pk : Key) : Tables :=
  let (table, owner) := t.table.removePeer t.owner pk
  { t with table := table, owner := owner }

end Tables

structure Shard (P : Primitives) where
  peers : List (Peer P)
  tables : Tables

namespace Shard

variable {P : Primitives}

def findPeer (s : Shard P) (pk : Key) : Option (Peer P) := Keyed.find Peer.pubkey s.peers pk

def withTables (s : Shard P) (t : Tables) : Shard P := { s with tables := t }

/-- Put a peer in the place of the first one with its key. -/
def setPeer (s : Shard P) (peer : Peer P) : Shard P :=
  { s with peers := Keyed.set Peer.pubkey s.peers peer }

/-! ## Handshake INITs -/

/-- What follows once a peer's cryptor has accepted an INIT. -/
def answerInit (cfg : Config P) (env : Env) (s : Shard P) (peer : Peer P) (bytes : Bytes)
    (src : Option SocketAddr) (via : Via) (resp : Option Bytes) (role : Role) :
    Shard P × List Output :=
  let peer := (peer.setPath src via env.now).answered bytes env.now
  match resp with
  | none => (s.setPeer peer, [.handshake peer.pubkey role])
  | some resp =>
    let peer := peer.withResp resp
    ((s.withTables (s.tables.insertIndex (leU32 resp 4) peer.pubkey)).setPeer peer,
      .handshake peer.pubkey role :: sendToPeer cfg env peer resp)

/-- The part of `accept_init` that builds a cryptor anew. -/
def acceptFresh (cfg : Config P) (env : Env) (draw : Draw) (s : Shard P) (bytes : Bytes)
    (src : Option SocketAddr) (via : Via) : Shard P × List Output :=
  let (peerIndex, raw, result) := (RawCryptor.new P).handleHandshake s.tables.peerIndex cfg.ownPriv
    cfg.ownPub bytes (env.ambient draw.fresh draw)
  let s := s.withTables { s.tables with peerIndex := peerIndex }
  match result, raw.getPeerPublic with
  | .ok resp, .ok pk =>
    match s.findPeer pk with
    | none => (s, [])
    | some peer =>
      (s.withTables (s.tables.removeIndices pk)).answerInit cfg env (peer.rebuilt raw) bytes src
        via resp .responder
  | _, _ => (s, [])

/-- The peer of an INIT, if there was a handshake with it before. -/
def rekeyPeer (cfg : Config P) (s : Shard P) (bytes : Bytes) : Option (Peer P) :=
  ((peekInitPubkey P cfg.ownPriv cfg.ownPub bytes).filter fun pk =>
    s.peers.any fun p => p.pubkey = pk && p.handshaked).bind s.findPeer

def acceptInit (cfg : Config P) (env : Env) (draw : Draw) (s : Shard P) (bytes : Bytes)
    (src : Option SocketAddr) (via : Via) : Option (Shard P × List Output) :=
  match s.peers.find? (·.lastInit = some bytes) with
  | some peer =>
    -- A byte-identical INIT was answered before.
    some (s, match peer.lastResp with
      | none => []
      | some resp => sendToPeer cfg env peer resp)
  | none =>
    match s.rekeyPeer cfg bytes with
    | none => some (s.acceptFresh cfg env draw bytes src via)
    | some peer =>
      match peer.raw.rekeyRespond bytes (List.replicate 256 0) (env.ambient draw.ephemeral draw) with
      | none => none
      | some (raw, .ok resp) =>
        some (s.answerInit cfg env (peer.withRaw raw) bytes src via resp .rekeyResponder)
      | some (raw, .error _) =>
        some ((s.setPeer (peer.withRaw raw)).acceptFresh cfg env draw bytes src via)

/-! ## Responses and data -/

/-- A response or a data packet for a known peer, and the packet in it for the tunnel. -/
def handleWg (cfg : Config P) (env : Env) (draw : Draw) (s : Shard P) (peer : Peer P)
    (bytes : Bytes) (src : Option SocketAddr) (via : Via) :
    Option (Shard P × List Output × Option Bytes) :=
  if bytes.head? = some tHandshakeResp then
    match peer.raw.handleHandshakeResponse bytes env.now with
    | (raw, .error _) => some (s.setPeer (peer.withRaw raw), [], none)
    | (raw, .ok ()) =>
      let s := s.withTables (s.tables.confirmIndex (leU32 bytes 8) peer.pubkey)
      let peer :=
        (((peer.withRaw raw).setPath src via env.now).established env.now).noteRtt env.now
      -- A keepalive lets the responder confirm its side.
      match peer.raw.onSend [] (List.replicate 128 0) (env.ambient draw.ephemeral draw) with
      | none => none
      | some (raw, result) =>
        let peer := peer.withRaw raw
        let sent := match result with
          | .ok ka => sendToPeer cfg env peer ka
          | .error _ => []
        some (s.setPeer peer, .handshake peer.pubkey .initiator :: sent, none)
  else if bytes.head? = some tData then
    match peer.raw.onRecv bytes env.dbuf.toList (env.ambient draw.ephemeral draw) with
    | none => none
    | some (raw, .error _) => some (s.setPeer (peer.withRaw raw), [], none)
    | some (raw, .ok pkt) =>
      let s := s.withTables (s.tables.confirmIndex (leU32 bytes 4) peer.pubkey)
      let peer := ((peer.withRaw raw).authenticatedData.setPath src via env.now).heard env.now
      some (s.setPeer peer, [],
        if pkt.isEmpty then none else some pkt)
  else some (s, [], none)

/-- Decrypt for a peer and hand the plaintext to the tunnel if its source is the peer's. -/
def deliverWg (cfg : Config P) (env : Env) (s : Shard P) (pk : Key) (bytes : Bytes)
    (src : Option SocketAddr) (via : Via) : Option (Shard P × List Output) :=
  match s.findPeer pk with
  | none => some (s, [])
  | some peer => do
    let (s, out, pkt) ← s.handleWg cfg env (env.draws 0) peer bytes src via
    some (s, out ++ match pkt with
      | none => []
      | some pkt => if env.acceptsSource pk pkt then [.tun pkt] else [])

/-! ## The tick -/

/-- How long without an authenticated packet a path counts as dead. -/
def deadAfter (peer : Peer P) : Nat :=
  match peer.rtt with
  | none => livenessDeadSecs * Env.nanos
  | some r => max (r * 8) (livenessDeadSecs * Env.nanos)

def rekeyDue (cfg : Config P) (env : Env) (peer : Peer P) : Bool :=
  if !keyLt cfg.ownPub peer.pubkey || !peer.handshaked ||
      peer.rekeyAfter.any (env.now < ·) then false
  else if peer.initSentAt.any (env.now - · < deadAfter peer) then false
  else
    let aged := peer.handshakeAt.any (env.now - · ≥ rekeyAfterSecs * Env.nanos)
    let silent := peer.lastRecv.any (env.now - · ≥ deadAfter peer)
    aged || (!relayUp cfg env && silent)

/-- Initiate again on the peer's cryptor and register the index; the flag tells whether an INIT
was sent. -/
def emitRekey (cfg : Config P) (env : Env) (draw : Draw) (ephemeral : Option Key) (t : Tables)
    (peer : Peer P) : Tables × Peer P × List Output × Bool :=
  match peer.raw.rekeyInit (List.replicate 256 0) (env.ambient ephemeral draw) with
  | (raw, .error _) => (t, peer.withRaw raw, [], false)
  | (raw, .ok init) =>
    let peer := (peer.withRaw raw).noteRekey env.now
    (t.insertIndex (leU32 init 4) peer.pubkey, peer, sendToPeer cfg env peer init, true)

/-- A probe of every candidate, while no path was validated. -/
def tickProbe (cfg : Config P) (env : Env) (draw : Draw) (t : Tables) (peer : Peer P) :
    Tables × Peer P × List Output :=
  if cfg.forceRelay || peer.discoValidated then (t, peer, [])
  else
    let (peer, routes, ping) := peer.discoPing cfg env t.routes draw.nonce
    ({ t with routes := routes }, peer, ping.toList.flatMap fun ping =>
      peer.candidates.map (.udp · ping))

/-- A peer without a handshake: fall back to the relay after six ticks, and send the INIT again. -/
def tickWaiting (cfg : Config P) (env : Env) (peer : Peer P) : Peer P × List Output :=
  let peer := { peer with retries := peer.retries + 1 }
  let peer :=
    if !cfg.forceRelay && !peer.discoValidated && !peer.preferRelay && relayUp cfg env &&
      peer.retries ≥ 6 then { peer with preferRelay := true }
    else peer
  match peer.initPacket with
  | none => (peer, [])
  | some init => ({ peer with initSentAt := some env.now }, sendToPeer cfg env peer init)

/-- A keepalive down the path in use; for a pinned peer also down the direct one, with a probe. -/
def keepaliveSend (cfg : Config P) (env : Env) (draw : Draw) (t : Tables) (peer : Peer P)
    (ka : Bytes) : Tables × Peer P × List Output :=
  let sent := sendToPeer cfg env peer ka
  if peer.relayPinned && !cfg.forceRelay then
    let (peer, routes, ping) := peer.discoPing cfg env t.routes draw.secondNonce
    ({ t with routes := routes }, peer, sent ++ ping.toList.flatMap fun ping =>
      (peer.directAddr.toList.flatMap fun addr => [.udp addr ka, .udp addr ping]) ++
        peer.candidates.map (.udp · ping))
  else (t, peer, sent)

/-- What the cryptor makes of an empty payload: a keepalive, or an INIT that only the designated
initiator registers and sends. -/
def tickKeepalive (cfg : Config P) (env : Env) (draw : Draw) (t : Tables) (peer : Peer P) :
    Option (Tables × Peer P × List Output) := do
  let (raw, result) ← peer.raw.onSend [] env.ebuf.toList (env.ambient draw.ephemeral draw)
  let peer := peer.withRaw raw
  match result with
  | .error _ => some (t, peer, [])
  | .ok out =>
    if out.head? = some tData then some (keepaliveSend cfg env draw t peer out)
    else if out.head? = some tHandshakeInit && keyLt cfg.ownPub peer.pubkey then
      match leU32 out 4 with
      | none => some (t, peer, [])
      | some idx => some (t.insertIndex (some idx) peer.pubkey, peer, sendToPeer cfg env peer out)
    else some (t, peer, [])

/-- Keep a peer on the relay from now on; an upgrade that did not last counts as a flap. -/
def pin (env : Env) (peer : Peer P) : Peer P :=
  { peer with
    preferRelay := true
    relayPinned := true
    flaps := if peer.lastUpgrade.any (env.now - · < 20 * Env.nanos) then min (peer.flaps + 1) 5
      else 0
    pinnedAt := some env.now
    lastRecv := some env.now
    lastRecvDirect := none }

/-- A direct path that went silent: pin the peer to the relay and rekey over it. -/
def tickSilent (cfg : Config P) (env : Env) (draw : Draw) (t : Tables) (peer : Peer P) :
    Tables × Peer P × List Output :=
  let silent := peer.lastRecvDirect.all (env.now - · ≥ deadAfter peer)
  if silent && !peer.preferRelay && !cfg.forceRelay && relayUp cfg env then
    if keyLt cfg.ownPub peer.pubkey then
      let (t, peer, sent, ok) := emitRekey cfg env draw draw.silent t (pin env peer)
      (t, if ok then { peer with initSentAt := some env.now } else peer, sent)
    else (t, pin env peer, [])
  else (t, peer, [])

/-- A pinned peer whose direct path delivers again leaves the relay, after a time that grows with
the flaps. -/
def tickUpgrade (env : Env) (peer : Peer P) : Peer P :=
  if peer.relayPinned && peer.lastRecvDirect.any (env.now - · < livenessDeadSecs * Env.nanos) &&
      peer.pinnedAt.all (env.now - · ≥ 2 ^ min peer.flaps 5 * Env.nanos) then
    { peer with relayPinned := false, preferRelay := false, lastUpgrade := some env.now }
  else peer

/-- A rekey that is due by age, or by silence where there is no relay. -/
def tickAged (cfg : Config P) (env : Env) (draw : Draw) (t : Tables) (peer : Peer P) :
    Tables × Peer P × List Output :=
  if rekeyDue cfg env peer then
    let (t, peer, sent, ok) := emitRekey cfg env draw draw.aged t peer
    (t, if ok then { peer with initSentAt := some env.now, handshakeAt := some env.now } else peer,
      sent)
  else (t, peer, [])

def tickPeer (cfg : Config P) (env : Env) (draw : Draw) (t : Tables) (peer : Peer P) :
    Option (Tables × Peer P × List Output) :=
  let (t, peer, probed) := tickProbe cfg env draw t peer
  if !peer.handshaked then
    let (peer, sent) := tickWaiting cfg env peer
    some (t, peer, probed ++ sent)
  else do
    let (t, peer, kept) ← tickKeepalive cfg env draw t peer
    let (t, peer, silenced) := tickSilent cfg env draw t peer
    let peer := tickUpgrade env peer
    let (t, peer, aged) := tickAged cfg env draw t peer
    some (t, peer, probed ++ kept ++ silenced ++ aged)

def tickFrom (cfg : Config P) (env : Env) :
    Nat → List (Peer P) → Tables → Option (Tables × List (Peer P) × List Output)
  | _, [], t => some (t, [], [])
  | i, peer :: rest, t => do
    let (t, peer, sent) ← tickPeer cfg env (env.draws i) t peer
    let (t, rest, later) ← tickFrom cfg env (i + 1) rest t
    some (t, peer :: rest, sent ++ later)

def onTick (cfg : Config P) (env : Env) (s : Shard P) : Option (Shard P × List Output) := do
  let (t, peers, sent) ← tickFrom cfg env 0 s.peers s.tables
  some (⟨peers, t⟩, sent)

/-! ## Inbound packets -/

/-- The index by which a response or a data packet is routed. -/
def wgIndex (bytes : Bytes) : Option UInt32 :=
  if bytes.head? = some tHandshakeResp then leU32 bytes 8 else leU32 bytes 4

def onDisco (cfg : Config P) (env : Env) (s : Shard P) (src : SocketAddr) (dgram : Bytes) :
    Shard P × List Output :=
  let body := dgram.drop discoMagic.length
  match Disco.decode body with
  | .ok (.ping txId sender, used) =>
    match s.findPeer sender with
    | none => (s, [])
    | some peer =>
      if !discoAuthed P peer.discoKey dgram body used then (s, [])
      else
        let (probes, accepted) := peer.probes.acceptPing txId env.secs
        let peer := { peer with probes := probes }
        if !accepted then (s.setPeer peer, [])
        else
          let pong := Output.udp src (authDiscoDgram P peer.discoKey (.pong txId src))
          -- The source of a ping may be forged, so it is challenged and not adopted.
          if !peer.discoValidated || peer.directAddr ≠ some src then
            let (peer, routes, ping) :=
              peer.discoPingTo cfg env s.tables.routes [src] (env.draws 0).nonce
            ((s.withTables { s.tables with routes := routes }).setPeer peer,
              pong :: ping.toList.map (.udp src ·))
          else (s.setPeer peer, [pong])
  | .ok (.pong txId _, used) =>
    match s.peers.find? (·.probes.isPending txId src env.secs) with
    | none => (s, [])
    | some peer =>
      if !discoAuthed P peer.discoKey dgram body used || !discoReplayOk txId env.secs then (s, [])
      else
        match peer.probes.finish txId src s.tables.routes env.secs with
        | (_, _, false) => (s, [])
        | (probes, routes, true) =>
          let peer := { peer with
            probes := probes
            directAddr := some src
            preferRelay := peer.relayPinned && peer.preferRelay
            discoValidated := true }
          ((s.withTables { s.tables with routes := routes }).setPeer peer, [])
  | _ => (s, [])

def onUdpIn (cfg : Config P) (env : Env) (s : Shard P) (src : SocketAddr) (bytes : Bytes) :
    Option (Shard P × List Output) :=
  if discoMagic.isPrefixOf bytes then some (s.onDisco cfg env src bytes)
  else if bytes.head? = some tHandshakeInit then
    s.acceptInit cfg env (env.draws 0) bytes (some src) .udpDirect
  else
    match (wgIndex bytes).bind s.tables.table.get with
    | none => some (s, [])
    | some pk => s.deliverWg cfg env pk bytes (some src) .udpDirect

/-- A frame off the relay or off a TCP connection, which names its sender. -/
def onFramed (cfg : Config P) (env : Env) (s : Shard P) (sender : Key) (bytes : Bytes)
    (via : Via) : Option (Shard P × List Output) :=
  if bytes.head? = some tHandshakeInit then
    s.acceptInit cfg env (env.draws 0) bytes none via
  else s.deliverWg cfg env sender bytes none via

def onRelayIn (cfg : Config P) (env : Env) (s : Shard P) (sender : Key) (bytes : Bytes) :
    Option (Shard P × List Output) :=
  s.onFramed cfg env sender bytes .relay

def onTcpIn (cfg : Config P) (env : Env) (s : Shard P) (sender : Key) (bytes : Bytes) :
    Option (Shard P × List Output) :=
  s.onFramed cfg env sender bytes .tcpDirect

/-- A TCP connection came up or dropped; a newer one is not dropped by an older one's end. -/
def onTcpConn (s : Shard P) (pk : Key) (connGen : Nat) (out : Option Nat) : Shard P :=
  match s.findPeer pk with
  | none => s
  | some peer =>
    match out with
    | some tx => s.setPeer { peer with tcpOut := some tx, tcpGen := connGen }
    | none => if peer.tcpGen = connGen then s.setPeer { peer with tcpOut := none } else s

/-! ## Reconciliation and egress -/

def onAddPeer (cfg : Config P) (env : Env) (s : Shard P) (pubkey : Key)
    (candidates : List SocketAddr) (initiator : Bool) : Shard P × List Output :=
  if s.peers.any (·.pubkey = pubkey) then (s, [])
  else
    let draw := env.draws 0
    let (t, peer, probed) := tickProbe cfg env draw s.tables (Peer.fresh cfg pubkey candidates)
    if initiator then
      match peer.raw.initHandshake t.peerIndex cfg.ownPriv pubkey
          (env.ambient draw.ephemeral draw) with
      | (peerIndex, raw, .error _) =>
        (⟨s.peers ++ [peer.withRaw raw], { t with peerIndex := peerIndex }⟩, probed)
      | (peerIndex, raw, .ok init) =>
        let t := ({ t with peerIndex := peerIndex }).insertIndex (leU32 init 4) pubkey
        let peer := peer.withRaw raw
        let sent := sendToPeer cfg env peer init
        (⟨s.peers ++ [peer.withInit init env.now], t⟩, probed ++ sent)
    else (⟨s.peers ++ [peer], t⟩, probed)

/-- Drop a peer with its indices and its probes. -/
def onRemovePeer (s : Shard P) (pk : Key) : Shard P :=
  if s.peers.any (·.pubkey = pk) then
    let t := s.tables.removeIndices pk
    ⟨s.peers.filter (·.pubkey ≠ pk),
      { t with routes := t.routes.retain fun _ entry => entry.1 ≠ pk }⟩
  else s

/-- New candidates for a peer; the session and its index stay. -/
def onUpdateCandidates (cfg : Config P) (env : Env) (s : Shard P) (pubkey : Key)
    (candidates : List SocketAddr) : Shard P × List Output :=
  match s.findPeer pubkey with
  | none => (s, [])
  | some peer =>
    let (t, peer, probed) := tickProbe cfg env (env.draws 0) s.tables (peer.withCandidates candidates)
    ((s.withTables t).setPeer peer, probed)

def onTunEgress (cfg : Config P) (env : Env) (s : Shard P) (pk : Key) (pkt : Bytes) :
    Option (Shard P × List Output) :=
  match s.peers.find? (fun p => p.pubkey = pk && p.handshaked) with
  | none => some (s, [])
  | some peer => do
    let draw := env.draws 0
    let (raw, result) ← peer.raw.onSend pkt env.ebuf.toList (env.ambient draw.ephemeral draw)
    let peer := peer.withRaw raw
    match result with
    | .error _ => some (s.setPeer peer, [])
    | .ok enc =>
      if enc.head? = some tHandshakeInit then
        -- Only the designated initiator registers and sends an INIT.
        if keyLt cfg.ownPub peer.pubkey then
          some ((s.withTables (s.tables.insertIndex (leU32 enc 4) pk)).setPeer peer,
            sendToPeer cfg env peer enc)
        else some (s.setPeer peer, [])
      else if !cfg.forceRelay && !peer.preferRelay && peer.directAddr.isSome then
        some (s.setPeer peer, peer.directAddr.toList.map (.gso · enc))
      else some (s.setPeer peer, sendToPeer cfg env peer enc)

end Shard

/-! ## Nodes -/

inductive WorkerMsg
  | tick
  | udpIn (src : SocketAddr) (bytes : Bytes)
  | relayIn (sender : Key) (bytes : Bytes)
  | tcpIn (sender : Key) (bytes : Bytes)
  | tcpConn (pk : Key) (connGen : Nat) (out : Option Nat)
  | tunEgress (pk : Key) (pkt : Bytes)
  | addPeer (pubkey : Key) (candidates : List SocketAddr) (initiator : Bool)
  | removePeer (pk : Key)
  | updateCandidates (pubkey : Key) (candidates : List SocketAddr)

def Shard.handle {P : Primitives} (cfg : Config P) (env : Env) (s : Shard P) :
    WorkerMsg → Option (Shard P × List Output)
  | .tick => s.onTick cfg env
  | .udpIn src bytes => s.onUdpIn cfg env src bytes
  | .relayIn sender bytes => s.onRelayIn cfg env sender bytes
  | .tcpIn sender bytes => s.onTcpIn cfg env sender bytes
  | .tcpConn pk connGen out => some (s.onTcpConn pk connGen out, [])
  | .tunEgress pk pkt => s.onTunEgress cfg env pk pkt
  | .addPeer pubkey candidates initiator => some (s.onAddPeer cfg env pubkey candidates initiator)
  | .removePeer pk => some (s.onRemovePeer pk, [])
  | .updateCandidates pubkey candidates => some (s.onUpdateCandidates cfg env pubkey candidates)

structure Worker (P : Primitives) where
  peers : List (Peer P)
  table : IndexTable

/-- The workers and what they share. A worker's id is its position. -/
structure DataPlane (P : Primitives) where
  workers : Nat → Worker P
  owner : IndexOwner
  routes : Routes
  peerIndex : UInt32

namespace DataPlane

variable {P : Primitives}

structure Event where
  wid : Nat
  msg : WorkerMsg
  env : Env

/-- A data plane before its first peer. The peers of the first configuration join it by the steps
of `on_add_peer`. -/
def new (P : Primitives) : DataPlane P where
  workers := fun wid => ⟨[], .empty wid⟩
  owner := ∅
  routes := ∅
  peerIndex := firstPeerIndex

def shard (d : DataPlane P) (wid : Nat) : Shard P :=
  ⟨(d.workers wid).peers, ⟨(d.workers wid).table, d.owner, d.routes, d.peerIndex⟩⟩

def setShard (d : DataPlane P) (wid : Nat) (s : Shard P) : DataPlane P where
  workers := Function.update d.workers wid ⟨s.peers, s.tables.table⟩
  owner := s.tables.owner
  routes := s.tables.routes
  peerIndex := s.tables.peerIndex

def step (cfg : Config P) (d : DataPlane P) (e : Event) : Option (DataPlane P × List Output) :=
  ((d.shard e.wid).handle cfg e.env e.msg).map fun (s, out) => (d.setShard e.wid s, out)

def next? (cfg : Config P) (d : DataPlane P) (e : Event) : Option (DataPlane P) :=
  (d.step cfg e).map Prod.fst

/-! ## A sample node -/

def sampleConfig : Config Primitives.transparent :=
  ⟨Primitives.xorKey [1] [], Primitives.xorKey [1] [], true, true, rfl⟩

def samplePeer : Key := Primitives.xorKey [2] []

def sampleDraw : Draw :=
  let key := some (Primitives.xorKey [3] [])
  ⟨key, ⟨some 0, none⟩, key, key, key, none, none⟩

/-- An event for the first worker at a time in seconds. -/
def sampleEvent (secs : Nat) (msg : WorkerMsg) : Event :=
  ⟨0, msg, ⟨⟨some 0, secs * Env.nanos⟩, true, fun _ _ => true, .replicate _ 0, .replicate _ 0,
    fun _ => sampleDraw⟩⟩

end DataPlane

end Fluxpeer.Node
