import Fluxpeer.Lib.HashMap
import Fluxpeer.Net.Disco
import Fluxpeer.Crypto.Primitives

/-!
# Authenticated probes

Disco datagrams between peers carry a MAC under the static-static DH secret. `Probes` is what a
peer remembers of them: the pings it has seen, until their timestamp leaves the replay window,
and its own probes that wait for an answer. `Routes` is shared by all workers and tells whose
probe a transaction id is.
-/

namespace Fluxpeer.Node

open Lib Crypto Net

/-- The bytes of `fpd1`. -/
def discoMagic : Bytes := [102, 112, 100, 49]

def discoMacLen : Nat := 16

def discoReplayWindowSecs : Nat := 30

/-- The bytes of `fluxpeer-disco-mac-v1`. -/
def discoMacLabel : Bytes :=
  [102, 108, 117, 120, 112, 101, 101, 114, 45, 100, 105, 115, 99, 111, 45, 109, 97, 99, 45, 118, 49]

def discoMac (P : Primitives) (staticShared : Key) (data : Bytes) : Block 16 :=
  P.b2sKeyedMac16 (P.b2sHmac staticShared discoMacLabel) data

def discoShared (P : Primitives) (ownPriv peerPub : Key) : Key := P.diffieHellman ownPriv peerPub

def discoDgram (msg : Disco) : Bytes := discoMagic ++ msg.encode

def authDiscoDgram (P : Primitives) (discoKey : Key) (msg : Disco) : Bytes :=
  discoDgram msg ++ (discoMac P discoKey (discoDgram msg)).toList

/-- The MAC of a datagram, `body` being the datagram behind the magic and `used` the length of
the message in it. -/
def discoAuthed (P : Primitives) (discoKey : Key) (dgram body : Bytes) (used : Nat) : Bool :=
  used + discoMacLen ≤ body.length && discoMagic.length + used ≤ dgram.length &&
    slice body used (used + discoMacLen) =
      (discoMac P discoKey (dgram.take (discoMagic.length + used))).toList

/-- The time in a transaction id, in seconds. -/
def timestamp (txId : TxId) : Nat := fromBe (txId.toList.take 8)

def absDiff (a b : Nat) : Nat := (a - b) + (b - a)

def discoReplayOk (txId : TxId) (now : Nat) : Bool :=
  absDiff now (timestamp txId) ≤ discoReplayWindowSecs

/-- The sum of two 64-bit numbers, or the greatest one. -/
def saturatingAdd (a b : Nat) : Nat := min (a + b) (2 ^ 64 - 1)

abbrev Routes := HashMap TxId (Key × Nat)

def probeCapacity : Nat := 128

structure Probes where
  seen : HashMap TxId Nat
  pending : HashMap TxId (List SocketAddr × Nat)

namespace Probes

def default : Probes := ⟨∅, ∅⟩

def acceptPing (p : Probes) (id : TxId) (now : Nat) : Probes × Bool :=
  let p := { p with seen := p.seen.retain fun _ expires => expires ≥ now }
  let sent := timestamp id
  if absDiff now sent > discoReplayWindowSecs ∨ p.seen.contains id ∨
      p.seen.len ≥ probeCapacity then (p, false)
  else
    ({ p with seen := p.seen.insert id (saturatingAdd sent discoReplayWindowSecs) }, true)

/-- Start a probe; `nonce` is what the random number generator gives. -/
def start (p : Probes) (peer : Key) (targets : List SocketAddr) (routes : Routes) (now : Nat)
    (nonce : Option (Block 4)) : Probes × Routes × Option TxId :=
  let p := { p with pending := p.pending.retain fun _ entry => entry.2 ≥ now }
  if targets.isEmpty ∨ p.pending.len ≥ probeCapacity then (p, routes, none)
  else
    match nonce with
    | none => (p, routes, none)
    | some random =>
      let id : TxId := ⟨beBytes 8 now ++ random.toList, by simp⟩
      let routes := routes.retain fun _ entry => entry.2 ≥ now
      if routes.contains id then (p, routes, none)
      else
        let expires := saturatingAdd now discoReplayWindowSecs
        ({ p with pending := p.pending.insert id (targets, expires) },
          routes.insert id (peer, expires), some id)

def isPending (p : Probes) (id : TxId) (src : SocketAddr) (now : Nat) : Bool :=
  match p.pending.lookup id with
  | none => false
  | some (targets, expires) => expires ≥ now && targets.contains src

def finish (p : Probes) (id : TxId) (src : SocketAddr) (routes : Routes) (now : Nat) :
    Probes × Routes × Bool :=
  if p.isPending id src now then
    ({ p with pending := p.pending.erase id }, routes.erase id, true)
  else (p, routes, false)

end Probes

end Fluxpeer.Node
