import Fluxpeer.Lib.HashMap
import Fluxpeer.Lib.Run

/-!
# The peers of a worker of the server

A worker keeps its peers by key, and by port a list of the peers that got a transport there.
`set_transport` adds to the list of its port. When it replaces the transport of a peer, the list of
the port that the old one was set on keeps the peer, and whoever removes the peers of that port
removes it as well.

Closing a transport and starting its reader have no part in this. That a transport belongs to a port
is known from the request only.
-/

namespace Fluxpeer.Engine

open Lib

variable {Key Cryptor : Type}

structure Transport where
  port : UInt16

structure Peer where
  allowedIps : List String
  inner : Option Transport

def Peer.new (allowedIps : List String) : Peer := ⟨allowedIps, none⟩

def Peer.port (peer : Peer) : Option UInt16 := peer.inner.map Transport.port

/-- `Inner` of a worker. The lists of the ports are one list of entries. -/
structure Worker (Key Cryptor : Type) where
  peers : HashMap Key Peer
  peerByPort : List (UInt16 × Key)
  cryptoByPkey : HashMap Key Cryptor

inductive Request (Key Cryptor : Type)
  | addPeer (pkey : Key) (allowedIps : List String)
  | setTransport (port : UInt16) (pkey : Key) (cryptor : Cryptor)
  | removePeer (pkey : Key)
  | removePeersByPort (port : UInt16)
  | clearPeers

namespace Worker

def new : Worker Key Cryptor := ⟨∅, [], ∅⟩

variable [DecidableEq Key]

def addPeer (w : Worker Key Cryptor) (pkey : Key) (allowedIps : List String) : Worker Key Cryptor :=
  { w with peers := w.peers.insert pkey ((w.peers.lookup pkey).getD (.new allowedIps)) }

def setTransport (w : Worker Key Cryptor) (port : UInt16) (pkey : Key) (cryptor : Cryptor) :
    Worker Key Cryptor :=
  match w.peers.lookup pkey with
  | some peer =>
    { peers := w.peers.insert pkey { peer with inner := some ⟨port⟩ }
      peerByPort := w.peerByPort ++ [(port, pkey)]
      cryptoByPkey := w.cryptoByPkey.insert pkey cryptor }
  | none => { w with cryptoByPkey := (w.cryptoByPkey.insert pkey cryptor).erase pkey }

def removePeer (w : Worker Key Cryptor) (pkey : Key) : Except String (Worker Key Cryptor) :=
  match w.peers.lookup pkey with
  | none => .error "peer not found"
  | some _ => .ok
    { peers := w.peers.erase pkey
      peerByPort := w.peerByPort.filter (·.2 ≠ pkey)
      cryptoByPkey := w.cryptoByPkey.erase pkey }

def erase (w : Worker Key Cryptor) (pkey : Key) : Worker Key Cryptor :=
  { w with peers := w.peers.erase pkey, cryptoByPkey := w.cryptoByPkey.erase pkey }

def removePeerByPort (w : Worker Key Cryptor) (port : UInt16) : Worker Key Cryptor :=
  let pkeys := (w.peerByPort.filter (·.1 = port)).map (·.2)
  pkeys.foldl erase { w with peerByPort := w.peerByPort.filter (·.1 ≠ port) }

def step (w : Worker Key Cryptor) : Request Key Cryptor → Option (Worker Key Cryptor)
  | .addPeer pkey allowedIps => some (w.addPeer pkey allowedIps)
  | .setTransport port pkey cryptor => some (w.setTransport port pkey cryptor)
  | .removePeer pkey =>
    match w.removePeer pkey with
    | .ok w' => some w'
    | .error _ => some w
  | .removePeersByPort port => some (w.removePeerByPort port)
  | .clearPeers => some new

/-- The port that the transport of a peer was set on. -/
def portOf (w : Worker Key Cryptor) (pkey : Key) : Option UInt16 :=
  (w.peers.lookup pkey).bind Peer.port

/-- The peers of every port are removed, and no others. -/
def RemovesExactly (w : Worker Key Cryptor) : Prop :=
  ∀ port pkey, (w.removePeerByPort port).peers.lookup pkey =
    if w.portOf pkey = some port then none else w.peers.lookup pkey

/-- A transport replaces one on the same port only. -/
def Stays (w : Worker Key Cryptor) : Request Key Cryptor → Prop
  | .setTransport port pkey _ => ∀ old, w.portOf pkey = some old → old = port
  | _ => True

/-- The lists of the ports have the peers with a transport there. -/
def Indexed (w : Worker Key Cryptor) : Prop :=
  ∀ port pkey, (port, pkey) ∈ w.peerByPort ↔ w.portOf pkey = some port

variable {w w' : Worker Key Cryptor} {e : Request Key Cryptor} {port : UInt16} {pkey k : Key}

lemma portOf_addPeer (allowedIps : List String) :
    (w.addPeer pkey allowedIps).portOf k = w.portOf k := by
  unfold portOf addPeer
  cases h : w.peers.lookup pkey <;> grind [Peer.new, Peer.port]

lemma portOf_setTransport {peer : Peer} (h : w.peers.lookup pkey = some peer)
    (cryptor : Cryptor) : (w.setTransport port pkey cryptor).portOf k =
      if k = pkey then some port else w.portOf k := by
  grind [portOf, setTransport, Peer.port]

lemma lookup_foldl_erase (pkeys : List Key) : (pkeys.foldl erase w).peers.lookup pkey =
    if pkey ∈ pkeys then none else w.peers.lookup pkey := by
  induction pkeys generalizing w with
  | nil => simp
  | cons k pkeys ih => grind [erase]

lemma peerByPort_foldl_erase (pkeys : List Key) :
    (pkeys.foldl erase w).peerByPort = w.peerByPort := by
  induction pkeys generalizing w with
  | nil => rfl
  | cons k pkeys ih => exact ih

lemma lookup_removePeerByPort : (w.removePeerByPort port).peers.lookup pkey =
    if (port, pkey) ∈ w.peerByPort then none else w.peers.lookup pkey := by
  rw [removePeerByPort, lookup_foldl_erase]
  simp

lemma Indexed.removesExactly (h : w.Indexed) : w.RemovesExactly := by
  intro port pkey
  rw [lookup_removePeerByPort, if_congr (h port pkey) rfl rfl]

lemma Indexed.step (h : w.Indexed) (hstep : w.step e = some w') (hstays : w.Stays e) :
    w'.Indexed := by
  intro port' k
  have hk := h port' k
  cases e with
  | addPeer pkey allowedIps =>
    cases hstep
    rw [portOf_addPeer]
    exact hk
  | setTransport port pkey cryptor =>
    cases hstep
    cases hpeer : w.peers.lookup pkey with
    | none =>
      simp only [setTransport, hpeer]
      exact hk
    | some peer =>
      rw [portOf_setTransport hpeer]
      grind [setTransport, Stays]
  | removePeer pkey => grind [Worker.step, removePeer, portOf]
  | removePeersByPort port =>
    cases hstep
    rw [portOf, lookup_removePeerByPort, removePeerByPort, peerByPort_foldl_erase]
    grind [h port k, portOf]
  | clearPeers =>
    cases hstep
    simp [portOf, new]

/-- A peer whose transport moves to another port is removed with those of the port that it left. -/
lemma Indexed.stays_of_removesExactly (h : w.Indexed) (hstep : w.step e = some w')
    (hexact : w'.RemovesExactly) : w.Stays e := by
  cases e with
  | setTransport port pkey cryptor =>
    cases hstep
    intro old hold
    obtain ⟨peer, hpeer, -⟩ := Option.bind_eq_some_iff.mp hold
    have hlisted := (h old pkey).mpr hold
    have hlost := hexact old pkey
    rw [lookup_removePeerByPort, portOf_setTransport hpeer] at hlost
    grind [setTransport]
  | _ => trivial

/-- After any requests, removing the peers of a port removes those whose transport was set there and
no others, exactly if no transport was replaced by one on another port. -/
theorem removesExactly_iff_stays (requests : List (Request Key Cryptor)) :
    Always step RemovesExactly new requests ↔
      EveryStep step (fun w e _ => w.Stays e) new requests := by
  refine always_iff_everyStep (fun _ _ _ => Indexed.step) (fun _ => Indexed.removesExactly)
    (fun _ _ _ => Indexed.stays_of_removesExactly) requests ?_
  simp [Indexed, new, portOf]

/-- A peer that came back on port 2 goes with port 1. -/
theorem moved_peer_is_removed :
    ∃ w : Worker Nat Unit,
      runFrom step new [.addPeer 7 [], .setTransport 1 7 (), .setTransport 2 7 ()] = some w ∧
      w.portOf 7 = some 2 ∧ ((w.removePeerByPort 1).peers.lookup 7).isNone :=
  ⟨_, rfl, by decide, by decide⟩

end Worker

end Fluxpeer.Engine
