import Fluxpeer.Node.Outstanding

/-!
# Addresses adopted from answers

A direct address is adopted from a disco datagram only as the answer to a probe: one that was
started for that peer with the address among its targets, that no answer has taken since, that has
not expired, and whose pong has the MAC under the peer's key. Here the probes of all workers are one
book of tickets, and a run of the node is a history of it.
-/

namespace Fluxpeer.Node

open Lib Crypto Net Shard

namespace DataPlane

variable {P : Primitives} {cfg : Config P} {d d' : DataPlane P} {e : Event} {s : Shard P}

/-- The probe that a peer of a worker waits for under a transaction id: its targets, and until when
it counts. -/
def probeOf (d : DataPlane P) (wid : Nat) (pk : Key) (txId : TxId) :
    Option (List SocketAddr × Nat) :=
  ((d.shard wid).findPeer pk).bind fun peer => peer.probes.pending.lookup txId

def book (d : DataPlane P) : Book (Nat × Key) TxId (List SocketAddr) Key where
  held h txId := d.probeOf h.1 h.2 txId
  named txId := d.routes.lookup txId

/-- What holds of every worker's peers. -/
structure Sound (cfg : Config P) (d : DataPlane P) : Prop where
  unique : ∀ wid, (d.shard wid).Unique
  paired : ∀ wid, (d.shard wid).Paired cfg

section Runs

variable {es : List Event} {state : Nat → DataPlane P}

end Runs

end DataPlane

end Fluxpeer.Node
