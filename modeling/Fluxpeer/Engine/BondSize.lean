import Fluxpeer.Lib.Run
import Mathlib.Algebra.Group.Nat.Defs

/-!
# The size of a client bond

A bond keeps its links in a list that only grows. In each round its task counts the links that are
alive and makes one new connection if they are fewer than configured. A link that died stays in the
list, and so does its connection, so the lists grow with the links that died.

The bond over TCP and the one over TLS have the same rounds; only the second looks whether the group
was closed while the connection was made.
-/

namespace Fluxpeer.Engine

open Lib

structure BondConfig where
  bondConnections : Nat
  maxConsecutiveFailures : Nat
  degradedRttUs : Nat
  recoveryRttUs : Nat
  recoveryLossPermille : Nat

def BondConfig.effectiveBondConnections (config : BondConfig) : Nat :=
  max 1 (min config.bondConnections 8)

/-- The part of `ConnHealth` that a link lives by; no loss is ever recorded. -/
structure ConnHealth where
  rttUs : Nat
  lossPermille : Nat
  weight : Nat
  consecutiveFailures : Nat

namespace ConnHealth

def new : ConnHealth := ⟨0, 0, 100, 0⟩

def isDead (h : ConnHealth) : Bool := h.weight = 0

def recordRtt (config : BondConfig) (h : ConnHealth) (rttUs : Nat) : ConnHealth :=
  let v := if h.rttUs = 0 then rttUs else (h.rttUs * 7 + rttUs * 3) / 10
  let recovered := if v < config.recoveryRttUs ∧ h.lossPermille < config.recoveryLossPermille ∧
      h.weight < 100 then min (h.weight + 10) 100 else h.weight
  { h with
    rttUs := v
    consecutiveFailures := 0
    weight := if v > config.degradedRttUs then recovered - 20 else recovered }

def recordFailure (config : BondConfig) (h : ConnHealth) : ConnHealth :=
  let f := h.consecutiveFailures + 1
  { h with
    consecutiveFailures := f
    weight := if f ≥ config.maxConsecutiveFailures then 0 else h.weight }

end ConnHealth

/-- The links of the group by their health, and the connections of the task by their ids. -/
structure ClientBond where
  links : List ConnHealth
  managed : List Nat
  nextId : Nat
  /-- The task has ended: the group is closed, its session is no longer active, or there are no more
  ids. -/
  ended : Bool

inductive BondEvent
  /-- The sender, the reader, the connection or a ping of a link fails. -/
  | failure (link : Nat)
  | pong (link rttUs : Nat)
  /-- A round of the task; the connection it makes, if it makes one, comes up or not. -/
  | round (connected : Bool)
  /-- A round in which the group is closed while the connection is made. -/
  | lateRound
  | close

namespace ClientBond

/-- The bond that `build_client_bond` starts the task with. -/
def start (n : Nat) (config : BondConfig) : ClientBond :=
  ⟨List.replicate n .new, List.range n, config.effectiveBondConnections, false⟩

def aliveCount (b : ClientBond) : Nat := b.links.countP (!·.isDead)

def deadCount (b : ClientBond) : Nat := b.links.countP (·.isDead)

def step (config : BondConfig) (b : ClientBond) : BondEvent → Option ClientBond
  | .failure link => some { b with links := b.links.modify link (·.recordFailure config) }
  | .pong link rttUs => some { b with links := b.links.modify link (·.recordRtt config rttUs) }
  | .round connected =>
    if b.ended then none
    else if b.aliveCount < config.effectiveBondConnections ∧ connected then
      some { b with
        links := b.links ++ [.new]
        managed := b.managed ++ [b.nextId]
        nextId := b.nextId + 1
        ended := b.nextId + 1 = 2 ^ 64 }
    else some b
  | .lateRound =>
    if b.ended then none
    else if b.aliveCount < config.effectiveBondConnections then
      some { b with managed := b.managed ++ [b.nextId], nextId := b.nextId + 1, ended := true }
    else some { b with ended := true }
  | .close => some { b with ended := true }

def Bounded (bound : Nat) (b : ClientBond) : Prop :=
  b.links.length ≤ bound ∧ b.managed.length ≤ bound

/-- A round that finds too few links alive finds at most `d` dead. -/
def FewDead (config : BondConfig) (d : Nat) (b : ClientBond) : BondEvent → Prop
  | .round _ | .lateRound => b.aliveCount < config.effectiveBondConnections → b.deadCount ≤ d
  | _ => True

instance (config : BondConfig) (d : Nat) (b : ClientBond) :
    (e : BondEvent) → Decidable (b.FewDead config d e)
  | .round _ | .lateRound => inferInstanceAs (Decidable (_ → _))
  | .failure _ | .pong _ _ | .close => .isTrue trivial

lemma length_links (b : ClientBond) : b.links.length = b.aliveCount + b.deadCount := by
  rw [List.length_eq_countP_add_countP (!·.isDead)]
  simp [aliveCount, deadCount]

/-- While the task runs, every connection has its link. -/
structure Kept (bound : Nat) (b : ClientBond) : Prop where
  bounded : b.Bounded bound
  paired : b.ended = false → b.managed.length = b.links.length

lemma Kept.step {config : BondConfig} {d : Nat} {b b' : ClientBond} {e : BondEvent}
    (h : b.Kept (config.effectiveBondConnections + d)) (hstep : b.step config e = some b')
    (hfew : b.FewDead config d e) : b'.Kept (config.effectiveBondConnections + d) := by
  obtain ⟨⟨hlinks, hmanaged⟩, hpaired⟩ := h
  have hlength := b.length_links
  cases e with
  | failure | pong =>
    cases hstep
    exact ⟨⟨by simpa using hlinks, hmanaged⟩, by simpa using hpaired⟩
  | round | lateRound =>
    have hdead : b.aliveCount < config.effectiveBondConnections → b.deadCount ≤ d := hfew
    grind [ClientBond.step, Bounded, Kept]
  | close =>
    cases hstep
    exact ⟨⟨hlinks, hmanaged⟩, nofun⟩

def oneLink : BondConfig := ⟨1, 1, 5000000, 2000000, 30⟩

def failed : ConnHealth := ConnHealth.new.recordFailure oneLink

end ClientBond

end Fluxpeer.Engine
