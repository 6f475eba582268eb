import Fluxpeer.Node.HostEffects

/-!
# No host effect after shutdown

The flag that `cleanup` sets stands behind a lock, and all work on the host is done with that lock
held: by the tasks that keep the host configured while the flag is not set, by the teardown after it
was set. So in any order of their steps no work is started once the flag is set but the teardown,
and what was started before has ended when the teardown begins.
-/

namespace Fluxpeer.Node

open Lib Crypto

/-- The flag as the work finds it. -/
def HostWork.stopped : HostWork → Bool
  | .reconcile => false
  | .teardown => true

/-- Only who has the `shutdown` lock sets the flag or works on the host. -/
def shutdownGate : Discipline HostLock Host HostCall where
  gate := .shutdown
  Inv _ := True
  Rely h h' := h'.stopped = h.stopped
  Own h h' := h.stopped = true → h'.stopped = true
  Outside call := call.op.onHost = false
  Permit h call := call.op.onHost = true → h.stopped = call.work.stopped
  rely_refl _ := rfl
  rely_trans h h' := h'.trans h
  inv_rely _ _ := trivial

namespace HostProg

variable {α β : Type} {w : HostWork} {p : HostProg α}

/-! ## Inside the gate -/

variable {l : HostLock} {f : Host → α}

abbrev Free (p : HostProg α) : Prop := shutdownGate.Free p

variable {epoch : Nat}

variable {selected : Option Key} {peers : List PeerInfo} {c : HostSettings}
  {desired : Option String}

variable {selfExit : Bool} {policy : ProviderPolicy} {on : Bool}

variable {retain : Bool} {ips : List String}

end HostProg

section Runs

variable {c : HostSettings} {h : Host} {es : List HostEvent} {state : Nat → HostPool}

end Runs

namespace HostOp

end HostOp

end Fluxpeer.Node
