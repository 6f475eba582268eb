import Fluxpeer.Lib.Threads
import Fluxpeer.Node.ExitChoice

/-!
# Host effects

Routes, bypasses, the exit, DNS, NAT and the kill switch are kept up by tasks that run at the same
time: `apply` and what it is made of, and `cleanup` when the node stops. Each is a program over the
locks of `HostEffects`; work on the host is a call that takes time and may fail.
-/

namespace Fluxpeer.Node

open Lib Crypto Net

/-! ## Results -/

structure ApplyError where
  command : List String
  exitCode : Option Int
  stderr : String
deriving DecidableEq

namespace ApplyError

def new (command : List String) (stderr : String) : ApplyError := ⟨command, none, stderr⟩

def showCode : Option Int → String
  | none => "None"
  | some code => "Some(" ++ toString code ++ ")"

def display (e : ApplyError) : String :=
  String.intercalate " " e.command ++ " (exit " ++ showCode e.exitCode ++ "): " ++ trim e.stderr

/-- The order in which errors are reported. -/
def le (a b : ApplyError) : Bool :=
  ((compare a.command b.command).then
    ((compare a.exitCode b.exitCode).then (compare a.stderr b.stderr))).isLE

end ApplyError

abbrev ApplyResult (α : Type) := Except ApplyError α

/-- One result for several effects. -/
def ApplyResult.all (results : List (ApplyResult Unit)) : ApplyResult Unit :=
  let errors := results.filterMap fun
    | .error e => some e
    | .ok () => none
  match (errors.insertionSort fun a b => ApplyError.le a b).destutter (· ≠ ·) with
  | [] => .ok ()
  | first :: rest => .error { first with
      stderr := rest.foldl (fun text e => text ++ "; additional effect: " ++ e.display)
        first.stderr }

/-! ## State -/

structure ExitTunState where
  exitPeer : Key
  teardownStarted : Bool
deriving DecidableEq

structure DnsInstall where
  applied : Option String
  dirty : Bool

structure NatInstall where
  recovered : Bool
  recoveryDeferred : Bool
  applied : Option String
  dirty : Option String
  /-- A firewall backend was detected. -/
  backend : Bool

/-- The retry budget of one effect. -/
structure Retry where
  epoch : Option Nat
  error : Option ApplyError
  next : Option Nat
  delay : Nat

namespace Retry

def default : Retry := ⟨none, none, none, 0⟩

/-- A new epoch resets the budget. -/
def enter (r : Retry) (epoch : Nat) : Retry :=
  if r.epoch ≠ some epoch then { default with epoch := some epoch } else r

/-- The error that stands while the delay lasts. -/
def waiting (r : Retry) (now : Nat) : Option ApplyError :=
  if r.next.any (now < ·) then r.error else none

def record (r : Retry) (now : Nat) : ApplyResult Unit → Retry
  | .ok () => { r with error := none, next := none, delay := 0 }
  | .error e =>
    let delay := if r.delay = 0 then 2 else min (r.delay * 2) 60
    { r with delay, next := some (now + delay * Env.nanos), error := some e }

end Retry

/-- The effects with a budget of their own. -/
inductive HostStage
  | routes
  | exit
  | dns
  | nat
  | retire
deriving DecidableEq

structure HostRuntime where
  dns : DnsInstall
  dnsStartupChecked : Bool
  dnsFullTunnel : Bool
  retries : HostStage → Retry

/-- What the tasks share. -/
structure Host where
  /-- The value behind the `shutdown` lock. -/
  stopped : Bool
  runtime : HostRuntime
  exitState : Option ExitTunState
  nat : NatInstall
  relayIps : List String
  dnsOverride : List String
  /-- The pinned addresses of the control server. -/
  carriers : List String

namespace Host

def init (relayIps dnsOverride carriers : List String) : Host where
  stopped := false
  runtime := ⟨⟨none, false⟩, false, false, fun _ => .default⟩
  exitState := none
  nat := ⟨false, false, none, none, false⟩
  relayIps := relayIps
  dnsOverride := dnsOverride
  carriers := carriers

end Host

structure ProviderPolicy where
  enabled : Bool
  force : Option Bool
  veto : Bool

/-- What does not change while the node runs. -/
structure HostSettings where
  text : AddrText
  showIp : SocketAddr → String
  showOverlay : Block 4 → String
  controlHost : String
  killSwitch : Bool
  /-- The name of the control server, where its addresses are pinned. -/
  carrierDns : Option String
  carrierCache : Bool
  excludeRoutes : List String
  provider : ProviderPolicy
  manageHostRoutes : Bool
  /-- The value of `FLUXPEER_MANAGE_DNS`. -/
  manageDns : Bool

/-! ## Calls -/

inductive HostOp
  | now
  | resolve (host : String)
  | resolveBypass (candidates : List String)
  | syncHost (peers : List PeerInfo) (epoch : Nat)
  | syncBypass (ips : List String) (retain : Bool)
  | exitUp (peers : List PeerInfo)
  | exitDown
  | cleanupExit
  | setDns (dns : String) (full : Bool)
  | resetDns
  | verifyDnsFile
  | dnsRestorePending
  | hasLease
  | recover
  | detect
  | physicalIface
  | gatewayUp (phys : String)
  | gatewayDown (phys : String)
  | guardSync (ips : List String) (retain : Bool)
  | guardCheck
deriving DecidableEq

namespace HostOp

/-- The lookups carry the text of their I/O error. -/
def Answer : HostOp → Type
  | .now => Nat
  | .resolve _ | .resolveBypass _ => Except String (List String)
  | .dnsRestorePending | .hasLease => ApplyResult Bool
  | .physicalIface => ApplyResult (Option String)
  | _ => ApplyResult Unit

/-- All but the clock and lookups is work on the host. -/
def onHost : HostOp → Bool
  | .now | .resolve _ | .resolveBypass _ => false
  | _ => true

end HostOp

/-- Whether a call brings the host to a configuration or is a step of the teardown. -/
inductive HostWork
  | reconcile
  | teardown
deriving DecidableEq

structure HostCall where
  work : HostWork
  op : HostOp
deriving DecidableEq

inductive HostLock
  | runtime
  | shutdown
  | exitState
  | exitProgress
  | natState
  | killSwitch
  | relayIps
  | dnsOverride
  | carriers
deriving DecidableEq

abbrev HostProg := Prog HostLock Host HostCall fun call => call.op.Answer

namespace HostProg

def host (work : HostWork) (op : HostOp) : HostProg op.Answer := Prog.ask (HostCall.mk work op)

def readLocked {α : Type} (l : HostLock) (f : Host → α) : HostProg α :=
  Prog.withLock l do
    let h ← Prog.get
    pure (f h)

/-- `Retry::run` on the budget of an effect, with the runtime locked. -/
def retry (stage : HostStage) (epoch now : Nat) (effect : HostProg (ApplyResult Unit)) :
    HostProg (ApplyResult Unit) := do
  let update (f : Retry → Retry) : HostProg Unit := Prog.modify fun h => { h with runtime :=
    { h.runtime with retries :=
      Function.update h.runtime.retries stage (f (h.runtime.retries stage)) } }
  update (·.enter epoch)
  let h ← Prog.get
  match (h.runtime.retries stage).waiting now with
  | some e => pure (.error e)
  | none => do
    let result ← effect
    update (·.record now result)
    pure result

/-! ## The exit -/

def setExit (state : Option ExitTunState) : HostProg Unit :=
  Prog.modify fun h => { h with exitState := state }

/-- Take the exit down, with its state locked; `teardown_started` stays if that fails. -/
def removeExit (work : HostWork) (old : ExitTunState) : HostProg (ApplyResult Unit) := do
  setExit (some { old with teardownStarted := true })
  host work .exitDown

def retireExitWith (selected : Option Key) : HostProg (ApplyResult Unit) :=
  Prog.withLock .shutdown do
    let h ← Prog.get
    if h.stopped then pure (.ok ())
    else Prog.withLock .exitState do
      let h ← Prog.get
      match h.exitState with
      | none => pure (.ok ())
      | some old =>
        if some old.exitPeer ≠ selected then
          Prog.andThen (removeExit .reconcile old) fun _ => do
            setExit none
            pure (.ok ())
        else pure (.ok ())

/-- An exit whose teardown has started is retired whatever is selected. -/
def retireExit (selected : Option Key) : HostProg (ApplyResult Unit) := do
  let exit ← readLocked .exitState (·.exitState)
  retireExitWith (if exit.any (·.teardownStarted) then none else selected)

def installExit (selected : Option Key) (peers : List PeerInfo) : HostProg (ApplyResult Unit) :=
  match selected with
  | none => pure (.ok ())
  | some pk =>
    Prog.andThen (Prog.withLock .exitProgress (host .reconcile (.exitUp peers))) fun _ => do
      setExit (some ⟨pk, false⟩)
      pure (.ok ())

def syncExitWith (selected : Option Key) (peers : List PeerInfo) : HostProg (ApplyResult Unit) :=
  Prog.withLock .shutdown do
    let h ← Prog.get
    if h.stopped then pure (.ok ())
    else Prog.withLock .exitState do
      let h ← Prog.get
      if h.exitState.map (·.exitPeer) = selected then pure (.ok ())
      else
        match h.exitState with
        | none => installExit selected peers
        | some old => Prog.andThen (removeExit .reconcile old) fun _ => do
          setExit none
          installExit selected peers

/-- What an earlier attempt left of an exit goes first; nothing, once the node stops. -/
def cleanupPending : HostProg (Option (ApplyResult Unit)) :=
  Prog.withLock .shutdown do
    let h ← Prog.get
    if h.stopped then pure none
    else do
      let result ← Prog.withLock .exitProgress (host .reconcile .cleanupExit)
      pure (some result)

def syncExit (c : HostSettings) (peers : List PeerInfo) : HostProg (ApplyResult Unit) :=
  if !c.manageHostRoutes then pure (.ok ())
  else do
    match ← cleanupPending with
    | none => pure (.ok ())
    | some (.error e) => pure (.error e)
    | some (.ok ()) => syncExitWith (selectedExit c.text peers) peers

def retire (c : HostSettings) (epoch : Nat) (selected : Option Key) :
    HostProg (ApplyResult Unit) :=
  if !c.manageHostRoutes then pure (.ok ())
  else do
    let exit ← readLocked .exitState (·.exitState)
    if exit.all fun s => some s.exitPeer = selected && !s.teardownStarted then pure (.ok ())
    else Prog.withLock .runtime do
      let now ← host .reconcile .now
      retry .retire epoch now (retireExit selected)

/-! ## DNS -/

def modifyDns (f : DnsInstall → DnsInstall) : HostProg Unit :=
  Prog.modify fun h => { h with runtime := { h.runtime with dns := f h.runtime.dns } }

def syncDnsWith (desired : Option String) (set : String → HostProg (ApplyResult Unit))
    (clear : HostProg (ApplyResult Unit)) : HostProg (ApplyResult Unit) := do
  let h ← Prog.get
  match desired with
  | some dns =>
    if h.runtime.dns.applied ≠ some dns || h.runtime.dns.dirty then do
      modifyDns ({ · with dirty := true })
      Prog.andThen (set dns) fun _ => do
        modifyDns fun _ => ⟨some dns, false⟩
        pure (.ok ())
    else pure (.ok ())
  | none =>
    if h.runtime.dns.applied.isSome || h.runtime.dns.dirty then
      Prog.andThen clear fun _ => do
        modifyDns fun _ => ⟨none, false⟩
        pure (.ok ())
    else pure (.ok ())

def syncDnsModeWith (desired : Option String) (full : Bool) : HostProg (ApplyResult Unit) := do
  Prog.modify fun h =>
    let dirty := h.runtime.dns.dirty || (h.runtime.dnsFullTunnel ≠ full && desired.isSome)
    { h with runtime := { h.runtime with dns.dirty := dirty, dnsFullTunnel := full } }
  Prog.andThen (syncDnsWith desired (fun dns => host .reconcile (.setDns dns full))
    (host .reconcile .resetDns)) fun _ =>
      if full && desired.isSome then host .reconcile .verifyDnsFile else pure (.ok ())

def desiredDns (c : HostSettings) (peers : List PeerInfo) (overrides : List String)
    (exitReady manageAdmin : Bool) : Option String :=
  let joined := if overrides.isEmpty then none else some (String.intercalate " " overrides)
  match selectedExit c.text peers with
  | some pk =>
    if !exitReady then none
    else joined.or ((peers.find? (·.pubkey = pk)).bind fun p => p.overlay.map c.showOverlay)
  | none => if manageAdmin then joined else none

/-- A restoration left over from an earlier run makes the DNS state dirty. -/
def checkDnsStartup : HostProg (ApplyResult Unit) := do
  let h ← Prog.get
  if h.runtime.dnsStartupChecked then pure (.ok ())
  else Prog.andThen (host .reconcile .dnsRestorePending) fun pending => do
    Prog.modify fun h => { h with runtime := { h.runtime with
      dns.dirty := h.runtime.dns.dirty || pending, dnsStartupChecked := true } }
    pure (.ok ())

def syncDns (c : HostSettings) (peers : List PeerInfo) (exitOk : Bool) :
    HostProg (ApplyResult Unit) :=
  Prog.withLock .shutdown do
    let h ← Prog.get
    if h.stopped || !c.manageHostRoutes then pure (.ok ())
    else Prog.andThen checkDnsStartup fun _ => do
      let exit ← readLocked .exitState (·.exitState)
      let ready := exitOk && exit.any fun s =>
        some s.exitPeer = selectedExit c.text peers && !s.teardownStarted
      let overrides ← readLocked .dnsOverride (·.dnsOverride)
      syncDnsModeWith (desiredDns c peers overrides ready c.manageDns) ready

/-! ## NAT -/

def modifyNat (f : NatInstall → NatInstall) : HostProg Unit :=
  Prog.modify fun h => { h with nat := f h.nat }

def natOn (policy : ProviderPolicy) (selfExit : Bool) : Bool :=
  if policy.veto then false else policy.force.getD selfExit

/-- Clean up after an earlier run. It can be put off only while NAT is off and there is no lease. -/
def recoverNat (on : Bool) : HostProg (ApplyResult Unit) := do
  let h ← Prog.get
  if h.nat.recovered then pure (.ok ())
  else
    let lease : HostProg (ApplyResult Bool) :=
      if on then pure (.ok true) else host .reconcile .hasLease
    Prog.andThen lease fun leased =>
      if !leased && h.nat.recoveryDeferred then pure (.ok ())
      else do
        match ← host .reconcile .recover with
        | .ok () => do
          modifyNat ({ · with recovered := true, recoveryDeferred := false })
          pure (.ok ())
        | .error e =>
          if !leased then do
            modifyNat ({ · with recoveryDeferred := true })
            pure (.ok ())
          else pure (.error e)

/-- A failed setup leaves the interface to be cleaned up. -/
def reconcileNat (on : Bool) (discover : HostProg (ApplyResult (Option String)))
    (apply : Bool → String → HostProg (ApplyResult Unit)) : HostProg (ApplyResult Unit) := do
  let h ← Prog.get
  let cleaned : HostProg (ApplyResult Unit) :=
    match h.nat.dirty with
    | none => pure (.ok ())
    | some phys => Prog.andThen (apply false phys) fun _ => do
      modifyNat ({ · with dirty := none })
      pure (.ok ())
  Prog.andThen cleaned fun _ =>
    match on, h.nat.applied with
    | true, none => Prog.andThen discover fun found =>
      match found with
      | none => pure (.error (.new ["discover", "physical-interface"]
          "no physical egress interface"))
      | some phys => do
        match ← apply true phys with
        | .error e => do
          modifyNat ({ · with dirty := some phys })
          pure (.error e)
        | .ok () => do
          modifyNat ({ · with applied := some phys })
          pure (.ok ())
    | false, some phys => Prog.andThen (apply false phys) fun _ => do
      modifyNat ({ · with applied := none })
      pure (.ok ())
    | _, _ => pure (.ok ())

/-- Recovery and the choice of a backend; nothing, once the node stops. -/
def prepareNat (policy : ProviderPolicy) (selfExit : Bool) :
    HostProg (Option (ApplyResult Unit)) :=
  Prog.withLock .shutdown do
    let h ← Prog.get
    if h.stopped || !policy.enabled then pure none
    else Prog.withLock .natState do
      let result ← Prog.andThen (recoverNat (natOn policy selfExit)) fun _ => do
        let h ← Prog.get
        if !h.nat.backend &&
            (natOn policy selfExit || h.nat.applied.isSome || h.nat.dirty.isSome) then
          Prog.andThen (host .reconcile .detect) fun _ => do
            modifyNat ({ · with backend := true })
            pure (.ok ())
        else pure (.ok ())
      pure (some result)

def setNat (on : Bool) : HostProg (ApplyResult Unit) :=
  Prog.withLock .shutdown do
    let h ← Prog.get
    if h.stopped then pure (.ok ())
    else Prog.withLock .natState (reconcileNat on (host .reconcile .physicalIface) fun up phys =>
      if up then host .reconcile (.gatewayUp phys) else host .reconcile (.gatewayDown phys))

def syncNat (policy : ProviderPolicy) (selfExit : Bool) : HostProg (ApplyResult Unit) := do
  match ← prepareNat policy selfExit with
  | none => pure (.ok ())
  | some (.error e) => pure (.error e)
  | some (.ok ()) => if policy.enabled then setNat (natOn policy selfExit) else pure (.ok ())

def removeNat : HostProg (ApplyResult Unit) :=
  Prog.withLock .natState (reconcileNat false (pure (.ok none)) fun _ phys =>
    host .teardown (.gatewayDown phys))

/-! ## Carriers -/

/-- The addresses that have to stay outside the tunnel. -/
def exitBypassCandidates (c : HostSettings) (controlHost : String) (relays : List String)
    (peers : List PeerInfo) (excludes : List String) : List String :=
  let control := if controlHost = "" then [] else [controlHost]
  let all := control ++ relays ++ (peers.flatMap (·.candidates)).map c.showIp ++ excludes
  (all.insertionSort (· ≤ ·)).destutter (· ≠ ·)

/-- Let the new carriers through the kill switch and around the tunnel, before they are used. -/
def permitCarriers (c : HostSettings) (ips : List String) (retain : Bool) :
    Except String (List String) → HostProg (ApplyResult Unit)
  | .error text => do
    let check ← host .reconcile .guardCheck
    pure (ApplyResult.all [check, .error (.new ["host effect"] text)])
  | .ok control =>
    let ips := ((ips ++ control).insertionSort (· ≤ ·)).destutter (· ≠ ·)
    Prog.andThen (host .reconcile (.guardSync ips true)) fun _ =>
      let around : HostProg (ApplyResult Unit) :=
        if c.manageHostRoutes then host .reconcile (.syncBypass ips true) else pure (.ok ())
      Prog.andThen around fun _ => do
        Prog.withLock .carriers (Prog.modify fun h => { h with carriers := control })
        host .reconcile (.guardSync ips retain)

def guardCarriers (c : HostSettings) (peers : List PeerInfo) (retain : Bool) :
    HostProg (ApplyResult Unit) :=
  if !c.killSwitch then pure (.ok ())
  else
    match c.carrierDns with
    | none => pure (.error (.new ["kill-switch"] "missing control carrier resolver"))
    | some dns =>
      if !c.carrierCache then pure (.error (.new ["kill-switch"] "missing carrier cache"))
      else do
        let resolved ← host .reconcile (.resolve dns)
        Prog.await
        let relays ← readLocked .relayIps (·.relayIps)
        let ips := exitBypassCandidates c "" relays peers []
        let result ← Prog.withLock .runtime (Prog.withLock .shutdown do
          let h ← Prog.get
          if h.stopped then pure (.ok ())
          else Prog.withLock .killSwitch (permitCarriers c ips retain resolved))
        Prog.await
        pure result

/-- There is nothing to go around. The lock on the flag is held until the exit was looked at. -/
def noBypass (c : HostSettings) (peers : List PeerInfo) : HostProg Bool :=
  if !c.manageHostRoutes then pure true
  else Prog.withLock .shutdown do
    let h ← Prog.get
    if h.stopped then pure true
    else if (selectedExit c.text peers).isSome then pure false
    else readLocked .exitState (·.exitState.isNone)

def prepareBypass (c : HostSettings) (peers : List PeerInfo) :
    HostProg (Except String (List String)) := do
  if ← noBypass c peers then pure (.ok [])
  else do
    let relays ← readLocked .relayIps (·.relayIps)
    let pinned ← readLocked .carriers (·.carriers)
    let control := if c.carrierDns.isSome then "" else c.controlHost
    let candidates := exitBypassCandidates c control relays peers c.excludeRoutes
    let resolved ← host .reconcile (.resolveBypass
      (if c.carrierDns.isSome then candidates ++ pinned else candidates))
    Prog.await
    pure resolved

def syncBypass (c : HostSettings) (ips : List String) (retain : Bool) :
    HostProg (ApplyResult Unit) :=
  Prog.withLock .runtime (Prog.withLock .shutdown do
    let h ← Prog.get
    if h.stopped || !c.manageHostRoutes then pure (.ok ())
    else host .reconcile (.syncBypass ips retain))

/-! ## The tasks -/

def syncRoutes (c : HostSettings) (peers : List PeerInfo) (epoch : Nat) :
    HostProg (ApplyResult Unit) :=
  Prog.withLock .shutdown do
    let h ← Prog.get
    if h.stopped || !c.manageHostRoutes then pure (.ok ())
    else host .reconcile (.syncHost peers epoch)

def tick (c : HostSettings) (epoch : Nat) (peers : List PeerInfo) (selfExit : Bool)
    (bypass : ApplyResult (List String)) (retain : Bool) : HostProg (ApplyResult Unit) := do
  let retirement ← retire c epoch (selectedExit c.text peers)
  let carriers ← Prog.andThen (pure bypass) fun ips => syncBypass c ips (retain || !retirement.isOk)
  Prog.withLock .runtime do
    let now ← host .reconcile .now
    let routes ← retry .routes epoch now (syncRoutes c peers epoch)
    let exit ← Prog.andThen (pure (ApplyResult.all [retirement, carriers])) fun _ =>
      retry .exit epoch now (syncExit c peers)
    let resolver ← retry .dns epoch now (syncDns c peers exit.isOk)
    let nat ← retry .nat epoch now (syncNat c.provider selfExit)
    pure (ApplyResult.all [routes, exit, resolver, nat])

def apply (c : HostSettings) (epoch : Nat) (peers : List PeerInfo) (selfExit retain : Bool) :
    HostProg (ApplyResult Unit) :=
  Prog.andThen (guardCarriers c peers retain) fun _ => do
    let bypass ← prepareBypass c peers
    let bypass := bypass.mapError fun text => ApplyError.new ["bypass", "resolve"] text
    Prog.await
    let result ← tick c epoch peers selfExit bypass retain
    Prog.await
    pure result

/-- The bypasses go last, and stay while an exit may still need them. -/
def removeBypass (ok : Bool) : HostProg (ApplyResult Unit) :=
  if ok then host .teardown (.syncBypass [] false) else pure (.ok ())

/-- The teardown, with the flag set and the `shutdown` lock held. -/
def teardown : HostProg (ApplyResult Unit) := do
  let exit ← Prog.withLock .exitState do
    let h ← Prog.get
    match h.exitState with
    | none => pure (.ok ())
    | some old => removeExit .teardown old
  let pending ← Prog.withLock .exitProgress (host .teardown .cleanupExit)
  let dns ← syncDnsWith none (fun _ => pure (.ok ())) (host .teardown .resetDns)
  let nat ← removeNat
  let carriers ← removeBypass (exit.isOk && pending.isOk)
  pure (ApplyResult.all [exit, pending, dns, nat, carriers])

def shutdownWith {α : Type} (body : HostProg α) : HostProg α :=
  Prog.withLock .shutdown do
    Prog.modify fun h => { h with stopped := true }
    body

def cleanup : HostProg (ApplyResult Unit) := Prog.withLock .runtime (shutdownWith teardown)

end HostProg

/-- What is started while the node runs. -/
inductive HostTask
  | apply (epoch : Nat) (peers : List PeerInfo) (selfExit retain : Bool)
  | retire (epoch : Nat) (selected : Option Key)
  | guardCarriers (peers : List PeerInfo) (retain : Bool)
  | syncBypass (ips : List String) (retain : Bool)
  | cleanup

namespace HostTask

def run (c : HostSettings) : HostTask → HostProg (ApplyResult Unit)
  | .apply epoch peers selfExit retain => HostProg.apply c epoch peers selfExit retain
  | .retire epoch selected => HostProg.retire c epoch selected
  | .guardCarriers peers retain => HostProg.guardCarriers c peers retain
  | .syncBypass ips retain => HostProg.syncBypass c ips retain
  | .cleanup => HostProg.cleanup

/-- What runs on the blocking pool is not dropped once it has started. -/
def prog (c : HostSettings) (task : HostTask) : HostProg Unit := do
  Prog.await
  let _ ← task.run c
  pure ()

end HostTask

end Fluxpeer.Node
