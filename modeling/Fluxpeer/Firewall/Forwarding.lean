import Fluxpeer.Lib.Faults
import Fluxpeer.Lib.Run
import Fluxpeer.Lib.Table
import Fluxpeer.Lib.Text
import Mathlib.Data.Char
import Mathlib.Data.Finset.Erase
import Mathlib.Data.Finset.Insert
import Mathlib.Data.Int.Order.Basic
import Mathlib.Data.List.Destutter
import Mathlib.Data.Prod.Lex
import Mathlib.Order.WithBot

/-!
# Forwarding leases

Instances that route for others need forwarding to be on. Each has a lease on disk, next to a
baseline with what the kernel's two settings were before the first of them; whoever gives up the last
lease puts the settings back. A process may fail at every command and every file, and may end between
any two of them; what it leaves is what the next one finds.

The calls are serialised by a lock. A lease is a file with the name of its instance, and a file is
replaced or removed as a whole.
-/

namespace Fluxpeer.Firewall

open Lib

/-! ## Errors -/

inductive ErrorKind
  | notFound
  | permissionDenied
  | unsupported
  | other
deriving DecidableEq

structure ApplyError where
  command : List String
  exitCode : Option Int
  stderr : String
  kind : ErrorKind
deriving DecidableEq

def contains (value pattern : String) : Bool := decide (pattern.toList <:+: value.toList)

namespace ApplyError

def new (command : List String) (stderr : String) : ApplyError := ⟨command, none, stderr, .other⟩

def display (e : ApplyError) : String :=
  " ".intercalate e.command ++ " (exit " ++
    (match e.exitCode with
      | some code => "Some(" ++ toString code ++ ")"
      | none => "None") ++ "): " ++ trim e.stderr

def missing (e : ApplyError) : Bool :=
  contains e.stderr "No such process" || contains e.stderr "No such file or directory" ||
    contains e.stderr "not in table" || contains e.stderr "does not exist" ||
    contains e.stderr "Cannot find device"

/-- `apply::ipv6_unavailable` -/
def ipv6Unavailable (e : ApplyError) : Bool :=
  let message := String.ofList (e.stderr.toList.map Char.toLower)
  if e.kind = .permissionDenied || contains message "permission denied" ||
      contains message "operation not permitted" then false
  else
    e.kind = .notFound || e.kind = .unsupported || contains e.stderr "Address family not supported" ||
      contains e.stderr "IPv6 is disabled" || contains e.stderr "Operation not supported" ||
      contains e.stderr "Protocol not supported" || e.missing

/-- By command, exit code and message, as `sort_by` compares them. -/
def sortKey (e : ApplyError) : List (List Char) ×ₗ WithBot Int ×ₗ List Char :=
  toLex (e.command.map String.toList, toLex (e.exitCode, e.stderr.toList))

end ApplyError

abbrev Result := Except ApplyError Unit

def errorOf : Result → Option ApplyError
  | .ok () => none
  | .error e => some e

/-- `apply::all`: one error that has the others in its message. -/
def all (results : List Result) : Result :=
  match (orderBy ApplyError.sortKey (results.filterMap errorOf)).destutter (· ≠ ·) with
  | [] => .ok ()
  | first :: errors =>
    let stderr := errors.foldl (fun s e => s ++ "; additional effect: " ++ e.display) first.stderr
    .error { first with stderr }

/-- Without an error, nothing failed. -/
lemma eq_ok_of_all_eq_ok {results : List Result} (h : all results = .ok ()) :
    ∀ r ∈ results, r = .ok () := by
  unfold all at h
  split at h
  · next hnil =>
    have hsorted : orderBy ApplyError.sortKey (results.filterMap errorOf) = [] :=
      (List.destutter_eq_nil _).mp hnil
    have hperm : (orderBy ApplyError.sortKey (results.filterMap errorOf)).Perm
        (results.filterMap errorOf) := List.perm_insertionSort _ _
    rw [hsorted, List.nil_perm, List.filterMap_eq_nil_iff] at hperm
    intro r hr
    match r, hperm r hr with
    | .ok (), _ => rfl
  · cases h

/-! ## The host -/

inductive Platform
  | linux
  | macos
deriving DecidableEq

inductive Sysctl
  | v4
  | v6
deriving DecidableEq

def Platform.name : Platform → Sysctl → String
  | .linux, .v4 => "net.ipv4.ip_forward"
  | .macos, .v4 => "net.inet.ip.forwarding"
  | _, .v6 => "net.ipv6.conf.all.forwarding"

structure Baseline where
  v4 : Bool
  v6 : Option Bool
deriving DecidableEq

def Baseline.value (b : Baseline) : Sysctl → Option Bool
  | .v4 => some b.v4
  | .v6 => b.v6

/-- The state directory and the kernel. -/
structure Host (ι : Type) where
  leases : Finset ι
  baseline : Option Baseline
  v4 : Bool
  /-- The setting for IPv6, once the kernel has one. -/
  v6 : Option Bool
  /-- What has been written to the settings, the last first. -/
  writes : List (Sysctl × Bool)
deriving DecidableEq

variable {ι : Type} [DecidableEq ι]

namespace Host

def value (host : Host ι) : Sysctl → Option Bool
  | .v4 => some host.v4
  | .v6 => host.v6

def write (key : Sysctl) (on : Bool) (host : Host ι) : Host ι :=
  match key with
  | .v4 => { host with v4 := on, writes := (.v4, on) :: host.writes }
  | .v6 =>
    if host.v6.isSome then { host with v6 := some on, writes := (.v6, on) :: host.writes } else host

end Host

/-! ## Commands and files -/

abbrev Effect (ι : Type) := Act (Host ι) ApplyError

/-- How a call sees its host: the platform, and the error of a command for a setting that is not
there. -/
structure Env where
  platform : Platform
  absent : ApplyError

namespace Env

variable (env : Env)

/-- `sysctl -n key` -/
def sysctlRead (key : Sysctl) : Effect ι String :=
  .act (fun host => match host.value key with
    | some on => .ok (if on then "1\n" else "0\n")
    | none => .error env.absent) id

/-- `sysctl -w key=on` -/
def sysctlWrite (key : Sysctl) (on : Bool) : Effect ι Unit :=
  .act (fun host => if (host.value key).isSome then .ok () else .error env.absent) (Host.write key on)

def sysctlGetWith (key : Sysctl) : Effect ι Bool := do
  let output ← env.sysctlRead key
  let value := trim output
  if value = "0" then pure false
  else if value = "1" then pure true
  else
    Act.throw (.new ["sysctl", "-n", env.platform.name key] ("invalid forwarding value: " ++ value))

/-- The write of `sysctl_set_with`, when the setting is not what it should be. -/
def sysctlForce (key : Sysctl) (on : Bool) : Effect ι Unit := do
  match ← (env.sysctlWrite key on).attempt with
  | .ok () => pure ()
  | .error e =>
    if contains e.stderr "Read-only file system" then
      let now ← env.sysctlGetWith key
      if now = on then pure () else Act.throw e
    else Act.throw e

def sysctlSetWith (key : Sysctl) (on : Bool) : Effect ι Unit := do
  let result ← Act.attempt do
    let now ← env.sysctlGetWith key
    if now = on then pure () else env.sysctlForce key on
  match result with
  | .ok () => pure ()
  | .error e => if key = .v6 ∧ e.ipv6Unavailable then pure () else Act.throw e

def readV6 : Effect ι (Option Bool) :=
  match env.platform with
  | .macos => pure none
  | .linux => do
    match ← (env.sysctlGetWith .v6).attempt with
    | .ok on => pure (some on)
    | .error e => if e.ipv6Unavailable then pure none else Act.throw e

end Env

def readBaseline : Effect ι (Option Baseline) := .act (fun host => .ok host.baseline) id

def readLeases : Effect ι (Finset ι) := .act (fun host => .ok host.leases) id

def saveBaseline (baseline : Baseline) : Effect ι Unit :=
  .act (fun _ => .ok ()) fun host => { host with baseline := some baseline }

def saveLease (id : ι) : Effect ι Unit :=
  .act (fun _ => .ok ()) fun host => { host with leases := insert id host.leases }

def removeLease (id : ι) : Effect ι Unit :=
  .act (fun _ => .ok ()) fun host => { host with leases := host.leases.erase id }

def removeBaseline : Effect ι Unit :=
  .act (fun _ => .ok ()) fun host => { host with baseline := none }

/-! ## Calls -/

namespace Env

variable (env : Env)

/-- The baseline that `acquire_with` writes. -/
def captured : Effect ι Baseline := do
  match ← readBaseline with
  | some baseline =>
    if baseline.v6 = none then
      let v6 ← env.readV6
      pure { baseline with v6 }
    else pure baseline
  | none =>
    let leases ← readLeases
    if leases ≠ ∅ then
      Act.throw (.new ["forwarding", "acquire"]
        "leases exist without baseline; refusing to overwrite original state")
    else
      let v4 ← env.sysctlGetWith .v4
      let v6 ← env.readV6
      pure { v4, v6 }

def acquireWith (id : ι) : Effect ι Unit := do
  let baseline ← env.captured
  saveBaseline baseline
  saveLease id
  env.sysctlSetWith .v4 true
  if env.platform = .linux ∧ baseline.v6.isSome then env.sysctlSetWith .v6 true else pure ()

def restoreV6 (baseline : Baseline) : Effect ι Result :=
  match baseline.v6, env.platform with
  | some on, .linux => (env.sysctlSetWith .v6 on).attempt
  | _, _ => pure (.ok ())

/-- The settings of a baseline, both attempted. -/
def restore (baseline : Baseline) : Effect ι Unit := do
  let v4 ← (env.sysctlSetWith .v4 baseline.v4).attempt
  let v6 ← env.restoreV6 baseline
  match all [v4, v6] with
  | .ok () => pure ()
  | .error e => Act.throw e

/-- What `release_with` does when no other lease is left. -/
def releaseLast (id : ι) : Effect ι Unit := do
  match ← readBaseline with
  | none => Act.throw (.new ["forwarding", "release"] "missing forwarding baseline")
  | some baseline =>
    env.restore baseline
    removeLease id
    removeBaseline

def releaseWith (id : ι) : Effect ι Unit := do
  let leases ← readLeases
  if id ∉ leases then pure ()
  else if ∃ other ∈ leases, other ≠ id then removeLease id
  else env.releaseLast id

end Env

/-! ## Runs -/

/-- A call with the fates of its steps. -/
inductive Event (ι : Type)
  | acquire (id : ι) (absent : ApplyError) (fates : List (Fate ApplyError))
  | release (id : ι) (absent : ApplyError) (fates : List (Fate ApplyError))
  /-- The kernel's setting for IPv6 comes into being. -/
  | appear (on : Bool)

/-- A host, and what its settings were when they came into being. -/
structure Site (ι : Type) where
  host : Host ι
  original : Baseline

def Site.step (platform : Platform) (s : Site ι) : Event ι → Option (Site ι)
  | .acquire id absent fates =>
    some { s with host := (Env.acquireWith ⟨platform, absent⟩ id s.host fates).2.1 }
  | .release id absent fates =>
    some { s with host := (Env.releaseWith ⟨platform, absent⟩ id s.host fates).2.1 }
  | .appear on =>
    match s.host.v6 with
    | some _ => some s
    | none => some ⟨{ s.host with v6 := some on }, { s.original with v6 := some on }⟩

end Fluxpeer.Firewall
