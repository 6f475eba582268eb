import Fluxpeer.Firewall.Forwarding
import Fluxpeer.Lib.CallLog

/-!
# The full tunnel

To send everything through an exit, a host gets two routes that each cover half of IPv4 and, where
IPv6 would go around the tunnel, two that block it. The carriers keep routes of their own, which
have to stay as long as anything is redirected. A record says what has been installed, so that
whatever is left after a failure is taken down with the next call.
-/

namespace Fluxpeer.Host

open Lib Firewall

/-! ## Commands and errors -/

inductive RouteOs
  | linux
  | macos
  | windows
  | other
deriving DecidableEq

def v6Halves : List String := ["::/1", "8000::/1"]

def v6BlockCmds (os : RouteOs) (dev : String) : List (List String) :=
  match os with
  | .linux => v6Halves.map fun p => ["ip", "-6", "route", "add", p, "dev", dev, "metric", "42760"]
  | .macos =>
    v6Halves.map fun p => ["route", "-n", "add", "-inet6", "-net", p, "-reject", "-interface", dev]
  | .windows => v6Halves.map fun p => ["windows-route", "add", p, dev]
  | .other => []

def v6UnblockCmds (os : RouteOs) (dev : String) : List (List String) :=
  match os with
  | .linux => v6Halves.map fun p => ["ip", "-6", "route", "del", p, "dev", dev, "metric", "42760"]
  | .macos =>
    v6Halves.map fun p =>
      ["route", "-n", "delete", "-inet6", "-net", p, "-reject", "-interface", dev]
  | .windows => v6Halves.map fun p => ["windows-route", "del", p, dev]
  | .other => []

def v6LegacyCleanupCmds (os : RouteOs) : List (List String) :=
  if os ≠ .linux then []
  else v6Halves.map fun p => ["ip", "-6", "route", "del", "unreachable", p, "metric", "42760"]

/-- `io::Error`: one of the system, or one that wraps an `ApplyError`. -/
inductive IoError
  | os (code : Int) (kind : ErrorKind) (text : String)
  | effect (error : ApplyError)

namespace IoError

def kind : IoError → ErrorKind
  | .os _ kind _ => kind
  | .effect e => e.kind

def rawOsError : IoError → Option Int
  | .os code _ _ => some code
  | .effect _ => none

def esrch : Int := 3

/-- The command found nothing to remove. -/
def gone (e : IoError) : Bool :=
  e.rawOsError = some esrch ||
    match e with
    | .os .. => false
    | .effect e => e.exitCode.isSome && e.missing

def toApply : IoError → ApplyError
  | .os _ kind text => { ApplyError.new ["host effect"] text with kind }
  | .effect e => e

end IoError

/-! ## The program -/

structure ExitProgress where
  bypass : List String
  defaults : List String
  v6Blocked : Bool
  v6Cleanup : List (List String)
deriving DecidableEq

def ExitProgress.default : ExitProgress := ⟨[], [], false, []⟩

/-- The two effects that work on the guard's commands. -/
inductive Guard
  | up
  | down
deriving DecidableEq

/-- What is done to the host. A guard's command comes with the one that takes it back, and a command
that takes it back with the effect that it is part of. -/
inductive ExitCall
  | bypassAdd (b : String)
  | bypassDel (b : String)
  | defaultAdd (p : String)
  | defaultDel (p : String)
  | ipv6Disabled
  | legacy (cmd : List String)
  | block (cmd undo : List String)
  | unblock (effect : Guard) (undo : List String)

def ExitCall.Answer : ExitCall → Type
  | .bypassAdd _ => Except ApplyError Bool
  | .bypassDel _ | .defaultAdd _ | .defaultDel _ => Result
  | .ipv6Disabled => Bool
  | .legacy _ | .block .. | .unblock .. => Except IoError Unit

abbrev ExitLog := CallLog ExitCall ExitCall.Answer

abbrev ExitProg := Prog Empty ExitProgress ExitCall ExitCall.Answer

namespace FullTunnel

def bypassDel (b : String) : ExitProg Result := Prog.ask (ExitCall.bypassDel b)

def defaultDel (p : String) : ExitProg Result := Prog.ask (ExitCall.defaultDel p)

def unblock (effect : Guard) (undo : List String) : ExitProg (Except IoError Unit) := do
  let result ← (Prog.ask (ExitCall.unblock effect undo) : ExitProg (Except IoError Unit))
  pure (match result with
    | .ok () => .ok ()
    | .error e => if e.gone then .ok () else .error e)

/-- `v6_cleanup_with`, for the record's commands. -/
def v6CleanupWith (effect : Guard) : ExitProg (Except IoError Unit) := do
  let progress ← .get
  let (v6Cleanup, errors) ← .retain (unblock effect) progress.v6Cleanup
  .modify fun progress => { progress with v6Cleanup }
  pure (match errors with
    | [] => .ok ()
    | first :: _ => .error first)

def dropDefaults : ExitProg (List ApplyError) := do
  let progress ← .get
  let (defaults, errors) ← .retain defaultDel progress.defaults
  .modify fun progress => { progress with defaults }
  pure errors

def guardDown : ExitProg (List ApplyError) := do
  match ← v6CleanupWith .down with
  | .ok () =>
    .modify fun progress => { progress with v6Blocked := false }
    pure []
  | .error e => pure [e.toApply]

def dropGuard : ExitProg (List ApplyError) := do
  let progress ← .get
  if progress.v6Cleanup = [] then pure [] else guardDown

/-- The bypasses stay until every redirect is gone. -/
def dropBypass : ExitProg (List ApplyError) := do
  let progress ← .get
  if progress.defaults = [] ∧ progress.v6Cleanup = [] then do
    let (bypass, errors) ← .retain bypassDel progress.bypass
    .modify fun progress => { progress with bypass }
    pure errors
  else pure []

/-- `cleanup_exit_with` -/
def cleanupExit : ExitProg Result := do
  let defaults ← dropDefaults
  let guard ← dropGuard
  let bypass ← dropBypass
  pure (all ((defaults ++ guard ++ bypass).map .error))

def legacy (cmd : List String) : ExitProg (Except IoError Unit) := do
  let result ← (Prog.ask (ExitCall.legacy cmd) : ExitProg (Except IoError Unit))
  pure (match result with
    | .ok () => .ok ()
    | .error e =>
      if e.kind ≠ .notFound ∧ e.rawOsError ≠ some IoError.esrch then .error e else .ok ())

def block (command : List String × List String) : ExitProg (Except IoError Unit) := do
  let result ← (Prog.ask (ExitCall.block command.1 command.2) : ExitProg (Except IoError Unit))
  match result with
  | .ok () =>
    .modify fun progress => { progress with v6Cleanup := progress.v6Cleanup ++ [command.2] }
    pure (.ok ())
  | .error e => do
    let _ ← v6CleanupWith .up
    pure (.error e)

/-- `v6_block_tracked` -/
def v6BlockTracked (os : RouteOs) (dev : String) : ExitProg (Except IoError Bool) :=
  .andThen (v6CleanupWith .up) fun _ =>
  .andThen (.tryEach legacy (v6LegacyCleanupCmds os)) fun _ =>
  .andThen (.tryEach block ((v6BlockCmds os dev).zip (v6UnblockCmds os dev))) fun _ => do
    let progress ← .get
    pure (.ok !progress.v6Cleanup.isEmpty)

/-- A host without IPv6 needs no guard. -/
def v6GuardResult : Except IoError Bool → Except IoError Bool
  | .ok blocked => .ok blocked
  | .error e => if e.kind = .unsupported then .ok false else .error e

def v6BlockTry (os : RouteOs) (dev : String) : ExitProg (Except IoError Bool) := do
  let result ← v6BlockTracked os dev
  let progress ← .get
  pure (if progress.v6Cleanup = [] then v6GuardResult result else result)

/-- `v6_block_up` -/
def v6BlockUp (os : RouteOs) (dev : String) : ExitProg (Except IoError Bool) :=
  if os = .linux then do
    let disabled : Bool ← (Prog.ask ExitCall.ipv6Disabled : ExitProg Bool)
    if disabled then pure (.ok false) else v6BlockTry os dev
  else v6BlockTry os dev

def bypassAdd (b : String) : ExitProg Result := do
  let added ← (Prog.ask (ExitCall.bypassAdd b) : ExitProg (Except ApplyError Bool))
  match added with
  | .ok true =>
    .modify fun progress => { progress with bypass := progress.bypass ++ [b] }
    pure (.ok ())
  | .ok false => pure (.ok ())
  | .error e => pure (.error e)

def guardUp (os : RouteOs) (dev : String) : ExitProg Result := do
  match ← v6BlockUp os dev with
  | .ok v6Blocked =>
    .modify fun progress => { progress with v6Blocked }
    pure (.ok ())
  | .error e => pure (.error e.toApply)

def defaultAdd (p : String) : ExitProg Result := do
  let result ← (Prog.ask (ExitCall.defaultAdd p) : ExitProg Result)
  match result with
  | .ok () =>
    .modify fun progress => { progress with defaults := progress.defaults ++ [p] }
    pure (.ok ())
  | .error e => pure (.error e)

def halves : List String := ["0.0.0.0/1", "128.0.0.0/1"]

def install (os : RouteOs) (dev : String) (bypass : List String) : ExitProg Result :=
  .andThen (.tryEach bypassAdd bypass) fun _ =>
  .andThen (guardUp os dev) fun _ => .tryEach defaultAdd halves

def rollback (e : ApplyError) : ExitProg (Except ApplyError Bool) := do
  match ← cleanupExit with
  | .ok () => pure (.error e)
  | .error cleanup =>
    pure (.error { e with stderr := e.stderr ++ "; rollback: " ++ cleanup.display })

def installOrRollback (os : RouteOs) (dev : String) (bypass : List String) :
    ExitProg (Except ApplyError Bool) := do
  match ← install os dev bypass with
  | .ok () => do
    let progress ← .get
    pure (.ok progress.v6Blocked)
  | .error e => rollback e

/-- `exit_up_with` -/
def exitUp (os : RouteOs) (dev : String) (bypass : List String) :
    ExitProg (Except ApplyError Bool) :=
  .andThen cleanupExit fun _ => installOrRollback os dev bypass

/-! ## What is installed -/

inductive Resource
  | bypass (b : String)
  | half (p : String)
  | guard (undo : List String)
deriving DecidableEq

def tracked (progress : ExitProgress) : List Resource :=
  progress.bypass.map .bypass ++ progress.defaults.map .half ++ progress.v6Cleanup.map .guard

/-- What a call has installed. A bypass that was there already is not ours. -/
def gain : (Σ e : ExitCall, e.Answer) → Option Resource
  | ⟨.bypassAdd b, added⟩ =>
    match (added : Except ApplyError Bool) with
    | .ok true => some (.bypass b)
    | _ => none
  | ⟨.defaultAdd p, result⟩ =>
    match (result : Result) with
    | .ok () => some (.half p)
    | .error _ => none
  | ⟨.block _ undo, result⟩ =>
    match (result : Except IoError Unit) with
    | .ok () => some (.guard undo)
    | .error _ => none
  | _ => none

/-- What a call has removed, or found to be gone. -/
def loss : (Σ e : ExitCall, e.Answer) → Option Resource
  | ⟨.bypassDel b, result⟩ =>
    match (result : Result) with
    | .ok () => some (.bypass b)
    | .error _ => none
  | ⟨.defaultDel p, result⟩ =>
    match (result : Result) with
    | .ok () => some (.half p)
    | .error _ => none
  | ⟨.unblock _ undo, result⟩ =>
    match (result : Except IoError Unit) with
    | .ok () => some (.guard undo)
    | .error e => if e.gone then some (.guard undo) else none
  | _ => none

/-- A call of a cleanup left what it was to remove. -/
def CleanupFailed : (Σ e : ExitCall, e.Answer) → Prop
  | ⟨.bypassDel _, result⟩ | ⟨.defaultDel _, result⟩ => (result : Result) ≠ .ok ()
  | ⟨.unblock .down _, result⟩ => ∃ e, (result : Except IoError Unit) = .error e ∧ e.gone = false
  | _ => False

abbrev Exact (held : List Resource) (log : ExitLog) : Prop := Accounts gain loss held log

/-- A bypass is only deleted when there is nothing else left to remove. -/
def Allowed (log : ExitLog) : ExitCall → Prop
  | .bypassDel _ => ∀ x, (∀ b, x ≠ .bypass b) →
    (log.filterMap loss).count x = (log.filterMap gain).count x
  | _ => True

/-! ## Removing -/

section Removing

/-- The calls after the first `n` include one with `F`. -/
def Since (F : (Σ e : ExitCall, e.Answer) → Prop) (n : Nat) (log : ExitLog) : Prop :=
  ∃ call ∈ log.drop n, F call

variable {F : (Σ e : ExitCall, e.Answer) → Prop} {n : Nat} {log : ExitLog}
  {call : Σ e : ExitCall, e.Answer}

lemma Since.mono {log' : ExitLog} (h : Since F n log) (hlog : log <+: log') : Since F n log' := by
  obtain ⟨call, hmem, hF⟩ := h
  obtain ⟨rest, rfl⟩ := hlog
  rw [Since, List.drop_append]
  exact ⟨call, List.mem_append_left _ hmem, hF⟩

lemma since_stable {κ : Type} (errors : List κ) (log : ExitLog) (call : Σ e : ExitCall, e.Answer)
    (h : errors ≠ [] → Since F n log) (hne : errors ≠ []) : Since F n (log ++ [call]) :=
  (h hne).mono (List.prefix_append ..)

lemma since_concat (hn : n ≤ log.length) (hF : F call) : Since F n (log ++ [call]) := by
  rw [Since, List.drop_append_of_le_length hn]
  exact ⟨call, List.mem_append_right _ (List.mem_singleton_self _), hF⟩

/-- What one attempt to remove `x` can come to. -/
inductive Attempt (F : (Σ e : ExitCall, e.Answer) → Prop) (x : Resource) (log : ExitLog)
    {κ : Type} : Except κ Unit → ExitLog → Prop
  | done (call : Σ e : ExitCall, e.Answer) (hgain : gain call = none) (hloss : loss call = some x) :
    Attempt F x log (.ok ()) (log ++ [call])
  | failed (call : Σ e : ExitCall, e.Answer) (hgain : gain call = none) (hloss : loss call = none)
    (hF : F call) (e : κ) : Attempt F x log (.error e) (log ++ [call])

/-- How it stands with what was to be removed: what is kept, and the errors. -/
structure Removing (F : (Σ e : ExitCall, e.Answer) → Prop) (n : Nat) {γ κ : Type}
    (c : γ → Resource) (others : List Resource) (progress : ExitProgress) (rest kept : List γ)
    (errors : List κ) (s : ExitProgress) (log : ExitLog) : Prop where
  same : s = progress
  exact : Exact (others ++ (rest ++ kept).map c) log
  later : n ≤ log.length
  clean : errors = [] → kept = []
  failed : errors ≠ [] → Since F n log

lemma retain_spec {γ κ : Type} {body : γ → ExitProg (Except κ Unit)} {c : γ → Resource}
    {progress : ExitProgress} (others : List Resource)
    (hbody : ∀ x xs kept log, Exact (others ++ (x :: xs ++ kept).map c) log →
      Contract Allowed (fun s h => s = progress ∧ h = log) (body x) fun result s h =>
        s = progress ∧ Attempt F (c x) log result h) (xs : List γ) :
    Contract Allowed (fun s h => s = progress ∧ Exact (others ++ xs.map c) h ∧ n ≤ h.length)
      (.retain body xs) fun (result : List γ × List κ) =>
      Removing F n c others progress [] result.1 result.2 := by
  refine (Contract.retain (I := Removing F n c others progress) ?_ xs [] []).conseq ?_ ?_
  · intro x xs kept errors s log h
    refine (hbody x xs kept log h.exact s log ⟨h.same, rfl⟩).mono ?_
    rintro result s' log' ⟨rfl, hattempt⟩
    cases hattempt with
    | done call hgain hloss =>
      refine ⟨rfl, ?_, by simp [Nat.le_succ_of_le h.later], h.clean, fun hne => ?_⟩
      · refine Accounts.loses (h.exact.congr fun y => ?_) hgain hloss
        simp [List.count_cons]
        omega
      · exact (h.failed hne).mono (List.prefix_append ..)
    | failed call hgain hloss hF e =>
      refine ⟨rfl, ?_, by simp [Nat.le_succ_of_le h.later], fun hnil => ?_, fun _ => ?_⟩
      · refine (h.exact.congr fun y => ?_).idle hgain hloss
        simp [List.count_cons]
        omega
      · simp at hnil
      · exact since_concat h.later hF
  · rintro s log ⟨rfl, hexact, hn⟩
    exact ⟨rfl, by simpa using hexact, hn, fun _ => rfl, fun h => absurd rfl h⟩
  · intro result s log h
    simpa using h

end Removing

/-! ## Cleanup -/

/-- The record is exact, after at least `n` calls, and has these halves. -/
structure Kept (n : Nat) (defaults : List String) (progress : ExitProgress) (log : ExitLog) :
    Prop where
  exact : Exact (tracked progress) log
  later : n ≤ log.length
  defaults : progress.defaults = defaults

section Cleanup

variable {F : (Σ e : ExitCall, e.Answer) → Prop} {n : Nat} {progress : ExitProgress} {log : ExitLog}
  {d : List String}

lemma defaultDel_attempt (p : String) :
    Contract Allowed (fun s h => s = progress ∧ h = log) (defaultDel p) fun result s h =>
      s = progress ∧ Attempt CleanupFailed (.half p) log result h := by
  refine (Contract.asked trivial).conseq (fun _ _ h => h) ?_
  rintro result s h ⟨rfl, rfl⟩
  match result with
  | .ok () => exact ⟨rfl, .done _ rfl rfl⟩
  | .error e => exact ⟨rfl, .failed _ rfl rfl nofun e⟩

lemma bypassDel_attempt (b : String) (hallowed : Allowed log (.bypassDel b)) :
    Contract Allowed (fun s h => s = progress ∧ h = log) (bypassDel b) fun result s h =>
      s = progress ∧ Attempt CleanupFailed (.bypass b) log result h := by
  refine (Contract.asked hallowed).conseq (fun _ _ h => h) ?_
  rintro result s h ⟨rfl, rfl⟩
  match result with
  | .ok () => exact ⟨rfl, .done _ rfl rfl⟩
  | .error e => exact ⟨rfl, .failed _ rfl rfl nofun e⟩

lemma unblock_attempt {effect : Guard} (undo : List String)
    (hF : ∀ e : IoError, e.gone = false → F ⟨.unblock effect undo, .error e⟩) :
    Contract Allowed (fun s h => s = progress ∧ h = log) (unblock effect undo) fun result s h =>
      s = progress ∧ Attempt F (.guard undo) log result h := by
  refine (Contract.asked trivial).bind fun result => .pure ?_
  rintro s h ⟨rfl, rfl⟩
  refine ⟨rfl, ?_⟩
  match result with
  | .ok () => exact .done _ rfl rfl
  | .error e =>
    cases hgone : e.gone with
    | true => simpa [hgone] using Attempt.done _ rfl (by simp [loss, hgone])
    | false => simpa [hgone] using Attempt.failed _ rfl (by simp [loss, hgone]) (hF e hgone) e

lemma dropDefaults_spec :
    Contract Allowed (Kept n d) dropDefaults fun errors s h =>
      ∃ d, Kept n d s h ∧ (errors = [] → d = []) ∧ (errors ≠ [] → Since CleanupFailed n h) := by
  refine .bind .get fun progress => ?_
  rintro s log ⟨rfl, hkept⟩
  refine ((retain_spec (F := CleanupFailed) (n := n)
    (progress.bypass.map .bypass ++ progress.v6Cleanup.map .guard)
    (fun p _ _ _ _ => defaultDel_attempt p) progress.defaults).bind fun result =>
      .modify_pure ?_) progress log ⟨rfl, hkept.exact.congr ?_, hkept.later⟩
  · rintro s h ⟨rfl, hexact, hlater, hclean, hfailed⟩
    refine ⟨result.1, ⟨hexact.congr fun x => ?_, hlater, rfl⟩, hclean, hfailed⟩
    simp [tracked]
    omega
  · intro x
    simp [tracked]
    omega

lemma v6CleanupWith_spec (effect : Guard)
    (hF : ∀ undo, ∀ e : IoError, e.gone = false → F ⟨.unblock effect undo, .error e⟩) :
    Contract Allowed (Kept n d) (v6CleanupWith effect) (Outcome
      (fun _ s h => Kept n d s h ∧ s.v6Cleanup = []) fun _ s h => Kept n d s h ∧ Since F n h) := by
  refine .bind .get fun progress => ?_
  rintro s log ⟨rfl, hkept⟩
  refine ((retain_spec (F := F) (n := n)
    (progress.bypass.map .bypass ++ progress.defaults.map .half)
    (fun undo _ _ _ _ => unblock_attempt undo (hF undo)) progress.v6Cleanup).bind fun result =>
      .modify_pure ?_) progress log ⟨rfl, hkept.exact, hkept.later⟩
  rintro s h ⟨rfl, hexact, hlater, hclean, hfailed⟩
  have hkept' : Kept n d { s with v6Cleanup := result.1 } h := ⟨hexact, hlater, hkept.defaults⟩
  cases herrors : result.2 with
  | nil => exact ⟨hkept', hclean herrors⟩
  | cons e errors => exact ⟨hkept', hfailed (by rw [herrors]; exact List.cons_ne_nil _ _)⟩

lemma dropGuard_spec :
    Contract Allowed (Kept n d) dropGuard fun errors s h =>
      Kept n d s h ∧ (errors = [] → s.v6Cleanup = []) ∧
        (errors ≠ [] → Since CleanupFailed n h) := by
  refine .bind .get fun progress => ?_
  rintro s log ⟨rfl, hkept⟩
  split
  · next hnil => exact ⟨hkept, fun _ => hnil, fun hne => absurd rfl hne⟩
  refine ((v6CleanupWith_spec (F := CleanupFailed) .down fun undo e hgone => ⟨e, rfl, hgone⟩).bind
    fun result => ?_) progress log hkept
  match result with
  | .ok () =>
    refine .modify_pure fun s h hs => ⟨⟨hs.1.exact, hs.1.later, hs.1.defaults⟩, fun _ => hs.2,
      fun hne => absurd rfl hne⟩
  | .error e => exact .pure fun s h hs => ⟨hs.1, nofun, fun _ => hs.2⟩

lemma dropBypass_spec {g : List (List String)} :
    Contract Allowed (fun s h => Kept n d s h ∧ s.v6Cleanup = g) dropBypass fun errors s h =>
      Kept n d s h ∧ s.v6Cleanup = g ∧ (errors = [] → d = [] → g = [] → s.bypass = []) ∧
        (errors ≠ [] → Since CleanupFailed n h) := by
  refine .bind .get fun progress => ?_
  rintro s log ⟨rfl, hkept, rfl⟩
  have hd := hkept.defaults
  split
  · next hnil =>
    refine ((retain_spec (F := CleanupFailed) (n := n) (c := .bypass) []
      (fun b xs kept log hexact => bypassDel_attempt b ?_) progress.bypass).bind fun result =>
        .modify_pure ?_) progress log ⟨rfl, hkept.exact.congr ?_, hkept.later⟩
    · intro x hx
      have hnone : (([] ++ (b :: xs ++ kept).map .bypass : List Resource)).count x = 0 :=
        List.count_eq_zero_of_not_mem fun hmem => by
          obtain ⟨b', -, rfl⟩ := List.mem_map.mp hmem
          exact hx b' rfl
      have := hexact x
      omega
    · rintro s h ⟨rfl, hexact, hlater, hclean, hfailed⟩
      refine ⟨⟨hexact.congr fun x => ?_, hlater, hd⟩, rfl, fun hnone _ _ => hclean hnone, hfailed⟩
      simp [tracked, hnil.1, hnil.2]
    · intro x
      simp [tracked, hnil.1, hnil.2]
  · next hne =>
    refine ⟨hkept, rfl, fun _ hd' hg => ?_, fun h => absurd rfl h⟩
    exact absurd ⟨hd.trans hd', hg⟩ hne

lemma all_errors_eq_ok {errors : List ApplyError} :
    all (errors.map .error) = .ok () ↔ errors = [] := by
  refine ⟨fun h => List.eq_nil_iff_forall_not_mem.mpr fun e he => ?_, fun h => h ▸ by decide⟩
  cases eq_ok_of_all_eq_ok h (.error e) (List.mem_map_of_mem he)

lemma cleanupExit_spec :
    Contract Allowed (Kept n d) cleanupExit fun result s h => (∃ d, Kept n d s h) ∧
      ((result = .ok () ∧ tracked s = []) ∨ (result ≠ .ok () ∧ Since CleanupFailed n h)) := by
  refine dropDefaults_spec.bind fun errors₁ => ?_
  rintro s₁ h₁ ⟨d₁, hkept₁, hclean₁, hfailed₁⟩
  refine ((dropGuard_spec.stable (since_stable errors₁)).bind fun errors₂ => ?_) s₁ h₁
    ⟨hkept₁, hfailed₁⟩
  rintro s₂ h₂ ⟨⟨hkept₂, hclean₂, hfailed₂⟩, hfailed₁⟩
  refine (((dropBypass_spec.stable (since_stable errors₁)).stable (since_stable errors₂)).bind
    fun errors₃ => .pure ?_) s₂ h₂ ⟨⟨⟨hkept₂, rfl⟩, hfailed₁⟩, hfailed₂⟩
  rintro s₃ h₃ ⟨⟨⟨hkept₃, hguard, hclean₃, hfailed₃⟩, hfailed₁⟩, hfailed₂⟩
  refine ⟨⟨d₁, hkept₃⟩, ?_⟩
  rw [ne_eq, all_errors_eq_ok, List.append_eq_nil_iff, List.append_eq_nil_iff]
  by_cases hnone : (errors₁ = [] ∧ errors₂ = []) ∧ errors₃ = []
  · obtain ⟨⟨rfl, rfl⟩, rfl⟩ := hnone
    have hd := hclean₁ rfl
    have hg := hclean₂ rfl
    refine .inl ⟨⟨⟨rfl, rfl⟩, rfl⟩, ?_⟩
    rw [tracked, hclean₃ rfl hd hg, hkept₃.defaults, hd, hguard, hg]
    rfl
  · refine .inr ⟨hnone, ?_⟩
    rw [not_and_or, not_and_or] at hnone
    exact hnone.elim (fun h => h.elim hfailed₁ hfailed₂) hfailed₃

end Cleanup

/-! ## Setup -/

section Setup

variable {n : Nat} {d : List String}

lemma Kept.idle {s : ExitProgress} {h : ExitLog} {call : Σ e : ExitCall, e.Answer}
    (hs : Kept n d s h) (hgain : gain call = none) (hloss : loss call = none) :
    Kept n d s (h ++ [call]) :=
  ⟨hs.exact.idle hgain hloss, by simp [Nat.le_succ_of_le hs.later], hs.defaults⟩

lemma legacy_keeps (cmd : List String) :
    Contract Allowed (Kept n d) (legacy cmd) fun _ => Kept n d := by
  refine (Contract.ask (K := fun _ => Kept n d) (fun _ _ _ => trivial) ?_).bind fun result =>
    .pure fun _ _ h => h
  exact fun s h r hs => hs.idle rfl rfl

lemma v6CleanupWith_keeps (effect : Guard) :
    Contract Allowed (Kept n d) (v6CleanupWith effect) fun _ => Kept n d := by
  refine (v6CleanupWith_spec (F := fun _ => True) effect fun _ _ _ => trivial).conseq
    (fun _ _ h => h) fun result s h hs => ?_
  cases result with
  | ok _ => exact hs.1
  | error _ => exact hs.1

lemma block_keeps (command : List String × List String) :
    Contract Allowed (Kept n d) (block command) fun _ => Kept n d := by
  intro s h hs
  refine ((Contract.asked trivial).bind fun result => ?_) s h ⟨rfl, rfl⟩
  match result with
  | .ok () =>
    refine .of_state ⟨(hs.exact.gains rfl rfl).congr fun x => ?_,
      by simp [Nat.le_succ_of_le hs.later], hs.defaults⟩
    simp [tracked]
  | .error e =>
    rintro s h ⟨rfl, rfl⟩
    refine ((v6CleanupWith_keeps .up).bind fun _ => ?_) s _ (hs.idle rfl rfl)
    exact .pure fun _ _ h => h

lemma v6BlockTracked_keeps (os : RouteOs) (dev : String) :
    Contract Allowed (Kept n d) (v6BlockTracked os dev) fun _ => Kept n d := by
  refine .ofOutcome ((v6CleanupWith_keeps .up).toOutcome.andThen fun _ => ?_)
  refine (Contract.tryEach (I := fun _ => Kept n d)
    (fun cmd _ => (legacy_keeps cmd).toOutcome) _).andThen fun _ => ?_
  refine (Contract.tryEach (I := fun _ => Kept n d)
    (fun command _ => (block_keeps command).toOutcome) _).andThen fun _ => ?_
  exact .bind .get fun _ => .pure fun _ _ h => h.2

lemma v6BlockTry_keeps (os : RouteOs) (dev : String) :
    Contract Allowed (Kept n d) (v6BlockTry os dev) fun _ => Kept n d :=
  (v6BlockTracked_keeps os dev).bind fun _ => .bind .get fun _ => .pure fun _ _ h => h.2

lemma v6BlockUp_keeps (os : RouteOs) (dev : String) :
    Contract Allowed (Kept n d) (v6BlockUp os dev) fun _ => Kept n d := by
  unfold v6BlockUp
  split
  · refine (Contract.ask (K := fun _ => Kept n d) (fun _ _ _ => trivial)
      fun s h r hs => hs.idle rfl rfl).bind fun disabled => ?_
    cases disabled with
    | true => exact .pure fun _ _ h => h
    | false => exact v6BlockTry_keeps os dev
  · exact v6BlockTry_keeps os dev

lemma guardUp_keeps (os : RouteOs) (dev : String) :
    Contract Allowed (Kept n d) (guardUp os dev) fun _ => Kept n d := by
  refine (v6BlockUp_keeps os dev).bind fun result => ?_
  match result with
  | .ok blocked => exact .modify_pure fun s h hs => ⟨hs.exact, hs.later, hs.defaults⟩
  | .error e => exact .pure fun _ _ h => h

lemma bypassAdd_keeps (b : String) :
    Contract Allowed (Kept n d) (bypassAdd b) fun _ => Kept n d := by
  intro s h hs
  refine ((Contract.asked trivial).bind fun added => ?_) s h ⟨rfl, rfl⟩
  match added with
  | .ok true =>
    refine .of_state ⟨(hs.exact.gains rfl rfl).congr fun x => ?_,
      by simp [Nat.le_succ_of_le hs.later], hs.defaults⟩
    simp only [tracked, List.map_append, List.map_cons, List.map_nil, List.count_append]
    omega
  | .ok false =>
    exact .of_state (hs.idle rfl rfl)
  | .error e =>
    exact .of_state (hs.idle rfl rfl)

lemma defaultAdd_spec (p : String) :
    Contract Allowed (Kept n d) (defaultAdd p)
      (Outcome (fun _ => Kept n (d ++ [p])) fun _ => Kept n d) := by
  intro s h hs
  refine ((Contract.asked trivial).bind fun result => ?_) s h ⟨rfl, rfl⟩
  match result with
  | .ok () =>
    refine .of_state ⟨(hs.exact.gains rfl rfl).congr fun x => ?_,
      by simp [Nat.le_succ_of_le hs.later], congrArg (· ++ [p]) hs.defaults⟩
    simp only [tracked, List.map_append, List.map_cons, List.map_nil, List.count_append]
    omega
  | .error e =>
    exact .of_state (hs.idle rfl rfl)

lemma install_spec (os : RouteOs) (dev : String) (bypass : List String) :
    Contract Allowed (Kept n []) (install os dev bypass)
      (Outcome (fun _ => Kept n halves) fun _ s h => ∃ d, Kept n d s h) := by
  have some_of_keeps {P : ExitProgress → ExitLog → Prop} {p : ExitProg Result}
      (h : Contract Allowed P p fun _ => Kept n []) : Contract Allowed P p
        (Outcome (fun _ => Kept n []) fun _ s h => ∃ d, Kept n d s h) :=
    h.toOutcome.conseq (fun _ _ h => h) fun result s h hK => by
      cases result with
      | ok _ => exact hK
      | error _ => exact ⟨[], hK⟩
  refine (Contract.tryEach (I := fun _ => Kept n [])
    (fun b _ => some_of_keeps (bypassAdd_keeps b)) bypass).andThen fun _ => ?_
  refine (some_of_keeps (guardUp_keeps os dev)).andThen fun _ => ?_
  -- the halves that are there and those that are left are all of them
  refine (Contract.tryEach (I := fun rest s h => ∃ d, d ++ rest = halves ∧ Kept n d s h)
    (E := fun _ s h => ∃ d, Kept n d s h) ?_ halves).conseq (fun s h hs => ⟨[], rfl, hs⟩) ?_
  · rintro p rest s h ⟨d, hd, hs⟩
    refine (defaultAdd_spec p s h hs).mono fun result s h hs => ?_
    cases result with
    | ok _ => exact ⟨d ++ [p], by rw [← List.append_cons, hd], hs⟩
    | error _ => exact ⟨d, hs⟩
  · intro result s h hs
    cases result with
    | ok _ =>
      obtain ⟨d, hd, hs⟩ := hs
      rw [List.append_nil] at hd
      exact hd ▸ hs
    | error _ => exact hs

structure Ended (n : Nat) (result : Except ApplyError Bool) (s : ExitProgress) (h : ExitLog) :
    Prop where
  kept : ∃ d, Kept n d s h
  ok : ∀ b, result = .ok b → s.defaults = halves
  error : ∀ e, result = .error e → tracked s = [] ∨ Since CleanupFailed n h

lemma rollback_spec (e : ApplyError) :
    Contract Allowed (fun s h => ∃ d, Kept n d s h) (rollback e) (Ended n) := by
  rintro s h ⟨d, hs⟩
  refine (cleanupExit_spec.bind fun result => ?_) s h hs
  have ended {s : ExitProgress} {h : ExitLog} {e : ApplyError} (hs : (∃ d, Kept n d s h) ∧
      ((result = .ok () ∧ tracked s = []) ∨ (result ≠ .ok () ∧ Since CleanupFailed n h))) :
      Ended n (.error e) s h :=
    ⟨hs.1, nofun, fun _ _ => hs.2.imp And.right And.right⟩
  match result with
  | .ok () => exact .pure fun s h hs => ended hs
  | .error cleanup => exact .pure fun s h hs => ended hs

lemma installOrRollback_spec (os : RouteOs) (dev : String) (bypass : List String) :
    Contract Allowed (Kept n []) (installOrRollback os dev bypass) (Ended n) := by
  refine (install_spec os dev bypass).bind fun result => ?_
  match result with
  | .ok () =>
    exact .bind .get fun _ => .pure fun s h hs =>
      ⟨⟨halves, hs.2⟩, fun _ _ => hs.2.defaults, nofun⟩
  | .error e => exact rollback_spec e

lemma exitUp_spec (os : RouteOs) (dev : String) (bypass : List String) :
    Contract Allowed (Kept n d) (exitUp os dev bypass) (Ended n) := by
  refine cleanupExit_spec.bind fun result => ?_
  match result with
  | .error e =>
    exact .pure fun s h hs => ⟨hs.1, nofun, fun _ _ => .inr (hs.2.elim (nomatch ·.1) And.right)⟩
  | .ok () =>
    rintro s h ⟨⟨d, hs⟩, ⟨-, hempty⟩ | ⟨hne, -⟩⟩
    · refine installOrRollback_spec os dev bypass s h ⟨hs.exact, hs.later, ?_⟩
      simpa [tracked] using (List.append_eq_nil_iff.mp (List.append_eq_nil_iff.mp hempty).1).2
    · exact absurd rfl hne

end Setup

/-! ## Runs -/

inductive ExitEvent
  | up (os : RouteOs) (dev : String) (bypass : List String)
  | cleanup

structure ExitState where
  progress : ExitProgress
  log : ExitLog
  /-- What the last `exit_up_with` gave. -/
  result : Except ApplyError Bool

namespace ExitState

def init : ExitState := ⟨.default, [], .ok false⟩

def next? (answers : Nat → ∀ e, ExitCall.Answer e) (s : ExitState) : ExitEvent → Option ExitState
  | .up os dev bypass =>
    ((exitUp os dev bypass).exec answers s.progress s.log).map fun (result, progress, log) =>
      ⟨progress, log, result⟩
  | .cleanup =>
    (cleanupExit.exec answers s.progress s.log).map fun (_, progress, log) =>
      { s with progress, log }

/-- The record is exact, and no bypass was deleted too early. -/
structure Sound (s : ExitState) : Prop where
  exact : Exact (tracked s.progress) s.log
  orderly : s.log.Guarded Allowed

lemma sound_init : Sound init := ⟨fun _ => rfl, nofun⟩

variable {s : ExitState}

lemma Sound.kept (hs : Sound s) : Kept s.log.length s.progress.defaults s.progress s.log :=
  ⟨hs.exact, Nat.le_refl _, rfl⟩

lemma Sound.up (hs : Sound s) (answers : Nat → ∀ e, ExitCall.Answer e) (os : RouteOs)
    (dev : String) (bypass : List String) :
    ∃ s', s.next? answers (.up os dev bypass) = some s' ∧ Sound s' ∧
      Ended s.log.length s'.result s'.progress s'.log := by
  obtain ⟨result, progress, log, hexec, hended, hle, hguard⟩ :=
    (exitUp_spec os dev bypass s.progress s.log hs.kept).exec answers
  obtain ⟨d, hkept⟩ := hended.kept
  exact ⟨⟨progress, log, result⟩, by rw [next?, hexec]; rfl,
    ⟨hkept.exact, hs.orderly.extend hle hguard⟩, hended⟩

lemma Sound.next (answers : Nat → ∀ e, ExitCall.Answer e) (s : ExitState) (e : ExitEvent)
    (hs : Sound s) : ∃ s', s.next? answers e = some s' ∧ Sound s' := by
  cases e with
  | up os dev bypass =>
    obtain ⟨s', hnext, hs', -⟩ := hs.up answers os dev bypass
    exact ⟨s', hnext, hs'⟩
  | cleanup =>
    obtain ⟨result, progress, log, hexec, ⟨⟨d, hkept⟩, -⟩, hle, hguard⟩ :=
      (cleanupExit_spec s.progress s.log hs.kept).exec answers
    exact ⟨{ s with progress, log }, by rw [next?, hexec]; rfl,
      ⟨hkept.exact, hs.orderly.extend hle hguard⟩⟩

end ExitState

/-! ## Main result -/

theorem record_exact (answers : Nat → ∀ e, ExitCall.Answer e) (events : List ExitEvent) :
    ∃ state, StatesOf (ExitState.next? answers) .init events state ∧
      (∀ k ≤ events.length,
        (∀ x, (tracked (state k).progress).count x + ((state k).log.filterMap loss).count x =
          ((state k).log.filterMap gain).count x) ∧
        ∀ i b r, (state k).log[i]? = some ⟨.bypassDel b, r⟩ → ∀ x, (∀ b, x ≠ .bypass b) →
          (((state k).log.take i).filterMap loss).count x =
            (((state k).log.take i).filterMap gain).count x) ∧
      ∀ k os dev bypass, events[k]? = some (.up os dev bypass) →
        (∀ blocked, (state (k + 1)).result = .ok blocked →
          (state (k + 1)).progress.defaults = ["0.0.0.0/1", "128.0.0.0/1"]) ∧
        ∀ e, (state (k + 1)).result = .error e →
          (∀ call ∈ (state (k + 1)).log.drop (state k).log.length, ¬CleanupFailed call) →
          tracked (state (k + 1)).progress = [] := by
  obtain ⟨state, hrun, hsound⟩ := exists_statesOf (ExitState.Sound.next answers)
    ExitState.sound_init events
  refine ⟨state, hrun, fun k hk => ⟨(hsound k hk).exact, fun i b r hi =>
    (hsound k hk).orderly i (.bypassDel b) r hi⟩, fun k os dev bypass hk => ?_⟩
  obtain ⟨hlt, -⟩ := List.getElem?_eq_some_iff.mp hk
  obtain ⟨s', hnext, -, hended⟩ := (hsound k (Nat.le_of_lt hlt)).up answers os dev bypass
  cases (hrun.step_at hk).symm.trans hnext
  refine ⟨hended.ok, fun e he hclean => (hended.error e he).resolve_right ?_⟩
  rintro ⟨call, hmem, hfailed⟩
  exact hclean call hmem hfailed

end FullTunnel

end Fluxpeer.Host
