import Fluxpeer.Lib.CallLog
import Fluxpeer.Node.HostEffects

/-!
# What is owed to the firewall

An exit that has been opened on an interface has to be closed on it, also if opening it failed. The
log of the calls says what is owed; `applied` and `dirty` are to say the same, over any sequence of
`sync_nat` calls.
-/

namespace Fluxpeer.Node

open Lib HostProg Contract CallLog

abbrev HostLog := CallLog HostCall fun call => call.op.Answer

namespace NatLog

/-- Whether the gateway is up on an interface after this call, if the call is about that. -/
def gateway (phys : String) : (Σ call : HostCall, call.op.Answer) → Option Bool
  | ⟨⟨_, .gatewayUp p⟩, result⟩ =>
    if p = phys then some (match (result : ApplyResult Unit) with
      | .ok () => true
      | .error _ => false) else none
  | ⟨⟨_, .gatewayDown p⟩, result⟩ =>
    match (result : ApplyResult Unit) with
    | .ok () => if p = phys then some false else none
    | .error _ => none
  | _ => none

/-- Whether the gateway may be up on an interface after this call. -/
def attempt (phys : String) : (Σ call : HostCall, call.op.Answer) → Option Bool
  | ⟨⟨_, .gatewayUp p⟩, _⟩ => if p = phys then some true else none
  | ⟨⟨_, .gatewayDown p⟩, result⟩ =>
    match (result : ApplyResult Unit) with
    | .ok () => if p = phys then some false else none
    | .error _ => none
  | _ => none

/-- The gateway was set up on the interface, or that was tried, and it was not taken down since. -/
def Outstanding (phys : String) (log : HostLog) : Prop := log.last (attempt phys) = some true

/-- The startup recovery succeeded. -/
def Recovered (log : HostLog) : Prop :=
  ∃ work, (⟨⟨work, .recover⟩, .ok ()⟩ : Σ call : HostCall, call.op.Answer) ∈ log

/-- The gateway is only set up where nothing is owed and the recovery is done. -/
def Allowed (log : HostLog) (call : HostCall) : Prop :=
  match call.op with
  | .gatewayUp _ => (∀ phys, ¬Outstanding phys log) ∧ Recovered log
  | _ => True

/-- The two fields say what is owed. -/
structure Owed (nat : NatInstall) (log : HostLog) : Prop where
  applied : ∀ phys, nat.applied = some phys ↔ log.last (gateway phys) = some true
  attempted : ∀ phys, Outstanding phys log ↔ nat.applied = some phys ∨ nat.dirty = some phys
  one : nat.applied = none ∨ nat.dirty = none
  recovered : nat.recovered = true → Recovered log

variable {nat : NatInstall} {log : HostLog} {call : Σ call : HostCall, call.op.Answer}
  {phys : String} {work : HostWork}

lemma owed_nil (backend : Bool) : Owed ⟨false, false, none, none, backend⟩ [] :=
  ⟨fun _ => ⟨nofun, nofun⟩, fun _ => ⟨nofun, nofun⟩, .inl rfl, nofun⟩

lemma Recovered.concat (h : Recovered log) : Recovered (log ++ [call]) :=
  h.imp fun _ hmem => List.mem_append_left _ hmem

lemma Owed.idle (h : Owed nat log) (hgateway : ∀ p, gateway p call = none)
    (hattempt : ∀ p, attempt p call = none) : Owed nat (log ++ [call]) where
  applied p := by rw [last_concat_of_none (hgateway p)]; exact h.applied p
  attempted p := by
    rw [Outstanding, last_concat_of_none (hattempt p)]
    exact h.attempted p
  one := h.one
  recovered hr := (h.recovered hr).concat

lemma Owed.down {nat' : NatInstall} (h : Owed nat log)
    (happlied : ∀ p, nat'.applied = some p ↔ nat.applied = some p ∧ p ≠ phys)
    (hdirty : ∀ p, nat'.applied = some p ∨ nat'.dirty = some p ↔
      (nat.applied = some p ∨ nat.dirty = some p) ∧ p ≠ phys)
    (hone : nat'.applied = none ∨ nat'.dirty = none) (hrecovered : nat'.recovered = nat.recovered) :
    Owed nat' (log ++ [⟨⟨work, .gatewayDown phys⟩, .ok ()⟩]) where
  applied p := by
    rw [happlied p, h.applied p, last_concat]
    by_cases hp : phys = p
    · simp [gateway, hp]
    · simp [gateway, hp, Ne.symm hp]
  attempted p := by
    rw [hdirty p, ← h.attempted p, Outstanding, Outstanding, last_concat]
    by_cases hp : phys = p
    · simp [attempt, hp]
    · simp [attempt, hp, Ne.symm hp]
  one := hone
  recovered hr := (h.recovered (hrecovered ▸ hr)).concat

lemma Owed.down_dirty (h : Owed nat log) (hdirty : nat.dirty = some phys) :
    Owed { nat with dirty := none } (log ++ [⟨⟨work, .gatewayDown phys⟩, .ok ()⟩]) := by
  have happlied : nat.applied = none := h.one.resolve_right (by simp [hdirty])
  refine h.down (fun p => ?_) (fun p => ?_) (.inr rfl) rfl
  · simp [happlied]
  · simp only [happlied, hdirty, reduceCtorEq, false_or, Option.some_inj]
    grind

lemma Owed.down_applied (h : Owed nat log) (happlied : nat.applied = some phys) :
    Owed { nat with applied := none } (log ++ [⟨⟨work, .gatewayDown phys⟩, .ok ()⟩]) := by
  have hdirty : nat.dirty = none := h.one.resolve_left (by simp [happlied])
  refine h.down (fun p => ?_) (fun p => ?_) (.inl rfl) rfl
  · simp only [happlied, reduceCtorEq, Option.some_inj]
    grind
  · simp only [happlied, hdirty, reduceCtorEq, or_false, Option.some_inj]
    grind

/-- A setup is owed, whether it succeeded or not. -/
lemma Owed.up (h : Owed nat log) (happlied : nat.applied = none) (hdirty : nat.dirty = none)
    (result : ApplyResult Unit) :
    Owed (match result with
      | .ok () => { nat with applied := some phys }
      | .error _ => { nat with dirty := some phys })
      (log ++ [⟨⟨work, .gatewayUp phys⟩, result⟩]) where
  applied p := by
    have := h.applied p
    rw [last_concat]
    by_cases hp : phys = p
    · cases result <;> simp [gateway, hp, happlied]
    · cases result <;> simp_all [gateway]
  attempted p := by
    have := h.attempted p
    rw [Outstanding, last_concat]
    by_cases hp : phys = p
    · cases result <;> simp [attempt, hp]
    · cases result <;> simp_all [attempt, Outstanding]
  one := by
    cases result with
    | ok _ => exact .inr hdirty
    | error _ => exact .inl happlied
  recovered hr := by
    cases result <;> exact (h.recovered hr).concat

/-! ## The programs -/

section Programs

/-- The record of the state is right. -/
abbrev Keeps (s : Host) (log : HostLog) : Prop := Owed s.nat log

def isGateway : HostOp → Bool
  | .gatewayUp _ | .gatewayDown _ => true
  | _ => false

lemma allowed_of_not_isGateway {op : HostOp} (hop : isGateway op = false) :
    Allowed log ⟨work, op⟩ := by
  unfold Allowed
  split
  · next p hp =>
    change op = .gatewayUp p at hp
    rw [hp] at hop
    cases hop
  · trivial

/-- A call that is not about the gateway changes nothing that is owed. -/
lemma Owed.other {op : HostOp} (h : Owed nat log) (hop : isGateway op = false) (work : HostWork)
    (r : op.Answer) : Owed nat (log ++ [⟨⟨work, op⟩, r⟩]) := by
  refine h.idle (fun p => ?_) fun p => ?_
  · unfold gateway
    split <;> simp_all [isGateway]
  · unfold attempt
    split <;> simp_all [isGateway]

lemma host_keeps (work : HostWork) (op : HostOp) (hop : isGateway op = false) (P : Host → Prop) :
    Contract Allowed (fun s h => Keeps s h ∧ P s) (host work op) fun _ s h => Keeps s h ∧ P s :=
  ask (fun _ _ _ => allowed_of_not_isGateway hop) fun _ _ r hs =>
    ⟨hs.1.other hop work r, hs.2⟩

lemma lease_spec (on : Bool) (P : Host → Prop) :
    Contract Allowed (fun s h => Keeps s h ∧ P s)
      (if on then pure (.ok true) else host .reconcile .hasLease : HostProg (ApplyResult Bool))
      (Outcome (fun leased s h => (Keeps s h ∧ P s) ∧ (on = true → leased = true))
        fun _ s h => Keeps s h) := by
  cases on with
  | true => exact .pure fun s h hs => ⟨hs, fun _ => rfl⟩
  | false =>
    refine (host_keeps .reconcile .hasLease rfl P).conseq (fun _ _ h => h) fun result s h hs => ?_
    cases result with
    | ok _ => exact ⟨hs, nofun⟩
    | error _ => exact hs.1

lemma recoverNat_spec (on : Bool) :
    Contract Allowed Keeps (recoverNat on) (Outcome
      (fun _ s h => Keeps s h ∧ (on = true → s.nat.recovered = true)) fun _ => Keeps) := by
  refine bind .get fun s₀ => ?_
  rintro s h ⟨rfl, hs⟩
  split
  · next hrecovered => exact ⟨hs, fun _ => hrecovered⟩
  refine (andThen (lease_spec on fun _ => True) fun leased => ?_) s₀ h ⟨hs, trivial⟩
  split
  · next hdefer =>
    refine .pure fun s h hs => ⟨hs.1.1, fun hon => ?_⟩
    rw [hs.2 hon] at hdefer
    cases hdefer
  intro s h hs
  refine ((asked trivial).bind fun result => ?_) s h ⟨rfl, rfl⟩
  match result with
  | .ok () =>
    refine .of_state ?_
    have hother := hs.1.1.other (rfl : isGateway .recover = false) .reconcile (.ok ())
    exact ⟨⟨hother.applied, hother.attempted, hother.one, fun _ =>
      ⟨.reconcile, List.mem_append_right _ (List.mem_singleton_self _)⟩⟩, fun _ => rfl⟩
  | .error e =>
    have hother := hs.1.1.other (rfl : isGateway .recover = false) .reconcile (.error e)
    cases hleased : leased with
    | true => exact .pure fun s h hs' => by rw [hs'.1, hs'.2]; exact hother
    | false =>
      refine .modify_pure fun s h hs' => ?_
      rw [hs'.1, hs'.2]
      refine ⟨⟨hother.applied, hother.attempted, hother.one, hother.recovered⟩, fun hon => ?_⟩
      rw [hleased] at hs
      cases hs.2 hon

/-- What a sync has the firewall do. -/
def switch (up : Bool) (phys : String) : HostProg (ApplyResult Unit) :=
  if up then host .reconcile (.gatewayUp phys) else host .reconcile (.gatewayDown phys)

lemma switch_down {s₀ : Host} {h₀ : HostLog} :
    Contract Allowed (fun s h => s = s₀ ∧ h = h₀) (switch false phys) fun result s h =>
      s = s₀ ∧ h = h₀ ++ [⟨⟨.reconcile, .gatewayDown phys⟩, result⟩] :=
  .asked trivial

/-- The first half of `reconcile_nat`: what failed earlier is taken down. -/
lemma cleaned_spec (s₀ : Host) (R : HostLog → Prop) (hR : ∀ h call, R h → R (h ++ [call])) :
    Contract Allowed (fun s h => (Keeps s h ∧ s = s₀) ∧ R h)
      (match s₀.nat.dirty with
        | none => pure (.ok ())
        | some phys => Prog.andThen (switch false phys) fun _ => do
          modifyNat ({ · with dirty := none })
          pure (.ok ()) : HostProg (ApplyResult Unit))
      (Outcome
        (fun _ s h => (Keeps s h ∧ s.nat.dirty = none ∧ s.nat.applied = s₀.nat.applied) ∧ R h)
        fun _ => Keeps) := by
  rintro s h ⟨⟨hs, rfl⟩, hh⟩
  cases hdirty : s.nat.dirty with
  | none => exact ⟨⟨hs, hdirty, rfl⟩, hh⟩
  | some phys =>
    refine (bind switch_down fun result => ?_) s h ⟨rfl, rfl⟩
    match result with
    | .ok () =>
      exact .of_state ⟨⟨hs.down_dirty hdirty, rfl, rfl⟩, hR _ _ hh⟩
    | .error e =>
      exact .of_state (hs.idle (fun _ => rfl) fun _ => rfl)

/-- The setup of `reconcile_nat`, where nothing is owed. -/
def setUp (found : Option String) : HostProg (ApplyResult Unit) :=
  match found with
  | none => pure (.error (.new ["discover", "physical-interface"] "no physical egress interface"))
  | some phys => do
    match ← switch true phys with
    | .error e => do
      modifyNat ({ · with dirty := some phys })
      pure (.error e)
    | .ok () => do
      modifyNat ({ · with applied := some phys })
      pure (.ok ())

lemma setUp_spec :
    Contract Allowed (fun s h => (Keeps s h ∧ s.nat.dirty = none ∧ s.nat.applied = none) ∧
        (true = true → Recovered h))
      (Prog.andThen (host .reconcile .physicalIface) setUp)
      (Outcome (fun _ => Keeps) fun _ => Keeps) := by
  have hdiscover := (host_keeps .reconcile .physicalIface rfl
    fun s => s.nat.dirty = none ∧ s.nat.applied = none).stable
      (M := fun h => true = true → Recovered h) fun _ _ hh hon => (hh hon).concat
  refine bind hdiscover fun found => ?_
  match found with
  | .error e => exact .pure fun s h hs => hs.1.1
  | .ok none => exact .pure fun s h hs => hs.1.1
  | .ok (some phys) =>
    rintro s h ⟨⟨hs, hdirty, happlied⟩, hrecovered⟩
    have hnone : ∀ p, ¬Outstanding p h := fun p hp => by
      simpa [happlied, hdirty] using (hs.attempted p).mp hp
    refine ((asked ⟨hnone, hrecovered rfl⟩).bind fun result => ?_) s h ⟨rfl, rfl⟩
    match result with
    | .ok () =>
      exact .of_state (hs.up happlied hdirty (.ok ()))
    | .error e =>
      exact .of_state (hs.up happlied hdirty (.error e))

lemma reconcileNat_spec (on : Bool) :
    Contract Allowed (fun s h => Keeps s h ∧ (on = true → Recovered h))
      (reconcileNat on (host .reconcile .physicalIface) switch) fun _ => Keeps := by
  refine bind .get fun s₀ => ?_
  rintro s h ⟨rfl, hs, hrecovered⟩
  have hcleaned := cleaned_spec s₀ (fun h => on = true → Recovered h)
    fun _ _ hh hon => (hh hon).concat
  refine (ofOutcome (hcleaned.andThen fun _ => ?_)) s₀ h ⟨⟨hs, rfl⟩, hrecovered⟩
  cases on with
  | true =>
    cases s₀.nat.applied with
    | none => exact setUp_spec
    | some phys => exact .pure fun s h hs => hs.1.1
  | false =>
    cases s₀.nat.applied with
    | none => exact .pure fun s h hs => hs.1.1
    | some phys =>
      rintro s h ⟨⟨hs, -, hsame⟩, -⟩
      refine (bind switch_down fun result => ?_) s h ⟨rfl, rfl⟩
      match result with
      | .ok () =>
        exact .of_state (hs.down_applied hsame)
      | .error e =>
        exact .of_state (hs.idle (fun _ => rfl) fun _ => rfl)

/-- The choice of a backend owes nothing. -/
lemma detect_spec (policy : ProviderPolicy) (selfExit : Bool) (R : Prop) :
    Contract Allowed (fun s h => Keeps s h ∧ (R → s.nat.recovered = true))
      (do
        let h ← Prog.get
        if !h.nat.backend &&
            (natOn policy selfExit || h.nat.applied.isSome || h.nat.dirty.isSome) then
          Prog.andThen (host .reconcile .detect) fun _ => do
            modifyNat ({ · with backend := true })
            pure (.ok ())
        else pure (.ok ()) : HostProg (ApplyResult Unit))
      fun _ s h => Keeps s h ∧ (R → s.nat.recovered = true) := by
  refine bind .get fun s₀ => ?_
  rintro s h ⟨rfl, hs⟩
  split
  · refine (bind (host_keeps .reconcile .detect rfl fun s => R → s.nat.recovered = true)
      fun result => ?_) s₀ h hs
    match result with
    | .ok () => exact .modify_pure fun s h hs => ⟨⟨hs.1.1, hs.1.2, hs.1.3, hs.1.4⟩, hs.2⟩
    | .error e => exact .pure fun s h hs => hs
  · exact hs

lemma prepareNat_spec (policy : ProviderPolicy) (selfExit : Bool) :
    Contract Allowed Keeps (prepareNat policy selfExit) fun result s h =>
      Keeps s h ∧ (result = some (.ok ()) → natOn policy selfExit = true → Recovered h) := by
  refine .withLock (.bind .get fun s₀ => ?_)
  rintro s h ⟨rfl, hs⟩
  split
  · exact ⟨hs, nofun⟩
  refine (withLock ?_) s₀ h hs
  refine bind ((recoverNat_spec (natOn policy selfExit)).andThen fun _ =>
    (detect_spec policy selfExit (natOn policy selfExit = true)).conseq (fun _ _ h => h)
      (Q := Outcome (fun _ s h => Keeps s h ∧
        (natOn policy selfExit = true → s.nat.recovered = true)) fun _ => Keeps) fun result s h hs => ?_) fun result => .pure fun s h hs => ?_
  · cases result with
    | ok _ => exact hs
    | error _ => exact hs.1
  · match result with
    | .ok () => exact ⟨hs.1, fun _ hon => hs.1.recovered (hs.2 hon)⟩
    | .error e => exact ⟨hs, nofun⟩

lemma setNat_spec (on : Bool) :
    Contract Allowed (fun s h => Keeps s h ∧ (on = true → Recovered h)) (setNat on)
      fun _ => Keeps := by
  refine .withLock (.bind .get fun s₀ => ?_)
  rintro s h ⟨rfl, hs⟩
  split
  · exact hs.1
  · exact (withLock (reconcileNat_spec on)) s₀ h hs

lemma syncNat_spec (policy : ProviderPolicy) (selfExit : Bool) :
    Contract Allowed Keeps (syncNat policy selfExit) fun _ => Keeps := by
  refine (prepareNat_spec policy selfExit).bind fun result => ?_
  match result with
  | none => exact .pure fun s h hs => hs.1
  | some (.error e) => exact .pure fun s h hs => hs.1
  | some (.ok ()) =>
    cases policy.enabled with
    | true => exact (setNat_spec _).conseq (fun s h hs => ⟨hs.1, hs.2 rfl⟩) fun _ _ _ h => h
    | false => exact .pure fun s h hs => hs.1

end Programs

/-! ## Runs -/

structure NatState where
  host : Host
  log : HostLog

/-- A sync, with its policy and what the control server says. -/
abbrev NatSync := ProviderPolicy × Bool

def NatState.next? (answers : Nat → ∀ call : HostCall, call.op.Answer) (s : NatState)
    (sync : NatSync) : Option NatState :=
  ((syncNat sync.1 sync.2).exec answers s.host s.log).map fun (_, host, log) => ⟨host, log⟩

structure NatState.Sound (s : NatState) : Prop where
  owed : Owed s.host.nat s.log
  orderly : s.log.Guarded Allowed

lemma NatState.Sound.next (answers : Nat → ∀ call : HostCall, call.op.Answer) (s : NatState)
    (sync : NatSync) (hs : s.Sound) : ∃ s', s.next? answers sync = some s' ∧ s'.Sound := by
  obtain ⟨result, host, log, hexec, howed, hle, hguard⟩ :=
    (syncNat_spec sync.1 sync.2 s.host s.log hs.owed).exec answers
  exact ⟨⟨host, log⟩, by rw [NatState.next?, hexec]; rfl, howed, hs.orderly.extend hle hguard⟩

theorem nat_obligations_kept (answers : Nat → ∀ call : HostCall, call.op.Answer)
    (relayIps dnsOverride carriers : List String) (syncs : List NatSync) :
    ∃ state,
      StatesOf (NatState.next? answers) ⟨.init relayIps dnsOverride carriers, []⟩ syncs state ∧
      ∀ k ≤ syncs.length,
        (∀ phys, (state k).host.nat.applied = some phys ↔
          (state k).log.last (gateway phys) = some true) ∧
        (∀ phys, Outstanding phys (state k).log →
          (state k).host.nat.applied = some phys ∨ (state k).host.nat.dirty = some phys) ∧
        ((state k).host.nat.applied = none ∨ (state k).host.nat.dirty = none) ∧
        ∀ i work phys r, (state k).log[i]? = some ⟨⟨work, .gatewayUp phys⟩, r⟩ →
          (∀ p, ¬Outstanding p ((state k).log.take i)) ∧
          Recovered ((state k).log.take i) := by
  obtain ⟨state, hrun, hsound⟩ := exists_statesOf (NatState.Sound.next answers)
    (s := ⟨.init relayIps dnsOverride carriers, []⟩) ⟨owed_nil false, nofun⟩ syncs
  refine ⟨state, hrun, fun k hk => ?_⟩
  obtain ⟨howed, horderly⟩ := hsound k hk
  exact ⟨howed.applied, fun phys => (howed.attempted phys).mp, howed.one,
    fun i work phys r hi => horderly i ⟨work, .gatewayUp phys⟩ r hi⟩

end NatLog

end Fluxpeer.Node
