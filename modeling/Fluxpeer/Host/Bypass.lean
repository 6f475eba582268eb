import Fluxpeer.Firewall.Forwarding
import Fluxpeer.Lib.CallLog
import Fluxpeer.Lib.HashMap
import Mathlib.Data.Finset.Sort
import Mathlib.Data.String.Basic

/-!
# Carrier routes

Traffic of the tunnel itself must not go through the tunnel: the carriers have routes of their own.
`reconcile` adds all that are missing before it removes any that is not wanted, and goes back to the
old ones if something fails. Only an add that made the route makes it ours; a route that was there
already is left to its owner.
-/

namespace Fluxpeer.Host

open Lib Firewall HashMap

/-! ## The program -/

inductive BypassCall (T : Type)
  | add (dest : String)
  | remove (dest : String) (via : T)

variable {T : Type}

/-- An add gives the way it took, or nothing if the route was there already. -/
def BypassCall.Answer : BypassCall T → Type
  | .add _ => Except ApplyError (Option T)
  | .remove .. => Result

abbrev BypassLog (T : Type) := CallLog (BypassCall T) BypassCall.Answer

/-- The state is the map of the routes that are owned. -/
abbrev BypassProg (T : Type) :=
  Prog Empty (HashMap String T) (BypassCall T) BypassCall.Answer

namespace Bypass

def add (dest : String) : BypassProg T (Except ApplyError (Option T)) :=
  Prog.ask (BypassCall.add dest)

def remove (dest : String) (via : T) : BypassProg T Result := Prog.ask (BypassCall.remove dest via)

/-- The keys of a `BTreeMap`, in their order. -/
def keys (owned : HashMap String T) : List String := owned.keys.toFinset.sort (· ≤ ·)

def acquire (dest : String) : BypassProg T Result := do
  match ← add dest with
  | .ok (some via) =>
    .modify (·.insert dest via)
    pure (.ok ())
  | .ok none => pure (.ok ())
  | .error e => pure (.error e)

def release (dest : String) : BypassProg T Result := do
  let owned ← .get
  match owned.lookup dest with
  | none => pure (.ok ())
  | some via =>
    match ← remove dest via with
    | .ok () =>
      .modify (·.erase dest)
      pure (.ok ())
    | .error e => pure (.error e)

def acquireNew (dest : String) : BypassProg T Result := do
  let owned ← .get
  if owned.contains dest then pure (.ok ()) else acquire dest

def forward (before : HashMap String T) (desired : Finset String) : BypassProg T Result :=
  .andThen (.tryEach acquireNew (desired.sort (· ≤ ·))) fun _ =>
    .tryEach release ((keys before).filter (· ∉ desired))

def rollback (before : HashMap String T) (error : ApplyError) : BypassProg T Result := do
  let owned ← .get
  let restored ← .collect acquire ((keys before).filter (!owned.contains ·))
  let owned ← .get
  let released ← .collect release ((keys owned).filter (!before.contains ·))
  pure (all (.error error :: (restored ++ released)))

/-- `bypass::reconcile` -/
def reconcile (desired : Finset String) : BypassProg T Result := do
  let before ← .get
  match ← forward before desired with
  | .ok () => pure (.ok ())
  | .error e => rollback before e

/-! ## The state -/

structure Via where
  gateway : String
  iface : String
deriving DecidableEq

/-- What the host says while a `sync` goes on; the two effects are asked by number. -/
structure Answers where
  defaultGateway : Except ApplyError (Option String)
  physicalIface : Except ApplyError (Option String)
  physicalV6Route : Except ApplyError (Option (String × String))
  add : Nat → String → Via → Except ApplyError Bool
  remove : Nat → String → Via → Result

/-- `bypass::State` -/
structure State where
  owned : HashMap String Via
  v4 : Option Via
  v6 : Option Via

def State.default : State := ⟨∅, none, none⟩

def isV6 (dest : String) : Bool := dest.toList.contains ':'

/-- What `sync` gives `reconcile` for its two effects. -/
def State.answer (host : Answers) (s : State) (n : Nat) : ∀ e : BypassCall Via, e.Answer
  | .add dest =>
    match if isV6 dest then s.v6 else s.v4 with
    | none =>
      if isV6 dest then .ok none
      else .error (.new ["bypass", dest] "no physical default route")
    | some via => (host.add n dest via).map fun installed => if installed then some via else none
  | .remove dest via => host.remove n dest via

def State.discoverV4 (host : Answers) (s : State) (desired : Finset String) :
    Except ApplyError (Option Via) :=
  if desired.Nonempty ∧ s.v4 = none then do
    let gateway ← host.defaultGateway
    let iface ← host.physicalIface
    match gateway, iface with
    | some gateway, some iface => pure (some ⟨gateway, iface⟩)
    | _, _ => pure none
  else pure s.v4

def State.discoverV6 (host : Answers) (s : State) (desired : Finset String) :
    Except ApplyError (Option Via) :=
  if (∃ dest ∈ desired, isV6 dest) ∧ s.v6 = none then do
    let route ← host.physicalV6Route
    pure (route.map fun (gateway, iface) => ⟨gateway, iface⟩)
  else pure s.v6

/-- Old protections are kept until whoever uses them is done. -/
def State.wanted (s : State) (prefixes : List String) (retain : Bool) : Finset String :=
  prefixes.toFinset ∪ if retain then s.owned.keys.toFinset else ∅

/-- `State::sync`, with the calls that it makes; `canonical` brings a prefix to its normal form. -/
def State.sync (canonical : String → Except ApplyError String) (host : Answers) (s : State)
    (desired : List String) (retain : Bool) : Option (Result × State × BypassLog Via) :=
  match desired.mapM canonical with
  | .error e => some (.error e, s, [])
  | .ok prefixes =>
    match s.discoverV4 host (s.wanted prefixes retain) with
    | .error e => some (.error e, s, [])
    | .ok v4 =>
      match s.discoverV6 host (s.wanted prefixes retain) with
      | .error e => some (.error e, { s with v4 }, [])
      | .ok v6 =>
        ((reconcile (s.wanted prefixes retain)).exec (State.answer host { s with v4, v6 }) s.owned
          []).map fun (result, owned, log) => (result, ⟨owned, v4, v6⟩, log)

/-! ## Ownership -/

/-- What a call has done to a route: made it, or removed it. -/
def effectOn (dest : String) : (Σ e : BypassCall T, e.Answer) → Option Bool
  | ⟨.add d, outcome⟩ =>
    match (outcome : Except ApplyError (Option T)) with
    | .ok (some _) => if d = dest then some true else none
    | _ => none
  | ⟨.remove d _, result⟩ =>
    match (result : Result) with
    | .ok () => if d = dest then some false else none
    | .error _ => none

/-- The route was owned before or has been made since, and has not been removed. -/
def ours (before : HashMap String T) (log : BypassLog T) (dest : String) : Bool :=
  (log.last (effectOn dest)).getD (before.contains dest)

/-- The add of a route succeeded: it was made, or was there already. -/
def Added (dest : String) (log : BypassLog T) : Prop :=
  ∃ via, (⟨.add dest, .ok via⟩ : Σ e : BypassCall T, e.Answer) ∈ log

def Failed (call : Σ e : BypassCall T, e.Answer) : Prop :=
  (∃ dest e, call = ⟨.add dest, .error e⟩) ∨ ∃ dest via e, call = ⟨.remove dest via, .error e⟩

def Succeeded (call : Σ e : BypassCall T, e.Answer) : Prop :=
  (∃ dest via, call = ⟨.add dest, .ok (some via)⟩) ∨ ∃ dest via, call = ⟨.remove dest via, .ok ()⟩

/-- What is owned is what the log says. -/
def Exact (before owned : HashMap String T) (log : BypassLog T) : Prop :=
  ∀ dest, owned.contains dest = ours before log dest

lemma contains_insert (m : HashMap String T) (dest d : String) (via : T) :
    contains (m.insert dest via) d = (decide (d = dest) || m.contains d) := by
  unfold HashMap.contains
  rw [lookup_insert]
  by_cases hd : d = dest <;> simp [hd]

lemma contains_erase (m : HashMap String T) (dest d : String) :
    contains (m.erase dest) d = (decide (d ≠ dest) && m.contains d) := by
  unfold HashMap.contains
  rw [lookup_erase]
  by_cases hd : d = dest <;> simp [hd]

lemma mem_keys {m : HashMap String T} {dest : String} : dest ∈ keys m ↔ m.contains dest := by
  rw [keys, Finset.mem_sort, List.mem_toFinset, ← AList.mem_keys, ← AList.lookup_isSome]
  rfl

section Exact

variable {before owned : HashMap String T} {log : BypassLog T} {dest : String} {via : T}

lemma Exact.concat (h : Exact before owned log) {call : Σ e : BypassCall T, e.Answer}
    (hcall : ∀ d, effectOn d call = none) : Exact before owned (log ++ [call]) := by
  intro d
  rw [ours, CallLog.last_concat_of_none (hcall d)]
  exact h d

lemma Exact.insert (h : Exact before owned log) :
    Exact before (owned.insert dest via) (log ++ [⟨.add dest, .ok (some via)⟩]) := by
  intro d
  rw [ours, CallLog.last_concat, contains_insert, h d]
  by_cases hd : d = dest
  · simp [effectOn, hd]
  · simp [effectOn, hd, Ne.symm hd, ours]

lemma Exact.erase (h : Exact before owned log) :
    Exact before (owned.erase dest) (log ++ [⟨.remove dest via, .ok ()⟩]) := by
  intro d
  rw [ours, CallLog.last_concat, contains_erase, h d]
  by_cases hd : d = dest
  · simp [effectOn, hd]
  · simp [effectOn, hd, Ne.symm hd, ours]

end Exact

/-! ## One route -/

/-- What an add can come to. -/
inductive Acquired (dest : String) (m : HashMap String T) (log : BypassLog T) :
    Result → HashMap String T → BypassLog T → Prop
  | made (via : T) :
    Acquired dest m log (.ok ()) (m.insert dest via) (log ++ [⟨.add dest, .ok (some via)⟩])
  | present : Acquired dest m log (.ok ()) m (log ++ [⟨.add dest, .ok none⟩])
  | failed (e : ApplyError) : Acquired dest m log (.error e) m (log ++ [⟨.add dest, .error e⟩])

/-- What a remove can come to. -/
inductive Released (dest : String) (m : HashMap String T) (log : BypassLog T) :
    Result → HashMap String T → BypassLog T → Prop
  | absent (h : m.contains dest = false) : Released dest m log (.ok ()) m log
  | done (via : T) :
    Released dest m log (.ok ()) (m.erase dest) (log ++ [⟨.remove dest via, .ok ()⟩])
  | failed (via : T) (e : ApplyError) :
    Released dest m log (.error e) m (log ++ [⟨.remove dest via, .error e⟩])

section Calls

variable {G : BypassLog T → BypassCall T → Prop} {dest : String} (m : HashMap String T)
  (log : BypassLog T)

lemma acquire_spec (hG : G log (.add dest)) :
    Contract G (fun s h => s = m ∧ h = log) (acquire dest) (Acquired dest m log) := by
  refine (Contract.asked hG).bind fun outcome => ?_
  match outcome with
  | .ok (some via) =>
    exact .of_state (.made via)
  | .ok none =>
    exact .of_state .present
  | .error e =>
    exact .of_state (.failed e)

lemma release_spec (hG : ∀ via, m.contains dest → G log (.remove dest via)) :
    Contract G (fun s h => s = m ∧ h = log) (release dest) (Released dest m log) := by
  refine Contract.bind .get fun owned => ?_
  rintro s h ⟨rfl, rfl, rfl⟩
  have hcontains : owned.contains dest = (owned.lookup dest).isSome := rfl
  cases hlookup : owned.lookup dest with
  | none =>
    rw [hlookup] at hcontains
    exact .absent hcontains
  | some via =>
    rw [hlookup] at hcontains
    refine ((Contract.asked (hG via hcontains)).bind fun result => ?_) owned h ⟨rfl, rfl⟩
    match result with
    | .ok () =>
      exact .of_state (.done via)
    | .error e =>
      exact .of_state (.failed via e)

end Calls

/-! ## The passes -/

section Passes

variable (before : HashMap String T) (desired : Finset String)

/-- Only what is owned is removed, and nothing that was owned before all that is wanted is there. -/
def Allowed (log : BypassLog T) : BypassCall T → Prop
  | .add _ => True
  | .remove dest _ => ours before log dest = true ∧
    (before.contains dest → ∀ d ∈ desired, before.contains d ∨ Added d log)

/-- The invariant of the first pass, with the routes that it has yet to look at. -/
structure Adding (rest : List String) (owned : HashMap String T) (log : BypassLog T) : Prop where
  exact : Exact before owned log
  fine : ∀ call ∈ log, ¬Failed call
  sub : ∀ d ∈ rest, d ∈ desired
  known : ∀ d, owned.contains d → before.contains d ∨ d ∈ desired ∧ Added d log
  added : ∀ d ∈ desired, d ∉ rest → before.contains d ∨ Added d log

/-- The invariant of the second. -/
structure Retiring (rest : List String) (owned : HashMap String T) (log : BypassLog T) : Prop where
  exact : Exact before owned log
  fine : ∀ call ∈ log, ¬Failed call
  added : ∀ d ∈ desired, before.contains d ∨ Added d log
  wanted : ∀ d, owned.contains d → d ∈ desired ∨ d ∈ rest

/-- The last call failed, as the first. -/
structure Broken (owned : HashMap String T) (log : BypassLog T) : Prop where
  exact : Exact before owned log
  first : ∃ fwd call, log = fwd ++ [call] ∧ (∀ c ∈ fwd, ¬Failed c) ∧ Failed call

variable {before desired}

variable {dest : String} {log : BypassLog T}

lemma Added.concat {call : Σ e : BypassCall T, e.Answer} (h : Added dest log) :
    Added dest (log ++ [call]) :=
  h.imp fun _ hmem => List.mem_append_left _ hmem

lemma fine_concat {call : Σ e : BypassCall T, e.Answer} (h : ∀ call ∈ log, ¬Failed call)
    (hcall : ¬Failed call) : ∀ c ∈ log ++ [call], ¬Failed c := by
  intro c hc
  rcases List.mem_append.mp hc with hc | hc
  · exact h c hc
  · rwa [List.mem_singleton.mp hc]

lemma not_failed_add {via : Option T} :
    ¬Failed (⟨.add dest, .ok via⟩ : Σ e : BypassCall T, e.Answer) := by
  rintro (⟨d, e, h⟩ | ⟨d, v, e, h⟩) <;> cases h

lemma not_failed_remove {via : T} :
    ¬Failed (⟨.remove dest via, .ok ()⟩ : Σ e : BypassCall T, e.Answer) := by
  rintro (⟨d, e, h⟩ | ⟨d, v, e, h⟩) <;> cases h

/-- An add that succeeded goes on with the first pass. -/
lemma Adding.next {rest : List String} {owned owned' : HashMap String T} {via : Option T}
    (h : Adding before desired (dest :: rest) owned log)
    (hexact : Exact before owned' (log ++ [⟨.add dest, .ok via⟩]))
    (howned : ∀ d, owned'.contains d → d = dest ∨ owned.contains d) :
    Adding before desired rest owned' (log ++ [⟨.add dest, .ok via⟩]) := by
  have hadded : Added dest (log ++ [⟨.add dest, .ok via⟩]) :=
    ⟨via, List.mem_append_right _ (List.mem_singleton_self _)⟩
  obtain ⟨hdest, hsub⟩ := List.forall_mem_cons.mp h.sub
  refine ⟨hexact, fine_concat h.fine not_failed_add, hsub, fun d hd => ?_, fun d hd hrest => ?_⟩
  · rcases howned d hd with rfl | hd
    · exact .inr ⟨hdest, hadded⟩
    · exact (h.known d hd).imp_right fun ⟨hmem, hadd⟩ => ⟨hmem, hadd.concat⟩
  · by_cases hne : d = dest
    · exact .inr (hne ▸ hadded)
    · exact (h.added d hd (by simp [hne, hrest])).imp_right Added.concat

lemma acquireNew_keeps (dest : String) (rest : List String) :
    Contract (Allowed before desired) (Adding before desired (dest :: rest)) (acquireNew dest)
      (Outcome (fun _ => Adding before desired rest) fun _ => Broken before) := by
  refine .bind .get fun owned => ?_
  rintro s h ⟨rfl, hadding⟩
  split
  · next hcontains =>
    refine ⟨hadding.exact, hadding.fine, (List.forall_mem_cons.mp hadding.sub).2, hadding.known,
      fun d hd hrest => ?_⟩
    by_cases hne : d = dest
    · exact hne ▸ (hadding.known dest hcontains).imp_right And.right
    · exact hadding.added d hd (by simp [hne, hrest])
  · refine (acquire_spec owned h trivial owned h ⟨rfl, rfl⟩).mono ?_
    rintro result s log' (⟨via⟩ | _ | ⟨e⟩)
    · refine hadding.next hadding.exact.insert fun d hd => ?_
      simpa [contains_insert] using hd
    · exact hadding.next (hadding.exact.concat fun _ => rfl) fun d hd => .inr hd
    · exact ⟨hadding.exact.concat fun _ => rfl, h, _, rfl, hadding.fine, .inl ⟨dest, e, rfl⟩⟩

lemma release_keeps (dest : String) (rest : List String) :
    Contract (Allowed before desired) (Retiring before desired (dest :: rest)) (release dest)
      (Outcome (fun _ => Retiring before desired rest) fun _ => Broken before) := by
  intro owned log hretiring
  have hallowed (via : T) (hvia : owned.contains dest) :
      Allowed before desired log (.remove dest via) :=
    ⟨(hretiring.exact dest).symm.trans hvia, fun _ => hretiring.added⟩
  refine (release_spec owned log hallowed owned log ⟨rfl, rfl⟩).mono ?_
  rintro result s log' (hnone | ⟨via⟩ | ⟨via, e⟩)
  · refine ⟨hretiring.exact, hretiring.fine, hretiring.added, fun d hd => ?_⟩
    rcases hretiring.wanted d hd with hmem | hmem
    · exact .inl hmem
    rcases List.mem_cons.mp hmem with rfl | hmem
    · rw [hnone] at hd
      cases hd
    · exact .inr hmem
  · refine ⟨hretiring.exact.erase, fine_concat hretiring.fine not_failed_remove,
      fun d hd => (hretiring.added d hd).imp_right Added.concat, fun d hd => ?_⟩
    rw [contains_erase, Bool.and_eq_true, decide_eq_true_iff] at hd
    rcases hretiring.wanted d hd.2 with hmem | hmem
    · exact .inl hmem
    · exact .inr ((List.mem_cons.mp hmem).resolve_left hd.1)
  · exact ⟨hretiring.exact.concat fun _ => rfl, log, _, rfl, hretiring.fine,
      .inr ⟨dest, via, e, rfl⟩⟩

lemma forward_spec :
    Contract (Allowed before desired) (fun owned log => owned = before ∧ log = [])
      (forward before desired)
      (Outcome (fun _ => Retiring before desired []) fun _ => Broken before) := by
  refine .andThen (Q := fun _ => Retiring before desired ((keys before).filter (· ∉ desired))) ?_
    fun _ => .tryEach release_keeps _
  refine (Contract.tryEach acquireNew_keeps (desired.sort (· ≤ ·))).conseq ?_ ?_
  · rintro owned log ⟨rfl, rfl⟩
    exact ⟨fun _ => rfl, nofun, fun d hd => (Finset.mem_sort _).mp hd, fun d hd => .inl hd,
      fun d hd hrest => absurd ((Finset.mem_sort _).mpr hd) hrest⟩
  · rintro (e | _) owned log h
    · exact h
    · refine ⟨h.exact, h.fine, fun d hd => h.added d hd (List.not_mem_nil), fun d hd => ?_⟩
      by_cases hmem : d ∈ desired
      · exact .inl hmem
      · have hbefore := (h.known d hd).resolve_right fun hk => hmem hk.1
        exact .inr (List.mem_filter.mpr ⟨mem_keys.mpr hbefore, decide_eq_true hmem⟩)

/-! ## Rollback -/

/-- The invariant of the pass that puts the old routes back, since the log was `fwd`. -/
structure Restoring (before : HashMap String T) (fwd : BypassLog T) (rest : List String)
    (owned : HashMap String T) (log : BypassLog T) : Prop where
  exact : Exact before owned log
  since : ∃ back, log = fwd ++ back ∧
    ((∀ c ∈ back, Succeeded c) → ∀ d, before.contains d → owned.contains d ∨ d ∈ rest)

/-- The invariant of the pass that releases the new ones. -/
structure Releasing (before : HashMap String T) (fwd : BypassLog T) (rest : List String)
    (owned : HashMap String T) (log : BypassLog T) : Prop where
  exact : Exact before owned log
  fresh : ∀ d ∈ rest, before.contains d = false
  since : ∃ back, log = fwd ++ back ∧ ((∀ c ∈ back, Succeeded c) →
    (∀ d, before.contains d → owned.contains d) ∧
      ∀ d, owned.contains d → before.contains d ∨ d ∈ rest)

variable {fwd : BypassLog T}

lemma acquire_restores (dest : String) (rest : List String) :
    Contract (Allowed before desired) (Restoring before fwd (dest :: rest)) (acquire dest) fun _ =>
      Restoring before fwd rest := by
  rintro owned log ⟨hexact, back, rfl, hback⟩
  refine (acquire_spec owned (fwd ++ back) trivial owned _ ⟨rfl, rfl⟩).mono ?_
  rintro result s log' (⟨via⟩ | _ | ⟨e⟩)
  · refine ⟨hexact.insert, back ++ [_], List.append_assoc .., fun hall d hd => ?_⟩
    rw [contains_insert, Bool.or_eq_true, decide_eq_true_iff]
    rcases hback (fun c hc => hall c (List.mem_append_left _ hc)) d hd with howned | hmem
    · exact .inl (.inr howned)
    · exact (List.mem_cons.mp hmem).imp .inl id
  all_goals
    refine ⟨hexact.concat fun _ => rfl, back ++ [_], List.append_assoc .., fun hall => ?_⟩
    have hlast := hall _ (List.mem_append_right _ (List.mem_singleton_self _))
    obtain ⟨d, v, h⟩ | ⟨d, v, h⟩ := hlast <;> cases h

lemma release_releases (dest : String) (rest : List String) :
    Contract (Allowed before desired) (Releasing before fwd (dest :: rest)) (release dest) fun _ =>
      Releasing before fwd rest := by
  rintro owned log ⟨hexact, hfresh, back, rfl, hback⟩
  obtain ⟨hdest, hfresh⟩ := List.forall_mem_cons.mp hfresh
  have hallowed (via : T) (hvia : owned.contains dest) :
      Allowed before desired (fwd ++ back) (.remove dest via) :=
    ⟨(hexact dest).symm.trans hvia, fun h => absurd h (by simp [hdest])⟩
  refine (release_spec owned (fwd ++ back) hallowed owned _ ⟨rfl, rfl⟩).mono ?_
  rintro result s log' (hnone | ⟨via⟩ | ⟨via, e⟩)
  · refine ⟨hexact, hfresh, back, rfl, fun hall => ⟨(hback hall).1, fun d hd => ?_⟩⟩
    refine ((hback hall).2 d hd).imp_right fun hmem => (List.mem_cons.mp hmem).resolve_left ?_
    rintro rfl
    rw [hnone] at hd
    cases hd
  · refine ⟨hexact.erase, hfresh, back ++ [_], List.append_assoc .., fun hall => ?_⟩
    obtain ⟨hold, hnew⟩ := hback fun c hc => hall c (List.mem_append_left _ hc)
    refine ⟨fun d hd => ?_, fun d hd => ?_⟩
    · have hne : d ≠ dest := by
        rintro rfl
        rw [hdest] at hd
        cases hd
      rw [contains_erase, hold d hd, decide_eq_true hne]
      rfl
    · rw [contains_erase, Bool.and_eq_true, decide_eq_true_iff] at hd
      exact (hnew d hd.2).imp_right fun hmem => (List.mem_cons.mp hmem).resolve_left hd.1
  · refine ⟨hexact.concat fun _ => rfl, hfresh, back ++ [_], List.append_assoc .., fun hall => ?_⟩
    have hlast := hall _ (List.mem_append_right _ (List.mem_singleton_self _))
    obtain ⟨d, v, h⟩ | ⟨d, v, h⟩ := hlast <;> cases h

lemma rollback_spec {e : ApplyError} :
    Contract (Allowed before desired) (fun owned log => Exact before owned log ∧ log = fwd)
      (rollback before e) fun result owned log =>
      result ≠ .ok () ∧ Exact before owned log ∧ ∃ back, log = fwd ++ back ∧
        ((∀ c ∈ back, Succeeded c) → ∀ d, owned.contains d = before.contains d) := by
  refine Contract.bind .get fun owned => ?_
  rintro s log ⟨rfl, hexact, rfl⟩
  refine ((Contract.collect (I := fun rest _ => Restoring before log rest)
    (fun dest rest _ => acquire_restores dest rest) _ []).bind fun restored => ?_) owned log
    ⟨hexact, [], (List.append_nil _).symm, fun _ d hd => ?_⟩
  · rintro owned₁ log₁ ⟨hexact₁, back₁, rfl, hback₁⟩
    change Prog.Meets _ (Prog.collect release ((keys owned₁).filter (!before.contains ·)) >>=
      fun released => pure (all (.error e :: (restored ++ released)))) _ owned₁ _
    refine ((Contract.collect (I := fun rest _ => Releasing before log rest)
      (fun dest rest _ => release_releases dest rest) _ []).bind fun released => .pure ?_) owned₁ _
      ⟨hexact₁, fun d hd => ?_, back₁, rfl, fun hall => ⟨fun d hd => ?_, fun d hd => ?_⟩⟩
    · rintro owned₂ log₂ ⟨hexact₂, -, back₂, rfl, hback₂⟩
      refine ⟨fun hok => ?_, hexact₂, back₂, rfl, fun hall d => ?_⟩
      · cases eq_ok_of_all_eq_ok hok (.error e) List.mem_cons_self
      · obtain ⟨hold, hnew⟩ := hback₂ hall
        exact Bool.eq_iff_iff.mpr
          ⟨fun hd => (hnew d hd).resolve_right List.not_mem_nil, fun hd => hold d hd⟩
    · simpa using (List.mem_filter.mp hd).2
    · exact (hback₁ hall d hd).resolve_right List.not_mem_nil
    · cases hbefore : before.contains d with
      | true => exact .inl rfl
      | false =>
        exact .inr (List.mem_filter.mpr ⟨mem_keys.mpr hd, by rw [hbefore]; rfl⟩)
  · cases howned : owned.contains d with
    | true => exact .inl rfl
    | false => exact .inr (List.mem_filter.mpr ⟨mem_keys.mpr hd, by rw [howned]; rfl⟩)

/-! ## Main result -/

lemma reconcile_spec :
    Contract (Allowed before desired) (fun owned log => owned = before ∧ log = [])
      (reconcile desired) fun result owned log =>
      Exact before owned log ∧ (result = .ok () → ∀ d, owned.contains d → d ∈ desired) ∧
        (result ≠ .ok () → ∃ fwd call back, log = fwd ++ call :: back ∧ (∀ c ∈ fwd, ¬Failed c) ∧
          Failed call ∧
          ((∀ c ∈ back, Succeeded c) → ∀ d, owned.contains d = before.contains d)) := by
  refine .bind .get fun owned => ?_
  rintro s log ⟨rfl, rfl, rfl⟩
  refine (forward_spec.bind fun result => ?_) owned [] ⟨rfl, rfl⟩
  match result with
  | .ok () =>
    refine .pure fun owned log h => ⟨h.exact, fun _ d hd => ?_, fun hne => absurd rfl hne⟩
    exact (h.wanted d hd).resolve_right List.not_mem_nil
  | .error e =>
    rintro owned₁ log ⟨hexact, fwd, call, rfl, hfine, hfailed⟩
    refine (rollback_spec owned₁ (fwd ++ [call]) ⟨hexact, rfl⟩).mono ?_
    rintro result owned₂ log₂ ⟨hne, hexact₂, back, rfl, hback⟩
    exact ⟨hexact₂, fun hok => absurd hok hne, fun _ => ⟨fwd, call, back, List.append_assoc ..,
      hfine, hfailed, hback⟩⟩

end Passes

theorem reconcile_transactional (answers : Nat → ∀ e : BypassCall T, e.Answer)
    (before : HashMap String T) (desired : Finset String) :
    ∃ result owned log, (reconcile desired).exec answers before [] = some (result, owned, log) ∧
      (∀ dest, owned.contains dest = ours before log dest) ∧
      (∀ i dest via r, log[i]? = some ⟨.remove dest via, r⟩ →
        ours before (log.take i) dest = true ∧
        (before.contains dest → ∀ d ∈ desired, before.contains d ∨ Added d (log.take i))) ∧
      (result = .ok () → ∀ dest, owned.contains dest → dest ∈ desired) ∧
      (result ≠ .ok () → ∃ fwd call back, log = fwd ++ call :: back ∧ (∀ c ∈ fwd, ¬Failed c) ∧
        Failed call ∧
        ((∀ c ∈ back, Succeeded c) → ∀ dest, owned.contains dest = before.contains dest)) := by
  obtain ⟨result, owned, log, hexec, ⟨hexact, hok, herror⟩, -, hallowed⟩ :=
    (reconcile_spec before [] ⟨rfl, rfl⟩).exec answers
  exact ⟨result, owned, log, hexec, hexact, fun i dest via r hi =>
    hallowed i (.remove dest via) r (Nat.zero_le i) hi, hok, herror⟩

/-! ## The state over its calls -/

/-- A `sync` comes to an end, and what is owned after it is what its calls leave. -/
lemma sync_exact (canonical : String → Except ApplyError String) (host : Answers) (s : State)
    (desired : List String) (retain : Bool) : ∃ result s' log,
    s.sync canonical host desired retain = some (result, s', log) ∧ Exact s.owned s'.owned log := by
  unfold State.sync
  split
  · exact ⟨_, _, _, rfl, fun _ => rfl⟩
  split
  · exact ⟨_, _, _, rfl, fun _ => rfl⟩
  next v4 _ =>
  split
  · exact ⟨_, _, _, rfl, fun _ => rfl⟩
  next v6 _ =>
  obtain ⟨result, owned, log, hexec, ⟨hexact, -⟩, -⟩ :=
    (reconcile_spec s.owned [] ⟨rfl, rfl⟩).exec (State.answer host { s with v4, v6 })
  exact ⟨result, ⟨owned, v4, v6⟩, log, by rw [hexec]; rfl, hexact⟩

/-- One after the other, the calls of a state's `sync`s leave what it owns. -/
lemma Exact.append {before middle after : HashMap String T} {log log' : BypassLog T}
    (h : Exact before middle log) (h' : Exact middle after log') :
    Exact before after (log ++ log') := by
  intro dest
  rw [h' dest, ours, ours, CallLog.last_append, h dest, ours]
  cases log'.last (effectOn dest) <;> rfl

/-- A sequence of `sync`s, each with what the host says to it. -/
def syncs (canonical : String → Except ApplyError String) :
    State → List (Answers × List String × Bool) → Option (State × BypassLog Via)
  | s, [] => some (s, [])
  | s, (host, desired, retain) :: rest => do
    let (_, s, log) ← s.sync canonical host desired retain
    let (s, log') ← syncs canonical s rest
    pure (s, log ++ log')

/-- A state owns what it has made and not removed, from its beginning on. -/
theorem syncs_exact (canonical : String → Except ApplyError String)
    (calls : List (Answers × List String × Bool)) (s : State) :
    ∃ s' log, syncs canonical s calls = some (s', log) ∧ Exact s.owned s'.owned log := by
  induction calls generalizing s with
  | nil => exact ⟨s, [], rfl, fun _ => rfl⟩
  | cons call rest ih =>
    obtain ⟨host, desired, retain⟩ := call
    obtain ⟨result, s₁, log₁, hsync, hexact₁⟩ := sync_exact canonical host s desired retain
    obtain ⟨s₂, log₂, hrest, hexact₂⟩ := ih s₁
    exact ⟨s₂, log₁ ++ log₂, by simp [syncs, hsync, hrest], hexact₁.append hexact₂⟩

end Bypass

end Fluxpeer.Host
