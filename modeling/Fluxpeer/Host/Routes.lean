import Fluxpeer.Firewall.Forwarding
import Fluxpeer.Lib.CallLog
import Fluxpeer.Lib.HashMap
import Mathlib.Data.Finset.SDiff

/-!
# Host routes

`syncRoutes` brings the routes of the host to what a configuration wants. A route that cannot be
removed is tried again with the next call, and one that the host has no means for is skipped for a
minute or until the configuration changes. The state says what is believed to be installed; the log
of the calls says what was.
-/

namespace Fluxpeer.Host

open Lib Firewall CallLog

/-! ## The program -/

def second : Nat := 1000000000

/-- An optional route that the host would not take: for which configuration, until when, and why. -/
structure Skip where
  epoch : Nat
  next : Nat
  error : ApplyError
deriving DecidableEq

/-- `apply::Routes` -/
structure Routes where
  installed : Finset String
  skipped : HashMap String Skip

def Routes.default : Routes := ⟨∅, ∅⟩

inductive RouteOutcome
  | installed
  | skipped (error : ApplyError)
deriving DecidableEq

/-- What is left to others: the order of a hash set, and the two effects. -/
inductive RouteCall
  | order (dests : Finset String)
  | add (dest : String)
  | remove (dest : String)
deriving DecidableEq

def RouteCall.Answer : RouteCall → Type
  | .order dests => { l : List String // l.Nodup ∧ ∀ dest, dest ∈ l ↔ dest ∈ dests }
  | .add _ => Except ApplyError RouteOutcome
  | .remove _ => Result

abbrev RouteLog := CallLog RouteCall RouteCall.Answer

abbrev RouteProg := Prog Empty Routes RouteCall RouteCall.Answer

/-- The elements of a hash set, in some order. -/
def order (dests : Finset String) : RouteProg (List String) := do
  let l ← (Prog.ask (RouteCall.order dests) : RouteProg (RouteCall.order dests).Answer)
  pure l.1

def add (dest : String) : RouteProg (Except ApplyError RouteOutcome) :=
  Prog.ask (RouteCall.add dest)

def remove (dest : String) : RouteProg Result := Prog.ask (RouteCall.remove dest)

/-- A skipped route is left alone until its time, for the same configuration. -/
def Skip.waits (skip : Skip) (epoch now : Nat) : Bool := skip.epoch = epoch && now < skip.next

def removeObsolete (dest : String) : RouteProg Result := do
  match ← remove dest with
  | .ok () =>
    .modify fun routes => { routes with installed := routes.installed.erase dest }
    pure (.ok ())
  | .error e => pure (.error e)

def attempt (epoch now : Nat) (dest : String) : RouteProg Result := do
  match ← add dest with
  | .ok .installed =>
    .modify fun routes =>
      { installed := insert dest routes.installed, skipped := routes.skipped.erase dest }
    pure (.ok ())
  | .ok (.skipped error) =>
    .modify fun routes =>
      { routes with skipped := routes.skipped.insert dest ⟨epoch, now + 60 * second, error⟩ }
    pure (.ok ())
  | .error e =>
    .modify fun routes => { routes with skipped := routes.skipped.erase dest }
    pure (.error e)

def addMissing (epoch now : Nat) (dest : String) : RouteProg Result := do
  let routes ← .get
  if (routes.skipped.lookup dest).any (·.waits epoch now) then pure (.ok ())
  else attempt epoch now dest

/-- `apply::sync_routes` -/
def syncRoutes (desired : Finset String) (epoch now : Nat) : RouteProg Result := do
  .modify fun routes =>
    { routes with skipped := routes.skipped.retain fun dest _ => decide (dest ∈ desired) }
  let routes ← .get
  let obsolete ← order (routes.installed \ desired)
  let removed ← .collect removeObsolete obsolete
  let routes ← .get
  let missing ← order (desired \ routes.installed)
  let added ← .collect (addMissing epoch now) missing
  pure (all (removed ++ added))

/-- `apply::Status`, of which `complete` knows two fields -/
structure Status where
  lastError : Option ApplyError
  appliedEpoch : Option Nat
deriving DecidableEq

def Status.default : Status := ⟨none, none⟩

inductive ApplyEvent
  | failed (error : ApplyError)
  | recovered
deriving DecidableEq

/-- `Status::complete_with`, with what it has to say. -/
def Status.complete (status : Status) (epoch : Nat) : Result → Status × Option ApplyEvent
  | .ok () =>
    (⟨none, some epoch⟩, if status.lastError.isSome then some .recovered else none)
  | .error e =>
    ({ status with lastError := some e },
      if status.lastError ≠ some e then some (.failed e) else none)

variable {skip : Skip}

lemma waits_iff {epoch now : Nat} :
    skip.waits epoch now ↔ skip.epoch = epoch ∧ now < skip.next := by
  simp [Skip.waits]

/-! ## One route in one call -/

def RouteCall.mentions (dest : String) : RouteCall → Bool
  | .order _ => false
  | .add d | .remove d => d = dest

/-- What of the state is about one route. -/
def Routes.view (dest : String) (routes : Routes) : Bool × Option Skip :=
  (decide (dest ∈ routes.installed), routes.skipped.lookup dest)

/-- What a round of the first loop does to its route. -/
inductive Removal (dest : String) :
    Bool × Option Skip → Bool × Option Skip → RouteLog → Result → Prop
  | done {b : Bool} {skip : Option Skip} :
    Removal dest (b, skip) (false, skip) [⟨.remove dest, .ok ()⟩] (.ok ())
  | failed {v : Bool × Option Skip} (e : ApplyError) :
    Removal dest v v [⟨.remove dest, .error e⟩] (.error e)

/-- What a round of the second loop does to its route. -/
inductive Addition (epoch now : Nat) (dest : String) :
    Bool × Option Skip → Bool × Option Skip → RouteLog → Result → Prop
  | waits {v : Bool × Option Skip} (h : v.2.any (·.waits epoch now)) :
    Addition epoch now dest v v [] (.ok ())
  | done {v : Bool × Option Skip} (h : ¬v.2.any (·.waits epoch now)) :
    Addition epoch now dest v (true, none) [⟨.add dest, .ok .installed⟩] (.ok ())
  | skipped {v : Bool × Option Skip} (h : ¬v.2.any (·.waits epoch now)) (e : ApplyError) :
    Addition epoch now dest v (v.1, some ⟨epoch, now + 60 * second, e⟩)
      [⟨.add dest, .ok (.skipped e)⟩] (.ok ())
  | failed {v : Bool × Option Skip} (h : ¬v.2.any (·.waits epoch now)) (e : ApplyError) :
    Addition epoch now dest v (v.1, none) [⟨.add dest, .error e⟩] (.error e)

abbrev anyCall : RouteLog → RouteCall → Prop := fun _ _ => True

section Rounds

variable {dest : String} {epoch now : Nat} (s₀ : Routes) (h₀ : RouteLog)

/-- The program does to its route what `D` says, and nothing to the others. -/
def KeepsTo (D : Bool × Option Skip → Bool × Option Skip → RouteLog → Result → Prop) (dest : String)
    (s₀ : Routes) (h₀ : RouteLog) (result : Result) (s : Routes) (h : RouteLog) : Prop :=
  ∃ new, h = h₀ ++ new ∧ D (s₀.view dest) (s.view dest) (new.about RouteCall.mentions dest) result ∧
    ∀ d, d ≠ dest → Spares Routes.view RouteCall.mentions s₀ s new d

lemma keepsTo_of_call {D : Bool × Option Skip → Bool × Option Skip → RouteLog → Result → Prop}
    {s₀ s : Routes} {h₀ : RouteLog} {result : Result} {call : Σ e : RouteCall, e.Answer}
    (hcall : ∀ d, call.1.mentions d = decide (dest = d))
    (hD : D (s₀.view dest) (s.view dest) [call] result)
    (hother : ∀ d, d ≠ dest → s.view d = s₀.view d) :
    KeepsTo D dest s₀ h₀ result s (h₀ ++ [call]) := by
  refine ⟨[call], rfl, ?_, fun d hd => ⟨hother d hd, ?_⟩⟩
  · simpa [about, hcall] using hD
  · simp [about, hcall, hd.symm]

lemma removeObsolete_spec (dest : String) :
    Contract anyCall (fun s h => s = s₀ ∧ h = h₀) (removeObsolete dest)
      (KeepsTo (Removal dest) dest s₀ h₀) := by
  refine (Contract.asked trivial).bind fun result => ?_
  cases result with
  | ok u =>
    refine .of_state (keepsTo_of_call (fun d => rfl) ?_ fun d hd => ?_)
    · simpa [Routes.view] using Removal.done
    · simp [Routes.view, hd]
  | error e =>
    exact .of_state (keepsTo_of_call (fun d => rfl) (.failed e) fun d _ => rfl)

lemma attempt_spec (hwaits : ¬(s₀.skipped.lookup dest).any (·.waits epoch now)) :
    Contract anyCall (fun s h => s = s₀ ∧ h = h₀) (attempt epoch now dest)
      (KeepsTo (Addition epoch now dest) dest s₀ h₀) := by
  refine (Contract.asked trivial).bind fun outcome => ?_
  match outcome with
  | .ok .installed =>
    refine .of_state (keepsTo_of_call (fun d => rfl) ?_ fun d hd => ?_)
    · simpa [Routes.view, HashMap.lookup_erase] using Addition.done (v := s₀.view dest) hwaits
    · simp [Routes.view, hd]
  | .ok (.skipped e) =>
    refine .of_state (keepsTo_of_call (fun d => rfl) ?_ fun d hd => ?_)
    · simpa [Routes.view, HashMap.lookup_insert] using Addition.skipped (v := s₀.view dest) hwaits e
    · simp [Routes.view, hd]
  | .error e =>
    refine .of_state (keepsTo_of_call (fun d => rfl) ?_ fun d hd => ?_)
    · simpa [Routes.view, HashMap.lookup_erase] using Addition.failed (v := s₀.view dest) hwaits e
    · simp [Routes.view, hd]

lemma addMissing_spec (dest : String) :
    Contract anyCall (fun s h => s = s₀ ∧ h = h₀) (addMissing epoch now dest)
      (KeepsTo (Addition epoch now dest) dest s₀ h₀) := by
  refine .bind .get fun routes => ?_
  rintro s h ⟨rfl, rfl, rfl⟩
  split
  · next hwaits =>
    exact ⟨[], (List.append_nil _).symm, .waits hwaits, fun d _ => .refl⟩
  · next hwaits => exact attempt_spec routes h hwaits routes h ⟨rfl, rfl⟩

end Rounds

/-! ## One call -/

/-- What a call does to a route, by whether it is wanted and installed. -/
inductive Handled (desired : Finset String) (epoch now : Nat) (dest : String) :
    Bool × Option Skip → Bool × Option Skip → RouteLog → Result → Prop
  | obsolete {skip : Option Skip} {v : Bool × Option Skip} {log : RouteLog} {result : Result}
    (hd : dest ∉ desired) (h : Removal dest (true, none) v log result) :
    Handled desired epoch now dest (true, skip) v log result
  | unwanted {skip : Option Skip} (hd : dest ∉ desired) :
    Handled desired epoch now dest (false, skip) (false, none) [] (.ok ())
  | held {skip : Option Skip} (hd : dest ∈ desired) :
    Handled desired epoch now dest (true, skip) (true, skip) [] (.ok ())
  | missing {skip : Option Skip} {v : Bool × Option Skip} {log : RouteLog} {result : Result}
    (hd : dest ∈ desired) (h : Addition epoch now dest (false, skip) v log result) :
    Handled desired epoch now dest (false, skip) v log result

/-- The calls of `new` take every route from `s₀` to `s`, and none of them failed if all is well. -/
def Synced (desired : Finset String) (epoch now : Nat) (s₀ s : Routes) (new : RouteLog)
    (result : Result) : Prop :=
  ∀ dest, ∃ own, Handled desired epoch now dest (s₀.view dest) (s.view dest)
    (new.about RouteCall.mentions dest) own ∧ (result = .ok () → own = .ok ())

lemma order_spec (dests : Finset String) (s₀ : Routes) (h₀ : RouteLog) :
    Contract anyCall (fun s h => s = s₀ ∧ h = h₀) (order dests) fun l s h =>
      s = s₀ ∧ (∃ answer, h = h₀ ++ [⟨.order dests, answer⟩]) ∧ l.Nodup ∧
        ∀ dest, dest ∈ l ↔ dest ∈ dests := by
  refine (Contract.asked trivial).bind fun answer => .pure ?_
  rintro s h ⟨rfl, rfl⟩
  exact ⟨rfl, ⟨answer, rfl⟩, answer.2⟩

variable {desired : Finset String} {epoch now : Nat} {dests : List String}

lemma view_retain (s : Routes) (dest : String) :
    Routes.view dest { s with skipped := s.skipped.retain fun d _ => decide (d ∈ desired) } =
      ((s.view dest).1, if dest ∈ desired then (s.view dest).2 else none) := by
  by_cases hd : dest ∈ desired <;> cases hs : s.skipped.lookup dest <;>
    simp [Routes.view, HashMap.lookup_retain, hd, hs]

/-- What a loop over some of the routes does. -/
def EachDone (D : String → Bool × Option Skip → Bool × Option Skip → RouteLog → Result → Prop)
    (dests : List String) (s₀ : Routes) (h₀ : RouteLog) (results : List Result) (s : Routes)
    (h : RouteLog) : Prop :=
  ∃ new, h = h₀ ++ new ∧
    (∀ dest ∈ dests, ∃ own ∈ results,
      D dest (s₀.view dest) (s.view dest) (new.about RouteCall.mentions dest) own) ∧
    ∀ dest, dest ∉ dests → Spares Routes.view RouteCall.mentions s₀ s new dest

lemma removeObsolete_each (hdests : dests.Nodup) (s₀ : Routes) (h₀ : RouteLog) :
    Contract anyCall (fun s h => s = s₀ ∧ h = h₀) (.collect removeObsolete dests)
      (EachDone Removal dests s₀ h₀) :=
  .collectEach (fun dest s h => removeObsolete_spec s h dest) hdests s₀ h₀

lemma addMissing_each (hdests : dests.Nodup) (s₀ : Routes) (h₀ : RouteLog) :
    Contract anyCall (fun s h => s = s₀ ∧ h = h₀) (.collect (addMissing epoch now) dests)
      (EachDone (Addition epoch now) dests s₀ h₀) :=
  .collectEach (fun dest s h => addMissing_spec s h dest) hdests s₀ h₀

lemma syncRoutes_spec (desired : Finset String) (epoch now : Nat) (s₀ : Routes) (h₀ : RouteLog) :
    Contract anyCall (fun s h => s = s₀ ∧ h = h₀) (syncRoutes desired epoch now) fun result s h =>
      ∃ new, h = h₀ ++ new ∧ Synced desired epoch now s₀ s new result := by
  refine .bind (.modify (K := fun s h =>
    (∀ dest, s.view dest =
      ((s₀.view dest).1, if dest ∈ desired then (s₀.view dest).2 else none)) ∧ h = h₀) ?_)
    fun _ => ?_
  · rintro s h ⟨rfl, rfl⟩
    exact ⟨view_retain s, rfl⟩
  refine .bind .get fun routes => ?_
  rintro s₁ h₀ ⟨rfl, hretained, rfl⟩
  refine ((order_spec _ routes h₀).bind fun obsolete => ?_) routes h₀ ⟨rfl, rfl⟩
  rintro s₁ h₁ ⟨rfl, ⟨first, rfl⟩, hobsolete, hobsolete_mem⟩
  refine ((removeObsolete_each hobsolete s₁ _).bind fun removed => ?_) s₁ _ ⟨rfl, rfl⟩
  rintro s₂ h₂ ⟨new₁, rfl, hremoved, hunremoved⟩
  change Prog.Meets anyCall (order (desired \ s₂.installed) >>= fun missing =>
    Prog.collect (addMissing epoch now) missing >>= fun added => pure (all (removed ++ added)))
    _ s₂ _
  refine ((order_spec _ s₂ _).bind fun missing => ?_) s₂ _ ⟨rfl, rfl⟩
  rintro s₂ h₂ ⟨rfl, ⟨second, rfl⟩, hmissing, hmissing_mem⟩
  refine ((addMissing_each hmissing s₂ _).bind fun added => .pure ?_) s₂ _ ⟨rfl, rfl⟩
  rintro s h ⟨new₂, rfl, hadded, hunadded⟩
  refine ⟨[⟨_, first⟩] ++ new₁ ++ ([⟨_, second⟩] ++ new₂), by simp, fun dest => ?_⟩
  have habout : about RouteCall.mentions dest
        ([⟨_, first⟩] ++ new₁ ++ ([⟨_, second⟩] ++ new₂)) =
      new₁.about RouteCall.mentions dest ++ new₂.about RouteCall.mentions dest := by
    rw [about_append, about_append, about_append]
    rfl
  have hview := hretained dest
  have hin := hobsolete_mem dest
  have hout := hmissing_mem dest
  rw [habout]
  rw [Finset.mem_sdiff] at hin hout
  generalize hv : s₀.view dest = v at hview ⊢
  obtain ⟨held, skip⟩ := v
  have hheld : decide (dest ∈ s₁.installed) = held := congrArg Prod.fst hview
  by_cases hd : dest ∈ desired
  · -- nothing happens to it in the first loop
    have hspared := hunremoved dest fun h => (hin.mp h).2 hd
    have hsame : s₂.view dest = (held, skip) := by rw [hspared.view, hview, if_pos hd]
    have hheld' : decide (dest ∈ s₂.installed) = held := congrArg Prod.fst hsame
    rw [hspared.quiet, List.nil_append]
    cases held with
    | true =>
      have hspared' := hunadded dest fun h => (hout.mp h).2 (of_decide_eq_true hheld')
      rw [hspared'.view, hspared'.quiet, hsame]
      exact ⟨.ok (), .held hd, fun _ => rfl⟩
    | false =>
      obtain ⟨own, hown, hadd⟩ := hadded dest (hout.mpr ⟨hd, of_decide_eq_false hheld'⟩)
      rw [hsame] at hadd
      exact ⟨own, .missing hd hadd, fun h =>
        eq_ok_of_all_eq_ok h own (List.mem_append_right _ hown)⟩
  · -- nothing happens to it in the second
    have hspared := hunadded dest fun h => hd (hout.mp h).1
    rw [hspared.view, hspared.quiet, List.append_nil]
    rw [if_neg hd] at hview
    cases held with
    | true =>
      obtain ⟨own, hown, hremove⟩ := hremoved dest (hin.mpr ⟨of_decide_eq_true hheld, hd⟩)
      rw [hview] at hremove
      exact ⟨own, .obsolete hd hremove, fun h =>
        eq_ok_of_all_eq_ok h own (List.mem_append_left _ hown)⟩
    | false =>
      have hspared' := hunremoved dest fun h => of_decide_eq_false hheld (hin.mp h).1
      rw [hspared'.view, hspared'.quiet, hview]
      exact ⟨.ok (), .unwanted hd, fun _ => rfl⟩

/-- What a call has done to a route: installed it, or removed it. -/
def effectOn (dest : String) : (Σ e : RouteCall, e.Answer) → Option Bool
  | ⟨.order _, _⟩ => none
  | ⟨.add d, outcome⟩ =>
    match (outcome : Except ApplyError RouteOutcome) with
    | .ok .installed => if d = dest then some true else none
    | _ => none
  | ⟨.remove d, result⟩ =>
    match (result : Result) with
    | .ok () => if d = dest then some false else none
    | .error _ => none

variable {dest : String}

lemma mentions_of_effectOn (call : Σ e : RouteCall, e.Answer) (h : effectOn dest call ≠ none) :
    call.1.mentions dest := by
  match call with
  | ⟨.order _, _⟩ => exact absurd rfl h
  | ⟨.add d, .ok .installed⟩ | ⟨.remove d, .ok ()⟩ =>
    by_contra hd
    exact h (if_neg fun heq => hd (decide_eq_true heq))
  | ⟨.add d, .ok (.skipped _)⟩ | ⟨.add d, .error _⟩ | ⟨.remove d, .error _⟩ => exact absurd rfl h

/-- The add or the remove of a route went wrong. -/
def Fails (dest : String) (call : Σ e : RouteCall, e.Answer) : Prop :=
  ∃ e, call = ⟨.add dest, .error e⟩ ∨ call = ⟨.remove dest, .error e⟩

def Attempts (dest : String) (log : RouteLog) : Prop :=
  ∃ outcome, (⟨.add dest, outcome⟩ : Σ e : RouteCall, e.Answer) ∈ log

/-- The route was tried, and the host had no means for it. -/
def Skips (dest : String) (log : RouteLog) : Prop :=
  ∃ e, (⟨.add dest, .ok (.skipped e)⟩ : Σ e : RouteCall, e.Answer) ∈ log

variable {log : RouteLog}

lemma mem_about {call : Σ e : RouteCall, e.Answer} :
    call ∈ log.about RouteCall.mentions dest ↔ call ∈ log ∧ call.1.mentions dest :=
  List.mem_filter

lemma Fails.mentions {call : Σ e : RouteCall, e.Answer} (h : Fails dest call) :
    call.1.mentions dest := by
  obtain ⟨e, rfl | rfl⟩ := h <;> exact decide_eq_true rfl

lemma attempts_about : Attempts dest (log.about RouteCall.mentions dest) ↔ Attempts dest log :=
  exists_congr fun _ => mem_about.trans (and_iff_left (decide_eq_true rfl))

lemma skips_about : Skips dest (log.about RouteCall.mentions dest) ↔ Skips dest log :=
  exists_congr fun _ => mem_about.trans (and_iff_left (decide_eq_true rfl))

section Handled

variable {dest : String} {v v' : Bool × Option Skip} {log : RouteLog} {own : Result}

/-- What is installed changes with the last effect. -/
lemma Handled.last_effect (h : Handled desired epoch now dest v v' log own) :
    v'.1 = (log.last (effectOn dest)).getD v.1 := by
  cases h with
  | unwanted _ | held _ => rfl
  | obsolete _ hr => cases hr <;> simp [last, effectOn]
  | missing _ ha => cases ha <;> simp [last, effectOn]

lemma Handled.length_le (h : Handled desired epoch now dest v v' log own) : log.length ≤ 1 := by
  cases h with
  | unwanted _ | held _ => exact Nat.zero_le 1
  | obsolete _ hr => cases hr <;> exact Nat.le_refl 1
  | missing _ ha => cases ha <;> simp

lemma Handled.of_fails (h : Handled desired epoch now dest v v' log own)
    {call : Σ e : RouteCall, e.Answer} (hcall : call ∈ log) (hfails : Fails dest call) :
    v'.1 = v.1 := by
  obtain ⟨first, rest, rfl⟩ := List.exists_cons_of_ne_nil (List.ne_nil_of_mem hcall)
  have hrest : rest = [] := by simpa using h.length_le
  subst hrest
  cases List.mem_singleton.mp hcall
  have hlast := h.last_effect
  obtain ⟨e, rfl | rfl⟩ := hfails <;> exact hlast

lemma Handled.of_ok (h : Handled desired epoch now dest v v' log (.ok ())) :
    (v'.1 = true → dest ∈ desired) ∧ (dest ∈ desired → v'.1 = false → v'.2.isSome) := by
  cases h with
  | unwanted hd => exact ⟨nofun, fun h => absurd h hd⟩
  | held hd => exact ⟨fun _ => hd, fun _ => nofun⟩
  | obsolete hd hr =>
    cases hr with
    | done => exact ⟨nofun, fun h => absurd h hd⟩
  | missing hd ha =>
    cases ha with
    | waits hw => exact ⟨fun _ => hd, fun _ _ => Option.isSome_of_any hw⟩
    | done _ => exact ⟨fun _ => hd, fun _ => nofun⟩
    | skipped _ e => exact ⟨fun _ => hd, fun _ _ => rfl⟩

lemma Handled.of_skips (h : Handled desired epoch now dest v v' log own)
    (hskips : Skips dest log) :
    ∃ e, v' = (false, some ⟨epoch, now + 60 * second, e⟩) := by
  obtain ⟨e, he⟩ := hskips
  cases h with
  | unwanted _ | held _ => cases he
  | obsolete _ hr => cases hr <;> cases List.mem_singleton.mp he
  | missing _ ha =>
    cases ha with
    | waits _ => cases he
    | skipped _ e' => exact ⟨e', rfl⟩
    | done _ | failed _ _ => cases List.mem_singleton.mp he

/-- A skipped route that is wanted is tried when it need not wait any more. -/
lemma Handled.attempts_iff (h : Handled desired epoch now dest (false, some skip) v' log own)
    (hd : dest ∈ desired) : Attempts dest log ↔ ¬skip.waits epoch now := by
  cases h with
  | unwanted hnot => exact absurd hd hnot
  | missing _ ha =>
    cases ha with
    | waits hw => exact ⟨nofun, fun hnot => absurd hw hnot⟩
    | done hw | skipped hw e | failed hw e =>
      exact ⟨fun _ => hw, fun _ => ⟨_, List.mem_singleton_self _⟩⟩

lemma Handled.of_waits (h : Handled desired epoch now dest (false, some skip) v' log own)
    (hd : dest ∈ desired) (hw : skip.waits epoch now) : v' = (false, some skip) := by
  cases h with
  | unwanted hnot => exact absurd hd hnot
  | missing _ ha =>
    cases ha with
    | waits _ => rfl
    | done hnot | skipped hnot e | failed hnot e => exact absurd hw (by simpa using hnot)

end Handled

/-! ## Runs -/

/-- The reconciler syncs the routes, and tells the status how a round went. -/
inductive RouteEvent
  | sync (desired : Finset String) (epoch now : Nat)
  | complete (epoch : Nat) (result : Result)

structure RouteState where
  routes : Routes
  status : Status
  log : RouteLog
  /-- What the last `sync_routes` gave. -/
  result : Result

namespace RouteState

def init : RouteState := ⟨.default, .default, [], .ok ()⟩

def next? (answers : Nat → ∀ e, RouteCall.Answer e) (s : RouteState) :
    RouteEvent → Option RouteState
  | .sync desired epoch now =>
    ((syncRoutes desired epoch now).exec answers s.routes s.log).map fun (result, routes, log) =>
      { s with routes, log, result }
  | .complete epoch result => some { s with status := (s.status.complete epoch result).1 }

variable {answers : Nat → ∀ e, RouteCall.Answer e}

lemma next_sync (desired : Finset String) (epoch now : Nat)
    (answers : Nat → ∀ e, RouteCall.Answer e) (s : RouteState) :
    ∃ s' new, s.next? answers (.sync desired epoch now) = some s' ∧ s'.log = s.log ++ new ∧
      Synced desired epoch now s.routes s'.routes new s'.result ∧ s'.status = s.status := by
  obtain ⟨result, routes, log, hexec, ⟨new, hlog, hsynced⟩, -⟩ :=
    (syncRoutes_spec desired epoch now s.routes s.log s.routes s.log ⟨rfl, rfl⟩).exec answers
  exact ⟨{ s with routes, log, result }, new, by rw [next?, hexec, Option.map_some], hlog,
    hsynced, rfl⟩

/-- What is believed to be installed is what was. -/
def Exact (s : RouteState) : Prop :=
  ∀ dest, dest ∈ s.routes.installed ↔ s.log.last (effectOn dest) = some true

lemma exact_init : Exact init := fun _ => ⟨nofun, nofun⟩

/-- The calls made between two states. -/
def callsSince (s s' : RouteState) : RouteLog := s'.log.drop s.log.length

variable {s s' : RouteState}

lemma eq_of_complete {result : Result} (h : s.next? answers (.complete epoch result) = some s') :
    s' = { s with status := (s.status.complete epoch result).1 } :=
  (Option.some.inj h).symm

lemma synced_of_next (h : s.next? answers (.sync desired epoch now) = some s') :
    s'.log = s.log ++ callsSince s s' ∧
      Synced desired epoch now s.routes s'.routes (callsSince s s') s'.result ∧
      s'.status = s.status := by
  obtain ⟨s'', new, hnext, hlog, hsynced, hstatus⟩ :=
    next_sync desired epoch now answers s
  cases h.symm.trans hnext
  have hnew : callsSince s s' = new := by rw [callsSince, hlog, List.drop_left]
  exact ⟨hnew ▸ hlog, hnew ▸ hsynced, hstatus⟩

lemma Exact.sync (hs : Exact s) (h : s.next? answers (.sync desired epoch now) = some s') :
    Exact s' := by
  obtain ⟨hlog, hsynced, -⟩ := synced_of_next h
  intro dest
  obtain ⟨own, hhandled, -⟩ := hsynced dest
  have heffect := hhandled.last_effect
  rw [last_about mentions_of_effectOn] at heffect
  have hbefore := hs dest
  rw [hlog, last_append]
  change decide (dest ∈ s'.routes.installed) =
    ((callsSince s s').last (effectOn dest)).getD (decide (dest ∈ s.routes.installed)) at heffect
  cases hlast : (callsSince s s').last (effectOn dest) with
  | none => simpa [hlast, ← hbefore] using heffect
  | some b =>
    rw [hlast, Option.getD_some] at heffect
    rw [Option.some_or, ← heffect, Option.some_inj, decide_eq_true_iff]

lemma Exact.next (answers : Nat → ∀ e, RouteCall.Answer e) (s : RouteState) (e : RouteEvent)
    (hs : Exact s) : ∃ s', s.next? answers e = some s' ∧ Exact s' := by
  cases e with
  | sync desired epoch now =>
    obtain ⟨s', new, hnext, -⟩ := next_sync desired epoch now answers s
    exact ⟨s', hnext, hs.sync hnext⟩
  | complete epoch result => exact ⟨_, rfl, hs⟩

end RouteState

/-! ## Main result -/

open RouteState

section Run

variable {answers : Nat → ∀ e, RouteCall.Answer e} {events : List RouteEvent}
  {state : Nat → RouteState}

/-- A route that was skipped stays so while all calls want it and come too early. -/
lemma waiting_at (hrun : StatesOf (RouteState.next? answers) .init events state) {dest : String}
    {i : Nat} (hskip : (state (i + 1)).routes.view dest = (false, some skip)) {j : Nat}
    (hle : i + 1 ≤ j) (hj : j ≤ events.length)
    (hwait : ∀ k desired epoch now, i < k → k < j → events[k]? = some (.sync desired epoch now) →
      dest ∈ desired ∧ skip.waits epoch now) : (state j).routes.view dest = (false, some skip) := by
  induction hle with
  | refl => exact hskip
  | @step k hle ih =>
    have hview := ih (Nat.le_of_succ_le hj) fun m d e n him hmk =>
      hwait m d e n him (Nat.lt_succ_of_lt hmk)
    have hevent : events[k]? = some (events.get ⟨k, hj⟩) := List.getElem?_eq_getElem hj
    have hnext := hrun.step_at hevent
    cases hget : events.get ⟨k, hj⟩ with
    | sync desired epoch now =>
      rw [hget] at hevent hnext
      obtain ⟨hd, hw⟩ := hwait k desired epoch now hle (Nat.lt_succ_self k) hevent
      obtain ⟨own, hhandled, -⟩ := (synced_of_next hnext).2.1 dest
      rw [hview] at hhandled
      exact hhandled.of_waits hd hw
    | complete epoch result =>
      rw [hget] at hnext
      rw [eq_of_complete hnext]
      exact hview

end Run

theorem routes_tracked (answers : Nat → ∀ e, RouteCall.Answer e) (events : List RouteEvent) :
    ∃ state, StatesOf (RouteState.next? answers) .init events state ∧
      (∀ k ≤ events.length, ∀ dest, dest ∈ (state k).routes.installed ↔
        (state k).log.last (effectOn dest) = some true) ∧
      (∀ k desired epoch now, events[k]? = some (.sync desired epoch now) →
        (∀ dest, ∀ call ∈ callsSince (state k) (state (k + 1)), Fails dest call →
          (dest ∈ (state (k + 1)).routes.installed ↔ dest ∈ (state k).routes.installed)) ∧
        ((state (k + 1)).result = .ok () → (state (k + 1)).routes.installed ⊆ desired ∧
          ∀ dest ∈ desired, dest ∉ (state (k + 1)).routes.installed →
            ((state (k + 1)).routes.skipped.lookup dest).isSome)) ∧
      (∀ i j desired epoch now desired' epoch' now' dest, i < j →
        events[i]? = some (.sync desired epoch now) →
        Skips dest (callsSince (state i) (state (i + 1))) →
        (∀ k d e n, i < k → k < j → events[k]? = some (.sync d e n) →
          dest ∈ d ∧ e = epoch ∧ n < now + 60 * second) →
        events[j]? = some (.sync desired' epoch' now') → dest ∈ desired' →
        (Attempts dest (callsSince (state j) (state (j + 1))) ↔
          epoch' ≠ epoch ∨ now + 60 * second ≤ now')) ∧
      ∀ k < events.length,
        (state (k + 1)).status.appliedEpoch ≠ (state k).status.appliedEpoch →
        ∃ epoch, events[k]? = some (.complete epoch (.ok ())) ∧
          (state (k + 1)).status.appliedEpoch = some epoch := by
  obtain ⟨state, hrun, hexact⟩ := exists_statesOf (Exact.next answers) exact_init events
  refine ⟨state, hrun, hexact, ?_, ?_, ?_⟩
  · intro k desired epoch now hk
    obtain ⟨-, hsynced, -⟩ := synced_of_next (hrun.step_at hk)
    refine ⟨fun dest call hcall hfails => ?_, fun hok => ⟨fun dest hdest => ?_, ?_⟩⟩
    · obtain ⟨own, hhandled, -⟩ := hsynced dest
      exact decide_eq_decide.mp (hhandled.of_fails (mem_about.mpr ⟨hcall, hfails.mentions⟩) hfails)
    · obtain ⟨own, hhandled, hown⟩ := hsynced dest
      rw [hown hok] at hhandled
      exact hhandled.of_ok.1 (decide_eq_true hdest)
    · intro dest hd hdest
      obtain ⟨own, hhandled, hown⟩ := hsynced dest
      rw [hown hok] at hhandled
      exact hhandled.of_ok.2 hd (decide_eq_false hdest)
  · intro i j desired epoch now desired' epoch' now' dest hij hi hskips hwait hj hd
    obtain ⟨hlt, -⟩ := List.getElem?_eq_some_iff.mp hj
    obtain ⟨own, hhandled, -⟩ := (synced_of_next (hrun.step_at hi)).2.1 dest
    obtain ⟨e, hskip⟩ := hhandled.of_skips (skips_about.mpr hskips)
    have hview := waiting_at hrun hskip hij (Nat.le_of_lt hlt) fun k d e' n hik hkj hk => by
      obtain ⟨hmem, rfl, hn⟩ := hwait k d e' n hik hkj hk
      exact ⟨hmem, waits_iff.mpr ⟨rfl, hn⟩⟩
    obtain ⟨own', hhandled', -⟩ := (synced_of_next (hrun.step_at hj)).2.1 dest
    rw [hview] at hhandled'
    rw [← attempts_about, hhandled'.attempts_iff hd, waits_iff, not_and_or, Nat.not_lt, ne_comm]
  · intro k hk hne
    have hevent : events[k]? = some (events.get ⟨k, hk⟩) := List.getElem?_eq_getElem hk
    have hnext := hrun.step_at hevent
    cases hget : events.get ⟨k, hk⟩ with
    | sync desired epoch now =>
      rw [hget] at hnext
      exact absurd (by rw [(synced_of_next hnext).2.2]) hne
    | complete epoch result =>
      rw [hget] at hevent hnext
      rw [eq_of_complete hnext] at hne ⊢
      match result with
      | .ok () => exact ⟨epoch, hevent, rfl⟩
      | .error e => exact absurd rfl hne

end Fluxpeer.Host
