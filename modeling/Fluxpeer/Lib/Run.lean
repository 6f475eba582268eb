import Mathlib.Logic.Basic

/-!
# Runs of a partial step function

A system takes one event at a time; `none` is a step that never returns, so nothing follows it.
`Always` speaks of every state of a run and `EveryStep` of every step of it.

An invariant may need a condition on the steps taken. `always_of_inv` and `everyStep_of_inv` are the
rules for that case, and `always_iff_everyStep` the one where the condition is also necessary.
-/

namespace Fluxpeer.Lib

lemma bind_eq_ok_iff {ε α β : Type} {x : Except ε α} {f : α → Except ε β} {b : β} :
    (x >>= f) = .ok b ↔ ∃ a, x = .ok a ∧ f a = .ok b := by
  cases x with
  | error e => simp [Bind.bind, Except.bind]
  | ok a => simp [Bind.bind, Except.bind]

variable {σ ε : Type*} (step : σ → ε → Option σ)

/-- The state after a sequence of events. -/
def runFrom : σ → List ε → Option σ
  | s, [] => some s
  | s, e :: es => (step s e).bind (runFrom · es)

/-- Every state of a run, the first and the last included, satisfies `Q`. -/
def Always (Q : σ → Prop) : σ → List ε → Prop
  | s, [] => Q s
  | s, e :: es => Q s ∧ ∀ s', step s e = some s' → Always Q s' es

/-- Every step of a run satisfies `R`. -/
def EveryStep (R : σ → ε → σ → Prop) : σ → List ε → Prop
  | _, [] => True
  | s, e :: es => ∀ s', step s e = some s' → R s e s' ∧ EveryStep R s' es

variable {step} {Inv Q : σ → Prop} {C R : σ → ε → σ → Prop}

lemma EveryStep.cons {s s' : σ} {e : ε} {es : List ε} (hstep : step s e = some s')
    (hR : R s e s') (hrest : EveryStep step R s' es) : EveryStep step R s (e :: es) := by
  intro s'' hstep'
  cases hstep.symm.trans hstep'
  exact ⟨hR, hrest⟩

/-- A condition on the steps of a given run can be checked. -/
instance decidableEveryStep [∀ s e s', Decidable (R s e s')] :
    ∀ (s : σ) (es : List ε), Decidable (EveryStep step R s es)
  | _, [] => .isTrue trivial
  | s, e :: es =>
    match h : step s e with
    | none => .isTrue fun _ h' => nomatch h.symm.trans h'
    | some s₁ =>
      have := decidableEveryStep s₁ es
      decidable_of_iff (R s e s₁ ∧ EveryStep step R s₁ es)
        ⟨fun hs _ h' => Option.some.inj (h.symm.trans h') ▸ hs, fun hs => hs s₁ h⟩

variable {s : σ} {es : List ε}

/-- An invariant that steps satisfying `C` keep holds after every run of such steps. -/
lemma inv_of_everyStep (keep : ∀ s e s', Inv s → step s e = some s' → C s e s' → Inv s') {s' : σ}
    (hs : Inv s) (hes : EveryStep step C s es) (hrun : runFrom step s es = some s') : Inv s' := by
  induction es generalizing s with
  | nil =>
    cases hrun
    exact hs
  | cons e es ih =>
    obtain ⟨s₁, hstep, hrest⟩ := Option.bind_eq_some_iff.mp hrun
    obtain ⟨hC, hCs⟩ := hes s₁ hstep
    exact ih (keep s e s₁ hs hstep hC) hCs hrest

/-- A condition on the events alone. -/
lemma everyStep_of_forall (h : ∀ e ∈ es, ∀ s s', R s e s') : EveryStep step R s es := by
  induction es generalizing s with
  | nil => trivial
  | cons e es ih =>
    exact fun s' _ => ⟨h e List.mem_cons_self s s', ih fun e he => h e (List.mem_cons_of_mem _ he)⟩

/-- An invariant that every step keeps holds after every run. -/
lemma inv_of_runFrom (keep : ∀ s e s', Inv s → step s e = some s' → Inv s') {s' : σ} (hs : Inv s)
    (hrun : runFrom step s es = some s') : Inv s' :=
  inv_of_everyStep (C := fun _ _ _ => True) (fun s e s' h hstep _ => keep s e s' h hstep) hs
    (everyStep_of_forall fun _ _ _ _ => trivial) hrun

/-- Two conditions on the steps of a run. -/
lemma everyStep_and (h : EveryStep step C s es) (h' : EveryStep step R s es) :
    EveryStep step (fun s e s' => C s e s' ∧ R s e s') s es := by
  induction es generalizing s with
  | nil => trivial
  | cons e es ih =>
    intro s' hstep
    exact ⟨⟨(h s' hstep).1, (h' s' hstep).1⟩, ih (h s' hstep).2 (h' s' hstep).2⟩

/-- The steps of a run from one of its states on. -/
lemma everyStep_of_append {s' : σ} {es' : List ε} (h : EveryStep step C s (es ++ es'))
    (hrun : runFrom step s es = some s') : EveryStep step C s' es' := by
  induction es generalizing s with
  | nil =>
    cases hrun
    exact h
  | cons e es ih =>
    obtain ⟨s₁, hstep, hrest⟩ := Option.bind_eq_some_iff.mp hrun
    exact ih (h s₁ hstep).2 hrest

/-- With an invariant that steps satisfying `C` keep, every such step satisfies what the
invariant and `C` give. -/
lemma everyStep_of_inv (keep : ∀ s e s', Inv s → step s e = some s' → C s e s' → Inv s')
    (safe : ∀ s e s', Inv s → step s e = some s' → C s e s' → R s e s') (hs : Inv s)
    (hes : EveryStep step C s es) : EveryStep step R s es := by
  induction es generalizing s with
  | nil => trivial
  | cons e es ih =>
    intro s' hstep
    obtain ⟨hC, hCs⟩ := hes s' hstep
    exact ⟨safe s e s' hs hstep hC, ih (keep s e s' hs hstep hC) hCs⟩

/-- With an invariant that steps satisfying `C` keep, every state of such a run satisfies what the
invariant gives. -/
lemma always_of_inv (keep : ∀ s e s', Inv s → step s e = some s' → C s e s' → Inv s')
    (safe : ∀ s, Inv s → Q s) (hs : Inv s) (hes : EveryStep step C s es) : Always step Q s es := by
  induction es generalizing s with
  | nil => exact safe s hs
  | cons e es ih =>
    refine ⟨safe s hs, fun s' hstep => ?_⟩
    obtain ⟨hC, hCs⟩ := hes s' hstep
    exact ih (keep s e s' hs hstep hC) hCs

/-- An invariant that every step keeps, and what it gives in every state of a run. -/
lemma always_of_forall (keep : ∀ s e s', Inv s → step s e = some s' → Inv s')
    (safe : ∀ s, Inv s → Q s) (hs : Inv s) : Always step Q s es :=
  always_of_inv (C := fun _ _ _ => True) (fun s e s' h hstep _ => keep s e s' h hstep) safe hs
    (everyStep_of_forall fun _ _ _ _ => trivial)

/-- When the invariant gives `Q` and a step into a state with `Q` must satisfy `C`, the runs that
stay in `Q` are those whose steps satisfy `C`. -/
lemma always_iff_everyStep (keep : ∀ s e s', Inv s → step s e = some s' → C s e s' → Inv s')
    (safe : ∀ s, Inv s → Q s) (need : ∀ s e s', Inv s → step s e = some s' → Q s' → C s e s')
    (es : List ε) (hs : Inv s) : Always step Q s es ↔ EveryStep step C s es := by
  induction es generalizing s with
  | nil => exact iff_of_true (safe s hs) trivial
  | cons e es ih =>
    constructor
    · rintro ⟨-, hQ⟩ s' hstep
      have hQs' := hQ s' hstep
      have hC : C s e s' := by
        refine need s e s' hs hstep ?_
        cases es with
        | nil => exact hQs'
        | cons e' es' => exact hQs'.1
      exact ⟨hC, (ih (keep s e s' hs hstep hC)).mp hQs'⟩
    · exact always_of_inv keep safe hs

/-! ## States by position -/

/-- The states of a run, by the number of events before them. -/
def StatesOf (step : σ → ε → Option σ) (s : σ) (es : List ε) (state : Nat → σ) : Prop :=
  ∀ k ≤ es.length, runFrom step s (es.take k) = some (state k)

lemma runFrom_append (s : σ) (es es' : List ε) :
    runFrom step s (es ++ es') = (runFrom step s es).bind (runFrom step · es') := by
  induction es generalizing s with
  | nil => rfl
  | cons e es ih =>
    rw [List.cons_append, runFrom, runFrom, Option.bind_assoc]
    congr 1
    funext s'
    exact ih s'

/-- A run that comes to its end has its states. -/
lemma statesOf_of_isSome (h : (runFrom step s es).isSome) :
    StatesOf step s es fun k => (runFrom step s (es.take k)).getD s := by
  intro k _
  rw [← List.take_append_drop k es, runFrom_append] at h
  cases hk : runFrom step s (es.take k) with
  | none =>
    rw [hk] at h
    cases h
  | some s' => simp [hk]

namespace StatesOf

variable {s : σ} {es : List ε} {state : Nat → σ}

lemma step_at (h : StatesOf step s es state) {k : Nat} {e : ε} (hk : es[k]? = some e) :
    step (state k) e = some (state (k + 1)) := by
  obtain ⟨hlt, heq⟩ := List.getElem?_eq_some_iff.mp hk
  have hnext := h (k + 1) hlt
  rw [List.take_add_one, hk, runFrom_append, h k (Nat.le_of_lt hlt)] at hnext
  simpa [runFrom] using hnext

/-- What holds at the start and is kept from each position to the next holds at every position. -/
lemma induct {Q : Nat → σ → Prop} (h : StatesOf step s es state) (zero : Q 0 s)
    (succ : ∀ k e, es[k]? = some e → step (state k) e = some (state (k + 1)) → Q k (state k) →
      Q (k + 1) (state (k + 1))) {k : Nat} (hk : k ≤ es.length) : Q k (state k) := by
  induction k with
  | zero =>
    rw [show state 0 = s from (Option.some.inj (h 0 hk)).symm]
    exact zero
  | succ k ih =>
    have hevent : es[k]? = some (es.get ⟨k, hk⟩) := List.getElem?_eq_getElem hk
    exact succ k _ hevent (h.step_at hevent) (ih (Nat.le_of_succ_le hk))

/-- What every step keeps holds from one state of the run on. -/
lemma inv_from (h : StatesOf step s es state)
    (keep : ∀ s e s', Inv s → step s e = some s' → Inv s') {k k' : Nat} (hle : k ≤ k')
    (hk' : k' ≤ es.length) (hk : Inv (state k)) : Inv (state k') := by
  induction hle with
  | refl => exact hk
  | step hle ih =>
    exact keep _ _ _ (ih (Nat.le_of_succ_le hk')) (h.step_at (List.getElem?_eq_getElem hk'))

end StatesOf

/-- Where the invariant makes every step possible, and is kept by it, so it is with every run. -/
lemma exists_statesOf (hstep : ∀ s e, Inv s → ∃ s', step s e = some s' ∧ Inv s') (hs : Inv s)
    (es : List ε) : ∃ state, StatesOf step s es state ∧ ∀ k ≤ es.length, Inv (state k) := by
  have hsome : (runFrom step s es).isSome := by
    induction es generalizing s with
    | nil => rfl
    | cons e es ih =>
      obtain ⟨s', hs', hinv⟩ := hstep s e hs
      rw [runFrom, hs']
      exact ih hinv
  have hrun := statesOf_of_isSome hsome
  refine ⟨_, hrun, fun k hk => hrun.induct (Q := fun _ => Inv) hs (fun _ e _ hnext hinv => ?_) hk⟩
  obtain ⟨s', hs', hinv'⟩ := hstep _ e hinv
  cases hnext.symm.trans hs'
  exact hinv'

end Fluxpeer.Lib
