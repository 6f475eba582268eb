import Mathlib.Logic.Basic

/-!
# Programs that fail and are interrupted

A program acts on a state that outlives it, step by step. What becomes of a step is its fate: it is
done, it reports an error with or without having had its effect, or the program ends there for good.
An error can be caught, the end of the program cannot.

`Triple` is the contract of a program under a class of fates: from a state with `P` it returns with
`Q`, or it stops in a state with `E`. Programs are taken apart with `Triple.bind` down to their
steps, and a step has the three obligations of `Triple.act`.
-/

namespace Fluxpeer.Lib

variable {σ ε α β : Type}

inductive Fate (ε : Type)
  | done
  | failed (error : ε) (effect : Bool)
  | crash

inductive Stop (ε : Type)
  | error (error : ε)
  | crash

/-- What a program makes of a state and of the fates of its steps. When no fate is left, all that
follows is done. -/
def Act (σ ε α : Type) := σ → List (Fate ε) → Except (Stop ε) α × σ × List (Fate ε)

namespace Act

def pure (a : α) : Act σ ε α := fun s fates => (.ok a, s, fates)

def throw (e : ε) : Act σ ε α := fun s fates => (.error (.error e), s, fates)

def bind (m : Act σ ε α) (f : α → Act σ ε β) : Act σ ε β := fun s fates =>
  match m s fates with
  | (.ok a, s', fates') => f a s' fates'
  | (.error stop, s', fates') => (.error stop, s', fates')

instance : Monad (Act σ ε) where
  pure := pure
  bind := bind

/-- One step: what it reads, or the error that the state gives, and what it writes. -/
def act (read : σ → Except ε α) (write : σ → σ) : Act σ ε α := fun s fates =>
  match fates with
  | .failed e effect :: rest => (.error (.error e), if effect then write s else s, rest)
  | .crash :: rest => (.error .crash, s, rest)
  | fates =>
    match read s with
    | .ok a => (.ok a, write s, fates.tail)
    | .error e => (.error (.error e), s, fates.tail)

/-- The result of a program, an error included. -/
def attempt (m : Act σ ε α) : Act σ ε (Except ε α) := fun s fates =>
  match m s fates with
  | (.ok a, s', fates') => (.ok (.ok a), s', fates')
  | (.error (.error e), s', fates') => (.ok (.error e), s', fates')
  | (.error .crash, s', fates') => (.error .crash, s', fates')

end Act

/-! ## Contracts -/

section Contract

variable {Allowed : Fate ε → Prop} {P P' : σ → Prop} {Q Q' : α → σ → Prop} {R : β → σ → Prop}
  {E E' : Stop ε → σ → Prop} {m : Act σ ε α} {f : α → Act σ ε β} {read : σ → Except ε α}
  {write : σ → σ}

/-- From a state with `P` and with fates of the class, `m` returns with `Q` or stops with `E`. -/
def Triple (Allowed : Fate ε → Prop) (P : σ → Prop) (m : Act σ ε α) (Q : α → σ → Prop)
    (E : Stop ε → σ → Prop) : Prop :=
  ∀ s fates, P s → (∀ fate ∈ fates, Allowed fate) →
    (match (m s fates).1 with
      | .ok a => Q a (m s fates).2.1
      | .error stop => E stop (m s fates).2.1) ∧
    ∀ fate ∈ (m s fates).2.2, Allowed fate

namespace Triple

lemma pure {a : α} (h : ∀ s, P s → Q a s) : Triple Allowed P (Pure.pure a) Q E :=
  fun s _ hs hfates => ⟨h s hs, hfates⟩

lemma throw {e : ε} (h : ∀ s, P s → E (.error e) s) : Triple Allowed P (Act.throw e) Q E :=
  fun s _ hs hfates => ⟨h s hs, hfates⟩

lemma conseq (h : Triple Allowed P' m Q' E') (hP : ∀ s, P s → P' s)
    (hQ : ∀ a s, Q' a s → Q a s) (hE : ∀ stop s, E' stop s → E stop s) :
    Triple Allowed P m Q E := by
  intro s fates hs hfates
  obtain ⟨hresult, hrest⟩ := h s fates (hP s hs) hfates
  refine ⟨?_, hrest⟩
  cases hm : (m s fates).1 with
  | ok a =>
    rw [hm] at hresult
    exact hQ a _ hresult
  | error stop =>
    rw [hm] at hresult
    exact hE stop _ hresult

/-- A program that stops in some states stops in more. -/
lemma stops (h : Triple Allowed P m Q E') (hE : ∀ stop s, E' stop s → E stop s) :
    Triple Allowed P m Q E :=
  h.conseq (fun _ h => h) (fun _ _ h => h) hE

/-- A fact that the states give. -/
lemma of_pre {p : Prop} (hp : ∀ s, P s → p) (h : p → Triple Allowed P m Q E) :
    Triple Allowed P m Q E :=
  fun s fates hs hfates => h (hp s hs) s fates hs hfates

lemma exists_pre {γ : Type} {P : γ → σ → Prop} (h : ∀ x, Triple Allowed (P x) m Q E) :
    Triple Allowed (fun s => ∃ x, P x s) m Q E := by
  rintro s fates ⟨x, hs⟩ hfates
  exact h x s fates hs hfates

lemma bind (hm : Triple Allowed P m Q E) (hf : ∀ a, Triple Allowed (Q a) (f a) R E) :
    Triple Allowed P (m >>= f) R E := by
  intro s fates hs hfates
  obtain ⟨hresult, hrest⟩ := hm s fates hs hfates
  change (match (Act.bind m f s fates).1 with
    | .ok b => R b (Act.bind m f s fates).2.1
    | .error stop => E stop (Act.bind m f s fates).2.1) ∧
    ∀ fate ∈ (Act.bind m f s fates).2.2, Allowed fate
  unfold Act.bind
  rcases hrun : m s fates with ⟨result, s', fates'⟩
  rw [hrun] at hresult hrest
  cases result with
  | ok a => exact hf a s' fates' hresult hrest
  | error stop => exact ⟨hresult, hrest⟩

/-- A step that is done, that reports an error, and at which the program ends. -/
lemma act
    (done : ∀ s, P s → match read s with | .ok a => Q a (write s) | .error e => E (.error e) s)
    (failed : ∀ s e effect, P s → Allowed (.failed e effect) →
      E (.error e) (if effect then write s else s))
    (crash : ∀ s, P s → Allowed .crash → E .crash s) :
    Triple Allowed P (Act.act read write) Q E := by
  intro s fates hs hfates
  have hdone : ∀ rest : List (Fate ε), (∀ fate ∈ rest, Allowed fate) →
      Act.act read write s fates = (match read s with
        | .ok a => (.ok a, write s, rest)
        | .error e => (.error (.error e), s, rest)) →
      (match (Act.act read write s fates).1 with
        | .ok a => Q a (Act.act read write s fates).2.1
        | .error stop => E stop (Act.act read write s fates).2.1) ∧
      ∀ fate ∈ (Act.act read write s fates).2.2, Allowed fate := by
    intro rest hrest hrun
    have hread := done s hs
    rw [hrun]
    cases hr : read s with
    | ok a =>
      rw [hr] at hread
      exact ⟨hread, hrest⟩
    | error e =>
      rw [hr] at hread
      exact ⟨hread, hrest⟩
  match fates, hfates, hdone with
  | [], hfates, hdone => exact hdone [] hfates rfl
  | .done :: rest, hfates, hdone =>
    exact hdone rest (fun fate hfate => hfates fate (List.mem_cons_of_mem _ hfate)) rfl
  | .failed e effect :: rest, hfates, _ =>
    exact ⟨failed s e effect hs (hfates _ List.mem_cons_self),
      fun fate hfate => hfates fate (List.mem_cons_of_mem _ hfate)⟩
  | .crash :: rest, hfates, _ =>
    exact ⟨crash s hs (hfates _ List.mem_cons_self),
      fun fate hfate => hfates fate (List.mem_cons_of_mem _ hfate)⟩

/-- A step around which an invariant holds whatever becomes of it. -/
lemma act_of_inv {I : σ → Prop} (done : ∀ s a, P s → read s = .ok a → Q a (write s))
    (before : ∀ s, P s → I s) (after : ∀ s, P s → I (write s)) :
    Triple Allowed P (Act.act read write) Q fun _ => I := by
  refine act (fun s hs => ?_) (fun s e effect hs _ => ?_) fun s hs _ => before s hs
  · cases hread : read s with
    | ok a => exact done s a hs hread
    | error e => exact before s hs
  · cases effect
    · exact before s hs
    · exact after s hs

/-- An error is a result like any other. -/
lemma attempt (h : Triple Allowed P m Q E) :
    Triple Allowed P m.attempt
      (fun result s => match result with
        | .ok a => Q a s
        | .error e => E (.error e) s) E := by
  intro s fates hs hfates
  obtain ⟨hresult, hrest⟩ := h s fates hs hfates
  unfold Act.attempt
  rcases hrun : m s fates with ⟨result, s', fates'⟩
  rw [hrun] at hresult hrest
  match result, hresult with
  | .ok a, hresult => exact ⟨hresult, hrest⟩
  | .error (.error e), hresult => exact ⟨hresult, hrest⟩
  | .error .crash, hresult => exact ⟨hresult, hrest⟩

/-! What a contract says of one run, with the fates of that run. -/

variable {s : σ} {fates : List (Fate ε)}

lemma of_ok (h : Triple (· ∈ fates) P m Q E) (hs : P s) {a : α} (hrun : (m s fates).1 = .ok a) :
    Q a (m s fates).2.1 := by
  have hresult := (h s fates hs fun _ hfate => hfate).1
  rwa [hrun] at hresult

lemma of_error (h : Triple (· ∈ fates) P m Q E) (hs : P s) {stop : Stop ε}
    (hrun : (m s fates).1 = .error stop) : E stop (m s fates).2.1 := by
  have hresult := (h s fates hs fun _ hfate => hfate).1
  rwa [hrun] at hresult

lemma final {R : σ → Prop} (h : Triple (· ∈ fates) P m Q E) (hs : P s) (hQ : ∀ a s, Q a s → R s)
    (hE : ∀ stop s, E stop s → R s) : R (m s fates).2.1 := by
  cases hrun : (m s fates).1 with
  | ok a => exact hQ a _ (h.of_ok hs hrun)
  | error stop => exact hE stop _ (h.of_error hs hrun)

end Triple

end Contract

end Fluxpeer.Lib
