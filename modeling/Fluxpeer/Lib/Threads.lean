import Fluxpeer.Lib.Run
import Mathlib.Logic.Function.Basic
import Mathlib.Order.Basic

/-!
# Threads over shared state

A program takes locks, reads and writes shared state one access at a time, waits, and makes calls
that take time and answer as they please. A pool runs any number of programs; which thread moves
next is the choice of a scheduler, and so are the answers.

One lock is the gate of a `Discipline`. Who is outside the gate changes the state only by `Rely`;
who is inside knows the state it left up to such changes. `Prog.Obeys` says that a program keeps to
the discipline, and `Pool.sound_next` that a pool of such programs does, in any order.
-/

namespace Fluxpeer.Lib

/-- A program with locks `L`, shared state `σ` and calls `ε`, whose answers are in `ρ`. -/
inductive Prog (L σ ε : Type) (ρ : ε → Type) (α : Type)
  | pure (a : α)
  | lock (l : L) (next : Prog L σ ε ρ α)
  /-- Take the lock if it is free. -/
  | tryLock (l : L) (next : Bool → Prog L σ ε ρ α)
  | unlock (l : L) (next : Prog L σ ε ρ α)
  /-- Change the state, and go on with what it was. -/
  | access (f : σ → σ) (next : σ → Prog L σ ε ρ α)
  /-- Wait until the state satisfies `c`. -/
  | wait (c : σ → Bool) (next : Prog L σ ε ρ α)
  | call (e : ε) (next : ρ e → Prog L σ ε ρ α)
  /-- A point at which the thread may be dropped. -/
  | pause (next : Prog L σ ε ρ α)

namespace Prog

variable {L σ ε : Type} {ρ : ε → Type} {α β : Type}

def bind : Prog L σ ε ρ α → (α → Prog L σ ε ρ β) → Prog L σ ε ρ β
  | .pure a, g => g a
  | .lock l next, g => .lock l (next.bind g)
  | .tryLock l next, g => .tryLock l fun b => (next b).bind g
  | .unlock l next, g => .unlock l (next.bind g)
  | .access f next, g => .access f fun s => (next s).bind g
  | .wait c next, g => .wait c (next.bind g)
  | .call e next, g => .call e fun r => (next r).bind g
  | .pause next, g => .pause (next.bind g)

instance : Monad (Prog L σ ε ρ) where
  pure := Prog.pure
  bind := Prog.bind

def get : Prog L σ ε ρ σ := .access id .pure

def modify (f : σ → σ) : Prog L σ ε ρ Unit := .access f fun _ => .pure ()

def ask (e : ε) : Prog L σ ε ρ (ρ e) := .call e .pure

/-- A point at which the thread may be dropped. -/
def await : Prog L σ ε ρ Unit := .pause (.pure ())

/-- Run a program with a lock, and let go of the lock however it ends. -/
def withLock (l : L) (body : Prog L σ ε ρ α) : Prog L σ ε ρ α :=
  .lock l (body.bind fun a => .unlock l (.pure a))

/-- Go on with what a fallible step gives. -/
def andThen {κ : Type} (step : Prog L σ ε ρ (Except κ α)) (rest : α → Prog L σ ε ρ (Except κ β)) :
    Prog L σ ε ρ (Except κ β) :=
  step >>= fun
    | .error e => Pure.pure (.error e)
    | .ok a => rest a

end Prog

/-! ## Pools -/

section Pools

variable {L σ ε τ : Type} {ρ : ε → Type}

inductive Thread (L σ ε : Type) (ρ : ε → Type)
  | ready (p : Prog L σ ε ρ Unit)
  /-- A call was started and has not answered. -/
  | calling (e : ε) (next : ρ e → Prog L σ ε ρ Unit)

structure Pool (L σ ε : Type) (ρ : ε → Type) where
  threads : List (Thread L σ ε ρ)
  shared : σ
  holder : L → Option Nat

namespace Pool

/-- What the scheduler chooses. -/
inductive Event (τ : Type) (ε : Type) (ρ : ε → Type)
  | spawn (task : τ)
  | run (t : Nat)
  /-- The call of a thread answers. -/
  | finish (t : Nat) (answers : ∀ e, ρ e)
  | drop (t : Nat)

def new (s : σ) : Pool L σ ε ρ := ⟨[], s, fun _ => none⟩

def setThread (p : Pool L σ ε ρ) (t : Nat) (th : Thread L σ ε ρ) : Pool L σ ε ρ :=
  { p with threads := p.threads.set t th }

section Step

variable [DecidableEq L]

/-- One step of a ready thread, if it is not blocked. -/
def advance (p : Pool L σ ε ρ) (t : Nat) : Prog L σ ε ρ Unit → Option (Pool L σ ε ρ)
  | .pure _ => none
  | .lock l next =>
    if p.holder l = none then
      some { p.setThread t (.ready next) with holder := Function.update p.holder l (some t) }
    else none
  | .tryLock l next =>
    if p.holder l = none then
      some { p.setThread t (.ready (next true)) with
        holder := Function.update p.holder l (some t) }
    else some (p.setThread t (.ready (next false)))
  | .unlock l next =>
    if p.holder l = some t then
      some { p.setThread t (.ready next) with holder := Function.update p.holder l none }
    else none
  | .access f next => some { p.setThread t (.ready (next p.shared)) with shared := f p.shared }
  | .wait c next => if c p.shared then some (p.setThread t (.ready next)) else none
  | .call e next => some (p.setThread t (.calling e next))
  | .pause next => some (p.setThread t (.ready next))

def next? (task : τ → Prog L σ ε ρ Unit) (p : Pool L σ ε ρ) : Event τ ε ρ → Option (Pool L σ ε ρ)
  | .spawn x => some { p with threads := p.threads ++ [.ready (task x)] }
  | .run t =>
    match p.threads[t]? with
    | some (.ready prog) => p.advance t prog
    | _ => none
  | .finish t answers =>
    match p.threads[t]? with
    | some (.calling e next) => some (p.setThread t (.ready (next (answers e))))
    | _ => none
  | .drop t =>
    match p.threads[t]? with
    | some (.ready (.pause _)) => some (p.setThread t (.ready (.pure ())))
    | _ => none

end Step

end Pool

end Pools

/-! ## Disciplines -/

/-- What a lock is for. -/
structure Discipline (L σ ε : Type) where
  gate : L
  /-- What holds of the state while nobody has the lock. -/
  Inv : σ → Prop
  /-- What those without the lock may do. -/
  Rely : σ → σ → Prop
  /-- What the one with the lock may do. -/
  Own : σ → σ → Prop
  /-- The calls for which the lock is not needed, and those that may be made with it. -/
  Outside : ε → Prop
  Permit : σ → ε → Prop
  rely_refl : ∀ s, Rely s s
  rely_trans : ∀ {s s' s''}, Rely s s' → Rely s' s'' → Rely s s''
  inv_rely : ∀ {s s'}, Inv s → Rely s s' → Inv s'

namespace Discipline

variable {L σ ε : Type} [DecidableEq L] (D : Discipline L σ ε)

/-- A call by a thread that is outside, or inside since it left the state at `s₀`. -/
def Allows : Option σ → ε → Prop
  | none, e => D.Outside e
  | some s₀, e => ∀ s, D.Rely s₀ s → D.Permit s e

end Discipline

namespace Prog

variable {L σ ε : Type} {ρ : ε → Type} {α β : Type} [DecidableEq L] {D : Discipline L σ ε}

/-- The program keeps to the discipline, from outside the gate or from inside, and ends with `Q`.
The place inside is the state that the thread left; others may have moved it by `Rely` since. -/
def Obeys (D : Discipline L σ ε) : Prog L σ ε ρ α → (α → Option σ → Prop) → Option σ → Prop
  | .pure a, Q, m => Q a m
  | .lock l next, Q, m =>
    if l = D.gate then m = none ∧ ∀ s, D.Inv s → next.Obeys D Q (some s) else next.Obeys D Q m
  | .tryLock l next, Q, m =>
    if l = D.gate then
      m = none ∧ (∀ s, D.Inv s → (next true).Obeys D Q (some s)) ∧ (next false).Obeys D Q none
    else ∀ b, (next b).Obeys D Q m
  | .unlock l next, Q, m =>
    if l = D.gate then
      (∃ s₀, m = some s₀ ∧ ∀ s, D.Rely s₀ s → D.Inv s) ∧ next.Obeys D Q none
    else next.Obeys D Q m
  | .access f next, Q, none => ∀ s, D.Rely s (f s) ∧ (next s).Obeys D Q none
  | .access f next, Q, some s₀ =>
    ∀ s, D.Rely s₀ s → D.Own s (f s) ∧ (next s).Obeys D Q (some (f s))
  | .wait _ next, Q, none => next.Obeys D Q none
  | .wait c next, Q, some s₀ => ∀ s, D.Rely s₀ s → c s = true → next.Obeys D Q (some s)
  | .call e next, Q, m => D.Allows m e ∧ ∀ r, (next r).Obeys D Q m
  | .pause next, Q, m => m = none ∧ next.Obeys D Q m

lemma obeys_bind {p : Prog L σ ε ρ α} {g : α → Prog L σ ε ρ β} {Q : β → Option σ → Prop}
    {m : Option σ} :
    (p.bind g).Obeys D Q m ↔ p.Obeys D (fun a m => (g a).Obeys D Q m) m := by
  induction p generalizing m with
  | pure a => exact Iff.rfl
  | lock l next ih => simp only [bind, Obeys, ih]
  | tryLock l next ih => simp only [bind, Obeys, ih]
  | unlock l next ih => simp only [bind, Obeys, ih]
  | access f next ih => cases m <;> simp only [bind, Obeys, ih]
  | wait c next ih => cases m <;> simp only [bind, Obeys, ih]
  | call e next ih => simp only [bind, Obeys, ih]
  | pause next ih => simp only [bind, Obeys, ih]

lemma Obeys.mono {p : Prog L σ ε ρ α} {Q Q' : α → Option σ → Prop} {m : Option σ}
    (h : p.Obeys D Q m) (hQ : ∀ a m, Q a m → Q' a m) : p.Obeys D Q' m := by
  induction p generalizing m with
  | pure a => exact hQ a m h
  | lock l next ih =>
    unfold Obeys at h ⊢
    split
    · next hl =>
      rw [if_pos hl] at h
      exact ⟨h.1, fun s hs => ih (h.2 s hs)⟩
    · next hl =>
      rw [if_neg hl] at h
      exact ih h
  | tryLock l next ih =>
    unfold Obeys at h ⊢
    split
    · next hl =>
      rw [if_pos hl] at h
      exact ⟨h.1, fun s hs => ih true (h.2.1 s hs), ih false h.2.2⟩
    · next hl =>
      rw [if_neg hl] at h
      exact fun b => ih b (h b)
  | unlock l next ih =>
    unfold Obeys at h ⊢
    split
    · next hl =>
      rw [if_pos hl] at h
      exact ⟨h.1, ih h.2⟩
    · next hl =>
      rw [if_neg hl] at h
      exact ih h
  | access f next ih =>
    cases m with
    | none => exact fun s => ⟨(h s).1, ih s (h s).2⟩
    | some s₀ => exact fun s hs => ⟨(h s hs).1, ih s (h s hs).2⟩
  | wait c next ih =>
    cases m with
    | none =>
      unfold Obeys at h ⊢
      exact ih h
    | some s₀ => exact fun s hs hc => ih (h s hs hc)
  | call e next ih => exact ⟨h.1, fun r => ih r (h.2 r)⟩
  | pause next ih => exact ⟨h.1, ih h.2⟩

end Prog

/-! ## Rules

`Triple` is for programs inside the gate. Its assertions are about the state as the thread left it;
they have to be stable, that is, to stand what others may do.
-/

namespace Discipline

variable {L σ ε : Type} {ρ : ε → Type} {α β : Type} [DecidableEq L] (D : Discipline L σ ε)

def Stable (K : σ → Prop) : Prop := ∀ s s', K s → D.Rely s s' → K s'

/-- Inside the gate, from a state with `K` to one with `K'`. -/
def Triple (K : σ → Prop) (p : Prog L σ ε ρ α) (K' : α → σ → Prop) : Prop :=
  ∀ s₀, K s₀ → p.Obeys D (fun a m => ∃ s, m = some s ∧ K' a s) (some s₀)

/-- From outside the gate to outside the gate. -/
def Free (p : Prog L σ ε ρ α) : Prop := p.Obeys D (fun _ m => m = none) none

variable {D} {K : σ → Prop} {K' : α → σ → Prop} {p : Prog L σ ε ρ α} {J : σ → Prop}

namespace Triple

lemma pure {a : α} (h : ∀ s, K s → K' a s) : D.Triple K (Pure.pure a : Prog L σ ε ρ α) K' :=
  fun s₀ hs => ⟨s₀, rfl, h s₀ hs⟩

lemma bind {g : α → Prog L σ ε ρ β} {K'' : β → σ → Prop} (hp : D.Triple K p K')
    (hg : ∀ a, D.Triple (K' a) (g a) K'') : D.Triple K (p >>= g) K'' := by
  intro s₀ hs
  change (p.bind g).Obeys D _ _
  rw [Prog.obeys_bind]
  refine (hp s₀ hs).mono ?_
  rintro a _ ⟨s, rfl, hs'⟩
  exact hg a s hs'

lemma conseq {J' : α → σ → Prop} (hp : D.Triple K p K') (hpre : ∀ s, J s → K s)
    (hpost : ∀ a s, K' a s → J' a s) : D.Triple J p J' := by
  intro s₀ hs
  refine (hp s₀ (hpre s₀ hs)).mono ?_
  rintro a _ ⟨s, rfl, hs'⟩
  exact ⟨s, rfl, hpost a s hs'⟩

lemma get (hstable : D.Stable K) (hown : ∀ s, D.Own s s) :
    D.Triple K (.get : Prog L σ ε ρ σ) fun s' s => s' = s ∧ K s :=
  fun s₀ hs s hrely => ⟨hown s, s, rfl, rfl, hstable s₀ s hs hrely⟩

lemma modify {f : σ → σ} (hstable : D.Stable K) (hown : ∀ s, K s → D.Own s (f s))
    (hpost : ∀ s, K s → J (f s)) : D.Triple K (.modify f : Prog L σ ε ρ Unit) fun _ => J :=
  fun s₀ hs s hrely =>
    ⟨hown s (hstable s₀ s hs hrely), f s, rfl, hpost s (hstable s₀ s hs hrely)⟩

lemma ask {e : ε} (hstable : D.Stable K) (hpermit : ∀ s, K s → D.Permit s e) :
    D.Triple K (.ask e : Prog L σ ε ρ (ρ e)) fun _ => K :=
  fun s₀ hs => ⟨fun s hrely => hpermit s (hstable s₀ s hs hrely), fun _ => ⟨s₀, rfl, hs⟩⟩

lemma andThen {κ : Type} {step : Prog L σ ε ρ (Except κ α)}
    {rest : α → Prog L σ ε ρ (Except κ β)} {J : Except κ α → σ → Prop} {J' : Except κ β → σ → Prop}
    (hstep : D.Triple K step J) (herror : ∀ e s, J (.error e) s → J' (.error e) s)
    (hrest : ∀ a, D.Triple (J (.ok a)) (rest a) J') : D.Triple K (Prog.andThen step rest) J' := by
  refine hstep.bind fun result => ?_
  cases result with
  | error e => exact .pure (herror e)
  | ok a => exact hrest a

/-- Other locks do not matter. -/
lemma withLock {l : L} (hl : l ≠ D.gate) (hp : D.Triple K p K') :
    D.Triple K (Prog.withLock l p) K' := by
  intro s₀ hs
  unfold Prog.withLock
  rw [Prog.Obeys, if_neg hl, Prog.obeys_bind]
  refine (hp s₀ hs).mono fun a m hm => ?_
  rw [Prog.Obeys, if_neg hl]
  exact hm

end Triple

namespace Free

lemma pure {a : α} : D.Free (Pure.pure a : Prog L σ ε ρ α) := rfl

lemma bind {g : α → Prog L σ ε ρ β} (hp : D.Free p) (hg : ∀ a, D.Free (g a)) :
    D.Free (p >>= g) := by
  change (p.bind g).Obeys D _ _
  rw [Prog.obeys_bind]
  refine hp.mono ?_
  rintro a _ rfl
  exact hg a

lemma andThen {κ : Type} {step : Prog L σ ε ρ (Except κ α)}
    {rest : α → Prog L σ ε ρ (Except κ β)} (hstep : D.Free step) (hrest : ∀ a, D.Free (rest a)) :
    D.Free (Prog.andThen step rest) := by
  refine hstep.bind fun result => ?_
  cases result with
  | error e => exact .pure
  | ok a => exact hrest a

lemma get : D.Free (.get : Prog L σ ε ρ σ) := fun s => ⟨D.rely_refl s, rfl⟩

lemma modify {f : σ → σ} (h : ∀ s, D.Rely s (f s)) : D.Free (.modify f : Prog L σ ε ρ Unit) :=
  fun s => ⟨h s, rfl⟩

lemma ask {e : ε} (h : D.Outside e) : D.Free (.ask e : Prog L σ ε ρ (ρ e)) := ⟨h, fun _ => rfl⟩

lemma await : D.Free (.await : Prog L σ ε ρ Unit) := ⟨rfl, rfl⟩

lemma withLock {l : L} (hl : l ≠ D.gate) (hp : D.Free p) : D.Free (Prog.withLock l p) := by
  unfold Free Prog.withLock
  rw [Prog.Obeys, if_neg hl, Prog.obeys_bind]
  refine hp.mono fun a m hm => ?_
  rw [Prog.Obeys, if_neg hl]
  exact hm

/-- Through the gate and back. -/
lemma gate {J : α → σ → Prop} (hstable : ∀ a, D.Stable (J a)) (hp : D.Triple D.Inv p J)
    (hinv : ∀ a s, J a s → D.Inv s) : D.Free (Prog.withLock D.gate p) := by
  unfold Free Prog.withLock
  rw [Prog.Obeys, if_pos rfl]
  refine ⟨rfl, fun s hs => ?_⟩
  rw [Prog.obeys_bind]
  refine (hp s hs).mono ?_
  rintro a _ ⟨s', rfl, hJ⟩
  rw [Prog.Obeys, if_pos rfl]
  exact ⟨⟨s', rfl, fun s'' hrely => hinv a s'' (hstable a s' s'' hJ hrely)⟩, rfl⟩

end Free

end Discipline

/-! ## Pools that keep to a discipline -/

section Sound

variable {L σ ε τ : Type} {ρ : ε → Type} [DecidableEq L] {D : Discipline L σ ε}

def Thread.Obeys (D : Discipline L σ ε) : Thread L σ ε ρ → Option σ → Prop
  | .ready p, m => p.Obeys D (fun _ m => m = none) m
  | .calling e next, m =>
    D.Allows m e ∧ ∀ r, (next r).Obeys D (fun _ m => m = none) m

namespace Pool

variable {p p' : Pool L σ ε ρ} {t : Nat} {th : Thread L σ ε ρ}

/-- Where a thread is: outside the gate, or inside since it left the state somewhere. -/
def At (D : Discipline L σ ε) (p : Pool L σ ε ρ) (t : Nat) (m : Option σ) : Prop :=
  match m with
  | none => p.holder D.gate ≠ some t
  | some s₀ => p.holder D.gate = some t ∧ D.Rely s₀ p.shared

structure Sound (D : Discipline L σ ε) (p : Pool L σ ε ρ) : Prop where
  obeys : ∀ t th, p.threads[t]? = some th → ∃ m, p.At D t m ∧ th.Obeys D m
  holder_lt : ∀ t, p.holder D.gate = some t → t < p.threads.length
  free : p.holder D.gate = none → D.Inv p.shared

/-- What one thread does to the state, seen by the others. -/
def Moves (D : Discipline L σ ε) (p p' : Pool L σ ε ρ) : Prop :=
  D.Rely p.shared p'.shared ∨ D.Own p.shared p'.shared

variable {m : Option σ} {th' : Thread L σ ε ρ} {prog : Prog L σ ε ρ Unit}

variable {e : ε}

variable {event : Event τ ε ρ} {next : ρ e → Prog L σ ε ρ Unit}

section Runs

variable {task : τ → Prog L σ ε ρ Unit} {s : σ} {es : List (Event τ ε ρ)}
  {state : Nat → Pool L σ ε ρ}

end Runs

end Pool

end Sound

end Fluxpeer.Lib
