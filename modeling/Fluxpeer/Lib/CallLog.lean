import Fluxpeer.Lib.Threads

/-!
# Programs that run alone

A program that nobody disturbs runs to its end; only its calls are answered from outside. The
history has every call with its answer, and what was done to the world is read off it.

`Prog.Meets` is the weakest precondition of a program about its state and the history, with a guard
for the calls; `Contract` is the triple made of it. `Contract.exec` says what a contract gives for a
run, whatever the answers are.
-/

namespace Fluxpeer.Lib

variable {L σ ε κ : Type} {ρ : ε → Type} {α β γ : Type} {s : σ} {g : α → Prog L σ ε ρ β}

/-- The calls that were made, with their answers. -/
abbrev CallLog (ε : Type) (ρ : ε → Type) := List (Σ e, ρ e)

namespace CallLog

/-- What the last call that counts for `f` has to say. -/
def last (f : (Σ e, ρ e) → Option β) (h : CallLog ε ρ) : Option β := (h.filterMap f).getLast?

variable {f : (Σ e, ρ e) → Option β} {h : CallLog ε ρ} {call : Σ e, ρ e} {h' : CallLog ε ρ}

lemma last_append : last f (h ++ h') = (last f h').or (last f h) := by
  unfold last
  rw [List.filterMap_append, List.getLast?_append]

lemma last_concat : last f (h ++ [call]) = (f call).or (last f h) := by
  rw [last_append]
  cases hcall : f call <;> simp [last, hcall]

@[simp] lemma last_concat_of_none (hcall : f call = none) : last f (h ++ [call]) = last f h := by
  rw [last_concat, hcall, Option.none_or]

/-- At each call of the history, `G` held for it and what came before. -/
def Guarded (G : CallLog ε ρ → ε → Prop) (h : CallLog ε ρ) : Prop :=
  ∀ i e r, h[i]? = some ⟨e, r⟩ → G (h.take i) e

lemma Guarded.extend {G : CallLog ε ρ → ε → Prop} (hh : Guarded G h) (hle : h <+: h')
    (hnew : ∀ i e r, h.length ≤ i → h'[i]? = some ⟨e, r⟩ → G (h'.take i) e) : Guarded G h' := by
  intro i e r hi
  by_cases hlt : i < h.length
  · obtain ⟨rest, rfl⟩ := hle
    rw [List.getElem?_append_left hlt] at hi
    rw [List.take_append_of_le_length (Nat.le_of_lt hlt)]
    exact hh i e r hi
  · exact hnew i e r (Nat.le_of_not_lt hlt) hi

end CallLog

namespace Prog

/-- Run a program alone: all locks are free, and the call after a history is answered by the
scheduler's answer of that number. A program that waits in vain has no result. -/
def exec (answers : Nat → ∀ e, ρ e) :
    Prog L σ ε ρ α → σ → CallLog ε ρ → Option (α × σ × CallLog ε ρ)
  | .pure a, s, h => some (a, s, h)
  | .lock _ next, s, h | .unlock _ next, s, h | .pause next, s, h => next.exec answers s h
  | .tryLock _ next, s, h => (next true).exec answers s h
  | .access f next, s, h => (next s).exec answers (f s) h
  | .wait c next, s, h => if c s then next.exec answers s h else none
  | .call e next, s, h =>
    (next (answers h.length e)).exec answers s (h ++ [⟨e, answers h.length e⟩])

/-- The program makes calls that `G` admits only, and ends with `Q`. -/
def Meets (G : CallLog ε ρ → ε → Prop) :
    Prog L σ ε ρ α → (α → σ → CallLog ε ρ → Prop) → σ → CallLog ε ρ → Prop
  | .pure a, Q, s, h => Q a s h
  | .lock _ next, Q, s, h | .unlock _ next, Q, s, h | .pause next, Q, s, h => next.Meets G Q s h
  | .tryLock _ next, Q, s, h => (next true).Meets G Q s h
  | .access f next, Q, s, h => (next s).Meets G Q (f s) h
  | .wait c next, Q, s, h => c s = true ∧ next.Meets G Q s h
  | .call e next, Q, s, h => G h e ∧ ∀ r, (next r).Meets G Q s (h ++ [⟨e, r⟩])

variable {G : CallLog ε ρ → ε → Prop}

variable {p : Prog L σ ε ρ α} {h : CallLog ε ρ}

lemma meets_bind {Q : β → σ → CallLog ε ρ → Prop} :
    (p.bind g).Meets G Q s h ↔ p.Meets G (fun a s h => (g a).Meets G Q s h) s h := by
  induction p generalizing s h with
  | pure a => exact Iff.rfl
  | lock l next ih => exact ih
  | tryLock l next ih => exact ih true
  | unlock l next ih => exact ih
  | access f next ih => exact ih s
  | wait c next ih => exact and_congr_right fun _ => ih
  | call e next ih => exact and_congr_right fun _ => forall_congr' fun r => ih r
  | pause next ih => exact ih

variable {Q : α → σ → CallLog ε ρ → Prop}

lemma Meets.mono {Q' : α → σ → CallLog ε ρ → Prop} (hp : p.Meets G Q s h)
    (hQ : ∀ a s h, Q a s h → Q' a s h) : p.Meets G Q' s h := by
  induction p generalizing s h with
  | pure a => exact hQ a s h hp
  | lock l next ih => exact ih hp
  | tryLock l next ih => exact ih true hp
  | unlock l next ih => exact ih hp
  | access f next ih => exact ih s hp
  | wait c next ih => exact ⟨hp.1, ih hp.2⟩
  | call e next ih => exact ⟨hp.1, fun r => ih r (hp.2 r)⟩
  | pause next ih => exact ih hp

/-- A run goes on with the history, and the guard held at each of its calls. -/
lemma Meets.exec (hp : p.Meets G Q s h) (answers : Nat → ∀ e, ρ e) :
    ∃ a s' h', p.exec answers s h = some (a, s', h') ∧ Q a s' h' ∧ h <+: h' ∧
      ∀ i e r, h.length ≤ i → h'[i]? = some ⟨e, r⟩ → G (h'.take i) e := by
  induction p generalizing s h with
  | pure a =>
    refine ⟨a, s, h, rfl, hp, List.prefix_rfl, fun i e r hle hi => ?_⟩
    rw [List.getElem?_eq_none hle] at hi
    cases hi
  | lock l next ih => exact ih hp
  | tryLock l next ih => exact ih true hp
  | unlock l next ih => exact ih hp
  | access f next ih => exact ih s hp
  | wait c next ih =>
    obtain ⟨a, s', h', hrun, hrest⟩ := ih hp.2
    exact ⟨a, s', h', by rw [Prog.exec, if_pos hp.1, hrun], hrest⟩
  | call e next ih =>
    obtain ⟨a, s', h', hrun, hQ, hprefix, hguard⟩ := ih _ (hp.2 (answers h.length e))
    refine ⟨a, s', h', hrun, hQ, (List.prefix_append ..).trans hprefix, fun i e' r hle hi => ?_⟩
    rcases Nat.lt_or_eq_of_le hle with hlt | rfl
    · exact hguard i e' r (by rw [List.length_append]; exact hlt) hi
    obtain ⟨rest, rfl⟩ := hprefix
    rw [List.append_assoc, List.getElem?_append_right (Nat.le_refl _), Nat.sub_self] at hi
    cases hi
    rw [List.append_assoc, List.take_left]
    exact hp.1
  | pause next ih => exact ih hp

/-- What stays true as the history goes on holds at the end if it holds at the beginning. -/
lemma Meets.stable {M : CallLog ε ρ → Prop} (hM : ∀ h call, M h → M (h ++ [call]))
    (hp : p.Meets G Q s h) (hh : M h) : p.Meets G (fun a s h => Q a s h ∧ M h) s h := by
  induction p generalizing s h with
  | pure a => exact ⟨hp, hh⟩
  | lock l next ih => exact ih hp hh
  | tryLock l next ih => exact ih true hp hh
  | unlock l next ih => exact ih hp hh
  | access f next ih => exact ih s hp hh
  | wait c next ih => exact ⟨hp.1, ih hp.2 hh⟩
  | call e next ih => exact ⟨hp.1, fun r => ih r (hp.2 r) (hM h _ hh)⟩
  | pause next ih => exact ih hp hh

/-- Do something for each element, until it fails. -/
def tryEach (body : γ → Prog L σ ε ρ (Except κ Unit)) : List γ → Prog L σ ε ρ (Except κ Unit)
  | [] => Pure.pure (.ok ())
  | x :: xs => andThen (body x) fun _ => tryEach body xs

/-- Do something for each element, and collect the results. -/
def collect (body : γ → Prog L σ ε ρ α) : List γ → Prog L σ ε ρ (List α)
  | [] => Pure.pure []
  | x :: xs => body x >>= fun a => collect body xs >>= fun as => Pure.pure (a :: as)

/-- Keep the elements for which something cannot be done, with the errors. -/
def retain (body : γ → Prog L σ ε ρ (Except κ Unit)) : List γ → Prog L σ ε ρ (List γ × List κ)
  | [] => Pure.pure ([], [])
  | x :: xs => body x >>= fun result => retain body xs >>= fun (kept, errors) =>
    Pure.pure (match result with
      | .ok () => (kept, errors)
      | .error e => (x :: kept, e :: errors))

end Prog

/-! ## Contracts -/

/-- From a state and a history with `P`, the program ends with `Q`. -/
def Contract (G : CallLog ε ρ → ε → Prop) (P : σ → CallLog ε ρ → Prop) (p : Prog L σ ε ρ α)
    (Q : α → σ → CallLog ε ρ → Prop) : Prop :=
  ∀ s h, P s h → p.Meets G Q s h

/-- What holds at the end of a program that may fail: `Q` with its value, or `E` with its error. -/
def Outcome (Q : α → σ → CallLog ε ρ → Prop) (E : κ → σ → CallLog ε ρ → Prop) :
    Except κ α → σ → CallLog ε ρ → Prop
  | .ok a => Q a
  | .error e => E e

namespace Contract

variable {G : CallLog ε ρ → ε → Prop} {P P' : σ → CallLog ε ρ → Prop}
  {Q Q' : α → σ → CallLog ε ρ → Prop} {R : β → σ → CallLog ε ρ → Prop} {p : Prog L σ ε ρ α}

lemma pure {a : α} (hQ : ∀ s h, P s h → Q a s h) :
    Contract G P (Pure.pure a : Prog L σ ε ρ α) Q :=
  hQ

lemma conseq (hp : Contract G P' p Q') (hP : ∀ s h, P s h → P' s h)
    (hQ : ∀ a s h, Q' a s h → Q a s h) : Contract G P p Q :=
  fun s h hs => (hp s h (hP s h hs)).mono hQ

lemma bind (hp : Contract G P p Q) (hg : ∀ a, Contract G (Q a) (g a) R) :
    Contract G P (p >>= g) R := by
  intro s h hs
  change (p.bind g).Meets G R s h
  rw [Prog.meets_bind]
  exact (hp s h hs).mono fun a s h hQ => hg a s h hQ

lemma stable {M : CallLog ε ρ → Prop} (hp : Contract G P p Q)
    (hM : ∀ h call, M h → M (h ++ [call])) :
    Contract G (fun s h => P s h ∧ M h) p fun a s h => Q a s h ∧ M h :=
  fun s h hs => (hp s h hs.1).stable hM hs.2

lemma get : Contract G P (.get : Prog L σ ε ρ σ) fun s' s h => s' = s ∧ P s h :=
  fun _ _ hs => ⟨rfl, hs⟩

variable {K : σ → CallLog ε ρ → Prop}

lemma modify {f : σ → σ} (hf : ∀ s h, P s h → K (f s) h) :
    Contract G P (.modify f : Prog L σ ε ρ Unit) fun _ => K :=
  hf

lemma ask {e : ε} {K : ρ e → σ → CallLog ε ρ → Prop} (hG : ∀ s h, P s h → G h e)
    (hK : ∀ s h r, P s h → K r s (h ++ [⟨e, r⟩])) :
    Contract G P (.ask e : Prog L σ ε ρ (ρ e)) K :=
  fun s h hs => ⟨hG s h hs, fun r => hK s h r hs⟩

/-- From a known state and history, the call is the next of the history. -/
lemma asked {e : ε} {s₀ : σ} {h₀ : CallLog ε ρ} (hG : G h₀ e) :
    Contract G (fun s h => s = s₀ ∧ h = h₀) (.ask e : Prog L σ ε ρ (ρ e)) fun r s h =>
      s = s₀ ∧ h = h₀ ++ [⟨e, r⟩] := by
  rintro s h ⟨rfl, rfl⟩
  exact ⟨hG, fun r => ⟨rfl, rfl⟩⟩

/-- A program from one state. -/
lemma of_state {s₀ : σ} {h₀ : CallLog ε ρ} (hp : p.Meets G Q s₀ h₀) :
    Contract G (fun s h => s = s₀ ∧ h = h₀) p Q := by
  rintro s h ⟨rfl, rfl⟩
  exact hp

/-- A change as the last thing a program does. -/
lemma modify_pure {f : σ → σ} {a : α} (hQ : ∀ s h, P s h → Q a (f s) h) :
    Contract G P ((do Prog.modify f; Pure.pure a) : Prog L σ ε ρ α) Q :=
  hQ

variable {step : Prog L σ ε ρ (Except κ α)} {body : γ → Prog L σ ε ρ (Except κ Unit)}
  {E : κ → σ → CallLog ε ρ → Prop}

lemma andThen {rest : α → Prog L σ ε ρ (Except κ β)} (hstep : Contract G P step (Outcome Q E))
    (hrest : ∀ a, Contract G (Q a) (rest a) (Outcome R E)) :
    Contract G P (Prog.andThen step rest) (Outcome R E) := by
  refine hstep.bind fun result => ?_
  cases result with
  | error e => exact .pure fun _ _ h => h
  | ok a => exact hrest a

/-- What holds at the end anyway holds with success and with failure. -/
lemma toOutcome (h : Contract G P step fun _ => K) :
    Contract G P step (Outcome (fun _ => K) fun _ => K) := by
  refine h.conseq (fun _ _ h => h) fun result s h hK => ?_
  cases result with
  | ok _ => exact hK
  | error _ => exact hK

lemma ofOutcome (h : Contract G P step (Outcome (fun _ => K) fun _ => K)) :
    Contract G P step fun _ => K := by
  refine h.conseq (fun _ _ h => h) fun result s h hK => ?_
  cases result with
  | ok _ => exact hK
  | error _ => exact hK

lemma withLock {l : L} (hp : Contract G P p Q) : Contract G P (Prog.withLock l p) Q := by
  intro s h hs
  change (p.bind fun a => .unlock l (.pure a)).Meets G Q s h
  rw [Prog.meets_bind]
  exact hp s h hs

/-- The invariant of a loop is about the elements that are left. -/
lemma tryEach {I : List γ → σ → CallLog ε ρ → Prop}
    (hbody : ∀ x xs, Contract G (I (x :: xs)) (body x) (Outcome (fun _ => I xs) E)) (xs : List γ) :
    Contract G (I xs) (Prog.tryEach body xs) (Outcome (fun _ => I []) E) := by
  induction xs with
  | nil => exact .pure fun _ _ h => h
  | cons x xs ih => exact andThen (hbody x xs) fun _ => ih

lemma collect {body : γ → Prog L σ ε ρ α} {I : List γ → List α → σ → CallLog ε ρ → Prop}
    (hbody : ∀ x xs as, Contract G (I (x :: xs) as) (body x) fun a => I xs (as ++ [a]))
    (xs : List γ) (as : List α) :
    Contract G (I xs as) (Prog.collect body xs) fun bs => I [] (as ++ bs) := by
  induction xs generalizing as with
  | nil => exact .pure fun _ _ h => by rwa [List.append_nil]
  | cons x xs ih =>
    refine (hbody x xs as).bind fun a => (ih (as ++ [a])).bind fun bs => .pure fun s h hs => ?_
    rwa [List.append_cons]

/-- Here the invariant is also about what is kept so far, and the errors. -/
lemma retain {I : List γ → List γ → List κ → σ → CallLog ε ρ → Prop}
    (hbody : ∀ x xs kept errors, Contract G (I (x :: xs) kept errors) (body x)
      (Outcome (fun _ => I xs kept errors) fun e => I xs (kept ++ [x]) (errors ++ [e])))
    (xs kept : List γ) (errors : List κ) :
    Contract G (I xs kept errors) (Prog.retain body xs) fun result =>
      I [] (kept ++ result.1) (errors ++ result.2) := by
  induction xs generalizing kept errors with
  | nil => exact .pure fun _ _ h => by rwa [List.append_nil, List.append_nil]
  | cons x xs ih =>
    refine (hbody x xs kept errors).bind fun result => ?_
    match result with
    | .ok () => exact (ih kept errors).bind fun result => .pure fun _ _ h => h
    | .error e =>
      refine (ih (kept ++ [x]) (errors ++ [e])).bind fun result => .pure fun _ _ h => ?_
      rwa [List.append_cons, List.append_cons errors]

end Contract

/-! ## Accounts

Calls acquire and give up things. What is held is what was acquired and has not been given up.
-/

section Accounts

variable {R : Type} [DecidableEq R] {gain loss : (Σ e, ρ e) → Option R}

/-- The list has what the calls have acquired and not given up, as often. -/
def Accounts (gain loss : (Σ e, ρ e) → Option R) (held : List R) (h : CallLog ε ρ) : Prop :=
  ∀ x, held.count x + (h.filterMap loss).count x = (h.filterMap gain).count x

namespace Accounts

variable {held held' : List R} {h : CallLog ε ρ} {call : Σ e, ρ e} {x : R}

lemma congr (ha : Accounts gain loss held h) (hcount : ∀ x, held'.count x = held.count x) :
    Accounts gain loss held' h := by
  intro x
  rw [hcount x]
  exact ha x

lemma idle (ha : Accounts gain loss held h) (hgain : gain call = none)
    (hloss : loss call = none) : Accounts gain loss held (h ++ [call]) := by
  intro x
  simpa [List.filterMap_append, hgain, hloss] using ha x

lemma gains (ha : Accounts gain loss held h) (hgain : gain call = some x)
    (hloss : loss call = none) : Accounts gain loss (held ++ [x]) (h ++ [call]) := by
  intro y
  have := ha y
  simp only [List.filterMap_append, List.filterMap_cons, hgain, hloss, List.filterMap_nil,
    List.count_append, List.count_nil]
  omega

lemma loses (ha : Accounts gain loss (x :: held) h) (hgain : gain call = none)
    (hloss : loss call = some x) : Accounts gain loss held (h ++ [call]) := by
  intro y
  have := ha y
  simp only [List.filterMap_append, List.filterMap_cons, hgain, hloss, List.filterMap_nil,
    List.count_append, List.count_nil, List.count_cons] at this ⊢
  omega

end Accounts

end Accounts

/-! ## Loops over distinct elements

A loop whose rounds keep to their elements does to each of them what its round does. `view x` is
what of the state belongs to `x`, and `mentions x` says which calls are for it.
-/

section Each

variable {V : Type} {view : γ → σ → V} {mentions : γ → ε → Bool}
  {D : γ → V → V → CallLog ε ρ → α → Prop}

/-- The calls that are for an element. -/
def CallLog.about (mentions : γ → ε → Bool) (x : γ) (h : CallLog ε ρ) : CallLog ε ρ :=
  h.filter fun call => mentions x call.1

variable {x : γ}

@[simp] lemma CallLog.about_append {h h' : CallLog ε ρ} :
    (h ++ h').about mentions x = h.about mentions x ++ h'.about mentions x :=
  List.filter_append ..

/-- What is only told by calls for an element is told by the calls for it. -/
lemma CallLog.last_about {f : (Σ e, ρ e) → Option β} {h : CallLog ε ρ}
    (hf : ∀ call, f call ≠ none → mentions x call.1) : (h.about mentions x).last f = h.last f := by
  unfold CallLog.last CallLog.about
  rw [List.filterMap_filter]
  congr 2
  funext call
  by_cases hcall : f call = none
  · simp [hcall]
  · simp [hf call hcall]

/-- With the calls of `new` and from `s` to `s'`, nothing happens to an element. -/
structure Spares (view : γ → σ → V) (mentions : γ → ε → Bool) (s s' : σ) (new : CallLog ε ρ)
    (x : γ) : Prop where
  view : view x s' = view x s
  quiet : new.about mentions x = []

lemma Spares.refl : Spares view mentions s s ([] : CallLog ε ρ) x := ⟨rfl, rfl⟩

lemma Spares.trans {s s' s'' : σ} {new new' : CallLog ε ρ} (h : Spares view mentions s s' new x)
    (h' : Spares view mentions s' s'' new' x) : Spares view mentions s s'' (new ++ new') x := by
  refine ⟨h'.view.trans h.view, ?_⟩
  rw [CallLog.about_append, h.quiet, h'.quiet, List.append_nil]

lemma Contract.collectEach {G : CallLog ε ρ → ε → Prop} {body : γ → Prog L σ ε ρ α}
    (hbody : ∀ x s₀ h₀, Contract G (fun s h => s = s₀ ∧ h = h₀) (body x) fun a s h =>
      ∃ new, h = h₀ ++ new ∧ D x (view x s₀) (view x s) (new.about mentions x) a ∧
        ∀ y, y ≠ x → Spares view mentions s₀ s new y)
    {xs : List γ} (hxs : xs.Nodup) (s₀ : σ) (h₀ : CallLog ε ρ) :
    Contract G (fun s h => s = s₀ ∧ h = h₀) (Prog.collect body xs) fun as s h =>
      ∃ new, h = h₀ ++ new ∧
        (∀ x ∈ xs, ∃ a ∈ as, D x (view x s₀) (view x s) (new.about mentions x) a) ∧
        ∀ y, y ∉ xs → Spares view mentions s₀ s new y := by
  induction xs generalizing s₀ h₀ with
  | nil =>
    refine .pure ?_
    rintro s h ⟨rfl, rfl⟩
    exact ⟨[], (List.append_nil _).symm, nofun, fun y _ => .refl⟩
  | cons x xs ih =>
    obtain ⟨hx, hxs⟩ := List.nodup_cons.mp hxs
    refine (hbody x s₀ h₀).bind fun a => ?_
    rintro s₁ h₁ ⟨new₁, rfl, hD, hother⟩
    refine ((ih hxs s₁ (h₀ ++ new₁)).bind fun as => ?_) s₁ (h₀ ++ new₁) ⟨rfl, rfl⟩
    refine .pure ?_
    rintro s h ⟨new₂, rfl, hlater, hrest⟩
    refine ⟨new₁ ++ new₂, List.append_assoc .., fun y hy => ?_, fun y hy => ?_⟩
    · rcases List.mem_cons.mp hy with rfl | hy
      · refine ⟨a, List.mem_cons_self, ?_⟩
        rw [(hrest y hx).view, CallLog.about_append, (hrest y hx).quiet, List.append_nil]
        exact hD
      · -- the first round was for another element
        obtain ⟨b, hb, hDb⟩ := hlater y hy
        have hspared := hother y (ne_of_mem_of_not_mem hy hx)
        refine ⟨b, List.mem_cons_of_mem a hb, ?_⟩
        rwa [CallLog.about_append, hspared.quiet, List.nil_append, ← hspared.view]
    · exact (hother y (List.ne_of_not_mem_cons hy)).trans
        (hrest y (List.not_mem_of_not_mem_cons hy))

end Each

end Fluxpeer.Lib
