import Mathlib.Logic.Basic

/-!
# Loops that may fail to return

`whileFuel` runs the body of a loop for at most `fuel` rounds. Running out of rounds is
reported as `none`, never as a state, so a caller cannot mistake an unfinished loop for a
finished one. When the loop test reads a machine word that the body advances, a fuel of one
round per word value decides termination exactly.

The main proof rule is `whileFuel_spec`: an invariant together with a measure that every
round lowers. It yields the result, not just a property of results. What a loop leaves alone
when it returns needs no measure: `whileFuel_inv`.
-/

namespace Fluxpeer.Lib

variable {σ : Type*} {test : σ → Bool} {body : σ → σ}

/-- Run `body` while `test` holds, for at most `fuel` rounds. -/
def whileFuel (test : σ → Bool) (body : σ → σ) : Nat → σ → Option σ
  | 0, s => if test s then none else some s
  | fuel + 1, s => if test s then whileFuel test body fuel (body s) else some s

/-- Total correctness: the body keeps an invariant while a measure falls, and the invariant
gives the postcondition on exit. -/
lemma whileFuel_spec {post : σ → Prop} (I : σ → Prop) (measure : σ → Nat)
    (keep : ∀ s, I s → test s = true → I (body s) ∧ measure (body s) < measure s)
    (exit : ∀ s, I s → test s = false → post s) {fuel : Nat} {s : σ} (hs : I s)
    (enough : measure s ≤ fuel) : ∃ t, whileFuel test body fuel s = some t ∧ post t := by
  induction fuel generalizing s with
  | zero =>
    cases hq : test s with
    | false => exact ⟨s, by simp [whileFuel, hq], exit s hs hq⟩
    | true =>
      have := (keep s hs hq).2
      omega
  | succ fuel ih =>
    cases hq : test s with
    | false => exact ⟨s, by simp [whileFuel, hq], exit s hs hq⟩
    | true =>
      obtain ⟨inv, lower⟩ := keep s hs hq
      obtain ⟨t, ht, hpost⟩ := ih inv (by omega)
      exact ⟨t, by simpa [whileFuel, hq] using ht, hpost⟩

/-- What every round keeps, a loop that returns keeps. -/
lemma whileFuel_inv (I : σ → Prop) {fuel : Nat} {s t : σ}
    (ht : whileFuel test body fuel s = some t) (hs : I s) (keep : ∀ s, I s → I (body s)) : I t := by
  induction fuel generalizing s with
  | zero =>
    simp only [whileFuel] at ht
    split at ht
    · cases ht
    · cases ht
      exact hs
  | succ fuel ih =>
    simp only [whileFuel] at ht
    split at ht
    · exact ih ht (keep s hs)
    · cases ht
      exact hs

end Fluxpeer.Lib
