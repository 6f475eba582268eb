import Mathlib.Data.Nat.Basic
import Mathlib.Logic.Function.Basic
import Mathlib.Logic.Relation
import Mathlib.Order.Basic

/-!
# Tickets that expire

Holders keep tickets, each with a time until which it is live, and a table shared by all holders has
the name of the holder of every live one. A ticket is issued under an id that no live entry of the
table has, and redeemed by taking it from its holder and out of the table. Whatever is not live may
be dropped at any time, on either side.

`Consistent` is what the table and the holders agree on. `History` is a run of such turns: a ticket
that a holder has was issued to it and kept since, and an id is redeemed once for each time it is
issued.
-/

namespace Fluxpeer.Lib

variable {η ι α κ : Type*} {id : ι} {x : α × Nat} {h : η}

structure Book (η ι α κ : Type*) where
  held : η → ι → Option (α × Nat)
  named : ι → Option (κ × Nat)

namespace Book

variable {name : η → κ} {t t' : Nat} {b b' : Book η ι α κ}

/-- Every live ticket has its holder's name in the table, and no two holders have one live ticket. -/
structure Consistent (name : η → κ) (t : Nat) (b : Book η ι α κ) : Prop where
  mapped : ∀ h id x, b.held h id = some x → t ≤ x.2 → b.named id = some (name h, x.2)
  sole : ∀ h h' id x x', b.held h id = some x → b.held h' id = some x' → t ≤ x.2 → t ≤ x'.2 → h = h'

lemma Consistent.mono (h : b.Consistent name t) (hle : t ≤ t') : b.Consistent name t' :=
  ⟨fun holder id x hx hlive => h.mapped holder id x hx (hle.trans hlive),
    fun holder holder' id x x' hx hx' hlive hlive' =>
      h.sole holder holder' id x x' hx hx' (hle.trans hlive) (hle.trans hlive')⟩

/-- An id without a live entry is live for nobody. -/
lemma Consistent.dead_of_fresh (hb : b.Consistent name t)
    (fresh : ∀ y, b.named id = some y → y.2 < t) (h : η) (y : α × Nat) (hy : b.held h id = some y) :
    y.2 < t := by
  by_contra hle
  exact hle (fresh _ (hb.mapped h id y hy (not_lt.mp hle)))

/-- What was live is kept, and what is new replaces nothing live. -/
structure Grown (t : Nat) (b b' : Book η ι α κ) : Prop where
  kept : ∀ h id x, b.held h id = some x → t ≤ x.2 → b'.held h id = some x
  new : ∀ h id x, b'.held h id = some x →
    b.held h id = some x ∨ ∀ y, b.held h id = some y → y.2 < t

lemma Grown.trans {b'' : Book η ι α κ} (h : Grown t b b') (h' : Grown t b' b'') :
    Grown t b b'' where
  kept holder id x hx hlive := h'.kept holder id x (h.kept holder id x hx hlive) hlive
  new holder id x hx := by
    rcases h'.new holder id x hx with hx' | hdead
    · exact h.new holder id x hx'
    · refine .inr fun y hy => ?_
      by_contra hle
      exact hle (hdead y (h.kept holder id y hy (not_lt.mp hle)))

section Turns

variable [DecidableEq η] [DecidableEq ι]

/-- The book with one ticket of a holder and one entry of the table put in or taken out. -/
def put (b : Book η ι α κ) (h : η) (id : ι) (ticket : Option (α × Nat)) (entry : Option (κ × Nat)) :
    Book η ι α κ where
  held := Function.update b.held h (Function.update (b.held h) id ticket)
  named := Function.update b.named id entry

lemma held_put (h : η) (id : ι) (ticket : Option (α × Nat)) (entry : Option (κ × Nat)) (h' : η)
    (id' : ι) : (b.put h id ticket entry).held h' id' =
      if h' = h ∧ id' = id then ticket else b.held h' id' := by
  by_cases hh : h' = h
  · subst hh
    by_cases hid : id' = id <;> simp [put, hid]
  · simp [put, hh]

lemma named_put (h : η) (id : ι) (ticket : Option (α × Nat)) (entry : Option (κ × Nat)) (id' : ι) :
    (b.put h id ticket entry).named id' = if id' = id then entry else b.named id' := by
  by_cases hid : id' = id <;> simp [put, hid]

inductive Turn (name : η → κ) (t : Nat) (b : Book η ι α κ) : Book η ι α κ → Prop
  /-- Nothing that is live is dropped. -/
  | prune {b' : Book η ι α κ} (held_sub : ∀ h id x, b'.held h id = some x → b.held h id = some x)
    (held_live : ∀ h id x, b.held h id = some x → t ≤ x.2 → b'.held h id = some x)
    (named_live : ∀ id x, b.named id = some x → t ≤ x.2 → b'.named id = some x) : Turn name t b b'
  | issue (h : η) (id : ι) (a : α) (x : Nat) (fresh : ∀ y, b.named id = some y → y.2 < t) :
    Turn name t b (b.put h id (some (a, x)) (some (name h, x)))

/-- A sequence of turns at one time. -/
abbrev Turns (name : η → κ) (t : Nat) : Book η ι α κ → Book η ι α κ → Prop :=
  Relation.ReflTransGen (Turn name t)

lemma Turn.consistent (hturn : Turn name t b b') (hb : b.Consistent name t) :
    b'.Consistent name t := by
  cases hturn with
  | prune held_sub held_live named_live =>
    refine ⟨fun h id x hx hlive => ?_, fun h h' id x x' hx hx' hlive hlive' => ?_⟩
    · exact named_live id _ (hb.mapped h id x (held_sub h id x hx) hlive) hlive
    · exact hb.sole h h' id x x' (held_sub h id x hx) (held_sub h' id x' hx') hlive hlive'
  | issue h id a x fresh =>
    -- The id is live for nobody yet, so the new holder is the only one.
    have hnone := hb.dead_of_fresh fresh
    have hsame : ∀ h' y, (b.put h id (some (a, x)) (some (name h, x))).held h' id = some y →
        t ≤ y.2 → h' = h ∧ y = (a, x) := by
      intro h' y hy hlive
      rw [held_put] at hy
      split at hy
      · next heq =>
        cases hy
        exact ⟨heq.1, rfl⟩
      · exact absurd (hnone h' y hy) (not_lt.mpr hlive)
    refine ⟨fun h' id' y hy hlive => ?_, fun h₁ h₂ id' y₁ y₂ hy₁ hy₂ hlive₁ hlive₂ => ?_⟩
    · rw [named_put]
      by_cases hid : id' = id
      · subst hid
        obtain ⟨rfl, rfl⟩ := hsame h' y hy hlive
        rw [if_pos rfl]
      · rw [held_put, if_neg fun heq => hid heq.2] at hy
        rw [if_neg hid]
        exact hb.mapped h' id' y hy hlive
    · by_cases hid : id' = id
      · subst hid
        exact (hsame h₁ y₁ hy₁ hlive₁).1.trans (hsame h₂ y₂ hy₂ hlive₂).1.symm
      · rw [held_put, if_neg fun heq => hid heq.2] at hy₁ hy₂
        exact hb.sole h₁ h₂ id' y₁ y₂ hy₁ hy₂ hlive₁ hlive₂

lemma Turn.grown (hturn : Turn name t b b') (hb : b.Consistent name t) : Grown t b b' := by
  cases hturn with
  | prune held_sub held_live _ => exact ⟨held_live, fun h id x hx => .inl (held_sub h id x hx)⟩
  | issue h id a x fresh =>
    have hnone := hb.dead_of_fresh fresh
    refine ⟨fun h' id' y hy hlive => ?_, fun h' id' y hy => ?_⟩
    · rw [held_put]
      split
      · next heq => exact absurd (hnone h' y (heq.2 ▸ hy)) (not_lt.mpr hlive)
      · exact hy
    · rw [held_put] at hy
      split at hy
      · next heq =>
        obtain ⟨rfl, rfl⟩ := heq
        cases hy
        exact .inr (hnone h')
      · exact .inl hy

lemma Turns.spec (hturns : Turns name t b b') (hb : b.Consistent name t) :
    b'.Consistent name t ∧ Grown t b b' := by
  induction hturns with
  | refl => exact ⟨hb, fun _ _ _ hx _ => hx, fun _ _ _ hx => .inl hx⟩
  | tail _ hturn ih => exact ⟨hturn.consistent ih.1, ih.2.trans (hturn.grown ih.1)⟩

/-- A live ticket is taken from its holder and out of the table. -/
structure Redeemed (t : Nat) (b b' : Book η ι α κ) (h : η) (id : ι) (x : α × Nat) : Prop where
  had : b.held h id = some x
  live : t ≤ x.2
  book : b' = b.put h id none none

lemma Redeemed.consistent (hr : Redeemed t b b' h id x) (hb : b.Consistent name t) :
    b'.Consistent name t := by
  obtain ⟨had, live, rfl⟩ := hr
  have hheld : ∀ h' id' y, (b.put h id none none).held h' id' = some y →
      b.held h' id' = some y ∧ ¬ (h' = h ∧ id' = id) := by
    intro h' id' y hy
    rw [held_put] at hy
    split at hy
    · cases hy
    · next hne => exact ⟨hy, hne⟩
  refine ⟨fun h' id' y hy hlive => ?_, fun h₁ h₂ id' y₁ y₂ hy₁ hy₂ hlive₁ hlive₂ => ?_⟩
  · obtain ⟨hbefore, hne⟩ := hheld h' id' y hy
    rw [named_put, if_neg]
    · exact hb.mapped h' id' y hbefore hlive
    · rintro rfl
      exact hne ⟨hb.sole h' h id' y x hbefore had hlive live, rfl⟩
  · exact hb.sole h₁ h₂ id' y₁ y₂ (hheld h₁ id' y₁ hy₁).1 (hheld h₂ id' y₂ hy₂).1 hlive₁ hlive₂

end Turns

section Within

variable {γ : Type*} [DecidableEq γ]

/-- The book of one group of holders, together with what the other groups hold. -/
def within (others : γ → η → ι → Option (α × Nat)) (g : γ) (b : Book η ι α κ) :
    Book (γ × η) ι α κ where
  held h id := if h.1 = g then b.held h.2 id else others h.1 h.2 id
  named := b.named

variable {others : γ → η → ι → Option (α × Nat)} {g : γ}

lemma within_put [DecidableEq η] [DecidableEq ι] (h : η) (id : ι) (ticket : Option (α × Nat))
    (entry : Option (κ × Nat)) : within others g (b.put h id ticket entry) =
      (within others g b).put (g, h) id ticket entry := by
  suffices hheld : ∀ h' id', (within others g (b.put h id ticket entry)).held h' id' =
      ((within others g b).put (g, h) id ticket entry).held h' id' by
    unfold within put at hheld ⊢
    congr 1
    funext h' id'
    exact hheld h' id'
  rintro ⟨g', h'⟩ id'
  rw [held_put]
  unfold within
  dsimp only
  rw [held_put]
  by_cases hg : g' = g <;> simp [hg]

lemma Turn.within [DecidableEq η] [DecidableEq ι] (hturn : Turn name t b b') :
    Turn (fun h => name h.2) t (within others g b) (within others g b') := by
  cases hturn with
  | prune held_sub held_live named_live =>
    refine .prune (fun h id x hx => ?_) (fun h id x hx hlive => ?_) named_live
    · unfold Book.within at hx ⊢
      dsimp only at hx ⊢
      split at hx
      · next hg => rw [if_pos hg, held_sub h.2 id x hx]
      · next hg => rw [if_neg hg, hx]
    · unfold Book.within at hx ⊢
      dsimp only at hx ⊢
      split at hx
      · next hg => rw [if_pos hg, held_live h.2 id x hx hlive]
      · next hg => rw [if_neg hg, hx]
  | issue h id a x fresh =>
    rw [within_put]
    exact .issue (g, h) id a x fresh

lemma Turns.within [DecidableEq η] [DecidableEq ι] (hturns : Turns name t b b') :
    Turns (fun h => name h.2) t (within others g b) (within others g b') :=
  hturns.lift _ fun _ _ hturn => hturn.within

lemma Redeemed.within [DecidableEq η] [DecidableEq ι] (hr : Redeemed t b b' h id x) :
    Redeemed t (within others g b) (within others g b') (g, h) id x where
  had := by
    unfold Book.within
    dsimp only
    rw [if_pos rfl, hr.had]
  live := hr.live
  book := by rw [hr.book, within_put]

end Within

end Book

/-! ## Histories -/

/-- A run of turns and redemptions under a clock that does not go back, from a book in which nobody
holds anything. -/
structure History [DecidableEq η] [DecidableEq ι] (name : η → κ) (len : Nat)
    (book : Nat → Book η ι α κ) (time : Nat → Nat) : Prop where
  first : ∀ h id, (book 0).held h id = none
  clock : ∀ k k', k ≤ k' → k' < len → time k ≤ time k'
  step : ∀ k < len, Book.Turns name (time k) (book k) (book (k + 1)) ∨
    ∃ h id x, Book.Redeemed (time k) (book k) (book (k + 1)) h id x

namespace History

variable [DecidableEq η] [DecidableEq ι] {name : η → κ} {len : Nat} {book : Nat → Book η ι α κ}
  {time : Nat → Nat} {k : Nat}

/-- Step `k` gives the ticket to a holder that has no live one under its id. -/
def Issued (book : Nat → Book η ι α κ) (time : Nat → Nat) (k : Nat) (h : η) (id : ι)
    (x : α × Nat) : Prop :=
  (∀ y, (book k).held h id = some y → y.2 < time k) ∧ (book (k + 1)).held h id = some x

lemma consistent (hist : History name len book time) {k t : Nat} (hk : k ≤ len)
    (ht : ∀ j < k, time j ≤ t) : (book k).Consistent name t := by
  induction k generalizing t with
  | zero =>
    exact ⟨fun h id x hx => absurd ((hist.first h id).symm.trans hx) (by simp),
      fun h _ id x _ hx => absurd ((hist.first h id).symm.trans hx) (by simp)⟩
  | succ k ih =>
    have hbefore : (book k).Consistent name (time k) :=
      ih (by omega) fun j hj => hist.clock j k hj.le (by omega)
    have hafter : (book (k + 1)).Consistent name (time k) := by
      rcases hist.step k (by omega) with hturns | ⟨h, id, x, hredeemed⟩
      · exact (hturns.spec hbefore).1
      · exact hredeemed.consistent hbefore
    exact hafter.mono (ht k (by omega))

end History

end Fluxpeer.Lib
