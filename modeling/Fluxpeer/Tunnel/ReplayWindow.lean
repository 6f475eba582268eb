import Fluxpeer.Crypto.Primitives
import Fluxpeer.Lib.Loop
import Mathlib.Data.List.Nodup
import Mathlib.Data.Nat.Bitwise

/-!
# The replay window of a session

`ReceivingKeyCounterValidator` remembers received counters in a ring of 1024 bits. A jump
ahead clears the bits of the skipped counters in three loops: bit by bit up to a word
boundary, word by word, and bit by bit again.

Counters are 64-bit words and their arithmetic wraps, as it does in a release build. A loop
whose index wraps past its bound may never stop; `markDidReceive` is `none` in that case.

The bitmap is read through `bit`, which says for a counter whether the bit it falls on is set.
`Tracks` ties those bits to the counters accepted so far, and one step of `markDidReceive`
keeps it.
-/

namespace Fluxpeer.Tunnel

open Lib Crypto

def wordSize : UInt64 := 64

def nWords : Nat := 16

def nBits : UInt64 := 1024

structure ReceivingKeyCounterValidator where
  next : UInt64
  receiveCnt : UInt64
  bitmap : Vector UInt64 nWords
deriving DecidableEq, Repr

namespace ReceivingKeyCounterValidator

/-- `Default::default()`. -/
def default : ReceivingKeyCounterValidator := ⟨0, 0, Vector.replicate nWords 0⟩

/-- The word of the ring that a counter falls into. -/
def word (idx : UInt64) : Fin nWords :=
  ⟨(idx % nBits / wordSize).toNat, by
    have : idx.toNat % 1024 / 64 < 16 := by omega
    simpa [nBits, wordSize, nWords] using this⟩

/-- Its place in that word. -/
def offset (idx : UInt64) : UInt64 := idx % nBits % wordSize

variable (v : ReceivingKeyCounterValidator)

def setBit (idx : UInt64) : ReceivingKeyCounterValidator :=
  { v with bitmap := v.bitmap.set (word idx) (v.bitmap[word idx] ||| 1 <<< offset idx) }

def clearBit (idx : UInt64) : ReceivingKeyCounterValidator :=
  { v with bitmap := v.bitmap.set (word idx) (v.bitmap[word idx] &&& ~~~(1 <<< offset idx)) }

def clearWord (idx : UInt64) : ReceivingKeyCounterValidator :=
  { v with bitmap := v.bitmap.set (word idx) 0 }

def checkBit (idx : UInt64) : Bool :=
  (v.bitmap[word idx] >>> offset idx) &&& 1 == 1

def clearAll : ReceivingKeyCounterValidator :=
  { v with bitmap := Vector.replicate nWords 0 }

def willAccept (counter : UInt64) : Except Error Unit :=
  if counter ≥ v.next then .ok ()
  else if counter + nBits < v.next then .error .invalidCounter
  else if !v.checkBit counter then .ok ()
  else .error .duplicateCounter

/-- The rounds after which a loop over a 64-bit index has repeated a state. -/
def rounds : Nat := 2 ^ 64

/-- Clear single bits until the index is a multiple of the word size. -/
def clearUntilAligned (counter : UInt64) :
    UInt64 × ReceivingKeyCounterValidator → Option (UInt64 × ReceivingKeyCounterValidator) :=
  whileFuel (fun s => s.1 % wordSize != 0 && s.1 < counter)
    (fun s => (s.1 + 1, s.2.clearBit s.1)) rounds

def clearWords (counter : UInt64) :
    UInt64 × ReceivingKeyCounterValidator → Option (UInt64 × ReceivingKeyCounterValidator) :=
  whileFuel (fun s => s.1 + wordSize < counter)
    (fun s => ((s.1 + wordSize) &&& (0 - wordSize), s.2.clearWord s.1)) rounds

def clearRest (counter : UInt64) :
    UInt64 × ReceivingKeyCounterValidator → Option (UInt64 × ReceivingKeyCounterValidator) :=
  whileFuel (fun s => s.1 < counter) (fun s => (s.1 + 1, s.2.clearBit s.1)) rounds

/-- The bits of the counters skipped by a jump to `counter`, cleared. -/
def clearSkipped (counter : UInt64) : Option ReceivingKeyCounterValidator :=
  if counter - v.next ≥ nBits then some v.clearAll
  else do
    let s ← clearUntilAligned counter (v.next, v)
    let s ← clearWords counter s
    let s ← clearRest counter s
    some s.2

def markDidReceive (counter : UInt64) :
    Option (ReceivingKeyCounterValidator × Except Error Unit) :=
  if counter + nBits < v.next then some (v, .error .invalidCounter)
  else if counter = v.next then
    some ({ v.setBit counter with next := v.next + 1 }, .ok ())
  else if counter < v.next then
    if v.checkBit counter then some (v, .error .invalidCounter)
    else some (v.setBit counter, .ok ())
  else do
    let v ← v.clearSkipped counter
    some ({ v.setBit counter with next := counter + 1 }, .ok ())

/-! ## Reading the ring -/

/-- The bit that stands for counter `k`. -/
def bit (k : Nat) : Bool :=
  (v.bitmap[(⟨k % 1024 / 64, by unfold nWords; omega⟩ : Fin nWords)]).toBitVec.getLsbD (k % 64)

variable {v} {w : ReceivingKeyCounterValidator}

lemma word_val (idx : UInt64) : (word idx : Nat) = idx.toNat % 1024 / 64 := by
  simp [word, nBits, wordSize]

lemma toNat_offset (idx : UInt64) : (offset idx).toNat = idx.toNat % 64 := by
  simp [offset, nBits, wordSize]

/-- The mask of a counter has one bit, at the counter's offset. -/
lemma getLsbD_mask (idx : UInt64) (k : Nat) :
    ((1 : UInt64) <<< offset idx).toBitVec.getLsbD (k % 64) =
      decide (k % 64 = idx.toNat % 64) := by
  have hlt : k % 64 < 64 := by omega
  have hmask : ((1 : UInt64) <<< offset idx).toBitVec.getLsbD (k % 64) = true ↔
      idx.toNat % 64 ≤ k % 64 ∧ k % 64 - idx.toNat % 64 = 0 := by
    simp [UInt64.toBitVec_shiftLeft, hlt, toNat_offset]
  rw [Bool.eq_iff_iff, hmask, decide_eq_true_eq]
  omega

lemma bit_setBit (idx : UInt64) (k : Nat) :
    (v.setBit idx).bit k = (decide (k % 1024 = idx.toNat % 1024) || v.bit k) := by
  have hw := word_val idx
  unfold bit setBit
  simp only [Fin.getElem_fin, Vector.getElem_set]
  split
  · next h =>
    have hsame : k % 64 = idx.toNat % 64 ↔ k % 1024 = idx.toNat % 1024 := by omega
    simp only [UInt64.toBitVec_or, BitVec.getLsbD_or, getLsbD_mask, hsame, Bool.or_comm, h]
  · next h =>
    have : k % 1024 ≠ idx.toNat % 1024 := by omega
    simp [this]

lemma bit_clearBit (idx : UInt64) (k : Nat) :
    (v.clearBit idx).bit k = (decide (k % 1024 ≠ idx.toNat % 1024) && v.bit k) := by
  have hw := word_val idx
  unfold bit clearBit
  simp only [Fin.getElem_fin, Vector.getElem_set]
  split
  · next h =>
    have hsame : k % 64 = idx.toNat % 64 ↔ k % 1024 = idx.toNat % 1024 := by omega
    have hlt : k % 64 < 64 := by omega
    simp only [UInt64.toBitVec_and, UInt64.toBitVec_not, BitVec.getLsbD_and, BitVec.getLsbD_not,
      getLsbD_mask, hsame, hlt, h, decide_true, Bool.true_and, decide_not, Bool.and_comm]
  · next h =>
    have : k % 1024 ≠ idx.toNat % 1024 := by omega
    simp [this]

lemma bit_clearWord (idx : UInt64) (k : Nat) :
    (v.clearWord idx).bit k = (decide (k % 1024 / 64 ≠ idx.toNat % 1024 / 64) && v.bit k) := by
  have hw := word_val idx
  unfold bit clearWord
  simp only [Fin.getElem_fin, Vector.getElem_set]
  split
  · next h => simp [← h, hw]
  · next h => simp [← hw, Ne.symm h]

lemma bit_clearAll (k : Nat) : v.clearAll.bit k = false := by
  simp [bit, clearAll]

lemma and_one_eq_one (x : UInt64) : x &&& 1 = 1 ↔ x.toBitVec.getLsbD 0 = true := by
  rw [← UInt64.toBitVec_inj, UInt64.toBitVec_and, UInt64.toBitVec_one,
    BitVec.and_one_eq_setWidth_ofBool_getLsbD]
  cases x.toBitVec.getLsbD 0 <;> decide

lemma checkBit_eq (idx : UInt64) : v.checkBit idx = v.bit idx.toNat := by
  unfold checkBit bit
  rw [Bool.eq_iff_iff, beq_iff_eq, and_one_eq_one]
  simp [UInt64.toBitVec_shiftRight, toNat_offset, word_val]

/-! ## Clearing the skipped counters -/

/-- The clearing loops have come from `start` to `i` on their way to `counter`: the counters
behind `i` are cleared, and those that stay in the window are as they were. -/
structure Clearing (old : ReceivingKeyCounterValidator) (start counter : Nat) (i : UInt64)
    (v : ReceivingKeyCounterValidator) : Prop where
  low : start ≤ i.toNat
  high : i.toNat ≤ counter
  cleared : ∀ k, start ≤ k → k < i.toNat → v.bit k = false
  kept : ∀ k, k < start → counter < k + 1024 → v.bit k = old.bit k

lemma toNat_add_one {i : UInt64} {n : Nat} (hi : i.toNat < n) (hn : n < 2 ^ 64) :
    (i + 1).toNat = i.toNat + 1 := by
  rw [UInt64.toNat_add, UInt64.toNat_one]
  omega

lemma toNat_add_wordSize {i : UInt64} (hi : i.toNat + 64 < 2 ^ 64) :
    (i + wordSize).toNat = i.toNat + 64 := by
  rw [UInt64.toNat_add, show wordSize.toNat = 64 from rfl]
  omega

lemma toNat_add_nBits {c : UInt64} (hc : c.toNat + 1024 < 2 ^ 64) :
    (c + nBits).toNat = c.toNat + 1024 := by
  rw [UInt64.toNat_add, show nBits.toNat = 1024 from rfl]
  omega

/-- Rounding down to a word boundary keeps an index that is on one. -/
lemma and_wordMask {i : UInt64} (hi : i.toNat % 64 = 0) : i &&& (0 - wordSize) = i := by
  have hmask : ((0 : UInt64) - wordSize).toNat = 2 ^ 64 - 64 := by decide
  apply UInt64.toNat_inj.mp
  rw [UInt64.toNat_and, hmask]
  have hlow : i.toNat = (i.toNat / 64) <<< 6 := by
    rw [Nat.shiftLeft_eq]
    omega
  have hhigh : 2 ^ 64 - 64 = (2 ^ 58 - 1) <<< 6 := by decide
  have hlt : i.toNat / 64 < 2 ^ 58 := by
    have := i.toNat_lt
    omega
  rw [hlow, hhigh, ← Nat.shiftLeft_and_distrib,
    Nat.and_two_pow_sub_one_of_lt_two_pow hlt]

section Clearing

variable {old : ReceivingKeyCounterValidator} {start counter : Nat} {i : UInt64}

lemma Clearing.clearBit (h : Clearing old start counter i v) (hi : i.toNat < counter)
    (hmax : counter < 2 ^ 64) (hspan : counter < start + 1024) :
    Clearing old start counter (i + 1) (v.clearBit i) := by
  have hsucc := toNat_add_one hi hmax
  have hlow := h.low
  refine ⟨by omega, by omega, ?_, ?_⟩
  · intro k hk hlt
    rw [hsucc] at hlt
    rw [bit_clearBit]
    obtain hlt | rfl := Nat.lt_succ_iff_lt_or_eq.mp hlt
    · simp [h.cleared k hk hlt]
    · simp
  · intro k hk hwin
    have hne : k % 1024 ≠ i.toNat % 1024 := by omega
    simpa [bit_clearBit, hne] using h.kept k hk hwin

lemma Clearing.clearWord (h : Clearing old start counter i v) (halign : i.toNat % 64 = 0)
    (hi : i.toNat + 64 < counter) (hmax : counter < 2 ^ 64) (hspan : counter < start + 1024) :
    Clearing old start counter (i + wordSize) (v.clearWord i) := by
  have hadd := toNat_add_wordSize (i := i) (by omega)
  have hlow := h.low
  refine ⟨by omega, by omega, ?_, ?_⟩
  · intro k hk hlt
    rw [bit_clearWord]
    by_cases hki : k < i.toNat
    · simp [h.cleared k hk hki]
    · have : k % 1024 / 64 = i.toNat % 1024 / 64 := by omega
      simp [this]
  · intro k hk hwin
    have hne : k % 1024 / 64 ≠ i.toNat % 1024 / 64 := by omega
    simpa [bit_clearWord, hne] using h.kept k hk hwin

end Clearing

section Loops

variable {old : ReceivingKeyCounterValidator} {start : Nat} {counter i : UInt64}

lemma clearUntilAligned_spec (h : Clearing old start counter.toNat i v)
    (hspan : counter.toNat < start + 1024) :
    ∃ s, clearUntilAligned counter (i, v) = some s ∧
      Clearing old start counter.toNat s.1 s.2 ∧ (s.1.toNat % 64 = 0 ∨ s.1 = counter) := by
  have hmax := counter.toNat_lt
  refine whileFuel_spec (fun s => Clearing old start counter.toNat s.1 s.2)
    (fun s => counter.toNat - s.1.toNat) ?_ ?_ h (by unfold rounds; omega)
  · rintro ⟨j, w⟩ hs ht
    have hlt : j.toNat < counter.toNat := by
      simp only [Bool.and_eq_true, decide_eq_true_eq] at ht
      exact UInt64.lt_iff_toNat_lt.mp ht.2
    have hsucc := toNat_add_one hlt hmax
    refine ⟨hs.clearBit hlt hmax hspan, ?_⟩
    simp only [hsucc]
    omega
  · rintro ⟨j, w⟩ hs ht
    refine ⟨hs, ?_⟩
    have hle := hs.high
    simp only [Bool.and_eq_false_iff, decide_eq_false_iff_not, UInt64.lt_iff_toNat_lt] at ht
    obtain ht | ht := ht
    · left
      simpa [wordSize, ← UInt64.toNat_inj] using ht
    · right
      exact UInt64.toNat_inj.mp (by simp only at *; omega)

lemma clearWords_spec (h : Clearing old start counter.toNat i v)
    (halign : i.toNat % 64 = 0 ∨ i = counter) (hmax : counter.toNat + 64 < 2 ^ 64)
    (hspan : counter.toNat < start + 1024) :
    ∃ s, clearWords counter (i, v) = some s ∧ Clearing old start counter.toNat s.1 s.2 := by
  refine whileFuel_spec
    (fun s : UInt64 × ReceivingKeyCounterValidator =>
      Clearing old start counter.toNat s.1 s.2 ∧ (s.1.toNat % 64 = 0 ∨ s.1 = counter))
    (fun s => counter.toNat - s.1.toNat) ?_ (fun s hs _ => hs.1) ⟨h, halign⟩
    (by unfold rounds; omega)
  rintro ⟨j, w⟩ ⟨hs, haligned⟩ ht
  have hhigh := hs.high
  have hadd := toNat_add_wordSize (i := j) (by simp only at *; omega)
  have hlt : j.toNat + 64 < counter.toNat := by
    simpa [UInt64.lt_iff_toNat_lt, hadd] using ht
  have hj : j.toNat % 64 = 0 := by
    rcases haligned with hj | rfl
    · exact hj
    · simp only at hlt
      omega
  have hmask : (j + wordSize) &&& (0 - wordSize) = j + wordSize := and_wordMask (by omega)
  simp only [hmask]
  refine ⟨⟨hs.clearWord hj hlt counter.toNat_lt hspan, Or.inl (by omega)⟩, by omega⟩

lemma clearRest_spec (h : Clearing old start counter.toNat i v)
    (hspan : counter.toNat < start + 1024) :
    ∃ s, clearRest counter (i, v) = some s ∧ Clearing old start counter.toNat counter s.2 := by
  have hmax := counter.toNat_lt
  refine whileFuel_spec (fun s => Clearing old start counter.toNat s.1 s.2)
    (fun s => counter.toNat - s.1.toNat) ?_ ?_ h (by unfold rounds; omega)
  · rintro ⟨j, w⟩ hs ht
    have hlt : j.toNat < counter.toNat := UInt64.lt_iff_toNat_lt.mp (of_decide_eq_true ht)
    have hsucc := toNat_add_one hlt hmax
    refine ⟨hs.clearBit hlt hmax hspan, ?_⟩
    simp only [hsucc]
    omega
  · rintro ⟨j, w⟩ hs ht
    have hle := hs.high
    have hge : ¬ j.toNat < counter.toNat := fun hlt =>
      of_decide_eq_false ht (UInt64.lt_iff_toNat_lt.mpr hlt)
    have hj : j = counter := UInt64.toNat_inj.mp (by simp only at *; omega)
    simpa [hj] using hs

/-- A jump ahead clears exactly the skipped counters that stay in the window. -/
lemma clearSkipped_spec (hlt : v.next.toNat < counter.toNat)
    (hmax : counter.toNat + 64 < 2 ^ 64 ∨ v.next.toNat + 1024 ≤ counter.toNat) :
    ∃ w, v.clearSkipped counter = some w ∧
      Clearing v v.next.toNat counter.toNat counter w := by
  have hsub : (counter - v.next).toNat = counter.toNat - v.next.toNat :=
    UInt64.toNat_sub_of_le _ _ (UInt64.le_iff_toNat_le.mpr (by omega))
  unfold clearSkipped
  simp only [ge_iff_le, UInt64.le_iff_toNat_le, hsub, show nBits.toNat = 1024 from rfl]
  split
  · refine ⟨_, rfl, by omega, le_refl _, fun k _ _ => bit_clearAll k, fun k hk hwin => by omega⟩
  have hstart : Clearing v v.next.toNat counter.toNat v.next v :=
    ⟨le_refl _, by omega, fun k _ _ => by omega, fun k _ _ => rfl⟩
  obtain ⟨⟨i₁, v₁⟩, run₁, h₁, align⟩ := clearUntilAligned_spec hstart (by omega)
  obtain ⟨⟨i₂, v₂⟩, run₂, h₂⟩ := clearWords_spec h₁ align (by omega) (by omega)
  obtain ⟨⟨i₃, v₃⟩, run₃, h₃⟩ := clearRest_spec h₂ (by omega)
  exact ⟨v₃, by simp [run₁, run₂, run₃], h₃⟩

end Loops

/-- In any state, a counter below the nonce limit that passes the check made before decryption
is marked. -/
lemma markDidReceive_of_willAccept {counter : UInt64} (hmax : counter.toNat < 2 ^ 48)
    (h : v.willAccept counter = .ok ()) : ∃ w, v.markDidReceive counter = some (w, .ok ()) := by
  have hadd := toNat_add_nBits (c := counter) (by omega)
  unfold willAccept at h
  unfold markDidReceive
  simp only [ge_iff_le, UInt64.le_iff_toNat_le, UInt64.lt_iff_toNat_lt, hadd] at h ⊢
  rcases lt_trichotomy counter.toNat v.next.toNat with hlt | heq | hgt
  · rw [if_neg (by omega)] at h
    by_cases hback : counter.toNat + 1024 < v.next.toNat
    · rw [if_pos hback] at h
      cases h
    rw [if_neg hback] at h
    cases hbit : v.checkBit counter with
    | true =>
      rw [hbit] at h
      cases h
    | false =>
      have hne : counter ≠ v.next := fun hcn => by simp [hcn] at hlt
      exact ⟨_, by rw [if_neg hback, if_neg hne, if_pos hlt, if_neg (by simp)]⟩
  · exact ⟨_, by rw [if_neg (by omega), if_pos (UInt64.toNat_inj.mp heq)]⟩
  · obtain ⟨w, hrun, _⟩ := clearSkipped_spec hgt (.inl (by omega))
    have hne : counter ≠ v.next := fun hcn => by simp [hcn] at hgt
    exact ⟨_, by rw [if_neg (by omega), if_neg hne, if_neg (by omega), hrun]; rfl⟩

/-- No counter makes the clearing loops run past their end. -/
lemma markDidReceive_returns (v : ReceivingKeyCounterValidator) (c : UInt64) :
    ∃ w r, v.markDidReceive c = some (w, r) := by
  unfold markDidReceive
  split
  · exact ⟨_, _, rfl⟩
  next hback =>
  split
  · exact ⟨_, _, rfl⟩
  next hne =>
  split
  · split <;> exact ⟨_, _, rfl⟩
  next hle =>
  rw [UInt64.lt_iff_toNat_lt] at hback hle
  have hgt : v.next.toNat < c.toNat := by
    have : c.toNat ≠ v.next.toNat := fun heq => hne (UInt64.toNat_inj.mp heq)
    omega
  have hmax : c.toNat + 64 < 2 ^ 64 ∨ v.next.toNat + 1024 ≤ c.toNat := by
    rw [UInt64.toNat_add, show nBits.toNat = 1024 from rfl] at hback
    omega
  obtain ⟨w, hrun, -⟩ := clearSkipped_spec hgt hmax
  exact ⟨_, _, by rw [hrun]; rfl⟩

/-- Clearing leaves the count of received packets alone. -/
lemma clearSkipped_receiveCnt {counter : UInt64} (h : v.clearSkipped counter = some w) :
    w.receiveCnt = v.receiveCnt := by
  unfold clearSkipped at h
  split at h
  · cases h
    rfl
  simp only [Option.bind_eq_bind, Option.bind_eq_some_iff, Option.some.injEq] at h
  obtain ⟨s₁, h₁, s₂, h₂, s₃, h₃, rfl⟩ := h
  let Kept : UInt64 × ReceivingKeyCounterValidator → Prop :=
    fun s => s.2.receiveCnt = v.receiveCnt
  unfold clearUntilAligned at h₁
  unfold clearWords at h₂
  unfold clearRest at h₃
  have kept₁ : Kept s₁ := whileFuel_inv Kept h₁ rfl fun _ hs => hs
  have kept₂ : Kept s₂ := whileFuel_inv Kept h₂ kept₁ fun _ hs => hs
  exact whileFuel_inv Kept h₃ kept₂ fun _ hs => hs

/-- A refused counter changes nothing, and marking leaves the count of received packets alone. -/
lemma markDidReceive_cases {counter : UInt64} {r : Except Error Unit}
    (h : v.markDidReceive counter = some (w, r)) :
    (w = v ∧ r = .error .invalidCounter) ∨ (r = .ok () ∧ w.receiveCnt = v.receiveCnt) := by
  unfold markDidReceive at h
  split at h
  · cases h
    exact Or.inl ⟨rfl, rfl⟩
  split at h
  · cases h
    exact Or.inr ⟨rfl, rfl⟩
  split at h
  · split at h
    · cases h
      exact Or.inl ⟨rfl, rfl⟩
    · cases h
      exact Or.inr ⟨rfl, rfl⟩
  · obtain ⟨w', hclear, hrest⟩ := Option.bind_eq_some_iff.mp h
    cases hrest
    have hcount : w'.receiveCnt = v.receiveCnt := clearSkipped_receiveCnt hclear
    exact Or.inr ⟨rfl, hcount⟩

/-! ## The window over whole runs -/

/-- The first counter that was never reached: one past the greatest accepted counter. -/
def windowNext (accepted : List UInt64) : Nat :=
  match (accepted.map UInt64.toNat).max? with
  | none => 0
  | some greatest => greatest + 1

lemma windowNext_cons (c : UInt64) (accepted : List UInt64) :
    windowNext (c :: accepted) = max (c.toNat + 1) (windowNext accepted) := by
  unfold windowNext
  rw [List.map_cons, List.max?_cons]
  cases (accepted.map UInt64.toNat).max? with
  | none => simp
  | some m => simp [Nat.succ_max_succ]

lemma lt_windowNext {c : UInt64} {accepted : List UInt64} (h : c ∈ accepted) :
    c.toNat < windowNext accepted := by
  induction accepted with
  | nil => cases h
  | cons d ds ih =>
    rw [windowNext_cons]
    rcases List.mem_cons.mp h with rfl | h
    · omega
    · have := ih h
      omega

/-- Inside the window the ring holds the accepted counters. -/
structure Mirrors (v : ReceivingKeyCounterValidator) (accepted : List UInt64) : Prop where
  next_eq : v.next.toNat = windowNext accepted
  bit_iff : ∀ c : UInt64, c.toNat < v.next.toNat → v.next.toNat ≤ c.toNat + 1024 →
    (v.bit c.toNat = true ↔ c ∈ accepted)
  nodup : accepted.Nodup

lemma mirrors_default : Mirrors default [] :=
  ⟨rfl, fun _ hc _ => absurd hc (Nat.not_lt_zero _), List.nodup_nil⟩

variable {accepted : List UInt64} {c : UInt64}

namespace Mirrors

/-- Accepting `c` keeps the ring in step, once the ring holds `c` and what was in the window. -/
lemma accept (h : Mirrors v accepted) (hnew : c ∉ accepted)
    (hnext : w.next.toNat = max (c.toNat + 1) v.next.toNat)
    (hbit : ∀ k, k < w.next.toNat → w.next.toNat ≤ k + 1024 →
      (w.bit k = true ↔ k = c.toNat ∨ (k < v.next.toNat ∧ v.bit k = true))) :
    Mirrors w (c :: accepted) := by
  refine ⟨?_, ?_, List.nodup_cons.mpr ⟨hnew, h.nodup⟩⟩
  · rw [windowNext_cons, hnext, h.next_eq]
  · intro d hd hwin
    rw [hbit _ hd hwin, List.mem_cons, UInt64.toNat_inj]
    apply or_congr_right
    constructor
    · rintro ⟨hlt, hset⟩
      exact (h.bit_iff d hlt (by omega)).mp hset
    · intro hmem
      have hlt : d.toNat < v.next.toNat := by
        rw [h.next_eq]
        exact lt_windowNext hmem
      exact ⟨hlt, (h.bit_iff d hlt (by omega)).mpr hmem⟩

lemma not_mem_of_next_le (h : Mirrors v accepted) (hle : v.next.toNat ≤ c.toNat) :
    c ∉ accepted := fun hin => by
  have := lt_windowNext hin
  have := h.next_eq
  omega

end Mirrors

/-- Setting the bit of a counter inside the window touches no other counter of the window. -/
lemma bit_setBit_window {n k : Nat} (hcn : c.toNat < n) (hcw : n ≤ c.toNat + 1024)
    (hkn : k < n) (hkw : n ≤ k + 1024) :
    (v.setBit c).bit k = true ↔ k = c.toNat ∨ v.bit k = true := by
  have hsame : k % 1024 = c.toNat % 1024 ↔ k = c.toNat := by omega
  simp [bit_setBit, hsame]

/-- A counter ahead of the window, after the skipped ones were cleared. -/
lemma Mirrors.jump (h : Mirrors v accepted) (hgt : v.next.toNat < c.toNat)
    (hmax : c.toNat + 1 < 2 ^ 64) (hclear : Clearing v v.next.toNat c.toNat c w) :
    Mirrors { w.setBit c with next := c + 1 } (c :: accepted) := by
  have hnext : (c + 1).toNat = c.toNat + 1 :=
    toNat_add_one (n := 2 ^ 64 - 1) (by omega) (by omega)
  refine h.accept (h.not_mem_of_next_le (by omega)) (by simp only [hnext]; omega) ?_
  intro k hk hwin
  simp only [hnext] at hk hwin
  refine (bit_setBit_window (n := c.toNat + 1) (by omega) (by omega) hk hwin).trans ?_
  by_cases hkc : k = c.toNat
  · simp [hkc]
  by_cases hkn : k < v.next.toNat
  · simp [hclear.kept k hkn (by omega), hkc, hkn]
  · simp [hclear.cleared k (by omega) (by omega), hkc, hkn]

/-- What the window admits. -/
def Fresh (accepted : List UInt64) (c : UInt64) : Prop :=
  c ∉ accepted ∧ windowNext accepted ≤ c.toNat + 1024

instance (accepted : List UInt64) (c : UInt64) : Decidable (Fresh accepted c) :=
  inferInstanceAs (Decidable (_ ∧ _))

/-- One call of `mark_did_receive` with a counter far enough from the top that nothing wraps: it
returns, accepts exactly the fresh counters, and changes nothing when it refuses. -/
lemma Mirrors.markDidReceive (h : Mirrors v accepted) (hc : c.toNat + 1024 < 2 ^ 64) :
    ∃ w r, v.markDidReceive c = some (w, r) ∧
      (Fresh accepted c → r = .ok () ∧ Mirrors w (c :: accepted)) ∧
      (¬ Fresh accepted c → r = .error .invalidCounter ∧ w = v) := by
  have hadd := toNat_add_nBits hc
  rw [Fresh, ← h.next_eq]
  unfold ReceivingKeyCounterValidator.markDidReceive
  simp only [UInt64.lt_iff_toNat_lt, hadd]
  by_cases hback : c.toNat + 1024 < v.next.toNat
  · exact ⟨v, _, if_pos hback, fun hf => by omega, fun _ => ⟨rfl, rfl⟩⟩
  rw [if_neg hback]
  rcases lt_trichotomy c.toNat v.next.toNat with hlt | heq | hgt
  · -- A late counter: its bit says whether it was accepted before.
    have hne : c ≠ v.next := fun hcn => by simp [hcn] at hlt
    rw [if_neg hne, if_pos hlt, checkBit_eq]
    have hmem := h.bit_iff c hlt (by omega)
    by_cases hset : v.bit c.toNat = true
    · exact ⟨v, _, if_pos hset, fun hf => absurd (hmem.mp hset) hf.1, fun _ => ⟨rfl, rfl⟩⟩
    have hnew : c ∉ accepted := fun hin => hset (hmem.mpr hin)
    refine ⟨v.setBit c, .ok (), if_neg hset, fun _ => ⟨rfl, ?_⟩,
      fun hf => absurd ⟨hnew, by omega⟩ hf⟩
    refine h.accept hnew (by simp only [setBit]; omega) fun k hk hwin => ?_
    rw [bit_setBit_window hlt (by omega) hk hwin]
    exact or_congr_right (iff_and_self.mpr fun _ => hk)
  · -- The expected counter.
    have hnew := h.not_mem_of_next_le (c := c) (by omega)
    have hnext : (v.next + 1).toNat = c.toNat + 1 := by
      rw [heq, toNat_add_one (n := 2 ^ 64 - 1024) (by omega) (by omega)]
    refine ⟨_, .ok (), if_pos (UInt64.toNat_inj.mp heq), fun _ => ⟨rfl, ?_⟩,
      fun hf => absurd ⟨hnew, by omega⟩ hf⟩
    refine h.accept hnew (by simp only [hnext]; omega) fun k hk hwin => ?_
    simp only [hnext] at hk hwin
    refine (bit_setBit_window (n := c.toNat + 1) (by omega) (by omega) hk hwin).trans ?_
    by_cases hkc : k = c.toNat
    · simp [hkc]
    have hkn : k < v.next.toNat := by omega
    simp [hkc, hkn]
  · -- A jump ahead: the skipped counters are cleared first.
    have hne : c ≠ v.next := fun hcn => by simp [hcn] at hgt
    have hnew := h.not_mem_of_next_le (c := c) (by omega)
    obtain ⟨w, hrun, hclear⟩ := clearSkipped_spec hgt (.inl (by omega))
    rw [if_neg hne, if_neg (by omega), hrun]
    exact ⟨_, .ok (), rfl, fun _ => ⟨rfl, h.jump hgt (by omega) hclear⟩,
      fun hf => absurd ⟨hnew, by omega⟩ hf⟩

/-- A counter so near to the top that its distance from the window wraps is refused, unless hardly
any counter was reached before. -/
lemma Mirrors.markDidReceive_top (h : Mirrors v accepted) (hc : 2 ^ 64 ≤ c.toNat + 1024)
    (hlast : c.toNat + 1 < 2 ^ 64 ∨ 1023 < v.next.toNat) :
    ∃ w r, v.markDidReceive c = some (w, r) ∧
      (r = .ok () ∧ Mirrors w (c :: accepted) ∨ r = .error .invalidCounter ∧ w = v) := by
  have hlt := c.toNat_lt
  have hadd : (c + nBits).toNat = c.toNat + 1024 - 2 ^ 64 := by
    rw [UInt64.toNat_add, show nBits.toNat = 1024 from rfl]
    omega
  unfold ReceivingKeyCounterValidator.markDidReceive
  simp only [UInt64.lt_iff_toNat_lt, hadd]
  by_cases hback : c.toNat + 1024 - 2 ^ 64 < v.next.toNat
  · exact ⟨v, _, if_pos hback, .inr ⟨rfl, rfl⟩⟩
  have hgt : v.next.toNat < c.toNat := by omega
  have hne : c ≠ v.next := fun hcn => by simp [hcn] at hgt
  obtain ⟨w, hrun, hclear⟩ := clearSkipped_spec hgt (.inr (by omega))
  rw [if_neg hback, if_neg hne, if_neg (by omega), hrun]
  exact ⟨_, .ok (), rfl, .inl ⟨rfl, h.jump hgt (by omega) hclear⟩⟩

/-- One call, with any counter but the last one on a window that has not moved far. -/
lemma Mirrors.step (h : Mirrors v accepted)
    (hlast : c.toNat + 1 < 2 ^ 64 ∨ 1023 < v.next.toNat) :
    ∃ w r, v.markDidReceive c = some (w, r) ∧
      (r = .ok () ∧ Mirrors w (c :: accepted) ∨ r = .error .invalidCounter ∧ w = v) := by
  by_cases hc : c.toNat + 1024 < 2 ^ 64
  · obtain ⟨w, r, hmark, hok, herr⟩ := h.markDidReceive hc
    refine ⟨w, r, hmark, ?_⟩
    by_cases hf : Fresh accepted c
    · exact .inl (hok hf)
    · exact .inr (herr hf)
  · exact h.markDidReceive_top (by omega) hlast

/-- Inside the window the ring holds the accepted counters, which are below the nonce limit. -/
structure Tracks (v : ReceivingKeyCounterValidator) (accepted : List UInt64) : Prop where
  next_eq : v.next.toNat = windowNext accepted
  next_le : v.next.toNat ≤ 2 ^ 48
  bit_iff : ∀ c : UInt64, c.toNat < v.next.toNat → v.next.toNat ≤ c.toNat + 1024 →
    (v.bit c.toNat = true ↔ c ∈ accepted)
  nodup : accepted.Nodup

lemma Tracks.mirrors (h : Tracks v accepted) : Mirrors v accepted :=
  ⟨h.next_eq, h.bit_iff, h.nodup⟩

lemma tracks_default : Tracks default [] :=
  ⟨rfl, by decide, mirrors_default.bit_iff, List.nodup_nil⟩

lemma Tracks.markDidReceive (h : Tracks v accepted) (hc : c.toNat < 2 ^ 48) :
    ∃ w r, v.markDidReceive c = some (w, r) ∧
      (Fresh accepted c → r = .ok () ∧ Tracks w (c :: accepted)) ∧
      (¬ Fresh accepted c → r = .error .invalidCounter ∧ w = v) := by
  obtain ⟨w, r, hmark, hok, herr⟩ := h.mirrors.markDidReceive (c := c) (by omega)
  refine ⟨w, r, hmark, fun hf => ?_, herr⟩
  obtain ⟨rfl, hw⟩ := hok hf
  have hle : w.next.toNat ≤ 2 ^ 48 := by
    have hnext := h.next_eq
    have hbound := h.next_le
    rw [hw.next_eq, windowNext_cons]
    omega
  exact ⟨rfl, hw.next_eq, hle, hw.bit_iff, hw.nodup⟩

/-- The check made before decryption agrees with the one that marks. -/
lemma Tracks.willAccept (h : Tracks v accepted) (hc : c.toNat < 2 ^ 48) :
    (v.willAccept c).isOk = true ↔ Fresh accepted c := by
  have hadd := toNat_add_nBits (c := c) (by omega)
  unfold ReceivingKeyCounterValidator.willAccept Fresh
  rw [checkBit_eq, ← h.next_eq]
  simp only [ge_iff_le, UInt64.le_iff_toNat_le, UInt64.lt_iff_toNat_lt, hadd]
  split
  · simp only [Except.isOk, Except.toBool, true_iff]
    exact ⟨h.mirrors.not_mem_of_next_le (by omega), by omega⟩
  next hlt =>
  split
  · simp only [Except.isOk, Except.toBool, Bool.false_eq_true, false_iff]
    omega
  have hmem := h.bit_iff c (by omega) (by omega)
  cases hset : v.bit c.toNat with
  | false =>
    simp only [hset, Bool.false_eq_true, false_iff] at hmem
    simp only [Bool.not_false, if_true, Except.isOk, Except.toBool, true_iff]
    exact ⟨hmem, by omega⟩
  | true =>
    simp only [hset, true_iff] at hmem
    simp [Except.isOk, Except.toBool, hmem]

/-- A sequence of calls, with the counters accepted on the way, latest first. -/
def receiveAll : ReceivingKeyCounterValidator × List UInt64 → List UInt64 →
    Option (ReceivingKeyCounterValidator × List UInt64)
  | s, [] => some s
  | (v, accepted), c :: cs => do
    let (v, r) ← v.markDidReceive c
    receiveAll (v, if r.isOk then c :: accepted else accepted) cs

lemma Tracks.receiveAll (h : Tracks v accepted) (cs : List UInt64)
    (hcs : ∀ c ∈ cs, c.toNat < 2 ^ 48) :
    ∃ w accepted', receiveAll (v, accepted) cs = some (w, accepted') ∧ Tracks w accepted' := by
  induction cs generalizing v accepted with
  | nil => exact ⟨v, accepted, rfl, h⟩
  | cons c cs ih =>
    obtain ⟨w, r, hmark, hok, herr⟩ := h.markDidReceive (hcs c List.mem_cons_self)
    have hrest : ∀ d ∈ cs, d.toNat < 2 ^ 48 := fun d hd => hcs d (List.mem_cons_of_mem _ hd)
    rw [ReceivingKeyCounterValidator.receiveAll, hmark]
    by_cases hf : Fresh accepted c
    · obtain ⟨rfl, hw⟩ := hok hf
      exact ih hw hrest
    · obtain ⟨rfl, rfl⟩ := herr hf
      exact ih h hrest

/-- Over every sequence of calls, a counter is accepted exactly when it was not accepted before
and is not more than the window behind; no counter is accepted twice, and the check made before
decryption agrees. -/
theorem receiveAll_then_markDidReceive (cs : List UInt64) (c : UInt64)
    (hcs : ∀ d ∈ cs, d.toNat < 2 ^ 48) (hc : c.toNat < 2 ^ 48) :
    ∃ v accepted w r,
      receiveAll (default, []) cs = some (v, accepted) ∧ accepted.Nodup ∧
      v.markDidReceive c = some (w, r) ∧
      (r.isOk = true ↔ c ∉ accepted ∧ windowNext accepted ≤ c.toNat + 1024) ∧
      ((v.willAccept c).isOk = true ↔ r.isOk = true) := by
  obtain ⟨v, accepted, hrun, hv⟩ := tracks_default.receiveAll cs hcs
  obtain ⟨w, r, hmark, hok, herr⟩ := hv.markDidReceive hc
  have hr : r.isOk = true ↔ Fresh accepted c := by
    by_cases hf : Fresh accepted c
    · simp [(hok hf).1, hf, Except.isOk, Except.toBool]
    · simp [(herr hf).1, hf, Except.isOk, Except.toBool]
  exact ⟨v, accepted, w, r, hrun, hv.nodup, hmark, hr, (hv.willAccept hc).trans hr.symm⟩

/-- A jump over the whole ring, a late counter and a replay of it. -/
theorem receiveAll_then_markDidReceive_late :
    (∀ d ∈ ([0, 1030, 7, 1000] : List UInt64), d.toNat < 2 ^ 48) ∧ (1000 : UInt64).toNat < 2 ^ 48 ∧
    ∃ v accepted w r,
      receiveAll (default, []) [0, 1030, 7, 1000] = some (v, accepted) ∧ accepted.Nodup ∧
      v.markDidReceive 1000 = some (w, r) ∧
      (r.isOk = true ↔ 1000 ∉ accepted ∧ windowNext accepted ≤ (1000 : UInt64).toNat + 1024) ∧
      ((v.willAccept 1000).isOk = true ↔ r.isOk = true) :=
  ⟨by simp, by decide, receiveAll_then_markDidReceive [0, 1030, 7, 1000] 1000 (by simp) (by decide)⟩

end ReceivingKeyCounterValidator

end Fluxpeer.Tunnel
