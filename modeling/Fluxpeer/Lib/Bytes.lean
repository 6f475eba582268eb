import Mathlib.Data.Nat.Basic
import Mathlib.Data.Vector.Basic

/-!
# Byte strings, fixed-width integers and buffers

Byte strings are lists of bytes; an array type of known length is a `List.Vector`. Integers
are written least significant byte first; the big-endian forms reverse that.

A buffer is written with `writeAt`, which fails where an out-of-bounds slice would stop the
program. `writeAt_append` is the rule for filling a buffer from left to right: what has been
written so far stays, and the new piece follows it.
-/

namespace Fluxpeer.Lib

abbrev Bytes := List UInt8

/-- A byte array of length `n`. -/
abbrev Block (n : Nat) := List.Vector UInt8 n

/-- The array read from a byte string, when the length is right. -/
def Block.ofBytes? (n : Nat) (b : Bytes) : Option (Block n) :=
  if h : b.length = n then some ⟨b, h⟩ else none

variable {n : Nat}

@[simp] lemma Block.ofBytes?_toList (x : Block n) : Block.ofBytes? n x.toList = some x := by
  simp [Block.ofBytes?]

@[simp] lemma Block.length_val (x : Block n) : x.toList.length = n :=
  x.toList_length

variable {b : Bytes}

lemma Block.ofBytes?_eq_some {x : Block n} : Block.ofBytes? n b = some x ↔ b = x.toList := by
  constructor
  · intro h
    unfold Block.ofBytes? at h
    split at h
    · cases h
      rfl
    · cases h
  · rintro rfl
    exact Block.ofBytes?_toList x

lemma Block.ofBytes?_eq_none (h : b.length ≠ n) : Block.ofBytes? n b = none :=
  dif_neg h

lemma Block.exists_ofBytes? (h : b.length = n) : ∃ x, Block.ofBytes? n b = some x :=
  ⟨⟨b, h⟩, dif_pos h⟩

lemma Block.ofBytes?_take (x : Block n) (b : Bytes) :
    Block.ofBytes? n ((x.toList ++ b).take n) = some x := by
  rw [List.take_left' (Block.length_val x), Block.ofBytes?_toList]

lemma Block.drop_append (x : Block n) (b : Bytes) : (x.toList ++ b).drop n = b :=
  List.drop_left' (Block.length_val x)

/-! ## Integers -/

/-- The `w` low bytes of `x`, least significant first. -/
def leBytes : Nat → Nat → Bytes
  | 0, _ => []
  | w + 1, x => UInt8.ofNat x :: leBytes w (x / 256)

def fromLe : Bytes → Nat
  | [] => 0
  | b :: bs => b.toNat + 256 * fromLe bs

def beBytes (w x : Nat) : Bytes := (leBytes w x).reverse

def fromBe (b : Bytes) : Nat := fromLe b.reverse

@[simp] lemma length_leBytes (w x : Nat) : (leBytes w x).length = w := by
  induction w generalizing x with
  | zero => rfl
  | succ w ih => simp [leBytes, ih]

@[simp] lemma length_beBytes (w x : Nat) : (beBytes w x).length = w := by simp [beBytes]

lemma fromLe_leBytes (w x : Nat) : fromLe (leBytes w x) = x % 256 ^ w := by
  induction w generalizing x with
  | zero => simp [leBytes, fromLe, Nat.mod_one]
  | succ w ih =>
    have byte : (UInt8.ofNat x).toNat = x % 256 := by simp
    rw [leBytes, fromLe, ih, byte, Nat.pow_succ', Nat.mod_mul]

lemma fromBe_beBytes (w x : Nat) : fromBe (beBytes w x) = x % 256 ^ w := by
  simp [fromBe, beBytes, fromLe_leBytes]

lemma fromLe_lt (b : Bytes) : fromLe b < 256 ^ b.length := by
  induction b with
  | nil => simp [fromLe]
  | cons x xs ih =>
    have hx : x.toNat < 256 := x.toNat_lt
    simp only [fromLe, List.length_cons, Nat.pow_succ']
    omega

lemma leBytes_fromLe (b : Bytes) : leBytes b.length (fromLe b) = b := by
  induction b with
  | nil => rfl
  | cons x xs ih =>
    have hx : x.toNat < 256 := x.toNat_lt
    have hbyte : UInt8.ofNat (x.toNat + 256 * fromLe xs) = x := by
      apply UInt8.toNat_inj.mp
      rw [UInt8.toNat_ofNat']
      omega
    have hrest : (x.toNat + 256 * fromLe xs) / 256 = fromLe xs := by omega
    rw [List.length_cons, leBytes, fromLe, hbyte, hrest, ih]

lemma beBytes_fromBe {w : Nat} (h : b.length = w) : beBytes w (fromBe b) = b := by
  have hrev : leBytes w (fromLe b.reverse) = b.reverse := by
    rw [← h, ← List.length_reverse]
    exact leBytes_fromLe b.reverse
  rw [beBytes, fromBe, hrev, List.reverse_reverse]

lemma fromBe_lt (b : Bytes) : fromBe b < 256 ^ b.length := by
  rw [fromBe, ← List.length_reverse]
  exact fromLe_lt b.reverse

/-! ## Comparison -/

/-- A comparison that looks at every byte: the differences are collected in one byte. -/
def ctEq (a b : Bytes) : Bool :=
  a.length = b.length ∧ (a.zip b).foldl (fun diff (x, y) => diff ||| (x ^^^ y)) 0 = 0

/-- The bytes at positions `lo` up to but excluding `hi`. -/
def slice (b : Bytes) (lo hi : Nat) : Bytes := (b.drop lo).take (hi - lo)

lemma length_slice (b : Bytes) (lo hi : Nat) (h : hi ≤ b.length) :
    (slice b lo hi).length = hi - lo := by
  simp only [slice, List.length_take, List.length_drop]
  omega

/-- `&b[lo..hi]`, with `none` for the panic. -/
def slice? (b : Bytes) (lo hi : Nat) : Option Bytes :=
  if lo ≤ hi ∧ hi ≤ b.length then some (slice b lo hi) else none

lemma slice?_eq_some {lo hi : Nat} (hlo : lo ≤ hi) (hhi : hi ≤ b.length) :
    slice? b lo hi = some (slice b lo hi) :=
  if_pos ⟨hlo, hhi⟩

/-- A piece of known length behind a known front is what the slice at its place reads. -/
lemma slice_append (front mid back : Bytes) (lo hi : Nat) (hlo : front.length = lo)
    (hhi : lo + mid.length = hi) : slice (front ++ (mid ++ back)) lo hi = mid := by
  subst hlo hhi
  simp [slice]

/-- Overwrite part of a buffer; `none` where the place lies outside of it. -/
def writeAt (dst : Bytes) (off : Nat) (src : Bytes) : Option Bytes :=
  if off + src.length ≤ dst.length then
    some (dst.take off ++ src ++ dst.drop (off + src.length))
  else none

/-- Writing right behind a finished front extends that front. -/
lemma writeAt_append (off : Nat) (src : Bytes) {dst front : Bytes} (hfront : front <+: dst)
    (hoff : front.length = off) (hfit : off + src.length ≤ dst.length) :
    ∃ out, writeAt dst off src = some out ∧ front ++ src <+: out ∧ out.length = dst.length := by
  obtain ⟨back, rfl⟩ := hfront
  subst hoff
  refine ⟨_, if_pos hfit, ?_, ?_⟩
  · simp
  · simp at hfit ⊢
    omega

/-- What lies behind a finished front can be read back. -/
lemma slice_of_append {dst front mid : Bytes} {lo hi : Nat} (h : front ++ mid <+: dst)
    (hlo : front.length = lo) (hhi : lo + mid.length = hi) : slice dst lo hi = mid := by
  obtain ⟨back, rfl⟩ := h
  rw [List.append_assoc]
  exact slice_append front mid back lo hi hlo hhi

/-- `slice::chunks`: pieces of `n` bytes, the last of them what is left. -/
def chunks (n : Nat) : Bytes → List Bytes
  | [] => []
  | b :: bs => (b :: bs.take (n - 1)) :: chunks n (bs.drop (n - 1))
termination_by bs => bs.length
decreasing_by
  simp only [List.length_drop, List.length_cons]
  omega

lemma chunks_append {piece rest : Bytes} (hn : 0 < n) (hpiece : piece.length = n) :
    chunks n (piece ++ rest) = piece :: chunks n rest := by
  cases piece with
  | nil => simp_all
  | cons b bs =>
    have hlen : n - 1 = bs.length := by
      rw [← hpiece]
      rfl
    rw [List.cons_append, chunks, hlen, List.take_left, List.drop_left]

/-- Pieces of one size are found again. -/
lemma chunks_flatten (hn : 0 < n) {pieces : List Bytes} (h : ∀ piece ∈ pieces, piece.length = n) :
    chunks n pieces.flatten = pieces := by
  induction pieces with
  | nil => rw [List.flatten_nil, chunks]
  | cons piece pieces ih =>
    rw [List.forall_mem_cons] at h
    rw [List.flatten_cons, chunks_append hn h.1, ih h.2]

end Fluxpeer.Lib
