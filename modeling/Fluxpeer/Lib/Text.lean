import Mathlib.Algebra.GroupWithZero.Nat
import Mathlib.Data.List.TakeDrop
import Mathlib.Data.List.TakeWhile

/-!
# Text

The operations on strings that the programs use, over the list of characters.
-/

namespace Fluxpeer.Lib

/-- `char::is_whitespace`. -/
def isWhitespace (c : Char) : Bool :=
  let n := c.toNat
  (9 ≤ n && n ≤ 13) || n == 0x20 || n == 0x85 || n == 0xa0 || n == 0x1680 ||
    (0x2000 ≤ n && n ≤ 0x200a) || n == 0x2028 || n == 0x2029 || n == 0x202f || n == 0x205f ||
    n == 0x3000

def trim (value : String) : String :=
  String.ofList ((value.toList.dropWhile isWhitespace).reverse.dropWhile isWhitespace).reverse

/-- The words between whitespace. -/
def splitWhitespace (value : String) : List String :=
  ((value.toList.splitOnP isWhitespace).filter (!·.isEmpty)).map String.ofList

/-- `str::len`: the number of bytes in UTF-8. -/
def byteLen (value : String) : Nat := (value.toList.map Char.utf8Size).sum

/-- The text before and after the first `sep`. -/
def splitOnce (sep : Char) (value : String) : Option (String × String) :=
  match value.toList.span (· ≠ sep) with
  | (_, []) => none
  | (front, _ :: back) => some (String.ofList front, String.ofList back)

variable {value front back : String} {sep : Char}

lemma splitOnce_eq_some (h : splitOnce sep value = some (front, back)) :
    value.toList = front.toList ++ sep :: back.toList := by
  unfold splitOnce at h
  rw [List.span_eq_takeWhile_dropWhile] at h
  split at h
  · cases h
  next before found after heq =>
  simp only [Prod.mk.injEq] at heq
  obtain ⟨rfl, hafter⟩ := heq
  simp only [Option.some.injEq, Prod.mk.injEq] at h
  obtain ⟨rfl, rfl⟩ := h
  have hsep := List.head?_dropWhile_not (· ≠ sep) value.toList
  rw [hafter] at hsep
  have hfound : found = sep := by simpa using hsep
  subst hfound
  rw [String.toList_ofList, String.toList_ofList, ← hafter, List.takeWhile_append_dropWhile]

lemma splitOnce_of_append (hvalue : value.toList = front.toList ++ sep :: back.toList)
    (h : sep ∉ front.toList) : splitOnce sep value = some (front, back) := by
  have hfront : ∀ c ∈ front.toList, decide (c ≠ sep) = true :=
    fun c hc => decide_eq_true fun heq => h (heq ▸ hc)
  unfold splitOnce
  rw [List.span_eq_takeWhile_dropWhile, hvalue, List.takeWhile_append_of_pos hfront,
    List.dropWhile_append_of_pos hfront]
  simp

/-- The text before and after the last `sep`. -/
def rsplitOnce (sep : Char) (value : String) : Option (String × String) :=
  match value.toList.reverse.span (· ≠ sep) with
  | (_, []) => none
  | (back, _ :: front) => some (String.ofList front.reverse, String.ofList back.reverse)

lemma rsplitOnce_of_append (hvalue : value.toList = front.toList ++ sep :: back.toList)
    (h : sep ∉ back.toList) : rsplitOnce sep value = some (front, back) := by
  have hback : ∀ c ∈ back.toList.reverse, decide (c ≠ sep) = true :=
    fun c hc => decide_eq_true fun heq => h (heq ▸ List.mem_reverse.mp hc)
  have hreverse : value.toList.reverse = back.toList.reverse ++ sep :: front.toList.reverse := by
    rw [hvalue, List.reverse_append, List.reverse_cons, List.append_assoc]
    rfl
  unfold rsplitOnce
  rw [List.span_eq_takeWhile_dropWhile, hreverse, List.takeWhile_append_of_pos hback,
    List.dropWhile_append_of_pos hback]
  simp

end Fluxpeer.Lib
