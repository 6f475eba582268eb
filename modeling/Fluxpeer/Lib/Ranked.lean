import Mathlib.Data.List.Sort

/-!
# First match in a ranked list

A list sorted by rank is searched from the front. The first element that satisfies a predicate is
then a best one: no other element that satisfies it has a smaller rank. Where ranks tell the
elements apart, the order in which they came into the list does not matter.
-/

namespace Fluxpeer.Lib.Ranked

variable {α : Type*} {r : α → α → Prop} {p : α → Bool} {l : List α} {a : α}

/-- An element that satisfies `p` and is not ranked behind another that does. -/
structure Best (r : α → α → Prop) (p : α → Bool) (l : List α) (a : α) : Prop where
  mem : a ∈ l
  holds : p a = true
  first : ∀ b ∈ l, p b = true → r a b

lemma best_of_find? (hsorted : l.Pairwise r) (hrefl : ∀ a, r a a) (h : l.find? p = some a) :
    Best r p l a := by
  obtain ⟨hp, front, back, rfl, hfront⟩ := List.find?_eq_some_iff_append.mp h
  refine ⟨by simp, hp, fun b hb hpb => ?_⟩
  rcases List.mem_append.mp hb with hb | hb
  · have hnot := hfront b hb
    simp [hpb] at hnot
  · rcases List.mem_cons.mp hb with rfl | hb
    · exact hrefl b
    · exact (List.pairwise_cons.mp (List.pairwise_append.mp hsorted).2.1).1 b hb

/-- Where no two elements that satisfy `p` have one rank, the search finds the same one in any two
sorted lists of the same such elements. -/
lemma find?_eq {l' : List α} (hsorted : l.Pairwise r) (hsorted' : l'.Pairwise r)
    (hrefl : ∀ a, r a a) (hmem : ∀ b, p b = true → (b ∈ l ↔ b ∈ l'))
    (hrank : ∀ a b, p a = true → p b = true → a ∈ l → b ∈ l → r a b → r b a → a = b) :
    l.find? p = l'.find? p := by
  cases h : l.find? p with
  | none =>
    cases h' : l'.find? p with
    | none => rfl
    | some b =>
      have hbest := best_of_find? hsorted' hrefl h'
      exact absurd hbest.holds (List.find?_eq_none.mp h b ((hmem b hbest.holds).mpr hbest.mem))
  | some a =>
    have hbest := best_of_find? hsorted hrefl h
    have hal' := (hmem a hbest.holds).mp hbest.mem
    cases h' : l'.find? p with
    | none => exact absurd hbest.holds (List.find?_eq_none.mp h' a hal')
    | some b =>
      have hbest' := best_of_find? hsorted' hrefl h'
      have hbl := (hmem b hbest'.holds).mpr hbest'.mem
      refine congrArg some (hrank a b hbest.holds hbest'.holds hbest.mem hbl ?_ ?_)
      · exact hbest.first b hbl hbest'.holds
      · exact hbest'.first a hal' hbest.holds

end Fluxpeer.Lib.Ranked
