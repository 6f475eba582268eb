import Mathlib.Data.List.Find
import Mathlib.Data.List.Nodup
import Mathlib.Logic.Function.Basic

/-!
# Lists of records with a key

A list of records that are found by a key and updated in place. When the keys are distinct, such a
list is a function from keys to records, and the operations on the list are those on the function.
-/

namespace Fluxpeer.Lib.Keyed

variable {α κ : Type*} [DecidableEq κ] (key : α → κ)

/-- The first record with a key. -/
def find (l : List α) (k : κ) : Option α := l.find? fun a => key a = k

/-- Put a record in the place of the first one with its key. -/
def set (l : List α) (a : α) : List α :=
  l.replaceF fun b => if key b = key a then some a else none

variable {key} {l : List α} {a b : α} {k : κ}

lemma find_cons (b : α) (l : List α) (k : κ) :
    find key (b :: l) k = if key b = k then some b else find key l k := by
  by_cases h : key b = k <;> simp [find, h]

lemma set_cons (b : α) (l : List α) (a : α) :
    set key (b :: l) a = if key b = key a then a :: l else b :: set key l a := by
  by_cases h : key b = key a <;> simp [set, h]

lemma key_of_find (h : find key l k = some a) : key a = k := by
  simpa using List.find?_some h

lemma mem_of_find (h : find key l k = some a) : a ∈ l := List.mem_of_find?_eq_some h

lemma find_eq_none : find key l k = none ↔ k ∉ l.map key := by
  simp [find]

/-- With distinct keys every record is the one found. -/
lemma find_of_mem (hl : (l.map key).Nodup) (ha : a ∈ l) : find key l (key a) = some a := by
  obtain ⟨front, back, rfl⟩ := List.append_of_mem ha
  rw [find, List.find?_eq_some_iff_append]
  refine ⟨by simp, front, back, rfl, fun b hb => ?_⟩
  rw [List.map_append, List.nodup_append] at hl
  simpa using hl.2.2 (key b) (List.mem_map_of_mem hb) (key a) (by simp)

@[simp] lemma map_key_set : (set key l a).map key = l.map key := by
  induction l with
  | nil => rfl
  | cons b l ih =>
    rw [set_cons]
    split
    · next h => simp [h]
    · simp [ih]

/-- A record that looks like the one it replaces. -/
lemma map_set {β : Type*} {f : α → β} (h : find key l (key a) = some b) (hf : f a = f b) :
    (set key l a).map f = l.map f := by
  induction l with
  | nil => rfl
  | cons c l ih =>
    rw [find_cons] at h
    rw [set_cons]
    split at h
    · next hc =>
      cases h
      rw [if_pos hc, List.map_cons, List.map_cons, hf]
    · next hc => rw [if_neg hc, List.map_cons, List.map_cons, ih h]

lemma set_self (h : find key l (key a) = some a) : set key l a = l := by
  induction l with
  | nil => rfl
  | cons b l ih =>
    rw [find_cons] at h
    rw [set_cons]
    split at h
    · next hb =>
      cases h
      rw [if_pos hb]
    · next hb => rw [if_neg hb, ih h]

lemma set_set (h : key a = key b) : set key (set key l a) b = set key l b := by
  induction l with
  | nil => rfl
  | cons c l ih =>
    simp only [set_cons, h]
    split
    · rw [set_cons, if_pos h]
    · next hc => rw [set_cons, if_neg hc, ih]

/-- Updating the list updates the function. -/
lemma find_set (h : (find key l (key a)).isSome) :
    find key (set key l a) = Function.update (find key l) (key a) (some a) := by
  funext k
  induction l with
  | nil => cases h
  | cons b l ih =>
    rw [find_cons] at h
    rw [set_cons, Function.update_apply]
    split
    · next hb =>
      rw [find_cons, find_cons, hb]
      by_cases hk : k = key a
      · rw [hk, if_pos rfl, if_pos rfl]
      · rw [if_neg hk, if_neg (Ne.symm hk), if_neg (Ne.symm hk)]
    · next hb =>
      rw [if_neg hb] at h
      rw [find_cons, ih h, find_cons, Function.update_apply]
      by_cases hk : k = key a
      · rw [hk, if_neg hb, if_pos rfl, if_pos rfl]
      · rw [if_neg hk, if_neg hk]

/-- The record behind a front without its key is the one replaced. -/
lemma set_append_cons {front back : List α} (hkey : key b = key a)
    (hfront : key a ∉ front.map key) :
    set key (front ++ b :: back) a = front ++ a :: back := by
  induction front with
  | nil => rw [List.nil_append, set_cons, if_pos hkey, List.nil_append]
  | cons c front ih =>
    rw [List.map_cons, List.mem_cons, not_or] at hfront
    rw [List.cons_append, set_cons, if_neg (Ne.symm hfront.1), ih hfront.2, List.cons_append]

lemma find_append_singleton (h : find key l (key a) = none) :
    find key (l ++ [a]) = Function.update (find key l) (key a) (some a) := by
  funext k
  rw [Function.update_apply, find, List.find?_append, ← find]
  split
  · next hk => simp [hk, h]
  · next hk => simp [Ne.symm hk]

/-- Dropping the records of a key drops the key. -/
lemma find_filter_ne :
    find key (l.filter fun a => key a ≠ k) = Function.update (find key l) k none := by
  funext k'
  rw [Function.update_apply, find, List.find?_filter]
  split
  · next hk =>
    rw [List.find?_eq_none]
    simp [hk]
  · next hk =>
    refine List.find?_congr fun a _ => ?_
    by_cases ha : key a = k'
    · simp [ha, hk]
    · simp [ha]

end Fluxpeer.Lib.Keyed
