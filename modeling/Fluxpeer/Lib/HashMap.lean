import Mathlib.Data.List.AList

/-!
# Hash maps

A hash map is an association list with distinct keys; no operation here depends on the order of
its entries. What is added to the library's `AList` is `retain` and the number of entries.
-/

namespace Fluxpeer.Lib

abbrev HashMap (α β : Type*) := AList fun _ : α => β

namespace HashMap

variable {α β : Type*} [DecidableEq α] {m : HashMap α β}

def len (m : HashMap α β) : Nat := m.entries.length

def contains (m : HashMap α β) (a : α) : Bool := (m.lookup a).isSome

def retain (m : HashMap α β) (p : α → β → Bool) : HashMap α β where
  entries := m.entries.filter fun entry => p entry.1 entry.2
  nodupKeys := m.nodupKeys.sublist List.filter_sublist

@[grind =]
lemma lookup_insert (m : HashMap α β) (a : α) (b : β) (a' : α) :
    (m.insert a b).lookup a' = if a' = a then some b else m.lookup a' := by
  split
  · next h =>
    subst h
    exact AList.lookup_insert m
  · next h => exact AList.lookup_insert_ne h

@[grind =]
lemma lookup_erase (m : HashMap α β) (a a' : α) :
    (m.erase a).lookup a' = if a' = a then none else m.lookup a' := by
  split
  · next h =>
    subst h
    exact AList.lookup_erase _ m
  · next h => exact AList.lookup_erase_ne h

@[grind =]
lemma lookup_retain (m : HashMap α β) (p : α → β → Bool) (a : α) :
    (m.retain p).lookup a = (m.lookup a).filter (p a) := by
  apply Option.ext
  intro b
  rw [Option.filter_eq_some_iff, ← Option.mem_def, ← Option.mem_def, AList.mem_lookup_iff,
    AList.mem_lookup_iff]
  simp [retain]

lemma mem_entries {b : β} : b ∈ m.entries.map (·.2) ↔ ∃ a, m.lookup a = some b := by
  simp only [List.mem_map, Sigma.exists]
  constructor
  · rintro ⟨a, b, hmem, rfl⟩
    exact ⟨a, AList.mem_lookup_iff.mpr hmem⟩
  · rintro ⟨a, h⟩
    exact ⟨a, b, AList.mem_lookup_iff.mp h, rfl⟩

lemma len_insert_of_none {a : α} (h : m.lookup a = none) (b : β) :
    len (m.insert a b) = m.len + 1 := by
  rw [len, AList.entries_insert_of_notMem (AList.lookup_eq_none.mp h), List.length_cons, len]

lemma len_retain_le (m : HashMap α β) (p : α → β → Bool) : (m.retain p).len ≤ m.len :=
  List.length_filter_le ..

lemma len_erase_le (m : HashMap α β) (a : α) : len (m.erase a) ≤ m.len := by
  change (List.kerase a m.entries).length ≤ m.entries.length
  exact (List.kerase_sublist ..).length_le

lemma len_insert_le (m : HashMap α β) (a : α) (b : β) : len (m.insert a b) ≤ m.len + 1 := by
  rw [len, AList.entries_insert, List.length_cons, len]
  exact Nat.succ_le_succ (List.kerase_sublist ..).length_le

end HashMap

end Fluxpeer.Lib
