import Mathlib.Data.List.Find
import Mathlib.Data.List.Lex
import Mathlib.Data.List.Pairwise
import Mathlib.Data.List.Sort

/-!
# Tables with unique indexes

A table of a database: rows in the order of their insertion, and the unique indexes that hold of
them. An index may leave rows out, and the primary key is an index that leaves out none. A row that
would repeat an index entry is refused, so the indexes hold of every table there is. An update
keeps its place in the type by only keeping or dropping the index entries of the rows it changes.

What a query returns is `select`. For each statement there is a rule that says when a query does not
see it, and a query in the order of a key may be restricted before or after it is sorted.
-/

namespace Fluxpeer.Lib

/-- The columns in which a row must differ from all others, or `none` for a row that is left
out. -/
abbrev Index (ρ : Type*) := ρ → Option (List String)

structure Table {ρ : Type*} (indexes : List (Index ρ)) where
  rows : List ρ
  unique : ∀ index ∈ indexes, (rows.filterMap index).Nodup

namespace Table

variable {ρ β : Type*} {indexes : List (Index ρ)} {index : Index ρ}

def empty : Table indexes := ⟨[], fun _ _ => List.nodup_nil⟩

def find? (t : Table indexes) (p : ρ → Bool) : Option ρ := t.rows.find? p

/-- The rows a query sees, as it sees them. -/
def select (t : Table indexes) (g : ρ → Option β) : List β := t.rows.filterMap g

def count (t : Table indexes) (p : ρ → Bool) : Nat := t.rows.countP p

/-- No index has an entry of the row yet. -/
def Admits (t : Table indexes) (r : ρ) : Prop :=
  ∀ index ∈ indexes, ∀ k ∈ index r, k ∉ t.rows.filterMap index

instance (t : Table indexes) (r : ρ) : Decidable (t.Admits r) :=
  inferInstanceAs (Decidable (∀ index ∈ indexes, ∀ k ∈ index r, k ∉ t.rows.filterMap index))

/-- Insert a row, unless it violates an index. -/
def insert? (t : Table indexes) (r : ρ) : Option (Table indexes) :=
  if h : t.Admits r then
    some
      { rows := t.rows ++ [r]
        unique := by
          intro index hindex
          rw [List.filterMap_append]
          refine (t.unique index hindex).append ?_ ?_
          · cases hk : index r <;> simp [hk]
          · intro k hmem hlast
            obtain ⟨r', hr', hk⟩ := List.mem_filterMap.mp hlast
            cases List.mem_singleton.mp hr'
            exact h index hindex k hk hmem }
  else none

/-- A change of rows that keeps or drops their index entries. -/
def Narrows (indexes : List (Index ρ)) (f : ρ → ρ) : Prop :=
  ∀ index ∈ indexes, ∀ r, index (f r) = none ∨ index (f r) = index r

lemma filterMap_sublist {f : ρ → ρ} (hf : ∀ r, index (f r) = none ∨ index (f r) = index r)
    (p : ρ → Bool) (rows : List ρ) :
    ((rows.map fun r => if p r then f r else r).filterMap index).Sublist (rows.filterMap index) := by
  -- The entries left are those of the rows that have one after the change.
  have hleft : (rows.map fun r => if p r then f r else r).filterMap index =
      (rows.filter fun r => (index (if p r then f r else r)).isSome).filterMap index := by
    rw [List.filterMap_map, List.filterMap_filter]
    refine List.filterMap_congr fun r _ => ?_
    rw [Function.comp_apply]
    split <;> grind [Option.isSome_iff_ne_none]
  rw [hleft]
  exact List.filter_sublist.filterMap index

def update (t : Table indexes) (p : ρ → Bool) (f : ρ → ρ) (hf : Narrows indexes f) :
    Table indexes where
  rows := t.rows.map fun r => if p r then f r else r
  unique index hindex := (t.unique index hindex).sublist (filterMap_sublist (hf index hindex) p _)

def delete (t : Table indexes) (p : ρ → Bool) : Table indexes where
  rows := t.rows.filter fun r => !p r
  unique index hindex := (t.unique index hindex).sublist (List.filter_sublist.filterMap index)

variable {t t' : Table indexes} {r r' : ρ} {p q : ρ → Bool} {f : ρ → ρ} {g : ρ → Option β}

/-! ## Rows -/

lemma rows_insert? (h : t.insert? r = some t') : t'.rows = t.rows ++ [r] := by
  unfold insert? at h
  split at h
  · cases h
    rfl
  · cases h

lemma mem_insert? (h : t.insert? r = some t') {r' : ρ} : r' ∈ t'.rows ↔ r' ∈ t.rows ∨ r' = r := by
  rw [rows_insert? h, List.mem_append, List.mem_singleton]

lemma insert?_of_admits (h : t.Admits r) : ∃ t', t.insert? r = some t' := by
  unfold insert?
  rw [dif_pos h]
  exact ⟨_, rfl⟩

lemma mem_delete : r ∈ (t.delete p).rows ↔ r ∈ t.rows ∧ p r = false := by
  simp [delete]

lemma mem_of_find? (h : t.find? p = some r) : r ∈ t.rows := List.mem_of_find?_eq_some h

lemma find?_some (h : t.find? p = some r) : p r = true := List.find?_some h

/-- Two rows with one index entry are one row. -/
lemma eq_of_index {k : List String} (hindex : index ∈ indexes) (hr : r ∈ t.rows)
    (hr' : r' ∈ t.rows) (hk : index r = some k) (hk' : index r' = some k) : r = r' := by
  have hnodup := t.unique index hindex
  rw [List.Nodup, List.pairwise_filterMap] at hnodup
  by_contra hne
  have : Std.Symm fun a b : ρ => ∀ k, index a = some k → ∀ k', index b = some k' → k ≠ k' :=
    ⟨fun _ _ hab k hk k' hk' => (hab k' hk' k hk).symm⟩
  exact List.Pairwise.forall hnodup hr hr' hne k hk k hk' rfl

/-- The rows are different if an index has an entry of each. -/
lemma nodup_rows (hindex : index ∈ indexes) (htotal : ∀ r, (index r).isSome) : t.rows.Nodup := by
  have hnodup := t.unique index hindex
  rw [List.Nodup, List.pairwise_filterMap] at hnodup
  refine hnodup.imp ?_
  rintro r _ hne rfl
  obtain ⟨k, hk⟩ := Option.isSome_iff_exists.mp (htotal r)
  exact hne k hk k hk rfl

/-- A condition that picks one row holds of one row. -/
lemma count_eq_one [DecidableEq ρ] (hnodup : t.rows.Nodup) (hr : r ∈ t.rows) (hp : p r = true)
    (honly : ∀ r' ∈ t.rows, p r' = true → r' = r) : t.count p = 1 := by
  rw [← List.count_eq_one_of_mem hnodup hr, count, List.count]
  apply List.countP_congr
  intro r' hr'
  simp only [beq_iff_eq]
  exact ⟨honly r' hr', fun heq => heq ▸ hp⟩

lemma eq_of_rows (h : t.rows = t'.rows) : t = t' := by
  cases t
  cases t'
  cases h
  rfl

/-! ## Statements about one row -/

/-- The rows before and after the only one of a condition. -/
lemma exists_split (hnodup : t.rows.Nodup) (hr : r ∈ t.rows)
    (honly : ∀ r' ∈ t.rows, p r' = true → r' = r) :
    ∃ front back, t.rows = front ++ r :: back ∧ ∀ r' ∈ front ++ back, p r' = false := by
  obtain ⟨front, back, hsplit⟩ := List.append_of_mem hr
  refine ⟨front, back, hsplit, fun r' hr' => Bool.eq_false_iff.mpr fun hp => ?_⟩
  rw [hsplit, List.nodup_middle, List.nodup_cons] at hnodup
  have hmem : r' ∈ t.rows := by
    rw [hsplit]
    exact List.perm_middle.mem_iff.mpr (List.mem_cons_of_mem _ hr')
  exact hnodup.1 (honly r' hmem hp ▸ hr')

section

variable {front back : List ρ} (hsplit : t.rows = front ++ r :: back) (hp : p r = true)
  (hother : ∀ r' ∈ front ++ back, p r' = false)

include hsplit hp hother

lemma rows_update_split (hf : Narrows indexes f) : (t.update p f hf).rows = front ++ f r :: back := by
  have hsame : ∀ l : List ρ, (∀ r' ∈ l, p r' = false) → l.map (fun r => if p r then f r else r) = l := by
    intro l hl
    refine (List.map_congr_left fun r' hr' => ?_).trans (List.map_id l)
    rw [hl r' hr']
    rfl
  change t.rows.map _ = _
  rw [hsplit, List.map_append, List.map_cons, if_pos hp,
    hsame front fun r' hr' => hother r' (List.mem_append_left _ hr'),
    hsame back fun r' hr' => hother r' (List.mem_append_right _ hr')]

lemma rows_delete_split : (t.delete p).rows = front ++ back := by
  have hsame : ∀ l : List ρ, (∀ r' ∈ l, p r' = false) → l.filter (fun r => !p r) = l := by
    intro l hl
    refine List.filter_eq_self.mpr fun r' hr' => ?_
    rw [hl r' hr']
    rfl
  change t.rows.filter _ = _
  rw [hsplit, List.filter_append, List.filter_cons, hp,
    hsame front fun r' hr' => hother r' (List.mem_append_left _ hr'),
    hsame back fun r' hr' => hother r' (List.mem_append_right _ hr')]
  rfl

end

/-! ## Queries -/

lemma select_insert? (h : t.insert? r = some t') : t'.select g = t.select g ++ (g r).toList := by
  rw [select, rows_insert? h, List.filterMap_append]
  cases hg : g r <;> simp [hg, select]

/-- A query that sees the changed rows as before does not see the update. -/
lemma select_update (hf : Narrows indexes f) (h : ∀ r ∈ t.rows, p r = true → g (f r) = g r) :
    (t.update p f hf).select g = t.select g := by
  rw [select, update, List.filterMap_map]
  apply List.filterMap_congr
  intro r hr
  change g (if p r then f r else r) = g r
  split
  · next hp => exact h r hr hp
  · rfl

/-- A query that does not see the deleted rows does not see the deletion. -/
lemma select_delete (h : ∀ r ∈ t.rows, p r = true → g r = none) :
    (t.delete p).select g = t.select g := by
  rw [select, delete, List.filterMap_filter, select]
  apply List.filterMap_congr
  intro r hr
  cases hp : p r with
  | false => rfl
  | true => exact (h r hr hp).symm

/-- A search that does not tell the changed rows from what they were finds the changed row. -/
lemma find?_update (hf : Narrows indexes f) (h : ∀ r ∈ t.rows, p r = true → q (f r) = q r) :
    (t.update p f hf).find? q = (t.find? q).map fun r => if p r then f r else r := by
  rw [find?, update, List.find?_map, find?]
  congr 1
  refine List.find?_congr fun r hr => ?_
  rw [Function.comp_apply]
  split
  · next hp => exact h r hr hp
  · rfl

lemma find?_insert? (h : t.insert? r = some t') :
    t'.find? q = (t.find? q).or (if q r then some r else none) := by
  rw [find?, rows_insert? h, List.find?_append, find?, List.find?_singleton]

lemma find?_delete (h : ∀ r ∈ t.rows, q r = true → p r = false) :
    (t.delete p).find? q = t.find? q := by
  rw [find?, delete, List.find?_filter, find?]
  refine List.find?_congr fun r hr => ?_
  cases hq : q r with
  | true => simp [h r hr hq]
  | false => simp

end Table

/-! ## Sorted queries -/

section OrderBy

variable {α κ : Type*} [LinearOrder κ]

/-- The list in the order of a key. -/
def orderBy (key : α → κ) (l : List α) : List α := l.insertionSort fun a b => key a ≤ key b

variable {key : α → κ} {l : List α} {a : α}

lemma orderedInsert_of_forall_le (h : ∀ b ∈ l, key a ≤ key b) :
    l.orderedInsert (fun a b => key a ≤ key b) a = a :: l := by
  cases l with
  | nil => rfl
  | cons b l => rw [List.orderedInsert_cons, if_pos (h b List.mem_cons_self)]

lemma filter_orderedInsert (p : α → Bool) (hl : l.Pairwise fun a b => key a ≤ key b) :
    (l.orderedInsert (fun a b => key a ≤ key b) a).filter p =
      if p a then (l.filter p).orderedInsert (fun a b => key a ≤ key b) a else l.filter p := by
  induction l with
  | nil => cases hp : p a <;> simp [hp]
  | cons b l ih =>
    obtain ⟨hb, hl⟩ := List.pairwise_cons.mp hl
    by_cases hab : key a ≤ key b
    · have hfirst : ∀ c ∈ (b :: l).filter p, key a ≤ key c := by
        intro c hc
        rcases List.mem_cons.mp (List.mem_of_mem_filter hc) with rfl | hc
        · exact hab
        · exact hab.trans (hb c hc)
      rw [List.orderedInsert_cons, if_pos hab, orderedInsert_of_forall_le hfirst, List.filter_cons]
    · rw [List.orderedInsert_cons, if_neg hab, List.filter_cons, List.filter_cons, ih hl]
      cases hpb : p b <;> cases hpa : p a <;> simp [hab]

/-- Rows may be dropped before or after they are sorted. -/
lemma filter_orderBy (p : α → Bool) (l : List α) :
    (orderBy key l).filter p = orderBy key (l.filter p) := by
  have : Std.Total fun a b : α => key a ≤ key b := ⟨fun a b => le_total (key a) (key b)⟩
  have : IsTrans α fun a b => key a ≤ key b := ⟨fun _ _ _ h h' => le_trans h h'⟩
  induction l with
  | nil => rfl
  | cons a l ih =>
    have hsorted : (orderBy key l).Pairwise fun a b => key a ≤ key b :=
      List.pairwise_insertionSort _ l
    rw [orderBy, List.insertionSort_cons, ← orderBy, filter_orderedInsert p hsorted, ih,
      List.filter_cons]
    cases p a <;> rfl

lemma map_orderBy {β : Type*} {key' : β → κ} (f : α → β) (h : ∀ a, key' (f a) = key a)
    (l : List α) : (orderBy key l).map f = orderBy key' (l.map f) :=
  List.map_insertionSort _ _ f l fun a _ b _ => by rw [h, h]

@[simp] lemma mem_orderBy : a ∈ orderBy key l ↔ a ∈ l := (List.perm_insertionSort _ l).mem_iff

end OrderBy

end Fluxpeer.Lib
