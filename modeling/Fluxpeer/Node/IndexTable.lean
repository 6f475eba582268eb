import Fluxpeer.Lib.HashMap
import Fluxpeer.Lib.Run
import Fluxpeer.Crypto.Primitives

/-!
# Index tables

A worker maps the session indices it assigned to peers, and publishes them in a map that all
workers share, so that a reader can route a datagram to the worker of its index. For each peer a
table keeps three indices: the confirmed one, the one before it, and one that waits.
-/

namespace Fluxpeer.Node

open Lib Crypto HashMap

/-- The shared map from session indices to the ids of the workers that assigned them. -/
abbrev IndexOwner := HashMap UInt32 Nat

structure IndexSlots where
  current : Option UInt32
  previous : Option UInt32
  pending : Option UInt32
deriving DecidableEq

namespace IndexSlots

def default : IndexSlots := ⟨none, none, none⟩

/-- The indices that `prune` keeps. -/
def keep (s : IndexSlots) : List (Option UInt32) := [s.current, s.previous, s.pending]

end IndexSlots

/-- A worker's table; `locals` is the field `local` of the source. -/
structure IndexTable where
  locals : HashMap UInt32 Key
  wid : Nat
  slots : HashMap Key IndexSlots

namespace IndexTable

def empty (wid : Nat) : IndexTable := ⟨∅, wid, ∅⟩

/-- The slots of a peer, empty ones if it has none. -/
def slotsOf (t : IndexTable) (pk : Key) : IndexSlots := (t.slots.lookup pk).getD .default

def get (t : IndexTable) (idx : UInt32) : Option Key := t.locals.lookup idx

/-- The index belongs to the peer and is in none of its slots. -/
def stale (t : IndexTable) (pk : Key) (idx : UInt32) : Bool :=
  t.locals.lookup idx = some pk && !(t.slotsOf pk).keep.contains (some idx)

def prune (t : IndexTable) (owner : IndexOwner) (pk : Key) : IndexTable × IndexOwner :=
  match t.slots.lookup pk with
  | none => (t, owner)
  | some _ =>
    ({ t with locals := t.locals.retain fun idx _ => !t.stale pk idx },
      owner.retain fun idx wid => !(t.stale pk idx && wid == t.wid))

def insert (t : IndexTable) (owner : IndexOwner) (idx : UInt32) (pk : Key) :
    IndexTable × IndexOwner :=
  let t := { t with slots := t.slots.insert pk { t.slotsOf pk with pending := some idx } }
  let (t, owner) := t.prune owner pk
  ({ t with locals := t.locals.insert idx pk }, owner.insert idx t.wid)

def confirm (t : IndexTable) (owner : IndexOwner) (idx : UInt32) (pk : Key) :
    IndexTable × IndexOwner :=
  match t.slots.lookup pk with
  | none => (t, owner)
  | some s =>
    if s.pending = some idx then
      let t := { t with slots := t.slots.insert pk ⟨s.pending, s.current, none⟩ }
      t.prune owner pk
    else (t, owner)

def removePeer (t : IndexTable) (owner : IndexOwner) (pk : Key) : IndexTable × IndexOwner :=
  ({ t with
      slots := t.slots.erase pk
      locals := t.locals.retain fun _ peer => peer ≠ pk },
    owner.retain fun idx _ => t.locals.lookup idx ≠ some pk)

/-! ## Consistency -/

/-- Every index of the table is published under this worker, and the slots of a peer hold indices
that the table maps to it. -/
structure Consistent (t : IndexTable) (owner : IndexOwner) : Prop where
  owned : ∀ idx pk, t.locals.lookup idx = some pk → owner.lookup idx = some t.wid
  listed : ∀ pk idx, some idx ∈ (t.slotsOf pk).keep → t.locals.lookup idx = some pk

variable {t : IndexTable} {owner : IndexOwner} {pk : Key} {idx : UInt32}

lemma consistent_empty (wid : Nat) (owner : IndexOwner) : (empty wid).Consistent owner where
  owned := by simp [empty]
  listed := by simp [empty, slotsOf, IndexSlots.default, IndexSlots.keep]

/-- What `prune` leaves of the table. -/
lemma prune_locals (i : UInt32) :
    (t.prune owner pk).1.locals.lookup i =
      if t.stale pk i ∧ (t.slots.lookup pk).isSome then none else t.locals.lookup i := by
  unfold prune
  cases h : t.slots.lookup pk with
  | none => simp
  | some s =>
    simp only [lookup_retain]
    cases hstale : t.stale pk i <;> cases t.locals.lookup i <;> simp

/-- What `prune` leaves of the shared map. -/
lemma prune_owner (i : UInt32) :
    (t.prune owner pk).2.lookup i =
      if (t.stale pk i ∧ (t.slots.lookup pk).isSome) ∧ owner.lookup i = some t.wid then none
      else owner.lookup i := by
  unfold prune
  cases h : t.slots.lookup pk with
  | none => simp
  | some s =>
    simp only [lookup_retain]
    cases hstale : t.stale pk i <;> cases owner.lookup i <;> simp
    grind

@[simp] lemma prune_slots : (t.prune owner pk).1.slots = t.slots := by
  unfold prune
  split <;> rfl

@[simp] lemma prune_wid : (t.prune owner pk).1.wid = t.wid := by
  unfold prune
  split <;> rfl

lemma stale_iff (i : UInt32) :
    t.stale pk i = true ↔ t.locals.lookup i = some pk ∧ some i ∉ (t.slotsOf pk).keep := by
  simp [stale]

/-! ### `insert` -/

lemma slotsOf_insert (pk' : Key) :
    (t.insert owner idx pk).1.slotsOf pk' =
      if pk' = pk then { t.slotsOf pk with pending := some idx } else t.slotsOf pk' := by
  simp only [insert, slotsOf, prune_slots, lookup_insert]
  split <;> rfl

@[simp] lemma insert_wid : (t.insert owner idx pk).1.wid = t.wid := by
  simp [insert]

variable (t owner pk idx) in
/-- The index is mapped to the peer; of the peer's others, those stay that are in a slot. -/
lemma insert_locals (i : UInt32) :
    (t.insert owner idx pk).1.locals.lookup i =
      if i = idx then some pk
      else if t.locals.lookup i = some pk ∧
        some i ∉ [(t.slotsOf pk).current, (t.slotsOf pk).previous] then none
      else t.locals.lookup i := by
  simp only [insert, lookup_insert, prune_locals, stale_iff, slotsOf, IndexSlots.keep]
  grind

lemma insert_owner (i : UInt32) :
    (t.insert owner idx pk).2.lookup i =
      if i = idx then some t.wid
      else if (t.locals.lookup i = some pk ∧
        some i ∉ [(t.slotsOf pk).current, (t.slotsOf pk).previous]) ∧
        owner.lookup i = some t.wid then none
      else owner.lookup i := by
  simp only [insert, lookup_insert, prune_owner, stale_iff, slotsOf, IndexSlots.keep,
    prune_wid]
  grind

/-- An index that no other peer has may be inserted. -/
lemma Consistent.insert (h : t.Consistent owner)
    (hfree : ∀ pk', t.locals.lookup idx = some pk' → pk' = pk) :
    (t.insert owner idx pk).1.Consistent (t.insert owner idx pk).2 where
  owned := by
    intro i pk' hi
    have := h.owned i pk'
    rw [insert_locals] at hi
    rw [insert_owner, insert_wid]
    grind
  listed := by
    intro pk' i hi
    have hlisted := h.listed pk' i
    rw [slotsOf_insert] at hi
    rw [insert_locals]
    simp only [IndexSlots.keep] at hi hlisted
    grind

/-! ### `confirm` -/

lemma slotsOf_confirm (t : IndexTable) (owner : IndexOwner) (idx : UInt32) (pk pk' : Key) :
    (t.confirm owner idx pk).1.slotsOf pk' =
      if pk' = pk ∧ (t.slotsOf pk).pending = some idx then
        ⟨some idx, (t.slotsOf pk).current, none⟩
      else t.slotsOf pk' := by
  unfold confirm
  cases h : t.slots.lookup pk with
  | none => simp [slotsOf, h, IndexSlots.default]
  | some s =>
    by_cases hp : s.pending = some idx
    · simp only [hp, if_true, slotsOf, prune_slots, lookup_insert, h, Option.getD_some]
      grind
    · simp [hp, slotsOf, h]

@[simp] lemma confirm_wid : (t.confirm owner idx pk).1.wid = t.wid := by
  unfold confirm
  split
  · rfl
  · split <;> simp

variable (t owner idx pk) in
lemma confirm_locals (i : UInt32) :
    (t.confirm owner idx pk).1.locals.lookup i =
      if (t.slotsOf pk).pending = some idx ∧ t.locals.lookup i = some pk ∧
        some i ∉ [some idx, (t.slotsOf pk).current] then none
      else t.locals.lookup i := by
  unfold confirm
  cases h : t.slots.lookup pk with
  | none => simp [slotsOf, h, IndexSlots.default]
  | some s =>
    by_cases hp : s.pending = some idx
    · simp only [hp, if_true, prune_locals, stale_iff, slotsOf, lookup_insert, h]
      grind [IndexSlots.keep]
    · simp [hp, slotsOf, h]

lemma confirm_owner (i : UInt32) :
    (t.confirm owner idx pk).2.lookup i =
      if ((t.slotsOf pk).pending = some idx ∧ t.locals.lookup i = some pk ∧
        some i ∉ [some idx, (t.slotsOf pk).current]) ∧ owner.lookup i = some t.wid then none
      else owner.lookup i := by
  unfold confirm
  cases h : t.slots.lookup pk with
  | none => simp [slotsOf, h, IndexSlots.default]
  | some s =>
    by_cases hp : s.pending = some idx
    · simp only [hp, if_true, prune_owner, stale_iff, slotsOf, lookup_insert, h]
      grind [IndexSlots.keep]
    · simp [hp, slotsOf, h]

lemma Consistent.confirm (h : t.Consistent owner) (idx : UInt32) (pk : Key) :
    (t.confirm owner idx pk).1.Consistent (t.confirm owner idx pk).2 where
  owned := by
    intro i pk' hi
    have := h.owned i pk'
    rw [confirm_locals] at hi
    rw [confirm_owner, confirm_wid]
    grind
  listed := by
    intro pk' i hi
    have hlisted := h.listed pk' i
    rw [slotsOf_confirm] at hi
    rw [confirm_locals]
    simp only [IndexSlots.keep] at hi hlisted
    grind

/-! ### `remove_peer` -/

lemma removePeer_locals (i : UInt32) :
    (t.removePeer owner pk).1.locals.lookup i =
      if t.locals.lookup i = some pk then none else t.locals.lookup i := by
  simp only [removePeer, lookup_retain]
  cases t.locals.lookup i <;> grind

lemma removePeer_owner (i : UInt32) :
    (t.removePeer owner pk).2.lookup i =
      if t.locals.lookup i = some pk then none else owner.lookup i := by
  simp only [removePeer, lookup_retain]
  cases owner.lookup i <;> grind

variable (owner) in
lemma slotsOf_removePeer (pk' : Key) :
    (t.removePeer owner pk).1.slotsOf pk' =
      if pk' = pk then .default else t.slotsOf pk' := by
  simp only [removePeer, slotsOf, lookup_erase]
  split <;> rfl

lemma Consistent.removePeer (h : t.Consistent owner) (pk : Key) :
    (t.removePeer owner pk).1.Consistent (t.removePeer owner pk).2 where
  owned := by
    intro i pk' hi
    have := h.owned i pk'
    rw [removePeer_locals] at hi
    rw [removePeer_owner]
    change _ = some t.wid
    grind
  listed := by
    intro pk' i hi
    have hlisted := h.listed pk' i
    rw [slotsOf_removePeer] at hi
    rw [removePeer_locals]
    split at hi
    · simp [IndexSlots.keep, IndexSlots.default] at hi
    · grind

/-! ## Runs -/

/-- A table that starts with an index for each of some peers. -/
def new (locals : HashMap UInt32 Key) (wid : Nat) : IndexTable where
  locals
  wid
  slots := (locals.entries.map fun e => (⟨e.2, none, none, some e.1⟩ : (_ : Key) × IndexSlots)).toAList

/-- Besides, the table maps no other indices, and this worker has no others. -/
structure Exact (t : IndexTable) (owner : IndexOwner) : Prop extends t.Consistent owner where
  kept : ∀ pk idx, t.locals.lookup idx = some pk → some idx ∈ (t.slotsOf pk).keep
  ours : ∀ idx, owner.lookup idx = some t.wid → (t.locals.lookup idx).isSome

lemma exact_new {locals : HashMap UInt32 Key} {wid : Nat}
    (hone : (locals.entries.map (·.2)).Nodup)
    (howner : ∀ idx, owner.lookup idx = some wid ↔ (locals.lookup idx).isSome) :
    (new locals wid).Exact owner := by
  have hslots : ∀ pk s, (new locals wid).slots.lookup pk = some s ↔
      ∃ idx, locals.lookup idx = some pk ∧ s = ⟨none, none, some idx⟩ := by
    intro pk s
    rw [new, AList.lookup_to_alist, ← Option.mem_def, List.mem_dlookup_iff]
    · simp only [List.mem_map, Sigma.exists, ← AList.mem_lookup_iff, Option.mem_def]
      grind
    · rwa [List.NodupKeys, List.keys, List.map_map]
  refine ⟨⟨fun idx pk hpk => (howner idx).mpr (Option.isSome_of_mem hpk), ?_⟩, ?_,
    fun idx => (howner idx).mp⟩
  · intro pk idx hidx
    cases hs : (new locals wid).slots.lookup pk with
    | none => simp [slotsOf, hs, IndexSlots.keep, IndexSlots.default] at hidx
    | some s =>
      obtain ⟨idx', hidx', rfl⟩ := (hslots pk s).mp hs
      simp only [slotsOf, hs, IndexSlots.keep] at hidx
      grind [new]
  · intro pk idx hidx
    simp [slotsOf, (hslots pk _).mpr ⟨idx, hidx, rfl⟩, IndexSlots.keep]

lemma Exact.insert (h : t.Exact owner)
    (hfree : ∀ pk', t.locals.lookup idx = some pk' → pk' = pk) :
    (t.insert owner idx pk).1.Exact (t.insert owner idx pk).2 where
  toConsistent := h.toConsistent.insert hfree
  kept := by
    intro pk' i hi
    have hkept := h.kept pk' i
    rw [insert_locals] at hi
    rw [slotsOf_insert]
    simp only [IndexSlots.keep] at hkept ⊢
    grind
  ours := by
    intro i hi
    have := h.ours i
    rw [insert_owner, insert_wid] at hi
    rw [insert_locals]
    grind

lemma Exact.confirm (h : t.Exact owner) (idx : UInt32) (pk : Key) :
    (t.confirm owner idx pk).1.Exact (t.confirm owner idx pk).2 where
  toConsistent := h.toConsistent.confirm idx pk
  kept := by
    intro pk' i hi
    have hkept := h.kept pk' i
    rw [confirm_locals] at hi
    rw [slotsOf_confirm]
    simp only [IndexSlots.keep] at hkept ⊢
    grind
  ours := by
    intro i hi
    have := h.ours i
    rw [confirm_owner, confirm_wid] at hi
    rw [confirm_locals]
    grind

lemma Exact.removePeer (h : t.Exact owner) (pk : Key) :
    (t.removePeer owner pk).1.Exact (t.removePeer owner pk).2 where
  toConsistent := h.toConsistent.removePeer pk
  kept := by
    intro pk' i hi
    have := h.kept pk' i
    rw [removePeer_locals] at hi
    rw [slotsOf_removePeer]
    grind
  ours := by
    intro i hi
    have := h.ours i
    change _ = some t.wid at hi
    rw [removePeer_owner] at hi
    rw [removePeer_locals]
    grind

inductive Op
  | insert (idx : UInt32) (pk : Key)
  | confirm (idx : UInt32) (pk : Key)
  | removePeer (pk : Key)

def step (x : IndexTable × IndexOwner) : Op → Option (IndexTable × IndexOwner)
  | .insert idx pk => some (x.1.insert x.2 idx pk)
  | .confirm idx pk => some (x.1.confirm x.2 idx pk)
  | .removePeer pk => some (x.1.removePeer x.2 pk)

/-- An index that is inserted belongs to no other peer. -/
def Distinct (x : IndexTable × IndexOwner) : Op → IndexTable × IndexOwner → Prop
  | .insert idx pk, _ => ∀ pk', x.1.get idx = some pk' → pk' = pk
  | _, _ => True

lemma Exact.step {x x' : IndexTable × IndexOwner} {op : Op} (h : x.1.Exact x.2)
    (hstep : step x op = some x') (hop : Distinct x op x') : x'.1.Exact x'.2 := by
  cases op with
  | insert idx pk =>
    cases hstep
    exact h.insert hop
  | confirm idx pk =>
    cases hstep
    exact h.confirm idx pk
  | removePeer pk =>
    cases hstep
    exact h.removePeer pk

/-- After any calls in which distinct peers use distinct indices a peer's entries are its slots, three
at most, the shared map has them and no other index of this worker, and `remove_peer` takes them out
of both maps. -/
theorem entries_are_slots (locals : HashMap UInt32 Key) (wid : Nat) (owner : IndexOwner)
    (hone : (locals.entries.map (·.2)).Nodup)
    (howner : ∀ idx, owner.lookup idx = some wid ↔ (locals.lookup idx).isSome) (ops : List Op)
    (hops : EveryStep step Distinct (new locals wid, owner) ops) (x : IndexTable × IndexOwner)
    (hrun : runFrom step (new locals wid, owner) ops = some x) :
    (∀ pk idx, x.1.get idx = some pk ↔ some idx ∈ (x.1.slotsOf pk).keep) ∧
    (∀ pk, ∃ idxs : List UInt32, idxs.length ≤ 3 ∧ ∀ idx, x.1.get idx = some pk ↔ idx ∈ idxs) ∧
    (∀ idx, x.2.lookup idx = some x.1.wid ↔ ∃ pk, x.1.get idx = some pk) ∧
    ∀ pk idx, x.1.get idx = some pk → (x.1.removePeer x.2 pk).1.get idx = none ∧
      (x.1.removePeer x.2 pk).2.lookup idx = none := by
  have h := inv_of_everyStep (fun _ _ _ => Exact.step) (exact_new hone howner) hops hrun
  have hentries : ∀ pk idx, x.1.get idx = some pk ↔ some idx ∈ (x.1.slotsOf pk).keep :=
    fun pk idx => ⟨h.kept pk idx, h.listed pk idx⟩
  refine ⟨hentries, fun pk => ⟨(x.1.slotsOf pk).keep.filterMap id,
    List.length_filterMap_le .., by simp [hentries]⟩, ?_, ?_⟩
  · intro idx
    rw [← Option.isSome_iff_exists]
    refine ⟨h.ours idx, fun hsome => ?_⟩
    obtain ⟨pk, hpk⟩ := Option.isSome_iff_exists.mp hsome
    exact h.owned idx pk hpk
  · intro pk idx hidx
    exact ⟨(removePeer_locals idx).trans (if_pos hidx), (removePeer_owner idx).trans (if_pos hidx)⟩

/-- A session and the next rekey. -/
def rekeys : List Op :=
  [.insert 1 (.replicate 32 0), .confirm 1 (.replicate 32 0), .insert 2 (.replicate 32 0)]

theorem entries_are_slots_rekeys : ∃ x, runFrom step (new ∅ 3, ∅) rekeys = some x ∧
    x.2.lookup 1 = some x.1.wid ∧ (x.1.removePeer x.2 (.replicate 32 0)).2.lookup 1 = none := by
  have hops : EveryStep step Distinct (new ∅ 3, ∅) rekeys :=
    .cons rfl nofun (.cons rfl trivial (.cons rfl nofun trivial))
  obtain ⟨-, -, howned, hremoved⟩ := entries_are_slots ∅ 3 ∅ .nil (by simp) rekeys hops _ rfl
  exact ⟨_, rfl, (howned 1).mpr ⟨_, rfl⟩, (hremoved (.replicate 32 0) 1 rfl).2⟩

end IndexTable

end Fluxpeer.Node
