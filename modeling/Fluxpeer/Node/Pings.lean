import Fluxpeer.Lib.Run
import Fluxpeer.Node.Probes

/-!
# Pings are accepted once

A ping is known by its transaction id, which carries the time at which it was sent. The ids that
were accepted are kept until that time, which may lie ahead of the clock, is too old to be accepted.
-/

namespace Fluxpeer.Node

open Lib Net HashMap

namespace Probes

variable {p : Probes} {id id' : TxId} {now : Nat}

/-- The ids that are still kept at a time. -/
def live (p : Probes) (now : Nat) : HashMap TxId Nat := p.seen.retain fun _ expires => expires ≥ now

/-- A ping is refused, or it is in time, was not kept, and is kept from now on. -/
lemma acceptPing_cases (p : Probes) (id : TxId) (now : Nat) :
    p.acceptPing id now = ({ p with seen := p.live now }, false) ∨
      absDiff now (timestamp id) ≤ discoReplayWindowSecs ∧ (p.live now).lookup id = none ∧
        (p.live now).len < probeCapacity ∧
        p.acceptPing id now = ({ p with
          seen := (p.live now).insert id
            (saturatingAdd (timestamp id) discoReplayWindowSecs) }, true) := by
  unfold acceptPing
  dsimp only
  split
  · exact .inl rfl
  next h =>
  simp only [not_or, Nat.not_lt, Nat.not_le, contains, Bool.not_eq_true,
    Option.isSome_eq_false_iff, Option.isNone_iff_eq_none] at h
  exact .inr ⟨h.1, h.2.1, h.2.2, rfl⟩

/-- The time of an id is too old at `now`, and at any time from then on. -/
def Stale (id : TxId) (now : Nat) : Prop := timestamp id + discoReplayWindowSecs < now

lemma Stale.mono {later : Nat} (h : Stale id now) (hle : now ≤ later) : Stale id later :=
  Nat.lt_of_lt_of_le h hle

lemma Stale.not_accepted (h : Stale id now) :
    discoReplayWindowSecs < absDiff now (timestamp id) := by
  unfold Stale at h
  unfold absDiff
  omega

/-- Every id is kept as long as its time can be accepted. -/
structure Keeps (p : Probes) : Prop where
  expires : ∀ id expires, p.seen.lookup id = some expires →
    expires = saturatingAdd (timestamp id) discoReplayWindowSecs
  few : p.seen.len ≤ probeCapacity

lemma keeps_default : default.Keeps := by
  constructor
  · intro id expires h
    cases h
  · exact Nat.zero_le _

/-- The clock is a 64-bit number, so an entry whose expiry is the greatest one stays. -/
lemma Keeps.live_or_stale (h : p.Keeps) (now : UInt64) {expires : Nat}
    (hseen : p.seen.lookup id = some expires) :
    (p.live now.toNat).lookup id = some expires ∨ Stale id now.toNat := by
  have hexpires := h.expires id expires hseen
  have hnow := now.toNat_lt
  unfold saturatingAdd at hexpires
  rw [live, lookup_retain, hseen]
  by_cases hlive : now.toNat ≤ expires
  · left
    simp [hlive]
  · right
    unfold Stale
    omega

lemma Keeps.acceptPing (h : p.Keeps) (id : TxId) (now : Nat) : (p.acceptPing id now).1.Keeps := by
  have hlive : ∀ id expires, (p.live now).lookup id = some expires →
      expires = saturatingAdd (timestamp id) discoReplayWindowSecs := by
    intro id expires hlookup
    rw [live, lookup_retain, Option.filter_eq_some_iff] at hlookup
    exact h.expires id expires hlookup.1
  rcases acceptPing_cases p id now with heq | ⟨-, hnew, hroom, heq⟩
  · rw [heq]
    exact ⟨hlive, Nat.le_trans (len_retain_le ..) h.few⟩
  rw [heq]
  constructor
  · intro id' expires hlookup
    rw [lookup_insert] at hlookup
    split at hlookup
    · next hid =>
      cases hlookup
      rw [hid]
    · exact hlive id' expires hlookup
  · dsimp only
    rw [len_insert_of_none hnew]
    exact hroom

/-- What was kept is kept, or too old. -/
lemma Keeps.stays (h : p.Keeps) (id : TxId) (now : UInt64)
    (hkept : (p.seen.lookup id').isSome) :
    ((p.acceptPing id now.toNat).1.seen.lookup id').isSome ∨ Stale id' now.toNat := by
  obtain ⟨expires, hseen⟩ := Option.isSome_iff_exists.mp hkept
  rcases h.live_or_stale now hseen with hlive | hstale
  · left
    rcases acceptPing_cases p id now.toNat with heq | ⟨-, -, -, heq⟩
    · rw [heq, hlive]
      rfl
    rw [heq, lookup_insert]
    split
    · rfl
    · rw [hlive]
      rfl
  · exact .inr hstale

/-- What is kept or too old is not accepted. -/
lemma Keeps.refuses (h : p.Keeps) {now : UInt64}
    (hold : (p.seen.lookup id).isSome ∨ Stale id now.toNat) :
    (p.acceptPing id now.toNat).2 = false := by
  rcases acceptPing_cases p id now.toNat with heq | ⟨htime, hnew, -, -⟩
  · rw [heq]
  have hstale : Stale id now.toNat := by
    rcases hold with hkept | hstale
    · obtain ⟨expires, hseen⟩ := Option.isSome_iff_exists.mp hkept
      rcases h.live_or_stale now hseen with hlive | hstale
      · rw [hnew] at hlive
        cases hlive
      · exact hstale
    · exact hstale
  exact absurd htime (Nat.not_le.mpr hstale.not_accepted)

lemma kept_of_accepted (h : (p.acceptPing id now).2 = true) :
    ((p.acceptPing id now).1.seen.lookup id).isSome ∧
      absDiff now (timestamp id) ≤ discoReplayWindowSecs := by
  rcases acceptPing_cases p id now with heq | ⟨htime, -, -, heq⟩
  · rw [heq] at h
    cases h
  · refine ⟨?_, htime⟩
    rw [heq, lookup_insert, if_pos rfl]
    rfl

/-! ## Sequences of pings -/

/-- An authenticated ping, and the time at which it is looked at. -/
structure Ping where
  id : TxId
  now : UInt64

def ping (p : Probes) (c : Ping) : Option Probes := some (p.acceptPing c.id c.now.toNat).1

def accepts (p : Probes) (c : Ping) : Bool := (p.acceptPing c.id c.now.toNat).2

section Runs

variable {pings : List Ping} {state : Nat → Probes}

lemma keeps_at (hrun : StatesOf ping default pings state) {k : Nat} (hk : k ≤ pings.length) :
    (state k).Keeps := by
  refine hrun.induct (Q := fun _ p => p.Keeps) keeps_default (fun k c _ hstep h => ?_) hk
  rw [← Option.some.inj hstep]
  exact h.acceptPing c.id c.now.toNat

/-- After it was accepted an id is kept until the clock has passed it. -/
lemma kept_or_stale (hrun : StatesOf ping default pings state) {i j : Nat} {c : Ping}
    (hi : pings[i]? = some c) (hacc : (state i).accepts c = true) (hij : i < j)
    (hj : j ≤ pings.length) :
    ((state j).seen.lookup c.id).isSome ∨
      ∃ (m : Nat) (c' : Ping), m < j ∧ pings[m]? = some c' ∧ Stale c.id c'.now.toNat := by
  induction hij with
  | refl =>
    left
    rw [← Option.some.inj (hrun.step_at hi)]
    exact (kept_of_accepted hacc).1
  | @step n hin ih =>
    have hevent := List.getElem?_eq_getElem hj
    rcases ih (Nat.le_of_succ_le hj) with hkept | ⟨m, c', hm, hc', hstale⟩
    · have hkeeps := keeps_at hrun (Nat.le_of_succ_le hj)
      rw [← Option.some.inj (hrun.step_at hevent)]
      rcases hkeeps.stays pings[n].id pings[n].now hkept with hkept' | hstale
      · exact .inl hkept'
      · exact .inr ⟨n, pings[n], Nat.lt_succ_self n, hevent, hstale⟩
    · exact .inr ⟨m, c', Nat.lt_succ_of_lt hm, hc', hstale⟩

/-- With a clock that does not go back: no id is accepted twice; what is accepted is in time; not
more than 128 ids are kept; and an id is dropped only when it cannot be accepted any more. -/
theorem pings_accepted_once (hclock : pings.Pairwise fun c c' => c.now ≤ c'.now)
    (hrun : StatesOf ping default pings state) :
    (∀ i j c c', i < j → pings[i]? = some c → pings[j]? = some c' → (state i).accepts c = true →
      (state j).accepts c' = true → c.id ≠ c'.id) ∧
    (∀ i c, pings[i]? = some c → (state i).accepts c = true →
      absDiff c.now.toNat (timestamp c.id) ≤ 30) ∧
    (∀ k ≤ pings.length, (state k).seen.len ≤ 128) ∧
    (∀ i c id, pings[i]? = some c → ((state i).seen.lookup id).isSome →
      (state (i + 1)).seen.lookup id = none →
      ∀ now : UInt64, c.now ≤ now → 30 < absDiff now.toNat (timestamp id)) := by
  refine ⟨?_, ?_, ?_, ?_⟩
  · rintro i j c c' hij hi hj hacc hacc' hid
    have hlt : j < pings.length := (List.getElem?_eq_some_iff.mp hj).1
    have hold : ((state j).seen.lookup c'.id).isSome ∨ Stale c'.id c'.now.toNat := by
      rw [← hid]
      rcases kept_or_stale hrun hi hacc hij (Nat.le_of_lt hlt) with hkept | ⟨m, d, hm, hd, hstale⟩
      · exact .inl hkept
      right
      have hle : d.now ≤ c'.now := by
        obtain ⟨hm', rfl⟩ := List.getElem?_eq_some_iff.mp hd
        obtain ⟨hj', rfl⟩ := List.getElem?_eq_some_iff.mp hj
        exact List.pairwise_iff_getElem.mp hclock m j hm' hj' hm
      exact hstale.mono (UInt64.le_iff_toNat_le.mp hle)
    have hrefused := (keeps_at hrun (Nat.le_of_lt hlt)).refuses hold
    rw [accepts, hrefused] at hacc'
    cases hacc'
  · intro i c hi hacc
    exact (kept_of_accepted hacc).2
  · intro k hk
    exact (keeps_at hrun hk).few
  · intro i c id hi hkept hdropped now hle
    have hlt : i < pings.length := (List.getElem?_eq_some_iff.mp hi).1
    have hstays := (keeps_at hrun (Nat.le_of_lt hlt)).stays c.id c.now hkept
    rw [← Option.some.inj (hrun.step_at hi)] at hdropped
    rw [hdropped] at hstays
    rcases hstays with hkept' | hstale
    · cases hkept'
    · exact (hstale.mono (UInt64.le_iff_toNat_le.mp hle)).not_accepted

end Runs

/-- The transaction id of a ping that was sent at a time. -/
def idAt (sent : Nat) : TxId := ⟨beBytes 8 sent ++ [1, 2, 3, 4], by simp⟩

/-- A ping from a clock that is ahead, twice, and again when it is kept no longer. -/
def aheadPings : List Ping := [⟨idAt 1020, 1000⟩, ⟨idAt 1020, 1045⟩, ⟨idAt 1020, 1051⟩]

def aheadState (k : Nat) : Probes :=
  (runFrom ping default (aheadPings.take k)).getD default

theorem pings_accepted_once_ahead :
    (aheadState 0).accepts ⟨idAt 1020, 1000⟩ = true ∧
      ((aheadState 2).seen.lookup (idAt 1020)).isSome ∧
      (aheadState 3).seen.lookup (idAt 1020) = none ∧
      ∀ now : UInt64, 1051 ≤ now → 30 < absDiff now.toNat (timestamp (idAt 1020)) := by
  have hrun : StatesOf ping default aheadPings aheadState := statesOf_of_isSome (by decide +kernel)
  have hkept : ((aheadState 2).seen.lookup (idAt 1020)).isSome := by decide +kernel
  have hdropped : (aheadState 3).seen.lookup (idAt 1020) = none := by decide +kernel
  obtain ⟨-, -, -, hdrops⟩ := pings_accepted_once (by simp [aheadPings]) hrun
  exact ⟨by decide +kernel, hkept, hdropped, hdrops 2 _ _ rfl hkept hdropped⟩

end Probes

end Fluxpeer.Node
