import Fluxpeer.Control.AdminRuns

/-!
# Changes of passwords

`admin_change_password` verifies the old password against the hash that it reads in one statement;
the update in a later one replaces whatever is stored by then. A change replaces the hash it has
verified if no other request writes the account in between.
-/

namespace Fluxpeer.Control

open Lib AdminTask

namespace AdminTask

/-- The account of a password that is changed next. -/
def changes : AdminTask → Option String
  | .passwordWrite user _ => some user
  | _ => none

/-- The account whose hash is replaced or dropped next. -/
def replaces : AdminTask → Option String
  | .passwordWrite user _ | .deleteWrite user => some user
  | _ => none

end AdminTask

/-- The request that takes a step. -/
def AdminEvent.call? : AdminEvent → Option Nat
  | .advance id _ => some id
  | _ => none

section

variable {H : Hashing} {env : AdminEnv} {now : Nat} {accounts : Accounts} {sessions : Sessions}

/-- Only a change or a deletion takes the hash of an account away. -/
lemma AdminTask.step_hash_of_some {task : AdminTask} {u h : String}
    (hstored : accounts.adminHash u = some h) (hne : task.replaces ≠ some u) :
    (task.step H env now accounts sessions).1.adminHash u = some h := by
  have hcreate : ∀ username password,
      ((accounts.createAdmin username (H.hashPassword password env.draw)).getD accounts).adminHash
        u = some h := by
    intro username password
    cases hinsert : accounts.createAdmin username (H.hashPassword password env.draw) with
    | none => exact hstored
    | some t => rw [Option.getD_some, adminHash_createAdmin u hinsert, hstored, Option.some_or]
  cases task with
  | passwordWrite | deleteWrite | createWrite | seedWrite | sessionCheck =>
    simp only [step]
    grind [replaces, adminHash_updateAdminPassword, adminHash_deleteAdmin]
  | _ => exact hstored

/-- A change that goes on to its update has verified the old password against the stored hash. -/
lemma AdminTask.step_passwordWrite {task : AdminTask} {user old fresh : String}
    (htask : task = .passwordRead user old fresh)
    (h : (task.step H env now accounts sessions).2.2 = some (passwordWrite user fresh)) :
    ∃ hash, accounts.adminHash user = some hash ∧ H.verify old hash = true := by
  subst htask
  simp only [step] at h
  split at h
  · cases h
  obtain ⟨hash, hstored, h⟩ := Option.bind_eq_some_iff.mp h
  split at h
  · next hverify => exact ⟨hash, hstored, hverify⟩
  · cases h

end

namespace Admins

/-- An account is not written while the password of it is about to be changed by another request. -/
def WritesAlone (s : Admins) : AdminEvent → Prop
  | .advance id _ => ∀ c ∈ s.calls id, ∀ user ∈ c.task.replaces, ∀ id' < s.nextCall, id' ≠ id →
    ∀ c' ∈ s.calls id', c'.task.changes ≠ some user
  | _ => True

/-- A request reads the account at position `r` and changes the password at position `k`. -/
structure ChangedAt (es : List AdminEvent) (state : Nat → Admins) (r k id : Nat)
    (user old fresh salt : String) : Prop where
  lt : r < k
  read : es[r]?.bind AdminEvent.call? = some id
  reads : ((state r).calls id).map AdminCall.task = some (.passwordRead user old fresh)
  write : es[k]? = some (.advance id ⟨salt, false⟩)
  writes : ((state k).calls id).map AdminCall.task = some (.passwordWrite user fresh)
  between : ∀ j < k, r < j → es[j]?.bind AdminEvent.call? ≠ some id

variable {H : Hashing} {master : Option String} {s s' : Admins} {e : AdminEvent} {id : Nat}
  {user old fresh salt : String}

lemma step_unused (h : s.step H master e = some s') (hs : ∀ id ≥ s.nextCall, s.calls id = none) :
    ∀ id ≥ s'.nextCall, s'.calls id = none := by
  intro id hid
  cases e with
  | advance id' env =>
    obtain ⟨c, hc, rfl⟩ := Option.map_eq_some_iff.mp h
    have := hs id hid
    simp only [advance]
    grind
  | _ =>
    cases h
    simp only [call] at hid ⊢
    grind

/-- A change that is about to be made was so before, or has just been verified. -/
lemma step_changing (h : s.step H master e = some s')
    (hid : (s'.calls id).map AdminCall.task = some (.passwordWrite user fresh)) :
    (s.calls id).map AdminCall.task = some (.passwordWrite user fresh) ∨ e.call? = some id := by
  obtain ⟨c, hc, htask⟩ := Option.map_eq_some_iff.mp hid
  rcases step_calls h hc with ⟨hold, -⟩ | ⟨env, c', rfl, -⟩ | hnew
  · exact .inl (by rw [hold, Option.map_some, htask])
  · exact .inr rfl
  · rw [htask] at hnew
    cases hnew

/-- Nobody else writes the account of a change that is about to be made. -/
lemma WritesAlone.hash {stored : String} (h : s.step H master e = some s')
    (hunused : ∀ id ≥ s.nextCall, s.calls id = none) (halone : s.WritesAlone e)
    (hid : (s.calls id).map AdminCall.task = some (.passwordWrite user fresh))
    (hne : e.call? ≠ some id) (hstored : s.hash user = some stored) :
    s'.hash user = some stored := by
  cases e with
  | advance id' env =>
    obtain ⟨c, hc, rfl⟩ := Option.map_eq_some_iff.mp h
    refine step_hash_of_some hstored fun hreplaces => ?_
    obtain ⟨c', hc', htask⟩ := Option.map_eq_some_iff.mp hid
    have hlt : id < s.nextCall := by
      by_contra hge
      cases (hunused id (Nat.le_of_not_lt hge)).symm.trans hc'
    refine halone c hc user hreplaces id hlt (fun heq => hne (heq ▸ rfl)) c' hc' ?_
    rw [htask, changes]
  | _ =>
    cases h
    exact hstored

section

variable {es : List AdminEvent} {state : Nat → Admins} {accounts : Accounts} {r k : Nat}
  (h : StatesOf (step H master) (new accounts) es state)
  (hchange : ChangedAt es state r k id user old fresh salt)

include h hchange

namespace ChangedAt

lemma event {j : Nat} (hj : j < k) :
    ∃ e, es[j]? = some e ∧ (state j).step H master e = some (state (j + 1)) := by
  have hlt := hj.trans (List.getElem?_eq_some_iff.mp hchange.write).1
  exact ⟨_, List.getElem?_eq_getElem hlt, h.step_at (List.getElem?_eq_getElem hlt)⟩

/-- From its read on the request is about to change the password. -/
lemma pending {j : Nat} (hj : r < j) (hjk : j ≤ k) :
    ((state j).calls id).map AdminCall.task = some (.passwordWrite user fresh) := by
  refine Nat.decreasingInduction' (fun i hik hji ih => ?_) hjk hchange.writes
  obtain ⟨e, hevent, hstep⟩ := hchange.event h hik
  refine (step_changing hstep ih).resolve_right fun he => ?_
  exact hchange.between i hik (hj.trans_le hji) (by rw [hevent, Option.bind_some, he])

/-- The old password was verified against the stored hash when the account was read. -/
lemma verified : ∃ hash, (state (r + 1)).hash user = some hash ∧ H.verify old hash = true := by
  obtain ⟨e, hevent, hstep⟩ := hchange.event h hchange.lt
  obtain ⟨c, hc, hreads⟩ := Option.map_eq_some_iff.mp hchange.reads
  have hwrites := hchange.pending h (Nat.lt_succ_self r) hchange.lt
  have hread := hchange.read
  rw [hevent, Option.bind_some] at hread
  cases e with
  | advance id' env =>
    cases hread
    obtain ⟨c', hc', hstate⟩ := Option.map_eq_some_iff.mp hstep
    cases hc.symm.trans hc'
    rw [← hstate] at hwrites ⊢
    simp only [advance, Function.update_self, Option.map_map] at hwrites
    obtain ⟨task, hnext, rfl⟩ := Option.map_eq_some_iff.mp hwrites
    obtain ⟨hash, hstored, hverify⟩ := step_passwordWrite hreads hnext
    refine ⟨hash, ?_, hverify⟩
    change (c.task.step _ _ _ _ _).1.adminHash user = _
    rw [hreads]
    exact hstored
  | _ => cases hread

/-- What was verified is what is replaced. -/
lemma replaced (hes : ∀ j e, es[j]? = some e → (state j).WritesAlone e) :
    ∃ hash, (state k).hash user = some hash ∧ H.verify old hash = true := by
  obtain ⟨hash, hstored, hverify⟩ := hchange.verified h
  refine ⟨hash, ?_, hverify⟩
  have hkeep : ∀ j, r + 1 ≤ j → j ≤ k → (state j).hash user = some hash := by
    intro j hj
    induction j, hj using Nat.le_induction with
    | base => exact fun _ => hstored
    | succ j hj ih =>
      intro hjk
      obtain ⟨e, hevent, hstep⟩ := hchange.event h hjk
      have hunused : ∀ id ≥ (state j).nextCall, (state j).calls id = none :=
        h.induct (Q := fun _ s => ∀ id ≥ s.nextCall, s.calls id = none) (fun _ _ => rfl)
          (fun _ _ _ hstep => step_unused hstep) (List.getElem?_eq_some_iff.mp hevent).1.le
      refine (hes j e hevent).hash hstep hunused (hchange.pending h hj (Nat.le_of_succ_le hjk)) ?_
        (ih (Nat.le_of_succ_le hjk))
      have := hchange.between j hjk hj
      rwa [hevent, Option.bind_some] at this
  exact hkeep k hchange.lt le_rfl

lemma stored (hes : ∀ j e, es[j]? = some e → (state j).WritesAlone e) :
    (state (k + 1)).hash user = some (H.hashPassword fresh salt) := by
  obtain ⟨hash, hhash, -⟩ := hchange.replaced h hes
  obtain ⟨c, hc, hstate⟩ := Option.map_eq_some_iff.mp (h.step_at hchange.write)
  obtain ⟨c', hc', htask⟩ := Option.map_eq_some_iff.mp hchange.writes
  cases hc.symm.trans hc'
  rw [← hstate]
  change (c.task.step _ _ _ _ _).1.adminHash user = _
  simp only [htask, AdminTask.step, Bool.false_eq_true, if_false]
  rw [adminHash_updateAdminPassword, if_pos rfl, ← Admins.hash, hhash, Option.map_some]

end ChangedAt

end

/-- In every run in which an account is not written while its password is about to be changed by
another request, a change replaces a hash that its old password verifies against. So of two changes
with one old password the second does not replace what the first has stored, unless the old password
verifies against that too. -/
theorem changes_replace_verified (H : Hashing) (master : Option String) (accounts : Accounts)
    (es : List AdminEvent) (state : Nat → Admins)
    (h : StatesOf (step H master) (new accounts) es state)
    (hes : ∀ j e, es[j]? = some e → (state j).WritesAlone e) (r k id : Nat)
    (user old fresh salt : String) (hchange : ChangedAt es state r k id user old fresh salt) :
    (∃ hash, (state k).hash user = some hash ∧ H.verify old hash = true) ∧
      ∀ r' k' id' old' fresh' salt', ChangedAt es state r' k' id' user old' fresh' salt' →
        (state k).hash user = (state (k' + 1)).hash user →
          H.verify old (H.hashPassword fresh' salt') = true := by
  refine ⟨hchange.replaced h hes, ?_⟩
  intro r' k' id' old' fresh' salt' hchange' hsame
  obtain ⟨hash, hhash, hverify⟩ := hchange.replaced h hes
  cases hhash.symm.trans (hsame.trans (hchange'.stored h hes))
  exact hverify

/-- A request to change the password of the administrator up to its read, and its update. -/
def change (id : Nat) (fresh : String) : List AdminEvent × AdminEvent :=
  (.request 0 "token" (.changePassword "pass" fresh) ::
    List.replicate 10 (.advance id ⟨"", false⟩), .advance id ⟨fresh, false⟩)

def changedState (es : List AdminEvent) (k : Nat) : Admins :=
  (runFrom (step .plain none) (new .empty) (es.take k)).getD (new .empty)

/-- One request changes the password. -/
def changeRun : List AdminEvent :=
  acceptedRun.take 6 ++ (change 2 "aaaa").1 ++ [(change 2 "aaaa").2]

instance (s : Admins) (e : AdminEvent) : Decidable (s.WritesAlone e) := by
  unfold WritesAlone
  split <;> infer_instance

theorem changes_replace_verified_changeRun :
    ChangedAt changeRun (changedState changeRun) 16 17 2 "admin" "pass" "aaaa" "aaaa" ∧
      ∃ hash, (changedState changeRun 17).hash "admin" = some hash ∧
        Hashing.plain.verify "pass" hash = true := by
  have hchange : ChangedAt changeRun (changedState changeRun) 16 17 2 "admin" "pass" "aaaa"
      "aaaa" := ⟨by decide, rfl, rfl, rfl, rfl, by decide⟩
  have hall : ∀ j < 18, ∀ e ∈ changeRun[j]?, (changedState changeRun j).WritesAlone e := by
    decide +kernel
  have hes : ∀ j e, changeRun[j]? = some e → (changedState changeRun j).WritesAlone e :=
    fun j e he => hall j (List.getElem?_eq_some_iff.mp he).1 e he
  exact ⟨hchange, (changes_replace_verified .plain none .empty changeRun (changedState changeRun)
    (statesOf_of_isSome (by decide +kernel)) hes 16 17 2 "admin" "pass" "aaaa" "aaaa" hchange).1⟩

/-- Both requests verify the old password, and then each stores its own. -/
def twoChangesRun : List AdminEvent :=
  acceptedRun.take 6 ++ (change 2 "aaaa").1 ++ (change 3 "bbbb").1 ++
    [(change 2 "aaaa").2, (change 3 "bbbb").2]

theorem two_changes_with_one_password :
    StatesOf (step .plain none) (new .empty) twoChangesRun (changedState twoChangesRun) ∧
      ChangedAt twoChangesRun (changedState twoChangesRun) 16 28 2 "admin" "pass" "aaaa" "aaaa" ∧
      ChangedAt twoChangesRun (changedState twoChangesRun) 27 29 3 "admin" "pass" "bbbb" "bbbb" ∧
      (changedState twoChangesRun 29).hash "admin" = some "aaaa:aaaa" ∧
      Hashing.plain.verify "pass" "aaaa:aaaa" = false :=
  ⟨statesOf_of_isSome (by decide +kernel), ⟨by decide, rfl, rfl, rfl, rfl, by decide⟩,
    ⟨by decide, rfl, rfl, rfl, rfl, by decide⟩, by decide +kernel, by decide +kernel⟩

end Admins

end Fluxpeer.Control
