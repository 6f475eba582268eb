import Fluxpeer.Control.Admin

/-!
# Sessions and accounts over time

With fresh salts a password hash that was replaced does not come back, so a session does not outlive
the hash it was issued against, on whichever server the change was made. A deletion counts the
accounts in one statement and deletes in another. Two of them may both count two accounts and delete
one each; a deletion that counts alone leaves an account.
-/

namespace Fluxpeer.Control

open Lib AdminTask Accounts

namespace Admins

variable {H : Hashing} {master : Option String} {s : Admins} {e : AdminEvent}

/-! ## Sessions -/

/-- No salt and no token is drawn twice. -/
structure Fresh (es : List AdminEvent) (state : Nat → Admins) : Prop where
  salts : ∀ i j e e' salt, es[i]? = some e → es[j]? = some e' → (state i).salt? e = some salt →
    (state j).salt? e' = some salt → i = j
  tokens : ∀ i j e e' token, es[i]? = some e → es[j]? = some e' → (state i).token? e = some token →
    (state j).token? e' = some token → i = j

/-- The event at position `i` issues a token of an account against a hash. -/
def IssuedAt (es : List AdminEvent) (state : Nat → Admins) (i server : Nat)
    (username token hash : String) : Prop :=
  ∃ id env, es[i]? = some (.advance id env) ∧ env.draw = token ∧
    (state i).calls id = some ⟨server, .loginInsert username hash⟩

/-- The event at position `r` is the read of the database of a check of the token, whose comparison
has not been made at position `k`. -/
def ReadAt (es : List AdminEvent) (state : Nat → Admins) (r k id server : Nat) (stage : Stage)
    (req : Request) (token : String) (session : Session) (current : Option String) : Prop :=
  r < k ∧ current = (state r).hash session.username ∧ (∃ env, es[r]? = some (.advance id env)) ∧
    (state r).calls id = some ⟨server, .sessionRead stage req token session⟩ ∧
    ∀ q, r < q → q ≤ k →
      (state q).calls id = some ⟨server, .sessionCheck stage req token session current⟩

/-- The event at position `p` accepts a token. -/
def AcceptedAt (es : List AdminEvent) (state : Nat → Admins) (p id server : Nat) (stage : Stage)
    (req : Request) (token : String) (session : Session) (current : Option String) : Prop :=
  (∃ env, es[p]? = some (.advance id env)) ∧
    (state p).calls id = some ⟨server, .sessionCheck stage req token session current⟩ ∧
    session.live (state p).now current = true

section

variable {es : List AdminEvent} {state : Nat → Admins} {u hash : String} {c : AdminCall}

/-- The session was issued under the token before position `k`. -/
def Backed (es : List AdminEvent) (state : Nat → Admins) (k server : Nat) (token : String)
    (session : Session) : Prop :=
  session.passwordHash ≠ "" ∧ ∃ i < k, session.expiry = (state i).now + SESSION_TTL ∧
    IssuedAt es state i server session.username token session.passwordHash

lemma Backed.mono {k k' server : Nat} {token : String} {session : Session}
    (h : Backed es state k server token session) (hle : k ≤ k') :
    Backed es state k' server token session := by
  obtain ⟨hne, i, hi, hrest⟩ := h
  exact ⟨hne, i, by omega, hrest⟩

/-- What is known of a request from the run up to position `k`. -/
def Founded (es : List AdminEvent) (state : Nat → Admins) (k id : Nat) (c : AdminCall) : Prop :=
  match c.task with
  | .loginInsert _ hash => hash ≠ ""
  | .sessionRead _ _ token session => Backed es state k c.server token session
  | .sessionCheck stage req token session current => Backed es state k c.server token session ∧
    ∃ r, ReadAt es state r k id c.server stage req token session current
  | _ => True

/-- The sessions were issued by logins, and the requests in progress are founded. -/
structure Traced (es : List AdminEvent) (state : Nat → Admins) (k : Nat) : Prop where
  sessions : ∀ server token session, ((state k).sessions server).lookup token = some session →
    Backed es state k server token session
  calls : ∀ id c, (state k).calls id = some c → Founded es state k id c

lemma founded_of_not_holds {k id : Nat} (h : ¬ c.task.Holds) : Founded es state k id c := by
  obtain ⟨server, task⟩ := c
  cases task with
  | loginInsert | sessionRead | sessionCheck => exact absurd trivial h
  | _ => trivial

lemma Founded.succ {k id : Nat} (h : Founded es state k id c)
    (hnext : (state (k + 1)).calls id = some c) : Founded es state (k + 1) id c := by
  obtain ⟨server, task⟩ := c
  cases task with
  | loginInsert => exact h
  | sessionRead stage req token session => exact Backed.mono h (Nat.le_succ k)
  | sessionCheck stage req token session current =>
    obtain ⟨hbacked, r, hr, hcurrent, hevent, hread, hcheck⟩ := h
    refine ⟨hbacked.mono (Nat.le_succ k), r, by omega, hcurrent, hevent, hread, ?_⟩
    intro q hq hqk
    rcases Nat.le_succ_iff.mp hqk with hqk | rfl
    · exact hcheck q hq hqk
    · exact hnext
  | _ => trivial

lemma traced (h : StatesOf (step H master) (new .empty) es state) {k : Nat} (hk : k ≤ es.length) :
    Traced es state k := by
  induction k with
  | zero =>
    have hstart : state 0 = new .empty := (Option.some.inj (h 0 hk)).symm
    constructor
    · intro server token session hsession
      rw [hstart] at hsession
      cases hsession
    · intro id c hc
      rw [hstart] at hc
      cases hc
  | succ k ih =>
    have ih := ih (Nat.le_of_succ_le hk)
    have hevent : es[k]? = some (es.get ⟨k, hk⟩) := List.getElem?_eq_getElem hk
    have hstep := h.step_at hevent
    constructor
    · intro server token session hsession
      rcases step_sessions hstep hsession with hold | ⟨id, env, username, hash, he, hc, rfl, rfl⟩
      · exact (ih.sessions server token session hold).mono (Nat.le_succ k)
      · exact ⟨ih.calls id _ hc, k, Nat.lt_succ_self k, rfl, id, env, he ▸ hevent, rfl, hc⟩
    · intro id c' hc'
      rcases step_calls hstep hc' with ⟨hold, -⟩ | ⟨env, c, he, hc, hserver, hnext⟩ | hnew
      · exact (ih.calls id c' hold).succ hc'
      · by_cases hholds : c'.task.Holds
        · obtain ⟨server', task'⟩ := c'
          obtain rfl : server' = c.server := hserver
          rcases step_next hnext hholds with ⟨username, hash, rfl, hne⟩ |
            ⟨stage, req, token, session, rfl, hsession⟩ |
            ⟨stage, req, token, session, htask, rfl⟩
          · exact hne
          · exact (ih.sessions _ token session hsession).mono (Nat.le_succ k)
          · obtain ⟨server, task⟩ := c
            subst htask
            refine ⟨Backed.mono (ih.calls id _ hc) (Nat.le_succ k), k, Nat.lt_succ_self k, rfl,
              ⟨env, he ▸ hevent⟩, hc, ?_⟩
            intro q hq hqk
            obtain rfl : q = k + 1 := by omega
            exact hc'
        · exact founded_of_not_holds hholds
      · exact founded_of_not_holds hnew.not_holds

/-- A stored hash was written by a step that drew its salt, and has been stored since. -/
lemma written (h : StatesOf (step H master) (new .empty) es state) {k : Nat} (hk : k ≤ es.length)
    (hhash : (state k).hash u = some hash) :
    ∃ a e salt password, a < k ∧ es[a]? = some e ∧ (state a).salt? e = some salt ∧
      hash = H.hashPassword password salt ∧
      ∀ q, a < q → q ≤ k → (state q).hash u = some hash := by
  induction k with
  | zero =>
    rw [show state 0 = new .empty from (Option.some.inj (h 0 hk)).symm] at hhash
    cases hhash
  | succ k ih =>
    have hevent : es[k]? = some (es.get ⟨k, hk⟩) := List.getElem?_eq_getElem hk
    rcases step_hash (h.step_at hevent) u with hsame | hnone | ⟨salt, password, hsalt, hnew⟩
    · obtain ⟨a, e, salt, password, hlt, he, hsalt, heq, hsince⟩ :=
        ih (Nat.le_of_succ_le hk) (hsame ▸ hhash)
      refine ⟨a, e, salt, password, by omega, he, hsalt, heq, fun q hq hqk => ?_⟩
      rcases Nat.le_succ_iff.mp hqk with hqk | rfl
      · exact hsince q hq hqk
      · exact hhash
    · cases hnone.symm.trans hhash
    · refine ⟨k, _, salt, password, Nat.lt_succ_self k, hevent, hsalt,
        Option.some.inj (hhash.symm.trans hnew), fun q hq hqk => ?_⟩
      obtain rfl : q = k + 1 := by omega
      exact hhash

lemma salt_eq {password password' salt salt' : String}
    (h : H.hashPassword password salt = H.hashPassword password' salt')
    (hne : H.hashPassword password salt ≠ "") : salt = salt' := by
  unfold Hashing.hashPassword at h hne
  cases hhash : H.hash password salt with
  | none => simp [hhash] at hne
  | some hash =>
    cases hhash' : H.hash password' salt' with
    | none =>
      rw [hhash'] at h
      exact absurd h hne
    | some hash' =>
      rw [hhash, hhash'] at h
      exact H.salted password password' salt salt' hash hhash (hhash'.trans (congrArg some h.symm))

/-- With fresh salts a hash that was replaced does not come back. -/
lemma hash_stays (h : StatesOf (step H master) (new .empty) es state) (hfresh : Fresh es state)
    {l j k : Nat} (hlj : l ≤ j) (hjk : j ≤ k) (hk : k ≤ es.length) (hne : hash ≠ "")
    (hl : (state l).hash u = some hash) (hend : (state k).hash u = some hash) :
    (state j).hash u = some hash := by
  obtain ⟨a, e, salt, password, hlt, he, hsalt, rfl, hsince⟩ := written h (by omega) hl
  obtain ⟨a', e', salt', password', hlt', he', hsalt', heq, hsince'⟩ := written h hk hend
  obtain rfl := salt_eq heq hne
  obtain rfl := hfresh.salts a a' e e' salt he he' hsalt hsalt'
  exact hsince' j (by omega) hjk

end

/-- A token is accepted only where and before it expires, and only by a check whose read of the
database finds the hash that the token was issued against; up to that read the hash was not replaced
and the account not deleted. -/
theorem tokens_die_with_hash (H : Hashing) (master : Option String) (es : List AdminEvent)
    (state : Nat → Admins) (h : StatesOf (step H master) (new .empty) es state)
    (hfresh : Fresh es state) (i server : Nat) (username token hash : String)
    (hissued : IssuedAt es state i server username token hash) (p id server' : Nat) (stage : Stage)
    (req : Request) (session : Session) (current : Option String)
    (haccepted : AcceptedAt es state p id server' stage req token session current) :
    server' = server ∧ (state p).now < (state i).now + SESSION_TTL ∧
      ∃ r, ReadAt es state r p id server' stage req token session current ∧ i < r ∧
        (state r).hash username = some hash ∧
        ∀ l j, l ≤ j → j ≤ r → (state l).hash username = some hash →
          (state j).hash username = some hash := by
  obtain ⟨⟨env, hevent⟩, hcall, hlive⟩ := haccepted
  have hp : p < es.length := (List.getElem?_eq_some_iff.mp hevent).1
  obtain ⟨⟨hne, i', hi', hexpiry, id', env', he', hdraw', hc'⟩, r, hread⟩ :=
    (traced h hp.le).calls id _ hcall
  obtain ⟨hunexpired, hcurrent⟩ := of_decide_eq_true hlive
  obtain ⟨id₀, env₀, he, hdraw, hc⟩ := hissued
  -- the token was drawn once, so the session is the one that was issued
  have htoken : (state i).token? (.advance id₀ env₀) = some token := by
    simp [token?, hc, hdraw]
  have htoken' : (state i').token? (.advance id' env') = some token := by
    simp [token?, hc', hdraw']
  obtain rfl := hfresh.tokens i i' _ _ token he he' htoken htoken'
  cases he.symm.trans he'
  cases hc.symm.trans hc'
  obtain ⟨hrp, hstored, hreadEvent, hreadCall, hsince⟩ := hread
  have hreadHash : (state r).hash session.username = some session.passwordHash :=
    hstored.symm.trans hcurrent
  have hir : i < r := by
    obtain ⟨-, i', hi', -, id', env', he', hdraw', hc'⟩ :=
      (traced h (by omega : r ≤ es.length)).calls id _ hreadCall
    have htoken' : (state i').token? (.advance id' env') = some token := by
      simp [token?, hc', hdraw']
    exact hfresh.tokens i i' _ _ token he he' htoken htoken' ▸ hi'
  refine ⟨rfl, by omega, r, ⟨hrp, hstored, hreadEvent, hreadCall, hsince⟩, hir, hreadHash, ?_⟩
  intro l j hlj hjr hl
  exact hash_stays h hfresh hlj hjr (by omega) hne hl hreadHash

def acceptedRun : List AdminEvent :=
  [.start 0 "pass", .advance 0 ⟨"", false⟩, .advance 0 ⟨"salt", false⟩, .login 0 "admin" "pass",
    .advance 1 ⟨"", false⟩, .advance 1 ⟨"token", false⟩, .request 0 "token" .other,
    .advance 2 ⟨"", false⟩, .advance 2 ⟨"", false⟩, .advance 2 ⟨"", false⟩]

def acceptedState (k : Nat) : Admins :=
  (runFrom (step .plain none) (new .empty) (acceptedRun.take k)).getD (new .empty)

lemma fresh_acceptedRun : Fresh acceptedRun acceptedState := by
  have hsalt : ∀ i < 10, i ≠ 2 → (acceptedRun[i]?.bind (acceptedState i).salt?) = none := by
    decide +kernel
  have htoken : ∀ i < 10, i ≠ 5 → (acceptedRun[i]?.bind (acceptedState i).token?) = none := by
    decide +kernel
  have honly {f : Admins → AdminEvent → Option String} {n : Nat}
      (hf : ∀ i < 10, i ≠ n → (acceptedRun[i]?.bind (f (acceptedState i))) = none) {i : Nat}
      {e : AdminEvent} {draw : String} (he : acceptedRun[i]? = some e)
      (hdraw : f (acceptedState i) e = some draw) : i = n := by
    by_contra hne
    have hnone := hf i (List.getElem?_eq_some_iff.mp he).1 hne
    rw [he] at hnone
    cases hnone.symm.trans hdraw
  constructor
  · intro i j e e' salt hi hj hsi hsj
    exact (honly hsalt hi hsi).trans (honly hsalt hj hsj).symm
  · intro i j e e' token hi hj hti htj
    exact (honly htoken hi hti).trans (honly htoken hj htj).symm

theorem tokens_die_with_hash_acceptedRun :
    IssuedAt acceptedRun acceptedState 5 0 "admin" "token" "salt:pass" ∧
      AcceptedAt acceptedRun acceptedState 9 2 0 .bearer .other "token"
        ⟨"admin", 43200000000000, "salt:pass"⟩ (some "salt:pass") ∧
      (acceptedState 9).now < 43200000000000 ∧
      ∃ r, 5 < r ∧ (acceptedState r).hash "admin" = some "salt:pass" := by
  have hissued : IssuedAt acceptedRun acceptedState 5 0 "admin" "token" "salt:pass" :=
    ⟨1, ⟨"token", false⟩, rfl, rfl, rfl⟩
  have haccepted : AcceptedAt acceptedRun acceptedState 9 2 0 .bearer .other "token"
      ⟨"admin", 43200000000000, "salt:pass"⟩ (some "salt:pass") :=
    ⟨⟨⟨"", false⟩, rfl⟩, rfl, by decide +kernel⟩
  obtain ⟨-, hnow, r, -, hr, hhash, -⟩ := tokens_die_with_hash .plain none acceptedRun acceptedState
    (statesOf_of_isSome (by decide +kernel)) fresh_acceptedRun 5 0 "admin" "token" "salt:pass" hissued
    9 2 0 .bearer .other ⟨"admin", 43200000000000, "salt:pass"⟩ (some "salt:pass") haccepted
  exact ⟨hissued, haccepted, hnow, r, hr, hhash⟩

/-! ## The last administrator -/

/-- No other request is between its count and its deletion when one counts. -/
def CountsAlone (s : Admins) (e : AdminEvent) : Prop :=
  ∀ id env server username, e = .advance id env →
    s.calls id = some ⟨server, .deleteCount username⟩ →
    ∀ id' server' username', s.calls id' ≠ some ⟨server', .deleteWrite username'⟩

/-- There is an account, and two of them while a request is about to delete one. -/
structure Guarded (s : Admins) : Prop where
  nonempty : 0 < s.accounts.countAdmins
  two : ∀ id server username, s.calls id = some ⟨server, .deleteWrite username⟩ →
    2 ≤ s.accounts.countAdmins
  alone : ∀ id id' server server' username username',
    s.calls id = some ⟨server, .deleteWrite username⟩ →
    s.calls id' = some ⟨server', .deleteWrite username'⟩ → id = id'

lemma new_guarded {accounts : Accounts} (h : 0 < accounts.countAdmins) :
    (new accounts).Guarded := ⟨h, nofun, nofun⟩

end Admins

lemma countAdmins_deleteAdmin (t : Accounts) (username : String) :
    t.countAdmins ≤ (t.deleteAdmin username).countAdmins + 1 := by
  have hkeys : (t.rows.map fun a => [a.username]).Nodup := by
    have hunique := t.unique (fun a => some [a.username]) List.mem_cons_self
    rwa [← List.filterMap_eq_map]
  have hone : t.rows.countP (fun a => a.username = username) ≤ 1 := by
    have hcount := List.nodup_iff_count_le_one.mp hkeys [username]
    rw [List.count, List.countP_map] at hcount
    refine le_of_eq_of_le ?_ hcount
    refine List.countP_congr fun a _ => ?_
    simp
  have hsplit : t.rows.length = t.rows.countP (fun a => a.username = username) +
      (t.deleteAdmin username).countAdmins := by
    rw [List.length_eq_countP_add_countP fun a : Account => a.username = username,
      countAdmins, deleteAdmin, Table.delete, ← List.countP_eq_length_filter]
    simp
  rw [countAdmins, hsplit]
  omega

section

variable {H : Hashing} {env : AdminEnv} {now : Nat} {accounts : Accounts} {sessions : Sessions}

lemma countAdmins_create (username hash : String) :
    accounts.countAdmins ≤ ((accounts.createAdmin username hash).getD accounts).countAdmins := by
  cases hcreate : accounts.createAdmin username hash with
  | none => exact le_rfl
  | some t' =>
    rw [Option.getD_some, countAdmins, countAdmins, Table.rows_insert? hcreate]
    simp

variable (H env now accounts sessions) in
/-- Accounts are lost in the last step of a deletion only. -/
lemma AdminTask.step_count (task : AdminTask) :
    let accounts' := (task.step H env now accounts sessions).1
    accounts.countAdmins ≤ accounts'.countAdmins ∨
      (∃ username, task = .deleteWrite username) ∧
        accounts.countAdmins ≤ accounts'.countAdmins + 1 := by
  cases task with
  | sessionCheck stage req token session current =>
    simp only [step]
    split <;> exact .inl le_rfl
  | passwordWrite user password =>
    simp only [step]
    split
    · exact .inl le_rfl
    · exact .inl (by simp [updateAdminPassword, countAdmins, Table.update])
  | createWrite username password =>
    simp only [step]
    split
    · exact .inl le_rfl
    · exact .inl (countAdmins_create username _)
  | seedWrite password =>
    simp only [step]
    split
    · exact .inl le_rfl
    · exact .inl (countAdmins_create "admin" _)
  | deleteWrite username =>
    simp only [step]
    split
    · exact .inl le_rfl
    · exact .inr ⟨⟨username, rfl⟩, countAdmins_deleteAdmin accounts username⟩
  | _ => exact .inl le_rfl

/-- A request is about to delete once it has counted two accounts. -/
lemma AdminTask.step_deleteWrite {task : AdminTask} {username : String}
    (h : (task.step H env now accounts sessions).2.2 = some (.deleteWrite username)) :
    task = .deleteCount username ∧ 2 ≤ accounts.countAdmins := by
  cases task with
  | deleteCount u =>
    simp only [step] at h
    split at h
    · cases h
    next hguard =>
    cases h
    rw [not_or] at hguard
    exact ⟨rfl, by omega⟩
  | sessionGet stage req token =>
    simp only [step] at h
    split at h
    · cases h
    · cases resumed h
  | sessionCheck stage req token session current =>
    simp only [step] at h
    split at h <;> cases resumed h
  | loginRead | passwordRead =>
    simp only [step] at h
    split at h
    · cases h
    · obtain ⟨hash, -, h⟩ := Option.bind_eq_some_iff.mp h
      split at h <;> cases h
  | sessionRead | passwordWrite | createRead | createWrite | deleteWrite | seedCount | seedWrite =>
    simp only [step] at h
    split at h <;> cases h
  | loginInsert | passwordRevoke | deleteRevoke => cases h

end

namespace Admins

variable {H : Hashing} {master : Option String} {s s' : Admins} {e : AdminEvent}

/-- Where a request that is about to delete comes from: it was so before, or has just counted. -/
lemma step_deleting (h : s.step H master e = some s') {id server : Nat} {username : String}
    (hid : s'.calls id = some ⟨server, .deleteWrite username⟩) :
    (s.calls id = some ⟨server, .deleteWrite username⟩ ∧ ∀ env, e ≠ .advance id env) ∨
      s.calls id = some ⟨server, .deleteCount username⟩ ∧ (∃ env, e = .advance id env) ∧
        2 ≤ s.accounts.countAdmins := by
  rcases step_calls h hid with hold | ⟨env, c, he, hc, hserver, hnext⟩ | hnew
  · exact .inl hold
  · obtain ⟨htask, htwo⟩ := step_deleteWrite hnext
    obtain ⟨server', task⟩ := c
    subst htask hserver
    exact .inr ⟨hc, ⟨env, he⟩, htwo⟩
  · cases hnew

lemma step_countAdmins (h : s.step H master e = some s') :
    s.accounts.countAdmins ≤ s'.accounts.countAdmins ∨
      (∃ id env server username, e = .advance id env ∧
        s.calls id = some ⟨server, .deleteWrite username⟩) ∧
        s.accounts.countAdmins ≤ s'.accounts.countAdmins + 1 := by
  cases e with
  | advance id env =>
    obtain ⟨c, hc, rfl⟩ := Option.map_eq_some_iff.mp h
    rcases c.task.step_count H env s.now s.accounts (s.sessions c.server) with
      hle | ⟨⟨username, htask⟩, hle⟩
    · exact .inl hle
    · exact .inr ⟨⟨id, env, c.server, username, rfl, by rw [hc, ← htask]⟩, hle⟩
  | _ =>
    cases h
    exact .inl le_rfl

lemma Guarded.step (hs : s.Guarded) (h : s.step H master e = some s') (halone : s.CountsAlone e) :
    s'.Guarded := by
  refine ⟨?_, ?_, ?_⟩
  · rcases step_countAdmins h with hle | ⟨⟨id, env, server, username, -, hid⟩, hle⟩
    · exact hs.nonempty.trans_le hle
    · have htwo := hs.two id server username hid
      omega
  · intro id server username hid
    rcases step_countAdmins h with hle | ⟨⟨id', env, server', username', he, hid'⟩, hle⟩
    · rcases step_deleting h hid with ⟨hold, -⟩ | ⟨-, -, htwo⟩
      · exact (hs.two id server username hold).trans hle
      · exact htwo.trans hle
    · -- the request that deletes in this step was alone
      rcases step_deleting h hid with ⟨hold, hother⟩ | ⟨hcount, ⟨env', he'⟩, -⟩
      · have heq := hs.alone id id' server server' username username' hold hid'
        exact absurd (heq ▸ he) (hother env)
      · cases he.symm.trans he'
        cases hid'.symm.trans hcount
  · intro id id' server server' username username' hid hid'
    rcases step_deleting h hid with ⟨hold, -⟩ | ⟨hcount, ⟨env, he⟩, -⟩ <;>
      rcases step_deleting h hid' with ⟨hold', -⟩ | ⟨hcount', ⟨env', he'⟩, -⟩
    · exact hs.alone id id' server server' username username' hold hold'
    · exact absurd hold (halone id' env' server' username' he' hcount' id server username)
    · exact absurd hold' (halone id env server username he hcount id' server' username')
    · cases he.symm.trans he'
      rfl

/-- From a table with an account on there is always one left, as long as no request counts the
accounts while another is between its count and its deletion. -/
theorem admin_remains_of_countsAlone (H : Hashing) (master : Option String) (accounts : Accounts)
    (haccounts : accounts.rows ≠ []) (es : List AdminEvent)
    (halone : EveryStep (step H master) (fun s e _ => s.CountsAlone e) (new accounts) es) :
    Always (step H master) (fun s => s.accounts.rows ≠ []) (new accounts) es := by
  refine always_of_inv (fun s e s' hs hstep hC => Guarded.step hs hstep hC) ?_
    (new_guarded (List.length_pos_iff.mpr haccounts)) halone
  intro s hs
  exact List.length_pos_iff.mp hs.nonempty

def twoAdmins : Accounts where
  rows := [⟨"a", "s:a"⟩, ⟨"b", "s:b"⟩]
  unique := by decide

/-- A request to delete an account up to its count, and from there on. -/
def deletion (id : Nat) (username : String) : List AdminEvent × List AdminEvent :=
  ([.request 0 "master" (.deleteAdmin username), .advance id ⟨"", false⟩, .advance id ⟨"", false⟩,
    .advance id ⟨"", false⟩], [.advance id ⟨"", false⟩, .advance id ⟨"", false⟩])

/-- Only the first request is in progress. -/
def Single (s : Admins) : Prop := ∀ id, id ≠ 0 → s.calls id = none

lemma Single.step (hs : s.Single) {id : Nat} {env : AdminEnv}
    (h : s.step H master (.advance id env) = some s') : s'.Single := by
  obtain ⟨c, hc, rfl⟩ := Option.map_eq_some_iff.mp h
  intro id' hid'
  have hne : id' ≠ id := by
    rintro rfl
    cases (hs id' hid').symm.trans hc
  simp only [advance, Function.update_of_ne hne]
  exact hs id' hid'

lemma Single.countsAlone (hs : s.Single) (e : AdminEvent) : s.CountsAlone e := by
  intro id env server username _ hid id' server' username' hid'
  have hzero : ∀ {id : Nat} {c : AdminCall}, s.calls id = some c → id = 0 := by
    intro id c hc
    by_contra hne
    cases (hs id hne).symm.trans hc
  obtain rfl := hzero hid
  obtain rfl := hzero hid'
  cases hid.symm.trans hid'

theorem admin_remains_of_countsAlone_deletion :
    ∃ s, runFrom (step .plain (some "master")) (new twoAdmins)
        ((deletion 0 "a").1 ++ (deletion 0 "a").2) = some s ∧
      s.accounts.rows = [⟨"b", "s:b"⟩] ∧
      Always (step .plain (some "master")) (fun s => s.accounts.rows ≠ []) (new twoAdmins)
        ((deletion 0 "a").1 ++ (deletion 0 "a").2) := by
  refine ⟨_, rfl, by decide +kernel, ?_⟩
  refine admin_remains_of_countsAlone .plain (some "master") twoAdmins (by decide) _ ?_
  rintro s ⟨⟩
  refine ⟨nofun, ?_⟩
  have hsingle : Single ((new twoAdmins).call 0 (.sessionGet .actor (.deleteAdmin "a") "master")) :=
    fun id hid => Function.update_of_ne hid ..
  have hadvances : EveryStep (step .plain (some "master")) (fun _ e _ => ∃ env, e = .advance 0 env)
      ((new twoAdmins).call 0 (.sessionGet .actor (.deleteAdmin "a") "master"))
      (List.replicate 5 (.advance 0 ⟨"", false⟩)) := by
    refine everyStep_of_forall fun e he _ _ => ?_
    exact ⟨⟨"", false⟩, List.eq_of_mem_replicate he⟩
  refine everyStep_of_inv (fun s e s' hs hstep hC => ?_) (fun s e s' hs _ _ => hs.countsAlone e)
    hsingle hadvances
  obtain ⟨env, rfl⟩ := hC
  exact hs.step hstep

/-- Both requests count two accounts, and then each deletes one. -/
theorem no_admin_after_two_deletions :
    twoAdmins.rows ≠ [] ∧ ∃ s, runFrom (step .plain (some "master")) (new twoAdmins)
        ((deletion 0 "a").1 ++ (deletion 1 "b").1 ++ (deletion 0 "a").2 ++ (deletion 1 "b").2) =
          some s ∧ s.accounts.rows = [] :=
  ⟨by decide, _, rfl, by decide +kernel⟩

end Admins

end Fluxpeer.Control
