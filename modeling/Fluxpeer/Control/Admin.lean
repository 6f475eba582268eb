import Fluxpeer.Lib.HashMap
import Fluxpeer.Lib.Run
import Fluxpeer.Lib.Table
import Fluxpeer.Lib.Text

/-!
# Administrators

The accounts of the administrators are rows of the database that all servers share; the sessions are
kept by each server for itself. A request is a sequence of steps, one for each statement and each
time the sessions are locked, and the steps of requests interleave. A session carries the password
hash it was issued against, and a check compares it with the stored one.
-/

namespace Fluxpeer.Control

open Lib

/-- The password hash of an account is its version. -/
structure Account where
  username : String
  passwordHash : String
deriving DecidableEq

def Account.indexes : List (Index Account) := [fun a => some [a.username]]

abbrev Accounts := Table Account.indexes

lemma Account.narrows (hash : String) :
    Table.Narrows Account.indexes fun a => { a with passwordHash := hash } := by
  intro index hindex a
  rw [Account.indexes, List.mem_singleton] at hindex
  exact .inr (hindex ▸ rfl)

namespace Accounts

def countAdmins (t : Accounts) : Nat := t.rows.length

def adminHash (t : Accounts) (username : String) : Option String :=
  (t.find? fun a => a.username = username).map (·.passwordHash)

/-- `none` is the violated primary key. -/
def createAdmin (t : Accounts) (username hash : String) : Option Accounts := t.insert? ⟨username, hash⟩

def updateAdminPassword (t : Accounts) (username hash : String) : Accounts :=
  t.update (fun a => a.username = username) (fun a => { a with passwordHash := hash })
    (Account.narrows hash)

def deleteAdmin (t : Accounts) (username : String) : Accounts :=
  t.delete fun a => a.username = username

end Accounts

/-- Argon2 with the salt as a part of the hash, which is how the hash is stored. -/
structure Hashing where
  hash : String → String → Option String
  verify : String → String → Bool
  verify_hash : ∀ password salt h, hash password salt = some h → verify password h = true
  salted : ∀ password password' salt salt' h,
    hash password salt = some h → hash password' salt' = some h → salt = salt'
  /-- The empty text is no hash. -/
  verify_empty : ∀ password, verify password "" = false

namespace Hashing

def hashPassword (H : Hashing) (password salt : String) : String := (H.hash password salt).getD ""

/-- The salt is followed by the password. -/
def plain : Hashing where
  hash password salt :=
    if ':' ∈ salt.toList then none else some (String.ofList (salt.toList ++ ':' :: password.toList))
  verify password h := h.toList.dropWhile (· ≠ ':') = ':' :: password.toList
  verify_hash := by
    intro password salt h hhash
    split at hhash
    · cases hhash
    next hsalt =>
    cases hhash
    have hall : ∀ c ∈ salt.toList, decide (c ≠ ':') = true := fun c hc =>
      decide_eq_true fun heq => hsalt (heq ▸ hc)
    refine decide_eq_true ?_
    rw [String.toList_ofList, List.dropWhile_append_of_pos hall]
    rfl
  salted := by
    intro password password' salt salt' h hhash hhash'
    split at hhash
    · cases hhash
    next hsalt =>
    split at hhash'
    · cases hhash'
    next hsalt' =>
    cases hhash
    have hlist := congrArg String.toList (Option.some.inj hhash')
    rw [String.toList_ofList, String.toList_ofList] at hlist
    have htake := congrArg (List.takeWhile (· ≠ ':')) hlist
    have hall {salt : String} (h : ':' ∉ salt.toList) :
        ∀ c ∈ salt.toList, decide (c ≠ ':') = true := fun c hc =>
      decide_eq_true fun heq => h (heq ▸ hc)
    rw [List.takeWhile_append_of_pos (hall hsalt), List.takeWhile_append_of_pos (hall hsalt')]
      at htake
    refine String.toList_inj.mp ?_
    simpa using htake.symm
  verify_empty := by
    intro password
    simp

end Hashing

/-! ## Requests -/

/-- Times are in nanoseconds. -/
def SESSION_TTL : Nat := 12 * 3600 * 1000000000

structure Session where
  username : String
  expiry : Nat
  passwordHash : String
deriving DecidableEq

abbrev Sessions := HashMap String Session

inductive Request
  | me
  | changePassword (oldPassword newPassword : String)
  | createAdmin (username password : String)
  | deleteAdmin (username : String)
  /-- A request that does not go to the accounts. -/
  | other

/-- Where a request asks for the session of its bearer: twice in `require_admin` and then in its own
handler. -/
inductive Stage
  | bearer
  | actor
  | handler

/-- What a request does next. -/
inductive AdminTask
  | loginRead (username password : String)
  | loginInsert (username hash : String)
  | sessionGet (stage : Stage) (req : Request) (token : String)
  | sessionRead (stage : Stage) (req : Request) (token : String) (session : Session)
  | sessionCheck (stage : Stage) (req : Request) (token : String) (session : Session)
      (current : Option String)
  | passwordRead (user oldPassword newPassword : String)
  | passwordWrite (user newPassword : String)
  | passwordRevoke (user : String)
  | createRead (username password : String)
  | createWrite (username password : String)
  | deleteCount (username : String)
  | deleteWrite (username : String)
  | deleteRevoke (username : String)
  | seedCount (password : String)
  | seedWrite (password : String)

def Request.handle (token : String) : Request → Option AdminTask
  | .createAdmin username password =>
    if trim username = "" ∨ byteLen password < 4 then none else some (.createRead username password)
  | .other => none
  | req => some (.sessionGet .handler req token)

/-- What a handler does with the session it asked for. -/
def Request.actAs (user : Option String) : Request → Option AdminTask
  | .changePassword oldPassword newPassword =>
    user.bind fun user =>
      if byteLen newPassword < 4 then none else some (.passwordRead user oldPassword newPassword)
  | .deleteAdmin username => if user = some username then none else some (.deleteCount username)
  | _ => none

/-- What a request does with the answer of `session_user`. -/
def Stage.resume (req : Request) (token : String) (user : Option String) : Stage → Option AdminTask
  | .bearer => if user.isSome then some (.sessionGet .actor req token) else none
  | .actor => req.handle token
  | .handler => req.actAs user

/-- What the environment decides in a step: the text drawn in it, and whether the database fails. -/
structure AdminEnv where
  draw : String
  fault : Bool

/-- The comparison of `session_user`. -/
def Session.live (session : Session) (now : Nat) (current : Option String) : Bool :=
  session.expiry > now ∧ current = some session.passwordHash

/-- One step of a request: the accounts and the sessions after it, and what is left to do. -/
def AdminTask.step (H : Hashing) (env : AdminEnv) (now : Nat) (accounts : Accounts)
    (sessions : Sessions) : AdminTask → Accounts × Sessions × Option AdminTask
  | .loginRead username password =>
    (accounts, sessions,
      if env.fault then none
      else (accounts.adminHash username).bind fun hash =>
        if H.verify password hash then some (.loginInsert username hash) else none)
  | .loginInsert username hash =>
    (accounts, sessions.insert env.draw ⟨username, now + SESSION_TTL, hash⟩, none)
  | .sessionGet stage req token =>
    (accounts, sessions,
      match sessions.lookup token with
      | some session => some (.sessionRead stage req token session)
      | none => stage.resume req token none)
  | .sessionRead stage req token session =>
    (accounts, sessions,
      if env.fault then none
      else some (.sessionCheck stage req token session (accounts.adminHash session.username)))
  | .sessionCheck stage req token session current =>
    if session.live now current then
      (accounts, sessions, stage.resume req token (some session.username))
    else (accounts, sessions.erase token, stage.resume req token none)
  | .passwordRead user oldPassword newPassword =>
    (accounts, sessions,
      if env.fault then none
      else (accounts.adminHash user).bind fun hash =>
        if H.verify oldPassword hash then some (.passwordWrite user newPassword) else none)
  | .passwordWrite user newPassword =>
    if env.fault then (accounts, sessions, none)
    else (accounts.updateAdminPassword user (H.hashPassword newPassword env.draw), sessions,
      some (.passwordRevoke user))
  | .passwordRevoke user | .deleteRevoke user =>
    (accounts, sessions.retain fun _ session => session.username ≠ user, none)
  | .createRead username password =>
    -- an error of the database counts as no account
    (accounts, sessions,
      if env.fault = false ∧ (accounts.adminHash username).isSome then none
      else some (.createWrite username password))
  | .createWrite username password =>
    if env.fault then (accounts, sessions, none)
    else
      ((accounts.createAdmin username (H.hashPassword password env.draw)).getD accounts, sessions,
        none)
  | .deleteCount username =>
    (accounts, sessions,
      if env.fault ∨ accounts.countAdmins ≤ 1 then none else some (.deleteWrite username))
  | .deleteWrite username =>
    if env.fault then (accounts, sessions, none)
    else (accounts.deleteAdmin username, sessions, some (.deleteRevoke username))
  | .seedCount password =>
    (accounts, sessions,
      if env.fault = false ∧ 0 < accounts.countAdmins then none else some (.seedWrite password))
  | .seedWrite password =>
    if env.fault then (accounts, sessions, none)
    else
      ((accounts.createAdmin "admin" (H.hashPassword password env.draw)).getD accounts, sessions, none)

/-! ## Servers -/

structure AdminCall where
  server : Nat
  task : AdminTask

structure Admins where
  accounts : Accounts
  sessions : Nat → Sessions
  calls : Nat → Option AdminCall
  nextCall : Nat
  now : Nat

inductive AdminEvent
  /-- A server starts, or starts again, and seeds the default account. -/
  | start (server : Nat) (password : String)
  | login (server : Nat) (username password : String)
  | request (server : Nat) (bearer : String) (req : Request)
  | advance (id : Nat) (env : AdminEnv)
  | tick

namespace Admins

def new (accounts : Accounts) : Admins := ⟨accounts, fun _ => ∅, fun _ => none, 0, 0⟩

def call (s : Admins) (server : Nat) (task : AdminTask) : Admins :=
  { s with calls := Function.update s.calls s.nextCall (some ⟨server, task⟩), nextCall := s.nextCall + 1 }

def advance (H : Hashing) (s : Admins) (id : Nat) (env : AdminEnv) (c : AdminCall) : Admins :=
  let (accounts, sessions, next) := c.task.step H env s.now s.accounts (s.sessions c.server)
  { s with
    accounts
    sessions := Function.update s.sessions c.server sessions
    calls := Function.update s.calls id (next.map (⟨c.server, ·⟩)) }

/-- `master` is the master key of the servers, if they have one. -/
def step (H : Hashing) (master : Option String) (s : Admins) : AdminEvent → Option Admins
  | .start server password =>
    some ({ s with
      sessions := Function.update s.sessions server ∅
      calls := fun id => (s.calls id).filter fun c => c.server ≠ server }.call server
        (.seedCount password))
  | .login server username password => some (s.call server (.loginRead username password))
  | .request server bearer req =>
    some (s.call server (.sessionGet (if master = some bearer then .actor else .bearer) req bearer))
  | .advance id env => (s.calls id).map (s.advance H id env)
  | .tick => some { s with now := s.now + 1 }

/-! ## Steps -/

def hash (s : Admins) (username : String) : Option String := s.accounts.adminHash username

end Admins

section

variable {H : Hashing} {env : AdminEnv} {now : Nat} {accounts : Accounts} {sessions : Sessions}
  {task : AdminTask}

lemma adminHash_updateAdminPassword (t : Accounts) (username hash u : String) :
    (t.updateAdminPassword username hash).adminHash u =
      if u = username then (t.adminHash u).map fun _ => hash else t.adminHash u := by
  rw [Accounts.adminHash, Accounts.updateAdminPassword,
    Table.find?_update (Account.narrows hash) fun a _ _ => rfl, Accounts.adminHash]
  cases hfind : t.find? fun a => a.username = u with
  | none => simp
  | some a =>
    have hname : a.username = u := by simpa using Table.find?_some hfind
    by_cases heq : u = username <;> simp [hname, heq]

lemma adminHash_deleteAdmin (t : Accounts) (username u : String) :
    (t.deleteAdmin username).adminHash u = if u = username then none else t.adminHash u := by
  unfold Accounts.adminHash Accounts.deleteAdmin
  split
  · next heq =>
    subst heq
    rw [Option.map_eq_none_iff]
    refine List.find?_eq_none.mpr fun a ha => ?_
    simpa using (Table.mem_delete.mp ha).2
  · next hne =>
    rw [Table.find?_delete]
    intro a _ ha
    have ha : a.username = u := by simpa using ha
    simpa [ha] using hne

lemma adminHash_createAdmin {t t' : Accounts} {username hash : String} (u : String)
    (h : t.createAdmin username hash = some t') :
    t'.adminHash u = (t.adminHash u).or (if username = u then some hash else none) := by
  rw [Accounts.adminHash, Table.find?_insert? h, Accounts.adminHash]
  cases t.find? fun a => a.username = u with
  | some a => rfl
  | none => by_cases heq : username = u <;> simp [heq]

def AdminTask.hashes : AdminTask → Bool
  | .passwordWrite _ _ | .createWrite _ _ | .seedWrite _ => true
  | _ => false

lemma adminHash_create (username password u : String) :
    ((accounts.createAdmin username (H.hashPassword password env.draw)).getD accounts).adminHash u =
        accounts.adminHash u ∨
      ((accounts.createAdmin username (H.hashPassword password env.draw)).getD accounts).adminHash u =
        some (H.hashPassword password env.draw) := by
  cases hcreate : accounts.createAdmin username (H.hashPassword password env.draw) with
  | none => exact .inl rfl
  | some t' =>
    rw [Option.getD_some, adminHash_createAdmin u hcreate]
    cases accounts.adminHash u with
    | some h => exact .inl rfl
    | none =>
      by_cases heq : username = u
      · exact .inr (by simp [heq])
      · exact .inl (by simp [heq])

variable (H env now accounts sessions) in
/-- A step that leaves an account with another hash hashes the password in it. -/
lemma AdminTask.step_hash (task : AdminTask) (u : String) :
    let accounts' := (task.step H env now accounts sessions).1
    accounts'.adminHash u = accounts.adminHash u ∨ accounts'.adminHash u = none ∨
      task.hashes = true ∧ ∃ password, accounts'.adminHash u = some (H.hashPassword password env.draw) := by
  cases task with
  | sessionCheck stage req token session current =>
    simp only [AdminTask.step]
    split <;> exact .inl rfl
  | passwordWrite user password =>
    simp only [AdminTask.step]
    split
    · exact .inl rfl
    rw [adminHash_updateAdminPassword]
    split
    · cases accounts.adminHash u with
      | none => exact .inl rfl
      | some h => exact .inr (.inr ⟨rfl, password, rfl⟩)
    · exact .inl rfl
  | createWrite username password =>
    simp only [AdminTask.step]
    split
    · exact .inl rfl
    · exact (adminHash_create username password u).imp_right fun h => .inr ⟨rfl, password, h⟩
  | seedWrite password =>
    simp only [AdminTask.step]
    split
    · exact .inl rfl
    · exact (adminHash_create "admin" password u).imp_right fun h => .inr ⟨rfl, password, h⟩
  | deleteWrite username =>
    simp only [AdminTask.step]
    split
    · exact .inl rfl
    rw [adminHash_deleteAdmin]
    split
    · exact .inr (.inl rfl)
    · exact .inl rfl
  | _ => exact .inl rfl

/-- A session comes from a login. -/
lemma AdminTask.step_sessions {token : String} {session : Session}
    (h : (task.step H env now accounts sessions).2.1.lookup token = some session) :
    sessions.lookup token = some session ∨ ∃ username hash, task = .loginInsert username hash ∧
      token = env.draw ∧ session = ⟨username, now + SESSION_TTL, hash⟩ := by
  cases task with
  | loginInsert username hash =>
    simp only [AdminTask.step] at h
    rw [HashMap.lookup_insert] at h
    split at h
    · next heq =>
      cases h
      exact .inr ⟨username, hash, rfl, heq, rfl⟩
    · exact .inl h
  | sessionCheck stage req t s current =>
    simp only [AdminTask.step] at h
    split at h
    · exact .inl h
    rw [HashMap.lookup_erase] at h
    split at h
    · cases h
    · exact .inl h
  | passwordRevoke user | deleteRevoke user =>
    simp only [AdminTask.step] at h
    rw [HashMap.lookup_retain] at h
    exact .inl (Option.filter_eq_some_iff.mp h).1
  | passwordWrite | createWrite | deleteWrite | seedWrite =>
    simp only [AdminTask.step] at h
    split at h <;> exact .inl h
  | _ => exact .inl h

/-- What a task holds: a session that was read, or a hash that a password was verified against. -/
def AdminTask.Holds : AdminTask → Prop
  | .loginInsert _ _ | .sessionRead _ _ _ _ | .sessionCheck _ _ _ _ _ => True
  | _ => False

/-- The tasks that requests begin with. -/
def AdminTask.Initial : AdminTask → Prop
  | .loginRead _ _ | .sessionGet _ _ _ | .seedCount _ => True
  | _ => False

lemma AdminTask.Initial.not_holds (h : task.Initial) : ¬ task.Holds := by
  cases task with
  | loginInsert | sessionRead | sessionCheck => cases h
  | _ => exact id

/-- The tasks that a request goes on with once it has asked for the session. -/
def AdminTask.Resumed : AdminTask → Prop
  | .sessionGet _ _ _ | .createRead _ _ | .passwordRead _ _ _ | .deleteCount _ => True
  | _ => False

lemma AdminTask.Resumed.not_holds (h : task.Resumed) : ¬ task.Holds := by
  cases task with
  | loginInsert | sessionRead | sessionCheck => cases h
  | _ => exact id

lemma resumed {stage : Stage} {req : Request} {token : String} {user : Option String}
    (h : stage.resume req token user = some task) : task.Resumed := by
  cases stage with
  | bearer =>
    simp only [Stage.resume] at h
    split at h
    · cases h
      trivial
    · cases h
  | actor =>
    cases req with
    | createAdmin username password =>
      simp only [Stage.resume, Request.handle] at h
      split at h
      · cases h
      · cases h
        trivial
    | other => cases h
    | _ =>
      cases h
      trivial
  | handler =>
    cases req with
    | changePassword oldPassword newPassword =>
      obtain ⟨user, -, h⟩ := Option.bind_eq_some_iff.mp h
      split at h
      · cases h
      · cases h
        trivial
    | deleteAdmin username =>
      simp only [Stage.resume, Request.actAs] at h
      split at h
      · cases h
      · cases h
        trivial
    | _ => cases h

/-- Where what a task holds comes from. -/
lemma AdminTask.step_next {task task' : AdminTask}
    (h : (task.step H env now accounts sessions).2.2 = some task') (hholds : task'.Holds) :
    (∃ username hash, task' = .loginInsert username hash ∧ hash ≠ "") ∨
    (∃ stage req token session, task' = .sessionRead stage req token session ∧
      sessions.lookup token = some session) ∨
    ∃ stage req token session, task = .sessionRead stage req token session ∧
      task' = .sessionCheck stage req token session (accounts.adminHash session.username) := by
  cases task with
  | loginRead username password =>
    simp only [AdminTask.step] at h
    split at h
    · cases h
    obtain ⟨hash, -, h⟩ := Option.bind_eq_some_iff.mp h
    split at h
    · next hverify =>
      cases h
      refine .inl ⟨username, hash, rfl, ?_⟩
      rintro rfl
      rw [H.verify_empty] at hverify
      cases hverify
    · cases h
  | sessionGet stage req token =>
    simp only [AdminTask.step] at h
    split at h
    · next session hsession =>
      cases h
      exact .inr (.inl ⟨stage, req, token, session, rfl, hsession⟩)
    · exact absurd hholds (resumed h).not_holds
  | sessionRead stage req token session =>
    simp only [AdminTask.step] at h
    split at h
    · cases h
    · cases h
      exact .inr (.inr ⟨stage, req, token, session, rfl, rfl⟩)
  | sessionCheck stage req token session current =>
    simp only [AdminTask.step] at h
    split at h <;> exact absurd hholds (resumed h).not_holds
  | passwordRead user oldPassword newPassword =>
    simp only [AdminTask.step] at h
    split at h
    · cases h
    obtain ⟨hash, -, h⟩ := Option.bind_eq_some_iff.mp h
    split at h
    · cases h
      cases hholds
    · cases h
  | passwordWrite | createRead | createWrite | deleteCount | deleteWrite | seedCount | seedWrite =>
    simp only [AdminTask.step] at h
    split at h
    · cases h
    · cases h <;> cases hholds
  | loginInsert | passwordRevoke | deleteRevoke => cases h

end

namespace Admins

variable {H : Hashing} {master : Option String} {s s' : Admins} {e : AdminEvent}

def salt? (s : Admins) : AdminEvent → Option String
  | .advance id env => (s.calls id).bind fun c => if c.task.hashes then some env.draw else none
  | _ => none

def token? (s : Admins) : AdminEvent → Option String
  | .advance id env => (s.calls id).bind fun c =>
    match c.task with
    | .loginInsert _ _ => some env.draw
    | _ => none
  | _ => none

lemma step_hash (h : s.step H master e = some s') (u : String) :
    s'.hash u = s.hash u ∨ s'.hash u = none ∨
      ∃ salt password, s.salt? e = some salt ∧ s'.hash u = some (H.hashPassword password salt) := by
  cases e with
  | advance id env =>
    obtain ⟨c, hc, rfl⟩ := Option.map_eq_some_iff.mp h
    rcases c.task.step_hash H env s.now s.accounts (s.sessions c.server) u with hsame | hnone | ⟨hhashes, password, hhash⟩
    · exact .inl hsame
    · exact .inr (.inl hnone)
    · exact .inr (.inr ⟨env.draw, password, by simp [salt?, hc, hhashes], hhash⟩)
  | _ =>
    cases h
    exact .inl rfl

lemma step_sessions (h : s.step H master e = some s') {server : Nat} {token : String}
    {session : Session} (hsession : (s'.sessions server).lookup token = some session) :
    (s.sessions server).lookup token = some session ∨
      ∃ id env username hash, e = .advance id env ∧
        s.calls id = some ⟨server, .loginInsert username hash⟩ ∧ token = env.draw ∧
        session = ⟨username, s.now + SESSION_TTL, hash⟩ := by
  cases e with
  | start started password =>
    cases h
    simp only [call, Function.update_apply] at hsession
    split at hsession
    · cases hsession
    · exact .inl hsession
  | advance id env =>
    obtain ⟨c, hc, rfl⟩ := Option.map_eq_some_iff.mp h
    simp only [advance, Function.update_apply] at hsession
    split at hsession
    · next hserver =>
      rcases AdminTask.step_sessions hsession with hold | ⟨username, hash, htask, htoken, hnew⟩
      · exact .inl (hserver ▸ hold)
      · exact .inr ⟨id, env, username, hash, rfl, by rw [hc, hserver, ← htask], htoken, hnew⟩
    · exact .inl hsession
  | _ =>
    cases h
    exact .inl hsession

/-- Where a request in progress comes from: it was so before, it was a step behind, or it has just
begun. -/
lemma step_calls (h : s.step H master e = some s') {id : Nat} {c' : AdminCall}
    (hc' : s'.calls id = some c') :
    (s.calls id = some c' ∧ ∀ env, e ≠ .advance id env) ∨
    (∃ env c, e = .advance id env ∧ s.calls id = some c ∧ c'.server = c.server ∧
      (c.task.step H env s.now s.accounts (s.sessions c.server)).2.2 = some c'.task) ∨
    c'.task.Initial := by
  have hcall : ∀ (s : Admins) server (task : AdminTask), task.Initial →
      (s.call server task).calls id = some c' → s.calls id = some c' ∨ c'.task.Initial := by
    intro s server task htask hc'
    simp only [call, Function.update_apply] at hc'
    split at hc'
    · cases hc'
      exact .inr htask
    · exact .inl hc'
  cases e with
  | start server password =>
    cases h
    rcases hcall _ server (.seedCount password) trivial hc' with hold | hnew
    · exact .inl ⟨(Option.filter_eq_some_iff.mp hold).1, nofun⟩
    · exact .inr (.inr hnew)
  | login server username password =>
    cases h
    exact (hcall s server (.loginRead username password) trivial hc').imp (⟨·, nofun⟩) .inr
  | request server bearer req =>
    cases h
    exact (hcall s server (.sessionGet _ req bearer) trivial hc').imp (⟨·, nofun⟩) .inr
  | advance id' env =>
    obtain ⟨c, hc, rfl⟩ := Option.map_eq_some_iff.mp h
    simp only [advance, Function.update_apply] at hc'
    split at hc'
    · next heq =>
      subst heq
      obtain ⟨task', htask', rfl⟩ := Option.map_eq_some_iff.mp hc'
      exact .inr (.inl ⟨env, c, rfl, hc, rfl, htask'⟩)
    · next hne =>
      refine .inl ⟨hc', ?_⟩
      rintro env ⟨⟩
      exact hne rfl
  | tick =>
    cases h
    exact .inl ⟨hc', nofun⟩

end Admins

end Fluxpeer.Control
