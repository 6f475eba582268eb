import Fluxpeer.Relay.Registry

/-!
# The two ends of a link

`ClientAuth` is the other end of the exchange. A world is a relay, a client with the relay's key, and
whoever else talks to the relay: the links of the client carry what the two ends write, and on all other
links anything may arrive.

The messages are not secret and the keys are not modelled as unknown to anybody. That a tag can only
come from somebody who computed it, and that a nonce has not been seen before it is drawn, are
assumptions on a run.
-/

namespace Fluxpeer.Relay.Auth

open Lib Crypto HashMap

inductive DialStage
  | challenge (shared : Key)
  | linkChallenge
  | confirmation (nonce : Key)
  | done (failure : Option Failure)
deriving DecidableEq

structure Dial where
  bond : Bond
  index : UInt32
  stage : DialStage
  session : Option Nat
  /-- What the call has written. -/
  hello : Option (UInt32 × Key)
  proof : Option Key
deriving DecidableEq

inductive DialEvent
  | dial (id : Nat) (bond : Bond) (index : UInt32) (written : Bool)
  | challenge (id : Nat) (challenge : Key) (written : Bool)
  | confirmation (id : Nat) (confirmation : Key)
  | fail (id : Nat)
  | invalidate (sid : Nat)
deriving DecidableEq

structure ClientAuth where
  secret : Key
  relay : Key
  group : Option (Bond × Nat)
  sessions : HashMap Nat Session
  nextSession : Nat
  calls : HashMap Nat Dial

section

variable (P : Primitives)

namespace ClientAuth

def new (secret relay : Key) : ClientAuth := ⟨secret, relay, none, ∅, 0, ∅⟩

def publicKey (c : ClientAuth) : Key := P.publicKey c.secret

def put (c : ClientAuth) (id : Nat) (d : Dial) : ClientAuth := { c with calls := c.calls.insert id d }

def fail (c : ClientAuth) (id : Nat) (d : Dial) (e : Failure) : ClientAuth :=
  c.put id { d with stage := .done (some e) }

/-- The session of the group, if it is for the bond and active. -/
def find (c : ClientAuth) (bond : Bond) : Option Nat :=
  (c.group.filter fun (id, sid) => id = bond && (c.sessions.lookup sid).any Session.active).map (·.2)

def session (c : ClientAuth) (d : Dial) : Option Session := d.session.bind c.sessions.lookup

/-- `client` up to its first wait. -/
def dial (c : ClientAuth) (id : Nat) (bond : Bond) (index : UInt32) (written : Bool) : ClientAuth :=
  if index = 0 then
    match shared P c.secret c.relay with
    | none => c.put id ⟨bond, index, .done (some .nonContributory), none, none, none⟩
    | some shared =>
      c.put id ⟨bond, index, if written then .challenge shared else .done (some .io), none,
        some (2, c.publicKey P), none⟩
  else
    match c.find bond with
    | none => c.put id ⟨bond, index, .done (some .clientUnauthenticated), none, none, none⟩
    | some sid => c.put id ⟨bond, index, .linkChallenge, some sid, none, none⟩

def create (c : ClientAuth) (id : Nat) (d : Dial) (session : Session) : ClientAuth :=
  { c with
    sessions := c.sessions.insert c.nextSession session
    nextSession := c.nextSession + 1 }.put id
    { d with session := some c.nextSession, stage := .confirmation zero }

def answer (c : ClientAuth) (id : Nat) (d : Dial) (challenge : Key) (written : Bool) :
    Option ClientAuth :=
  match d.stage with
  | .challenge shared =>
    let d := { d with proof := some (tag P shared (authMessage challenge (c.publicKey P))) }
    some (if written then
      c.create id d (.new (c.publicKey P) (tag P shared (keyMessage d.bond challenge)))
    else c.fail id d .io)
  | .linkChallenge =>
    (c.session d).map fun session =>
      match session.proof P challenge d.bond d.index with
      | .error e => c.fail id d e
      | .ok proof =>
        let d := { d with proof := some proof }
        if written then c.put id { d with stage := .confirmation challenge } else c.fail id d .io
  | _ => none

def confirm (c : ClientAuth) (id : Nat) (d : Dial) (confirmation : Key) : Option ClientAuth :=
  match d.stage, d.session with
  | .confirmation nonce, some sid =>
    (c.sessions.lookup sid).map fun session =>
      match session.verifyConfirmation P d.bond d.index nonce confirmation with
      | .error e => c.fail id d e
      | .ok () =>
        { c with group := if d.index = 0 then some (d.bond, sid) else c.group }.put id
          { d with stage := .done none }
  | _, _ => none

def step (c : ClientAuth) : DialEvent → Option ClientAuth
  | .dial id bond index written =>
    if (c.calls.lookup id).isSome then none else some (c.dial P id bond index written)
  | .challenge id challenge written =>
    (c.calls.lookup id).bind (c.answer P id · challenge written)
  | .confirmation id confirmation => (c.calls.lookup id).bind (c.confirm P id · confirmation)
  | .fail id => (c.calls.lookup id).bind fun d =>
    match d.stage with
    | .done _ => none
    | _ => some (c.fail id d .io)
  | .invalidate sid => (c.sessions.lookup sid).map fun session =>
    { c with sessions := c.sessions.insert sid session.invalidate }

end ClientAuth

/-! ## The world -/

structure World where
  server : ServerAuth
  client : ClientAuth

inductive WorldEvent
  | server (e : ServerEvent)
  | client (e : DialEvent)
  /-- Somebody else computes a tag. -/
  | mac (key : Key) (message : Bytes)
deriving DecidableEq

def WorldEvent.nonce? : WorldEvent → Option Key
  | .server (.advance _ (.draw nonce _)) => nonce
  | _ => none

namespace World

def new (secret relaySecret : Key) : World :=
  ⟨.new relaySecret, .new secret (P.publicKey relaySecret)⟩

/-- A call of the client and the call of the relay with the same number are the ends of a link, and
what is read at one end has been written at the other. -/
def delivers (w : World) : WorldEvent → Bool
  | .server (.begin id call) =>
    (w.client.calls.lookup id).all fun d => call = .accept d.bond d.index
  | .server (.advance id (.hello version peer)) =>
    (w.client.calls.lookup id).all fun d => d.hello = some (version, peer)
  | .server (.advance id (.proof proof)) =>
    (w.client.calls.lookup id).all fun d => d.proof = some proof
  | .client (.dial id _ _ _) => (w.server.calls.lookup id).isNone
  | .client (.challenge id challenge _) =>
    (w.server.calls.lookup id).any fun r => r.challenge = some challenge
  | .client (.confirmation id confirmation) =>
    (w.server.calls.lookup id).any fun r => r.confirmation = some confirmation
  | _ => true

def step (w : World) (e : WorldEvent) : Option World :=
  if w.delivers e then
    match e with
    | .server e => (w.server.step P e).map fun server => { w with server }
    | .client e => (w.client.step P e).map fun client => { w with client }
    | .mac .. => some w
  else none

/-- The tags that are computed to be sent, as key and message. -/
def macs (w : World) : WorldEvent → List (Key × Bytes)
  | .mac key message => [(key, message)]
  | .client (.challenge id challenge _) =>
    match w.client.calls.lookup id with
    | none => []
    | some d =>
      match d.stage with
      | .challenge shared => [(shared, authMessage challenge (w.client.publicKey P))]
      | .linkChallenge =>
        (w.client.session d).toList.map fun session =>
          (session.key, linkMessage challenge d.bond d.index)
      | _ => []
  | .server (.advance id (.confirm _)) =>
    match w.server.calls.lookup id with
    | none => []
    | some r =>
      match r.stage with
      | .confirm nonce =>
        (w.server.session r).toList.map fun session =>
          (session.key, confirmMessage r.call.bond r.call.index nonce)
      | _ => []
  | _ => []

end World

end

/-! ## The relay's end of a link -/

/-- The nonce of the confirmation: on link 0 the key itself is fresh. -/
def nonceFor (index : UInt32) (challenge : Key) : Key := if index = 0 then zero else challenge

/-- Whom a call of the relay talks to. -/
def Stage.peer? : Stage → Option Key
  | .challenge peer _ | .proof peer _ _ => some peer
  | _ => none

def Stage.failure? : Stage → Option Failure
  | .leaving failure | .done failure => failure
  | _ => none

@[simp] lemma peer?_ending (call : Call) (failure : Option Failure) :
    (call.ending failure).peer? = none := by
  unfold Call.ending
  split <;> rfl

@[simp] lemma failure?_ending (call : Call) (failure : Option Failure) :
    (call.ending failure).failure? = failure := by
  unfold Call.ending
  split <;> rfl

namespace ServerAuth

variable {P : Primitives} {s s' : ServerAuth} {id : Nat} {r r' : Running} {input : Input} {e : ServerEvent}

/-- What a call has written and which session it has, by its stage. -/
def Wrote (r : Running) : Prop :=
  match r.stage with
  | .hello | .challenge .. => r.challenge = none ∧ r.session = none ∧ r.confirmation = none
  | .linkChallenge => r.challenge = none ∧ r.confirmation = none
  | .proof _ _ challenge => r.challenge = some challenge ∧ r.session = none ∧ r.confirmation = none
  | .linkProof challenge => r.challenge = some challenge ∧ r.confirmation = none
  | .register => r.challenge.isSome ∧ r.confirmation = none
  | .confirm nonce =>
    r.confirmation = none ∧ ∃ challenge, r.challenge = some challenge ∧
      nonce = nonceFor r.call.index challenge
  | .leaving _ | .done _ => True

/-- A call keeps what it has written and the session it has. -/
structure Grows (r r' : Running) : Prop where
  call : r'.call = r.call
  challenge : ∀ c, r.challenge = some c → r'.challenge = some c
  session : ∀ sid, r.session = some sid → r'.session = some sid

lemma Grows.of_eq (hcall : r'.call = r.call) (hchallenge : r'.challenge = r.challenge)
    (hsession : r'.session = r.session) : Grows r r' :=
  ⟨hcall, fun _ hc => hchallenge.trans hc, fun _ hsid => hsession.trans hsid⟩

lemma wrote_ending {call : Call} {failure : Option Failure} {session : Option Nat}
    {challenge confirmation : Option Key} :
    Wrote ⟨call, call.ending failure, session, challenge, confirmation⟩ := by
  unfold Call.ending
  split <;> trivial

lemma grows_fail {e : Failure} {challenge confirmation : Option Key}
    (hchallenge : ∀ c, r.challenge = some c → challenge = some c) :
    ∃ r', (s.fail id { r with challenge, confirmation } e).calls = s.calls.insert id r' ∧ Wrote r' ∧
      Grows r r' :=
  ⟨_, rfl, wrote_ending, rfl, hchallenge, fun _ hsid => hsid⟩

lemma Moves.grows (h : Moves P s id r input s') (hvalid : s.Valid P r) (hwrote : Wrote r) :
    ∃ r', s'.calls = s.calls.insert id r' ∧ Wrote r' ∧ Grows r r' := by
  cases h with
  | version | weak | undrawn | unproved | linkUnproved | unconfirmed | revoked | fail =>
    exact grows_fail fun _ hc => hc
  | unwritten stage =>
    refine grows_fail fun c hc => ?_
    obtain ⟨_, _, stage⟩ | stage := stage <;> simp only [Wrote, stage] at hwrote <;>
      cases hwrote.1.symm.trans hc
  | hello stage =>
    simp only [Wrote, stage] at hwrote
    exact ⟨_, rfl, hwrote, .of_eq rfl rfl rfl⟩
  | challenge stage | linkChallenge stage =>
    simp only [Wrote, stage] at hwrote
    exact ⟨_, rfl, ⟨rfl, hwrote.2⟩, rfl, by simp [hwrote.1], fun _ hsid => hsid⟩
  | proof stage =>
    simp only [Wrote, stage] at hwrote
    simp only [Valid, stage] at hvalid
    refine ⟨_, rfl, ?_, rfl, fun _ hc => hc, by simp [hwrote.2.1]⟩
    by_cases hreserves : r.call.reserves = true
    · simp [Wrote, hreserves, hwrote.1, hwrote.2.2]
    · simp [Wrote, hreserves, hwrote.1, hwrote.2.2, nonceFor, hvalid.1]
  | linkProof stage =>
    simp only [Wrote, stage] at hwrote
    simp only [Valid, stage] at hvalid
    exact ⟨_, rfl, ⟨hwrote.2, _, hwrote.1, (if_neg hvalid).symm⟩, .of_eq rfl rfl rfl⟩
  | register stage =>
    simp only [Wrote, stage] at hwrote
    simp only [Valid, stage] at hvalid
    obtain ⟨bond, hcall⟩ := Call.eq_accept hvalid
    obtain ⟨challenge, hchallenge⟩ := Option.isSome_iff_exists.mp hwrote.1
    refine ⟨_, rfl, ⟨hwrote.2, challenge, hchallenge, ?_⟩, .of_eq rfl rfl rfl⟩
    rw [hcall]
    rfl
  | confirm => exact ⟨_, rfl, wrote_ending, .of_eq rfl rfl rfl⟩
  | release => exact ⟨_, rfl, trivial, .of_eq rfl rfl rfl⟩

/-! ### What a client knows of its link -/

def key (s : ServerAuth) (r : Running) : Option Key := (s.session r).map Session.key

def challengeOf (s : ServerAuth) (id : Nat) : Option Key := (s.calls.lookup id).bind Running.challenge

def keyOf (s : ServerAuth) (id : Nat) : Option Key := (s.calls.lookup id).bind s.key

lemma key_of_le (hle : s.sessions.Le s'.sessions) (hsession : ∀ sid, r.session = some sid → r'.session = some sid)
    {k : Key} (hk : s.key r = some k) : s'.key r' = some k := by
  obtain ⟨session, hsession', rfl⟩ := Option.map_eq_some_iff.mp hk
  obtain ⟨a, ha, rfl⟩ := Option.map_eq_some_iff.mp hsession'
  obtain ⟨sid, hsid, ha⟩ := Option.bind_eq_some_iff.mp ha
  obtain ⟨a', ha', hkey, -⟩ := hle sid a ha
  rw [key, session, hsession sid hsid, Option.bind_some, ha', Option.map_some, Option.map_some, hkey]

lemma session_of_key {k : Key} (hk : s.key r = some k) : r.session.isSome := by
  cases hnone : r.session with
  | none => simp [key, session, hnone] at hk
  | some sid => rfl

lemma challengeOf_eq (hr : s.calls.lookup id = some r) : s.challengeOf id = r.challenge := by
  rw [challengeOf, hr, Option.bind_some]

lemma keyOf_eq (hr : s.calls.lookup id = some r) : s.keyOf id = s.key r := by
  rw [keyOf, hr, Option.bind_some]

/-- What there is to know of a call is not forgotten. -/
structure Remembers (s s' : ServerAuth) (id : Nat) : Prop where
  challenge : ∀ c, s.challengeOf id = some c → s'.challengeOf id = some c
  key : ∀ k, s.keyOf id = some k → s'.keyOf id = some k

lemma remembers_of_grows (hle : s.sessions.Le s'.sessions)
    (hgrows : ∀ r, s.calls.lookup id = some r → ∃ r', s'.calls.lookup id = some r' ∧ Grows r r') :
    Remembers s s' id := by
  constructor
  · intro c hc
    obtain ⟨r, hr, hc⟩ := Option.bind_eq_some_iff.mp hc
    obtain ⟨r', hr', hgrows⟩ := hgrows r hr
    rw [challengeOf_eq hr', hgrows.challenge c hc]
  · intro k hk
    obtain ⟨r, hr, hk⟩ := Option.bind_eq_some_iff.mp hk
    obtain ⟨r', hr', hgrows⟩ := hgrows r hr
    rw [keyOf_eq hr', key_of_le hle hgrows.session hk]

/-- What may end a call of the relay for the client: the network, a session that was revoked, another
session of the bond, or none; or the two ends have sessions with different keys. -/
def Excused (index : UInt32) (clientKey : Option Key) (s : ServerAuth) (r : Running) (e : Failure) : Prop :=
  e = .io ∨ e = .revoked ∨ index = 0 ∧ e = .bondExists ∨
    index ≠ 0 ∧ e = .unauthenticated ∧ r.session = none ∨
    index ≠ 0 ∧ e = .linkProof ∧ ∃ k k', s.key r = some k ∧ clientKey = some k' ∧ k ≠ k'

structure End (P : Primitives) (shared peer : Key) (bond : Bond) (index : UInt32) (clientKey : Option Key) (s : ServerAuth)
    (r : Running) : Prop where
  call : r.call = .accept bond index
  peer : ∀ peer', r.stage.peer? = some peer' → peer' = peer
  derived : index = 0 → r.session.isSome → ∃ c, r.challenge = some c ∧
    s.key r = some (tag P shared (keyMessage bond c))
  confirmation : ∀ x, r.confirmation = some x → ∃ k c, s.key r = some k ∧ r.challenge = some c ∧
    x = tag P k (confirmMessage bond index (nonceFor index c))
  failure : ∀ e, r.stage.failure? = some e → Excused index clientKey s r e

section

variable {shared peer : Key} {bond : Bond} {index : UInt32} {clientKey clientKey' : Option Key}

lemma Excused.mono {e : Failure} (h : Excused index clientKey s r e)
    (hclient : ∀ k, clientKey = some k → clientKey' = some k) (hle : s.sessions.Le s'.sessions)
    (hsession : r'.session = r.session) : Excused index clientKey' s' r' e := by
  rcases h with h | h | h | ⟨hindex, h, hnone⟩ | ⟨hindex, h, k, k', hk, hk', hne⟩
  · exact .inl h
  · exact .inr (.inl h)
  · exact .inr (.inr (.inl h))
  · exact .inr (.inr (.inr (.inl ⟨hindex, h, hsession.trans hnone⟩)))
  · refine .inr (.inr (.inr (.inr ⟨hindex, h, k, k', key_of_le hle ?_ hk, hclient k' hk', hne⟩)))
    exact fun sid hsid => hsession.trans hsid

/-- A step that changes neither the session nor the confirmation of the call. -/
lemma End.of_grows (h : End P shared peer bond index clientKey s r) (hgrows : Grows r r')
    (hle : s.sessions.Le s'.sessions) (hsession : r'.session = r.session)
    (hconfirmation : r'.confirmation = r.confirmation)
    (hpeer : ∀ peer', r'.stage.peer? = some peer' → peer' = peer)
    (hfailure : ∀ e, r'.stage.failure? = some e → Excused index clientKey' s' r' e) :
    End P shared peer bond index clientKey' s' r' := by
  refine ⟨hgrows.call.trans h.call, hpeer, ?_, ?_, hfailure⟩
  · intro hindex hsome
    obtain ⟨c, hc, hk⟩ := h.derived hindex (hsession ▸ hsome)
    exact ⟨c, hgrows.challenge c hc, key_of_le hle hgrows.session hk⟩
  · intro x hx
    obtain ⟨k, c, hk, hc, hx⟩ := h.confirmation x (hconfirmation ▸ hx)
    exact ⟨k, c, key_of_le hle hgrows.session hk, hgrows.challenge c hc, hx⟩

/-- Steps of other calls and of the client. -/
lemma End.mono (h : End P shared peer bond index clientKey s r)
    (hclient : ∀ k, clientKey = some k → clientKey' = some k) (hle : s.sessions.Le s'.sessions) :
    End P shared peer bond index clientKey' s' r :=
  h.of_grows (.of_eq rfl rfl rfl) hle rfl rfl h.peer
    fun e he => (h.failure e he).mono hclient hle rfl

def Offered (P : Primitives) (shared peer : Key) (bond : Bond) (index : UInt32) (clientKey challenge : Option Key) : Input → Prop
  | .hello version peer' => version = 2 ∧ peer' = peer
  | .proof proof => ∃ c, challenge = some c ∧
    (index = 0 → proof = tag P shared (authMessage c peer)) ∧
    (index ≠ 0 → ∃ k, clientKey = some k ∧ proof = tag P k (linkMessage c bond index))
  | _ => True

lemma end_of_opens (h : Opens s id (.accept bond index) r' s') :
    End P shared peer bond index clientKey s' r' := by
  cases h with
  | idle calls groups pending secret le below own reservation stage session silent =>
    have hquiet : ∀ x, r'.confirmation = some x → ∃ k c, s'.key r' = some k ∧ r'.challenge = some c ∧
        x = tag P k (confirmMessage bond index (nonceFor index c)) := by simp [silent.2]
    obtain ⟨-, hcall, -⟩ | ⟨hstage, hindex⟩ | ⟨hstage, hindex, hnone⟩ | ⟨hstage, hindex, hnone⟩ := stage
    · cases hcall
    · refine ⟨own, ?_, fun hzero => absurd hzero hindex, hquiet, ?_⟩
      · simp [hstage, Stage.peer?]
      · simp [hstage, Stage.failure?]
    · refine ⟨own, ?_, by simp [hnone], hquiet, ?_⟩
      · simp [hstage, Stage.peer?]
      · rw [hstage]
        rintro e ⟨⟩
        exact .inr (.inr (.inl ⟨hindex, rfl⟩))
    · refine ⟨own, ?_, by simp [hnone], hquiet, ?_⟩
      · simp [hstage, Stage.peer?]
      · rw [hstage]
        rintro e ⟨⟩
        exact .inr (.inr (.inr (.inl ⟨hindex, rfl, hnone⟩)))
  | reserves primary free pending => exact ⟨rfl, nofun, nofun, nofun, nofun⟩

lemma eq_of_put (h : (s.put id r).calls.lookup id = some r') : r' = r := by
  rw [put, lookup_insert, if_pos rfl] at h
  exact (Option.some.inj h).symm

lemma End.fail (h : End P shared peer bond index clientKey s r) {e : Failure} {challenge : Option Key}
    (hchallenge : ∀ c, r.challenge = some c → challenge = some c)
    (hle : s.sessions.Le (s.fail id { r with challenge } e).sessions)
    (he : Excused index clientKey s r e)
    (hr' : (s.fail id { r with challenge } e).calls.lookup id = some r') :
    End P shared peer bond index clientKey (s.fail id { r with challenge } e) r' := by
  cases eq_of_put hr'
  refine h.of_grows ⟨rfl, hchallenge, fun _ hsid => hsid⟩ hle rfl rfl (by simp) ?_
  simp only [failure?_ending]
  rintro _ ⟨⟩
  exact he.mono (fun _ hk => hk) hle rfl

/-- The call writes its confirmation. -/
lemma End.confirm (h : End P shared peer bond index clientKey s r) {nonce : Key} {session : Session}
    {failure : Option Failure} (hwrote : Wrote r) (hstage : r.stage = .confirm nonce)
    (hsession : s.session r = some session) (hle : s.sessions.Le s'.sessions)
    (hfailure : failure = none ∨ failure = some .io)
    (hr' : r' = { r with
      confirmation := some (tag P session.key (confirmMessage r.call.bond r.call.index nonce))
      stage := r.call.ending failure }) : End P shared peer bond index clientKey s' r' := by
  subst hr'
  have hkey : s.key r = some session.key := by rw [ServerAuth.key, hsession, Option.map_some]
  refine ⟨h.call, by simp, ?_, ?_, ?_⟩
  · intro hindex hsome
    obtain ⟨c, hc, hk⟩ := h.derived hindex hsome
    exact ⟨c, hc, key_of_le hle (fun _ hsid => hsid) hk⟩
  · rintro x ⟨⟩
    simp only [Wrote, hstage] at hwrote
    obtain ⟨-, c, hc, rfl⟩ := hwrote
    refine ⟨_, c, key_of_le hle (fun _ hsid => hsid) hkey, hc, ?_⟩
    rw [h.call]
    rfl
  · simp only [failure?_ending]
    rintro e rfl
    obtain ⟨⟨⟩⟩ | ⟨⟨⟩⟩ := hfailure
    exact .inl rfl

lemma End.create (h : End P shared peer bond index clientKey s r) {sh challenge : Key}
    (hshared : Auth.shared P s.secret peer = some shared) (hvalid : s.Valid P r) (hwrote : Wrote r)
    {peer' : Key} (hstage : r.stage = .proof peer' sh challenge) {session : Session}
    (hsession : session.key = tag P sh (keyMessage r.call.bond challenge))
    (hr' : (s.create id r session).calls.lookup id = some r') :
    End P shared peer bond index clientKey (s.create id r session) r' := by
  cases eq_of_put hr'
  simp only [Wrote, hstage] at hwrote
  simp only [Valid, hstage] at hvalid
  cases h.peer peer' (by rw [hstage]; rfl)
  cases hshared.symm.trans hvalid.2
  refine ⟨h.call, ?_, ?_, ?_, ?_⟩
  · intro peer' hpeer'
    dsimp only at hpeer'
    split at hpeer' <;> cases hpeer'
  · rintro - -
    refine ⟨challenge, hwrote.1, ?_⟩
    rw [ServerAuth.key, ServerAuth.session]
    simp [ServerAuth.create, put, lookup_insert, hsession, h.call, Call.bond]
  · simp [hwrote.2.2]
  · intro e he
    dsimp only at he
    split at he <;> cases he

lemma End.moves (h : End P shared peer bond index clientKey s r) (hmoves : Moves P s id r input s')
    (hshared : Auth.shared P s.secret peer = some shared) (hvalid : s.Valid P r) (hwrote : Wrote r)
    (hle : s.sessions.Le s'.sessions) (hoffered : Offered P shared peer bond index clientKey r.challenge input)
    (hr' : s'.calls.lookup id = some r') : End P shared peer bond index clientKey s' r' := by
  cases hmoves with
  | version stage ne => exact absurd hoffered.1 ne
  | weak stage hweak =>
    rw [hoffered.2] at hweak
    cases hshared.symm.trans hweak
  | undrawn | fail => exact h.fail (fun _ hc => hc) hle (.inl rfl) hr'
  | revoked => exact h.fail (fun _ hc => hc) hle (.inr (.inl rfl)) hr'
  | unwritten stage =>
    refine h.fail (fun c hc => ?_) hle (.inl rfl) hr'
    obtain ⟨_, _, stage⟩ | stage := stage <;> simp only [Wrote, stage] at hwrote <;>
      cases hwrote.1.symm.trans hc
  | unproved stage ne =>
    obtain ⟨c, hc, hproof, -⟩ := hoffered
    simp only [Wrote, stage] at hwrote
    simp only [Valid, stage] at hvalid
    cases h.peer _ (by rw [stage]; rfl)
    cases hwrote.1.symm.trans hc
    cases hshared.symm.trans hvalid.2
    rw [h.call] at hvalid
    exact absurd (hproof hvalid.1) ne
  | @linkUnproved _ _ session stage hsession ne =>
    obtain ⟨c, hc, -, hproof⟩ := hoffered
    simp only [Wrote, stage] at hwrote
    simp only [Valid, stage, h.call, Call.index] at hvalid
    obtain ⟨k, hk, rfl⟩ := hproof hvalid
    cases hwrote.1.symm.trans hc
    have hkey : s.key r = some session.key := by rw [ServerAuth.key, hsession, Option.map_some]
    have hne : session.key ≠ k := by
      rintro rfl
      rw [h.call] at ne
      exact ne rfl
    exact h.fail (fun _ hc => hc) hle (.inr (.inr (.inr (.inr ⟨hvalid, rfl, _, k, hkey, hk, hne⟩)))) hr'
  | hello stage =>
    cases eq_of_put hr'
    refine h.of_grows (.of_eq rfl rfl rfl) hle rfl rfl ?_ (by rintro _ ⟨⟩)
    rintro peer' ⟨⟩
    exact hoffered.2
  | challenge stage | linkChallenge stage =>
    cases eq_of_put hr'
    simp only [Wrote, stage] at hwrote
    refine h.of_grows ⟨rfl, by simp [hwrote.1], fun _ hsid => hsid⟩ hle rfl rfl ?_ (by rintro _ ⟨⟩)
    intro peer' hpeer'
    exact h.peer peer' (by rw [stage]; exact hpeer')
  | proof stage => exact h.create hshared hvalid hwrote stage rfl hr'
  | linkProof stage | register stage =>
    cases eq_of_put hr'
    exact h.of_grows (.of_eq rfl rfl rfl) hle rfl rfl (by rintro _ ⟨⟩) (by rintro _ ⟨⟩)
  | confirm stage hsession =>
    exact h.confirm hwrote stage hsession hle (.inl rfl) (eq_of_put hr')
  | unconfirmed stage hsession =>
    exact h.confirm hwrote stage hsession hle (.inr rfl) (eq_of_put hr')
  | release stage =>
    cases eq_of_put hr'
    refine h.of_grows (.of_eq rfl rfl rfl) hle rfl rfl (by rintro _ ⟨⟩) ?_
    intro e he
    exact (h.failure e (by rw [stage]; exact he)).mono (fun _ hk => hk) hle rfl

end

lemma wrote_of_opens {call : Call} (h : Opens s id call r' s') :
    s'.calls = s.calls.insert id r' ∧ Wrote r' := by
  cases h with
  | idle calls groups pending secret le below own reservation stage session silent =>
    refine ⟨calls, ?_⟩
    obtain ⟨hstage, -, hnone⟩ | ⟨hstage, -⟩ | ⟨hstage, -⟩ | ⟨hstage, -⟩ := stage
    · simp [Wrote, hstage, silent, hnone]
    all_goals simp [Wrote, hstage, silent]
  | reserves => exact ⟨rfl, rfl, rfl, rfl⟩

/-- What the steps of the relay do to its calls. -/
lemma Step.grows (h : Step P s e s') (hs : s.Sound P)
    (hwrote : ∀ id r, s.calls.lookup id = some r → Wrote r) :
    (∀ id r, s'.calls.lookup id = some r → Wrote r) ∧
      ∀ id r, s.calls.lookup id = some r → ∃ r', s'.calls.lookup id = some r' ∧ Grows r r' := by
  have hinsert : ∀ {id r'}, s'.calls = s.calls.insert id r' → Wrote r' →
      (∀ r, s.calls.lookup id = some r → Grows r r') →
      (∀ id r, s'.calls.lookup id = some r → Wrote r) ∧
        ∀ id r, s.calls.lookup id = some r → ∃ r', s'.calls.lookup id = some r' ∧ Grows r r' := by
    intro id r' hcalls hr' hgrows
    constructor
    · intro id' r₁ hr₁
      obtain ⟨rfl, rfl⟩ | ⟨-, hr₁⟩ := lookup_calls hcalls hr₁
      · exact hr'
      · exact hwrote id' r₁ hr₁
    · intro id' r hr
      rw [hcalls, lookup_insert]
      split
      · next heq =>
        subst heq
        exact ⟨r', rfl, hgrows r hr⟩
      · exact ⟨r, hr, .of_eq rfl rfl rfl⟩
  cases h with
  | begin free opens =>
    obtain ⟨hcalls, hr'⟩ := wrote_of_opens opens
    refine hinsert hcalls hr' fun r hr => ?_
    cases free.symm.trans hr
  | advance running moves turn =>
    obtain ⟨r', hcalls, hr', hgrows⟩ := moves.grows (hs.valid _ _ running) (hwrote _ _ running)
    refine hinsert hcalls hr' fun r hr => ?_
    cases running.symm.trans hr
    exact hgrows
  | sessions =>
    exact ⟨hwrote, fun id r hr => ⟨r, hr, .of_eq rfl rfl rfl⟩⟩

end ServerAuth

/-! ## The client's end of a link -/

namespace ClientAuth

variable {P : Primitives} {c c' : ClientAuth} {d d' : Dial} {shared peer : Key}
  {challenge challenge' serverKey serverKey' : Option Key} {proof : Option Key} {ch : Key}
  {stage : DialStage}

def key (c : ClientAuth) (d : Dial) : Option Key := (c.session d).map Session.key

/-- What a client may fail with on its link. -/
def Excused (serverKey : Option Key) (c : ClientAuth) (d : Dial) (e : Failure) : Prop :=
  e = .io ∨ e = .revoked ∨ d.index ≠ 0 ∧ e = .clientUnauthenticated ∧ d.session = none ∨
    d.index ≠ 0 ∧ e = .confirmation ∧ ∃ k k', serverKey = some k ∧ c.key d = some k' ∧ k ≠ k'

/-- The client's end of a link, with what is known of the other end. -/
structure End (P : Primitives) (shared peer : Key) (challenge serverKey : Option Key) (c : ClientAuth)
    (d : Dial) : Prop where
  hello : ∀ version peer', d.hello = some (version, peer') → version = 2 ∧ peer' = peer
  exchange : ∀ sh, d.stage = .challenge sh → d.index = 0 ∧ sh = shared ∧ d.session = none
  link : d.stage = .linkChallenge → d.index ≠ 0
  nonce : ∀ nonce, d.stage = .confirmation nonce → ∃ ch, challenge = some ch ∧ nonce = nonceFor d.index ch
  proof : ∀ p, d.proof = some p → ∃ ch, challenge = some ch ∧
    (d.index = 0 → p = tag P shared (authMessage ch peer)) ∧
    (d.index ≠ 0 → ∃ k, c.key d = some k ∧ p = tag P k (linkMessage ch d.bond d.index))
  derived : d.index = 0 → d.session.isSome → ∃ ch, challenge = some ch ∧
    c.key d = some (tag P shared (keyMessage d.bond ch))
  session : ∀ sid, d.session = some sid → (c.sessions.lookup sid).isSome
  failure : ∀ e, d.stage = .done (some e) → Excused serverKey c d e
  accepted : d.stage = .done none → d.session.isSome ∧ serverKey.isSome

/-- Sessions keep their keys. -/
def Keeps (c c' : ClientAuth) : Prop :=
  ∀ sid session, c.sessions.lookup sid = some session →
    ∃ session', c'.sessions.lookup sid = some session' ∧ session'.key = session.key

lemma key_of_keeps (hkeeps : c.Keeps c') (hsession : ∀ sid, d.session = some sid → d'.session = some sid)
    {k : Key} (hk : c.key d = some k) : c'.key d' = some k := by
  obtain ⟨session, hfound, rfl⟩ := Option.map_eq_some_iff.mp hk
  obtain ⟨sid, hsid, hlookup⟩ := Option.bind_eq_some_iff.mp hfound
  obtain ⟨session', hlookup', hkey⟩ := hkeeps sid session hlookup
  rw [key, ClientAuth.session, hsession sid hsid, Option.bind_some, hlookup', Option.map_some, hkey]

lemma Keeps.of_eq (h : c'.sessions = c.sessions) : c.Keeps c' :=
  fun _ session hsession => ⟨session, by rw [h, hsession], rfl⟩

lemma Keeps.isSome (hkeeps : c.Keeps c') {sid : Nat} (h : (c.sessions.lookup sid).isSome) :
    (c'.sessions.lookup sid).isSome := by
  obtain ⟨session, hsession⟩ := Option.isSome_iff_exists.mp h
  obtain ⟨session', hsession', -⟩ := hkeeps sid session hsession
  rw [hsession']
  rfl

/-- A proof that the other end accepts if both have the same session. -/
def Proves (P : Primitives) (shared peer : Key) (challenge : Option Key) (c : ClientAuth) (d : Dial)
    (p : Key) : Prop :=
  ∃ ch, challenge = some ch ∧ (d.index = 0 → p = tag P shared (authMessage ch peer)) ∧
    (d.index ≠ 0 → ∃ k, c.key d = some k ∧ p = tag P k (linkMessage ch d.bond d.index))

/-- A stage that a call may go on to without a session of its own. -/
inductive Enters (challenge serverKey : Option Key) (c : ClientAuth) (d : Dial) : DialStage → Prop
  | stays : Enters challenge serverKey c d d.stage
  | confirmation {ch : Key} (written : challenge = some ch) :
      Enters challenge serverKey c d (.confirmation (nonceFor d.index ch))
  | fails {e : Failure} (excused : Excused serverKey c d e) :
      Enters challenge serverKey c d (.done (some e))
  | accepts (held : d.session.isSome) (known : serverKey.isSome) :
      Enters challenge serverKey c d (.done none)

/-- A step that keeps the session of the call. -/
lemma End.restage (h : End P shared peer challenge serverKey c d)
    (hchallenge : ∀ ch, challenge = some ch → challenge' = some ch)
    (hkey : ∀ k, serverKey = some k → serverKey' = some k) (hkeeps : c.Keeps c')
    (hstage : Enters challenge serverKey c d stage)
    (hproof : ∀ p, proof = some p → Proves P shared peer challenge c d p) :
    End P shared peer challenge' serverKey' c' { d with stage, proof } := by
  have hsame : ∀ {k}, c.key d = some k → c'.key { d with stage, proof } = some k := fun hk =>
    key_of_keeps hkeeps (fun _ hsid => hsid) hk
  have hexcused : ∀ {e}, Excused serverKey c d e →
      Excused serverKey' c' { d with stage, proof } e := by
    rintro e (h | h | h | ⟨hindex, h, k, k', hk, hk', hne⟩)
    · exact .inl h
    · exact .inr (.inl h)
    · exact .inr (.inr (.inl h))
    · exact .inr (.inr (.inr ⟨hindex, h, k, k', hkey k hk, hsame hk', hne⟩))
  have hknown : serverKey.isSome → serverKey'.isSome := by
    intro hsome
    obtain ⟨k, hk⟩ := Option.isSome_iff_exists.mp hsome
    rw [hkey k hk]
    rfl
  refine ⟨h.hello, ?_, ?_, ?_, ?_, ?_, fun sid hsid => hkeeps.isSome (h.session sid hsid), ?_, ?_⟩
  · obtain _ | _ | _ | _ := hstage
    · exact h.exchange
    all_goals exact nofun
  · obtain _ | _ | _ | _ := hstage
    · exact h.link
    all_goals exact nofun
  · obtain _ | @⟨ch, hch⟩ | _ | _ := hstage
    · intro nonce hstage
      obtain ⟨ch, hch, hnonce⟩ := h.nonce nonce hstage
      exact ⟨ch, hchallenge ch hch, hnonce⟩
    · rintro nonce ⟨⟩
      exact ⟨ch, hchallenge ch hch, rfl⟩
    all_goals exact nofun
  · intro p hp
    obtain ⟨ch, hch, hzero, hpos⟩ := hproof p hp
    refine ⟨ch, hchallenge ch hch, hzero, fun hindex => ?_⟩
    obtain ⟨k, hk, hp⟩ := hpos hindex
    exact ⟨k, hsame hk, hp⟩
  · intro hindex hsome
    obtain ⟨ch, hch, hk⟩ := h.derived hindex hsome
    exact ⟨ch, hchallenge ch hch, hsame hk⟩
  · obtain _ | _ | he | _ := hstage
    · exact fun e he => hexcused (h.failure e he)
    · exact nofun
    · rintro _ ⟨⟩
      exact hexcused he
    · exact nofun
  · obtain _ | _ | _ | ⟨hheld, hsome⟩ := hstage
    · exact fun hstage => (h.accepted hstage).imp_right hknown
    · exact nofun
    · exact nofun
    · exact fun _ => ⟨hheld, hknown hsome⟩

/-- Steps of other calls and of the relay. -/
lemma End.mono (h : End P shared peer challenge serverKey c d)
    (hchallenge : ∀ ch, challenge = some ch → challenge' = some ch)
    (hkey : ∀ k, serverKey = some k → serverKey' = some k) (hkeeps : c.Keeps c') :
    End P shared peer challenge' serverKey' c' d :=
  h.restage hchallenge hkey hkeeps .stays h.proof

structure Steps (c c' : ClientAuth) : Prop where
  secret : c'.secret = c.secret
  relay : c'.relay = c.relay
  keeps : c.Keeps c'

/-- No session has a number from the next one on. -/
def Below (c : ClientAuth) : Prop := ∀ sid, c.nextSession ≤ sid → c.sessions.lookup sid = none

/-- A step of one call keeps which link it is for and the session it has. -/
structure Turn (c c' : ClientAuth) (id : Nat) (d d' : Dial) : Prop extends Steps c c' where
  calls : c'.calls = c.calls.insert id d'
  below : c'.Below
  bond : d'.bond = d.bond
  index : d'.index = d.index
  session : ∀ sid, d.session = some sid → d'.session = some sid

lemma turn_put {id : Nat} (hbelow : c.Below) (stage : DialStage) (proof : Option Key) :
    Turn c (c.put id { d with stage, proof }) id d { d with stage, proof } :=
  ⟨⟨rfl, rfl, .of_eq rfl⟩, rfl, hbelow, rfl, rfl, fun _ hsid => hsid⟩

/-- What a call does, one case for each way through the source. -/
inductive Moves (P : Primitives) (c : ClientAuth) (id : Nat) (d : Dial) : DialEvent → ClientAuth → Prop
  | unwritten {ch sh : Key} (stage : d.stage = .challenge sh) :
      Moves P c id d (.challenge id ch false)
        (c.fail id { d with proof := some (tag P sh (authMessage ch (c.publicKey P))) } .io)
  | answer {ch sh : Key} (stage : d.stage = .challenge sh) :
      Moves P c id d (.challenge id ch true)
        (c.create id { d with proof := some (tag P sh (authMessage ch (c.publicKey P))) }
          (.new (c.publicKey P) (tag P sh (keyMessage d.bond ch))))
  | linkUnwritten {ch : Key} {session : Session} (stage : d.stage = .linkChallenge)
      (found : c.session d = some session) :
      Moves P c id d (.challenge id ch false)
        (c.fail id { d with proof := some (tag P session.key (linkMessage ch d.bond d.index)) } .io)
  | linkAnswer {ch : Key} {session : Session} (stage : d.stage = .linkChallenge)
      (found : c.session d = some session) :
      Moves P c id d (.challenge id ch true)
        (c.put id { d with
          proof := some (tag P session.key (linkMessage ch d.bond d.index))
          stage := .confirmation ch })
  | revoked {e : DialEvent}
      (own : (∃ ch written, e = .challenge id ch written) ∨ ∃ x, e = .confirmation id x) :
      Moves P c id d e (c.fail id d .revoked)
  | unconfirmed {x nonce : Key} {sid : Nat} {session : Session} (stage : d.stage = .confirmation nonce)
      (held : d.session = some sid) (found : c.sessions.lookup sid = some session)
      (ne : x ≠ tag P session.key (confirmMessage d.bond d.index nonce)) :
      Moves P c id d (.confirmation id x) (c.fail id d .confirmation)
  | confirm {x : Key} {sid : Nat} (held : d.session = some sid) :
      Moves P c id d (.confirmation id x)
        ({ c with group := if d.index = 0 then some (d.bond, sid) else c.group }.put id
          { d with stage := .done none })
  | fail : Moves P c id d (.fail id) (c.fail id d .io)

lemma answer_moves {id : Nat} {written : Bool} (h : c.answer P id d ch written = some c') :
    Moves P c id d (.challenge id ch written) c' := by
  unfold answer at h
  cases hstage : d.stage <;> rw [hstage] at h
  · cases h
    cases written
    · exact .unwritten hstage
    · exact .answer hstage
  · obtain ⟨session, hsession, rfl⟩ := Option.map_eq_some_iff.mp h
    unfold Session.proof
    by_cases hactive : session.active = true
    · rw [if_pos hactive]
      cases written
      · exact .linkUnwritten hstage hsession
      · exact .linkAnswer hstage hsession
    · rw [if_neg hactive]
      exact .revoked (.inl ⟨_, _, rfl⟩)
  all_goals cases h

lemma confirm_moves {id : Nat} {x : Key} (h : c.confirm P id d x = some c') :
    Moves P c id d (.confirmation id x) c' := by
  unfold confirm at h
  split at h
  · next nonce sid hstage hsid =>
    obtain ⟨session, hsession, rfl⟩ := Option.map_eq_some_iff.mp h
    unfold Session.verifyConfirmation
    by_cases hactive : session.active = true
    · rw [if_pos hactive]
      by_cases hx : x = tag P session.key (confirmMessage d.bond d.index nonce)
      · rw [if_pos hx]
        exact .confirm hsid
      · rw [if_neg hx]
        exact .unconfirmed hstage hsid hsession hx
    · rw [if_neg hactive]
      exact .revoked (.inr ⟨_, rfl⟩)
  · cases h

lemma End.moved (h : End P shared peer challenge serverKey c d) (hbelow : c.Below) (id : Nat)
    (hstage : Enters challenge serverKey c d stage)
    (hproof : ∀ p, proof = some p → Proves P shared peer challenge c d p) :
    ∃ d', Turn c (c.put id { d with stage, proof }) id d d' ∧
      End P shared peer challenge serverKey (c.put id { d with stage, proof }) d' :=
  have hturn := turn_put hbelow stage proof
  ⟨_, hturn, h.restage (fun _ h => h) (fun _ h => h) hturn.keeps hstage hproof⟩

def Received (P : Primitives) (shared : Key) (challenge serverKey : Option Key) (d : Dial) : DialEvent → Prop
  | .challenge _ ch _ => challenge = some ch
  | .confirmation _ x => ∃ k ch, serverKey = some k ∧ challenge = some ch ∧
    x = tag P k (confirmMessage d.bond d.index (nonceFor d.index ch)) ∧
    (d.index = 0 → k = tag P shared (keyMessage d.bond ch))
  | _ => True

lemma End.create {id : Nat} (h : End P shared (c.publicKey P) challenge serverKey c d)
    (hbelow : c.Below) (hindex : d.index = 0) (hnone : d.session = none) (hch : challenge = some ch)
    {session : Session} (hsession : session.key = tag P shared (keyMessage d.bond ch)) :
    ∃ d', Turn c (c.create id { d with proof := some (tag P shared (authMessage ch (c.publicKey P))) } session)
        id d d' ∧
      End P shared (c.publicKey P) challenge serverKey
        (c.create id { d with proof := some (tag P shared (authMessage ch (c.publicKey P))) } session) d' := by
  refine ⟨_, ⟨⟨rfl, rfl, ?_⟩, rfl, ?_, rfl, rfl, by simp [hnone]⟩,
    ⟨h.hello, nofun, nofun, ?_, ?_, ?_, ?_, nofun, nofun⟩⟩
  · intro sid session' hsession'
    refine ⟨session', ?_, rfl⟩
    have hne : sid ≠ c.nextSession := by
      rintro rfl
      cases (hbelow _ le_rfl).symm.trans hsession'
    rw [ClientAuth.create, put, lookup_insert, if_neg hne, hsession']
  · intro sid hle
    have hlt : c.nextSession < sid := hle
    rw [ClientAuth.create, put, lookup_insert, if_neg hlt.ne', hbelow sid hlt.le]
  · rintro nonce ⟨⟩
    exact ⟨ch, hch, by simp [nonceFor, hindex]⟩
  · rintro p ⟨⟩
    exact ⟨ch, hch, fun _ => rfl, fun hne => absurd hindex hne⟩
  · rintro - -
    refine ⟨ch, hch, ?_⟩
    simp [ClientAuth.key, ClientAuth.session, ClientAuth.create, put, lookup_insert, hsession]
  · rintro sid ⟨⟩
    simp [ClientAuth.create, put]

/-- The proof of a link under the session that the client has for it. -/
lemma End.proves_link {session : Session} (h : End P shared peer challenge serverKey c d)
    (hstage : d.stage = .linkChallenge) (hfound : c.session d = some session)
    (hch : challenge = some ch) (p : Key)
    (hp : some (tag P session.key (linkMessage ch d.bond d.index)) = some p) :
    Proves P shared peer challenge c d p := by
  cases hp
  refine ⟨ch, hch, fun hzero => absurd hzero (h.link hstage), fun _ => ⟨_, ?_, rfl⟩⟩
  rw [ClientAuth.key, hfound, Option.map_some]

lemma End.moves {id : Nat} {e : DialEvent} (h : End P shared (c.publicKey P) challenge serverKey c d)
    (hmoves : Moves P c id d e c') (hbelow : c.Below)
    (hreceived : Received P shared challenge serverKey d e) :
    ∃ d', Turn c c' id d d' ∧ End P shared (c.publicKey P) challenge serverKey c' d' := by
  cases hmoves with
  | unwritten stage =>
    obtain ⟨hindex, rfl, -⟩ := h.exchange _ stage
    refine h.moved hbelow id (.fails (.inl rfl)) ?_
    rintro p ⟨⟩
    exact ⟨_, hreceived, fun _ => rfl, fun hne => absurd hindex hne⟩
  | answer stage =>
    obtain ⟨hindex, rfl, hnone⟩ := h.exchange _ stage
    exact h.create hbelow hindex hnone hreceived rfl
  | linkUnwritten stage found =>
    exact h.moved hbelow id (.fails (.inl rfl)) (h.proves_link stage found hreceived)
  | linkAnswer stage found =>
    have hnonce : Enters challenge serverKey c d _ := .confirmation hreceived
    rw [nonceFor, if_neg (h.link stage)] at hnonce
    exact h.moved hbelow id hnonce (h.proves_link stage found hreceived)
  | revoked => exact h.moved hbelow id (.fails (.inr (.inl rfl))) h.proof
  | @unconfirmed _ _ _ session stage hsid found ne =>
    obtain ⟨k, ch, hk, hch, rfl, hzero⟩ := hreceived
    obtain ⟨ch', hch', rfl⟩ := h.nonce _ stage
    cases hch.symm.trans hch'
    have hkey : c.key d = some session.key := by
      rw [ClientAuth.key, ClientAuth.session, hsid, Option.bind_some, found, Option.map_some]
    have hne : k ≠ session.key := by
      rintro rfl
      exact ne rfl
    -- link 0 has the same key at both ends
    have hindex : d.index ≠ 0 := by
      intro hindex
      obtain ⟨ch'', hch'', hderived⟩ := h.derived hindex (by rw [hsid]; rfl)
      cases hch.symm.trans hch''
      rw [hkey, ← hzero hindex] at hderived
      exact hne (Option.some.inj hderived).symm
    refine h.moved hbelow id (.fails (.inr (.inr (.inr ⟨hindex, rfl, k, _, hk, hkey, hne⟩)))) h.proof
  | confirm hsid =>
    obtain ⟨k, ch, hk, -⟩ := hreceived
    have haccepts : Enters challenge serverKey c d (.done none) :=
      .accepts (by rw [hsid]; rfl) (by rw [hk]; rfl)
    refine ⟨{ d with stage := .done none }, ⟨⟨rfl, rfl, .of_eq rfl⟩, rfl, hbelow, rfl, rfl,
      fun _ hsid => hsid⟩, h.restage (fun _ h => h) (fun _ h => h) ?_ haccepts h.proof⟩
    exact .of_eq rfl
  | fail => exact h.moved hbelow id (.fails (.inl rfl)) h.proof

/-- A call begins. -/
lemma dial_end (hrelay : Auth.shared P c.secret c.relay = some shared) (hbelow : c.Below) (id : Nat)
    (bond : Bond) (index : UInt32) (written : Bool) :
    ∃ d', d'.bond = bond ∧ d'.index = index ∧ Steps c (c.dial P id bond index written) ∧
      (c.dial P id bond index written).Below ∧
      (c.dial P id bond index written).calls = c.calls.insert id d' ∧
      End P shared (c.publicKey P) challenge serverKey (c.dial P id bond index written) d' := by
  unfold dial
  by_cases hindex : index = 0
  · rw [if_pos hindex, hrelay]
    refine ⟨_, rfl, rfl, ⟨rfl, rfl, .of_eq rfl⟩, hbelow, rfl, ⟨?_, ?_, ?_, ?_, nofun, nofun, nofun, ?_, ?_⟩⟩
    · rintro version peer' ⟨⟩
      exact ⟨rfl, rfl⟩
    all_goals cases written
    all_goals simp [hindex, Excused]
  · rw [if_neg hindex]
    cases hfind : c.find bond with
    | none =>
      refine ⟨_, rfl, rfl, ⟨rfl, rfl, .of_eq rfl⟩, hbelow, rfl, ⟨nofun, nofun, nofun, nofun, nofun,
        nofun, nofun, ?_, nofun⟩⟩
      rintro e ⟨⟩
      exact .inr (.inr (.inl ⟨hindex, rfl, rfl⟩))
    | some sid =>
      refine ⟨_, rfl, rfl, ⟨rfl, rfl, .of_eq rfl⟩, hbelow, rfl, ⟨nofun, nofun, fun _ => hindex, nofun, nofun,
        fun hzero => absurd hzero hindex, ?_, nofun, nofun⟩⟩
      rintro sid' ⟨⟩
      unfold find at hfind
      obtain ⟨⟨bond', sid'⟩, hgroup, rfl⟩ := Option.map_eq_some_iff.mp hfind
      have hactive := (Option.filter_eq_some_iff.mp hgroup).2
      simp only [Bool.and_eq_true, Option.any_eq_true_iff_get] at hactive
      exact hactive.2.1

/-- What a step of the client is: a call begins, a call goes on, or a session is revoked. -/
lemma step_cases {e : DialEvent} (h : c.step P e = some c') :
    (∃ id bond index written, e = .dial id bond index written ∧ c.calls.lookup id = none ∧
      c' = c.dial P id bond index written) ∨
    (∃ id d, c.calls.lookup id = some d ∧ Moves P c id d e c') ∨
    ∃ sid session, c.sessions.lookup sid = some session ∧
      c' = { c with sessions := c.sessions.insert sid session.invalidate } := by
  cases e with
  | dial id bond index written =>
    simp only [step] at h
    split at h
    · cases h
    · next hfree =>
      cases h
      exact .inl ⟨id, bond, index, written, rfl, Option.not_isSome_iff_eq_none.mp hfree, rfl⟩
  | challenge id ch written =>
    obtain ⟨d, hd, h⟩ := Option.bind_eq_some_iff.mp h
    exact .inr (.inl ⟨id, d, hd, answer_moves h⟩)
  | confirmation id x =>
    obtain ⟨d, hd, h⟩ := Option.bind_eq_some_iff.mp h
    exact .inr (.inl ⟨id, d, hd, confirm_moves h⟩)
  | fail id =>
    obtain ⟨d, hd, h⟩ := Option.bind_eq_some_iff.mp h
    split at h <;> cases h
    exact .inr (.inl ⟨id, d, hd, .fail⟩)
  | invalidate sid =>
    obtain ⟨session, hsession, rfl⟩ := Option.map_eq_some_iff.mp h
    exact .inr (.inr ⟨sid, session, hsession, rfl⟩)

/-- Revoking a session keeps its key. -/
lemma invalidate_steps {sid : Nat} {session : Session} (h : c.sessions.lookup sid = some session)
    (hbelow : c.Below) :
    Steps c { c with sessions := c.sessions.insert sid session.invalidate } ∧
      Below { c with sessions := c.sessions.insert sid session.invalidate } := by
  refine ⟨⟨rfl, rfl, fun sid' session' hsession' => ?_⟩, fun sid' hle => ?_⟩
  · dsimp only
    rw [lookup_insert]
    split
    · next heq =>
      subst heq
      cases h.symm.trans hsession'
      exact ⟨_, rfl, rfl⟩
    · exact ⟨session', hsession', rfl⟩
  · dsimp only at hle ⊢
    rw [lookup_insert, if_neg, hbelow sid' hle]
    rintro rfl
    cases (hbelow sid' hle).symm.trans h

end ClientAuth

end Fluxpeer.Relay.Auth
