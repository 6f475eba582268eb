import Fluxpeer.Crypto.Primitives
import Fluxpeer.Lib.HashMap
import Fluxpeer.Lib.Run
import Mathlib.Data.Finset.Insert
import Mathlib.Data.Finset.Erase

/-!
# Authentication of relay links

Link 0 of a bond proves the client's identity to the relay: both sides take the key exchange of
their static keys, the client answers a challenge with it, and the key of the bond is derived from
the exchange and the challenge. Every further link answers a challenge with that key.

`ServerAuth::accept` waits for the network in between, so calls of it interleave. A call is a record
of where it stands, and each input takes it to the next place where it waits or takes a lock. The
registry of bonds holds its sessions weakly: a session is registered as long as somebody keeps it and
it has not been revoked.
-/

namespace Fluxpeer.Relay.Auth

open Lib Crypto

abbrev Bond := Block 16

def ascii (text : String) : Bytes := text.toList.map fun c => UInt8.ofNat c.toNat

def AUTH : Bytes := ascii "fluxpeer-relay-auth-v1"

def LINK : Bytes := ascii "fluxpeer-relay-link-v1"

def CONFIRM : Bytes := ascii "fluxpeer-relay-confirm-v1"

/-- `[0; 32]`. -/
def zero : Key := .replicate 32 0

inductive Failure
  /-- Reading, writing or drawing a nonce failed, or the call was dropped. -/
  | io
  | nonContributory
  | version
  | identityProof
  | bondExists
  | unauthenticated
  | linkProof
  | revoked
  | confirmation
  | clientUnauthenticated
deriving DecidableEq

/-! ## Messages -/

/-- What link 0 answers its challenge with. -/
def authMessage (challenge peer : Key) : Bytes := [AUTH, challenge.toList, peer.toList].flatten

/-- What the key of the bond is derived from. -/
def keyMessage (bond : Bond) (challenge : Key) : Bytes :=
  [LINK, bond.toList, challenge.toList].flatten

/-- What a further link answers its challenge with. -/
def linkMessage (challenge : Key) (bond : Bond) (index : UInt32) : Bytes :=
  [challenge.toList, bond.toList, beBytes 4 index.toNat].flatten

def confirmMessage (bond : Bond) (index : UInt32) (nonce : Key) : Bytes :=
  [CONFIRM, bond.toList, beBytes 4 index.toNat, nonce.toList].flatten

/-- The messages under the key of a bond differ in their lengths. -/
lemma confirmMessage_ne_linkMessage (bond bond' : Bond) (index index' : UInt32)
    (nonce challenge : Key) : confirmMessage bond index nonce ≠ linkMessage challenge bond' index' := by
  intro h
  have hlen := congrArg List.length h
  have hlabel : CONFIRM.length = 25 := by decide +kernel
  simp [confirmMessage, linkMessage, hlabel] at hlen

section

variable (P : Primitives)

def tag (key : Key) (message : Bytes) : Key := P.b2sHmac key message

def shared (secret peer : Key) : Option Key :=
  let value := P.diffieHellman secret peer
  if wasContributory value then some value else none

/-! ## Sessions -/

/-- The lock of the source holds the key as long as the session is active. -/
structure Session where
  peer : Key
  key : Key
  active : Bool
deriving DecidableEq

namespace Session

def new (peer key : Key) : Session := ⟨peer, key, true⟩

def invalidate (s : Session) : Session := { s with active := false }

def confirmation (s : Session) (bond : Bond) (index : UInt32) (nonce : Key) : Except Failure Key :=
  if s.active then .ok (tag P s.key (confirmMessage bond index nonce)) else .error .revoked

def verifyConfirmation (s : Session) (bond : Bond) (index : UInt32) (nonce proof : Key) :
    Except Failure Unit :=
  if s.active then
    if proof = tag P s.key (confirmMessage bond index nonce) then .ok () else .error .confirmation
  else .error .revoked

def proof (s : Session) (nonce : Key) (bond : Bond) (index : UInt32) : Except Failure Key :=
  if s.active then .ok (tag P s.key (linkMessage nonce bond index)) else .error .revoked

def verify (s : Session) (nonce : Key) (bond : Bond) (index : UInt32) (proof : Key) :
    Except Failure Unit :=
  if s.active then
    if proof = tag P s.key (linkMessage nonce bond index) then .ok () else .error .linkProof
  else .error .revoked

end Session

/-- A session with the number of references that keep it. -/
structure Arc where
  session : Session
  refs : Nat
deriving DecidableEq

/-- A weak reference finds the session, and it is active. -/
def Arc.usable (a : Arc) : Bool := a.session.active && 0 < a.refs

abbrev Sessions := HashMap Nat Arc

def Sessions.modify (h : Sessions) (sid : Nat) (f : Arc → Arc) : Sessions :=
  match h.lookup sid with
  | none => h
  | some a => h.insert sid (f a)

def Sessions.clone (h : Sessions) (sid : Nat) : Sessions := h.modify sid fun a => { a with refs := a.refs + 1 }

def Sessions.drop (h : Sessions) (sid : Nat) : Sessions := h.modify sid fun a => { a with refs := a.refs - 1 }

def Sessions.usable (h : Sessions) (sid : Nat) : Bool := (h.lookup sid).any Arc.usable

/-! ## The relay -/

inductive Call
  | plain
  | accept (bond : Bond) (index : UInt32)
deriving DecidableEq

namespace Call

def bond : Call → Bond
  | .plain => .replicate 16 0
  | .accept bond _ => bond

def index : Call → UInt32
  | .plain => 0
  | .accept _ index => index

/-- The call is in the registry while it authenticates. -/
def reserves : Call → Bool
  | .plain => false
  | .accept _ index => index = 0

lemma eq_accept {call : Call} (h : call.reserves = true) : ∃ bond, call = .accept bond 0 := by
  cases call with
  | plain => cases h
  | accept bond index => exact ⟨bond, by rw [show index = 0 by simpa [reserves] using h]⟩

end Call

inductive Stage
  /-- `primary` reads the version and the key of the client. -/
  | hello
  | challenge (peer shared : Key)
  | proof (peer shared challenge : Key)
  | register
  | linkChallenge
  | linkProof (challenge : Key)
  | confirm (nonce : Key)
  /-- The reservation is dropped next. -/
  | leaving (failure : Option Failure)
  | done (failure : Option Failure)
deriving DecidableEq

structure Running where
  call : Call
  stage : Stage
  /-- The session the call has made or found. -/
  session : Option Nat
  /-- What the call has written. -/
  challenge : Option Key
  confirmation : Option Key
deriving DecidableEq

def Stage.inProgress : Stage → Bool
  | .done _ => false
  | _ => true

/-- The call has its session and may drop it; at its end it hands the session over. -/
def Stage.holds : Stage → Bool
  | .leaving (some _) | .done _ => false
  | _ => true

/-- The call is on its way to a session of its own. -/
def Stage.unregistered : Stage → Bool
  | .hello | .challenge .. | .proof .. | .register => true
  | _ => false

def Call.ending (call : Call) (failure : Option Failure) : Stage :=
  if call.reserves then .leaving failure else .done failure

/-- The bond a call has a reservation for. -/
def Running.reservation (r : Running) : Option Bond :=
  if r.call.reserves && r.stage.inProgress then some r.call.bond else none

inductive Input
  | hello (version : UInt32) (peer : Key)
  /-- A nonce is drawn, or not, and written. -/
  | draw (nonce : Option Key) (written : Bool)
  | proof (proof : Key)
  | register
  | confirm (written : Bool)
  | fail
  | release
deriving DecidableEq

inductive ServerEvent
  | begin (id : Nat) (call : Call)
  | advance (id : Nat) (input : Input)
  | invalidate (sid : Nat)
  /-- Whoever was given a session copies or drops a reference. -/
  | clone (sid : Nat)
  | drop (sid : Nat)
deriving DecidableEq

structure ServerAuth where
  secret : Key
  groups : HashMap Bond Nat
  pending : Finset Bond
  sessions : Sessions
  nextSession : Nat
  calls : HashMap Nat Running

namespace ServerAuth

def new (secret : Key) : ServerAuth := ⟨secret, ∅, ∅, ∅, 0, ∅⟩

def put (s : ServerAuth) (id : Nat) (r : Running) : ServerAuth := { s with calls := s.calls.insert id r }

/-- The active session that is registered for a bond. -/
def find (s : ServerAuth) (bond : Bond) : Option Nat := (s.groups.lookup bond).filter s.sessions.usable

def inCalls (s : ServerAuth) (sid : Nat) : Nat :=
  s.calls.entries.countP fun entry => entry.2.stage.holds && entry.2.session = some sid

def session (s : ServerAuth) (r : Running) : Option Session :=
  (r.session.bind s.sessions.lookup).map Arc.session

def fail (s : ServerAuth) (id : Nat) (r : Running) (e : Failure) : ServerAuth :=
  { s with sessions := r.session.elim s.sessions s.sessions.drop }.put id
    { r with stage := r.call.ending (some e) }

/-- `accept` up to its first wait. -/
def begin (s : ServerAuth) (id : Nat) (call : Call) : ServerAuth :=
  match call with
  | .plain => s.put id ⟨call, .hello, none, none, none⟩
  | .accept bond index =>
    if index = 0 then
      let s := { s with groups := s.groups.retain fun _ sid => s.sessions.usable sid }
      if s.groups.contains bond ∨ bond ∈ s.pending then
        s.put id ⟨call, .done (some .bondExists), none, none, none⟩
      else
        { s with pending := insert bond s.pending }.put id ⟨call, .hello, none, none, none⟩
    else
      match s.find bond with
      | none => s.put id ⟨call, .done (some .unauthenticated), none, none, none⟩
      | some sid =>
        { s with sessions := s.sessions.clone sid }.put id ⟨call, .linkChallenge, some sid, none, none⟩

/-- The end of `primary`: only the sessions of `accept` are registered. -/
def create (s : ServerAuth) (id : Nat) (r : Running) (session : Session) : ServerAuth :=
  { s with
    sessions := s.sessions.insert s.nextSession ⟨session, 1⟩
    nextSession := s.nextSession + 1 }.put id
    { r with session := some s.nextSession, stage := if r.call.reserves then .register else .confirm zero }

def advance (s : ServerAuth) (id : Nat) (r : Running) : Input → Option ServerAuth
  | .hello version peer =>
    match r.stage with
    | .hello =>
      if version ≠ 2 then some (s.fail id r .version)
      else match shared P s.secret peer with
        | none => some (s.fail id r .nonContributory)
        | some shared => some (s.put id { r with stage := .challenge peer shared })
    | _ => none
  | .draw none _ =>
    match r.stage with
    | .challenge .. | .linkChallenge => some (s.fail id r .io)
    | _ => none
  | .draw (some nonce) written =>
    let r := { r with challenge := some nonce }
    match r.stage with
    | .challenge peer shared =>
      some (if written then s.put id { r with stage := .proof peer shared nonce } else s.fail id r .io)
    | .linkChallenge =>
      some (if written then s.put id { r with stage := .linkProof nonce } else s.fail id r .io)
    | _ => none
  | .proof proof =>
    match r.stage with
    | .proof peer shared challenge =>
      if proof = tag P shared (authMessage challenge peer) then
        some (s.create id r (.new peer (tag P shared (keyMessage r.call.bond challenge))))
      else some (s.fail id r .identityProof)
    | .linkProof challenge =>
      (s.session r).map fun session =>
        match session.verify P challenge r.call.bond r.call.index proof with
        | .error e => s.fail id r e
        | .ok () => s.put id { r with stage := .confirm challenge }
    | _ => none
  | .register =>
    match r.stage, r.session with
    | .register, some sid =>
      some ({ s with groups := s.groups.insert r.call.bond sid }.put id { r with stage := .confirm zero })
    | _, _ => none
  | .confirm written =>
    match r.stage with
    | .confirm nonce =>
      (s.session r).map fun session =>
        match session.confirmation P r.call.bond r.call.index nonce with
        | .error e => s.fail id r e
        | .ok confirmation =>
          let r := { r with confirmation := some confirmation }
          if written then s.put id { r with stage := r.call.ending none } else s.fail id r .io
    | _ => none
  | .fail =>
    match r.stage with
    | .hello | .proof .. | .linkProof _ => some (s.fail id r .io)
    | _ => none
  | .release =>
    match r.stage with
    | .leaving failure =>
      some ({ s with pending := s.pending.erase r.call.bond }.put id { r with stage := .done failure })
    | _ => none

def step (s : ServerAuth) : ServerEvent → Option ServerAuth
  | .begin id call => if (s.calls.lookup id).isSome then none else some (s.begin id call)
  | .advance id input => (s.calls.lookup id).bind (s.advance P id · input)
  | .invalidate sid =>
    some { s with sessions := s.sessions.modify sid fun a => { a with session := a.session.invalidate } }
  | .clone sid =>
    (s.sessions.lookup sid).bind fun a =>
      if s.inCalls sid < a.refs then some { s with sessions := s.sessions.clone sid } else none
  | .drop sid =>
    (s.sessions.lookup sid).bind fun a =>
      if s.inCalls sid < a.refs then some { s with sessions := s.sessions.drop sid } else none

end ServerAuth

end

end Fluxpeer.Relay.Auth
