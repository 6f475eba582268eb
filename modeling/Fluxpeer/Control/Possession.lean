import Fluxpeer.Lib.HashMap
import Fluxpeer.Lib.Run
import Fluxpeer.Net.PublicKey

/-!
# Proof of possession

To enrol a key a client answers a challenge: the server draws an ephemeral key pair, and the proof
is the key exchange of the client's private key with the ephemeral public one. The pending
challenges are a table behind a lock. A call reads the clock before it takes the lock, so other calls
may come in between; what is pruned is what had expired when the call read the clock.
-/

namespace Fluxpeer.Control

open Lib Crypto Net HashMap

/-- Times are in nanoseconds. -/
def CHALLENGE_TTL : Nat := 60 * 1000000000

def MAX_PENDING : Nat := 4096

structure Pending where
  ephemeral : Key
  claimedPub : Key
  expires : Nat
deriving DecidableEq

abbrev PendingTable := HashMap String Pending

def PendingTable.prune (map : PendingTable) (now : Nat) : PendingTable :=
  map.retain fun _ p => p.expires > now

structure Challenge where
  challengeId : String
  serverPub : String

/-- A call that has read the clock and waits for the lock. -/
inductive PopCall
  | newChallenge (claimed ephemeral : Key) (challengeId : String) (now : Nat)
  | verify (challengeId claimedPub proof : String) (now : Nat)

def PopCall.now : PopCall → Nat
  | .newChallenge _ _ _ now | .verify _ _ _ now => now

def decodeKey (value : String) : Option Key :=
  (PublicKey.hexDecode value.toList).bind (Block.ofBytes? 32)

section

variable (P : Primitives)

/-- `new_challenge` up to the lock. -/
def newChallenge (claimedPub : String) (ephemeral : Key) (challengeId : String) (now : Nat) :
    Option PopCall :=
  (PublicKey.decode claimedPub).bind fun claimed =>
    if wasContributory (P.diffieHellman ephemeral claimed) then
      some (.newChallenge claimed ephemeral challengeId now)
    else none

/-- `new_challenge` under the lock. -/
def mint (map : PendingTable) (claimed ephemeral : Key) (challengeId : String) (now : Nat) :
    PendingTable × Option Challenge :=
  let map := map.prune now
  if map.len ≥ MAX_PENDING then (map, none)
  else
    (map.insert challengeId ⟨ephemeral, claimed, now + CHALLENGE_TTL⟩,
      some ⟨challengeId, PublicKey.canonical (P.publicKey ephemeral)⟩)

/-- What `verify` does with the challenge it took out of the table. -/
def Pending.proves (entry : Pending) (claimedPub proof : String) (now : Nat) : Bool :=
  if entry.expires ≤ now then false
  else
    match PublicKey.decode claimedPub with
    | none => false
    | some claimed =>
      if claimed ≠ entry.claimedPub then false
      else
        match decodeKey proof with
        | none => false
        | some proof =>
          let expected := P.diffieHellman entry.ephemeral entry.claimedPub
          wasContributory expected && ctEq expected.toList proof.toList

/-- `verify` under the lock and behind it. -/
def verify (map : PendingTable) (challengeId claimedPub proof : String) (now : Nat) :
    PendingTable × Bool :=
  let map := map.prune now
  (map.erase challengeId,
    match map.lookup challengeId with
    | none => false
    | some entry => entry.proves P claimedPub proof now)

/-- What `sql_enroll` asks of a request before it verifies the proof: a key, a challenge and a
proof. -/
def enrollProof (wgPublicKey : String) (challengeId proof : Option String) :
    Option (String × String) :=
  if (PublicKey.decode wgPublicKey).isNone then none else challengeId.bind fun id => proof.map (id, ·)

/-! ## Runs -/

structure Pop where
  pending : PendingTable
  calls : Nat → Option PopCall
  nextCall : Nat
  now : Nat

inductive PopEvent
  | newChallenge (claimedPub : String) (ephemeral : Key) (challengeId : String)
  | verify (challengeId claimedPub proof : String)
  /-- A request to enrol, which verifies its proof if it has one. -/
  | enroll (wgPublicKey : String) (challengeId proof : Option String)
  /-- A call takes the lock. -/
  | lock (id : Nat)
  | tick

namespace Pop

def new : Pop := ⟨∅, fun _ => none, 0, 0⟩

def call (s : Pop) (c : Option PopCall) : Pop :=
  { s with calls := Function.update s.calls s.nextCall c, nextCall := s.nextCall + 1 }

def locked (s : Pop) : PopCall → PendingTable
  | .newChallenge claimed ephemeral id now => (mint P s.pending claimed ephemeral id now).1
  | .verify id claimedPub proof now => (verify P s.pending id claimedPub proof now).1

def step (s : Pop) : PopEvent → Option Pop
  | .newChallenge claimedPub ephemeral id => some (s.call (newChallenge P claimedPub ephemeral id s.now))
  | .verify id claimedPub proof => some (s.call (some (.verify id claimedPub proof s.now)))
  | .enroll wgPublicKey id proof =>
    some (s.call ((enrollProof wgPublicKey id proof).map fun (id, proof) =>
      .verify id wgPublicKey proof s.now))
  | .lock id => (s.calls id).map fun c =>
    { s with pending := s.locked P c, calls := Function.update s.calls id none }
  | .tick => some { s with now := s.now + 1 }

end Pop

end

section

variable {P : Primitives} {map : PendingTable} {id : String} {now : Nat} {claimedPub proof : String}

/-! ## The table -/

lemma len_mint_le (claimed ephemeral : Key) (h : map.len ≤ MAX_PENDING) :
    len (mint P map claimed ephemeral id now).1 ≤ MAX_PENDING := by
  unfold mint
  dsimp only
  split
  · exact (len_retain_le ..).trans h
  · next hroom =>
    refine (len_insert_le ..).trans ?_
    omega

lemma len_verify_le (claimedPub proof : String) (h : map.len ≤ MAX_PENDING) :
    len (verify P map id claimedPub proof now).1 ≤ MAX_PENDING :=
  (len_erase_le _ id).trans ((len_retain_le ..).trans h)

end

namespace Pop

variable {P : Primitives} {s s' : Pop} {e : PopEvent}

/-! ## Steps -/

/-- The clock of a call is not ahead, and a challenge in the making has a key with which the key
exchange is contributory. -/
def PopCall.Valid (P : Primitives) (now : Nat) (c : PopCall) : Prop :=
  c.now ≤ now ∧ ∀ claimed ephemeral id at', c = .newChallenge claimed ephemeral id at' →
    wasContributory (P.diffieHellman ephemeral claimed) = true

structure Sound (P : Primitives) (s : Pop) : Prop where
  bounded : s.pending.len ≤ MAX_PENDING
  calls : ∀ id c, s.calls id = some c → PopCall.Valid P s.now c

lemma Sound.call {c : Option PopCall} (hs : s.Sound P)
    (hc : ∀ c' ∈ c, PopCall.Valid P s.now c') : (s.call c).Sound P := by
  refine ⟨hs.bounded, fun id c' hc' => ?_⟩
  simp only [Pop.call, Function.update_apply] at hc'
  split at hc'
  · exact hc c' hc'
  · exact hs.calls id c' hc'

lemma Sound.step (hs : s.Sound P) (h : s.step P e = some s') : s'.Sound P := by
  cases e with
  | newChallenge claimedPub ephemeral id =>
    cases h
    refine hs.call fun c hc => ?_
    obtain ⟨claimed, -, hc⟩ := Option.bind_eq_some_iff.mp hc
    split at hc
    · next hcontributory =>
      cases hc
      refine ⟨le_rfl, ?_⟩
      rintro _ _ _ _ ⟨⟩
      exact hcontributory
    · cases hc
  | verify id claimedPub proof =>
    cases h
    refine hs.call ?_
    rintro c ⟨⟩
    exact ⟨le_rfl, nofun⟩
  | enroll wgPublicKey id proof =>
    cases h
    refine hs.call fun c hc => ?_
    obtain ⟨_, -, rfl⟩ := Option.map_eq_some_iff.mp hc
    exact ⟨le_rfl, nofun⟩
  | lock id =>
    obtain ⟨c, hc, rfl⟩ := Option.map_eq_some_iff.mp h
    constructor
    · cases c with
      | newChallenge claimed ephemeral id' now => exact len_mint_le claimed ephemeral hs.bounded
      | verify id' claimedPub proof now => exact len_verify_le (P := P) claimedPub proof hs.bounded
    · intro id' c' hc'
      simp only [Function.update_apply] at hc'
      split at hc'
      · cases hc'
      · exact hs.calls id' c' hc'
  | tick =>
    cases h
    refine ⟨hs.bounded, fun id c hc => ?_⟩
    obtain ⟨hle, hvalid⟩ := hs.calls id c hc
    exact ⟨hle.trans (Nat.le_succ _), hvalid⟩

section

variable {es : List PopEvent} {state : Nat → Pop}

variable (h : StatesOf (step P) new es state) {k p now : Nat} {id claimedPub proof : String}
  {entry : Pending}
include h

end

end Pop

end Fluxpeer.Control
