import Fluxpeer.Tunnel.Noise
import Mathlib.Data.Set.Disjoint
import Mathlib.Data.Set.Lattice
import Mathlib.Logic.Function.Iterate
import Mathlib.Order.CompletePartialOrder

/-!
# Cryptors

A `Cryptor` is a tunnel with the process-wide choice of its index base; a `RawCryptor` is the slot
a peer keeps one in. What the calls read from outside (clocks and random bytes) is an `Ambient`,
and the process-wide counter is passed through the two calls that create a cryptor.
-/

namespace Fluxpeer.Tunnel

open Lib Crypto

/-- What one call reads from outside. -/
structure Ambient where
  clock : Clock
  now : Nat
  ephemeral : Option Key
  draw : Session.PaddingDraw

/-- The first value of `PEER_INDEX`. -/
def firstPeerIndex : UInt32 := 1

/-- The counter after the call, and the base: a peer id above an empty session byte. -/
def nextSessionBase (peerIndex : UInt32) : UInt32 × UInt32 :=
  (peerIndex + 1, (peerIndex &&& 0x00ffffff) <<< 8)

structure Cryptor (P : Primitives) where
  noise : Noise P

namespace Cryptor

variable {P : Primitives}

def initHandshake (P : Primitives) (peerIndex : UInt32) (ownPrikey nodePubkey : Key)
    (env : Ambient) : UInt32 × Except Error (Cryptor P × Bytes) :=
  let rateLimiter := Verifier.new P (P.publicKey ownPrikey)
  let (peerIndex, base) := nextSessionBase peerIndex
  let noise := Noise.new P ownPrikey nodePubkey none base (some rateLimiter) env.clock
  let (h, result) := noise.handshake.formatHandshakeInitiation
    (List.replicate handshakeInitSz 0) env.ephemeral env.now
  (peerIndex, result.map fun packet => (⟨{ noise with handshake := h }⟩, packet))

def handleHandshake (P : Primitives) (peerIndex : UInt32) (ownPrikey ownPubkey : Key)
    (packet : Bytes) (env : Ambient) : UInt32 × Except Error (Cryptor P × Option Bytes) :=
  let verifier := Verifier.new P ownPubkey
  match verifier.verifyPacket P packet with
  | .error _ => (peerIndex, .error .invalidMac)
  | .ok (.handshakeInit p) =>
    match Handshake.parseHandshakeAnon P ownPrikey ownPubkey p with
    | .error e => (peerIndex, .error e)
    | .ok pkey =>
      let (peerIndex, base) := nextSessionBase peerIndex
      let noise := Noise.new P ownPrikey pkey none base (some verifier) env.clock
      -- The packet is an INIT, so this is what `handle_verified_packet` does with it.
      match noise.handleHandshakeInit p (List.replicate handshakeInitSz 0) env.ephemeral with
      | (_, .error e) => (peerIndex, .error e)
      | (noise, .ok (.writeToNetwork packet)) => (peerIndex, .ok (⟨noise⟩, some packet))
      | (noise, .ok _) => (peerIndex, .ok (⟨noise⟩, none))
  | .ok _ => (peerIndex, .error .invalidPacket)

/-- The MAC of a response is not looked at. -/
def handleHandshakeResponse (c : Cryptor P) (packet : Bytes) (now : Nat) :
    Cryptor P × Except Error Unit :=
  match parseIncomingPacket packet with
  | .error e => (c, .error e)
  | .ok (.handshakeResponse p) =>
    let (noise, result) := c.noise.handleHandshakeResponse p now
    (⟨noise⟩, result.map fun _ => ())
  | .ok _ => (c, .error .unexpectedPacket)

def onSend (c : Cryptor P) (packet dst : Bytes) (env : Ambient) :
    Option (Cryptor P × Except Error Bytes) :=
  (c.noise.encapsulate packet dst env.draw env.ephemeral env.now).map fun (noise, result) =>
    (⟨noise⟩, match result with
      | .error e => .error e
      | .ok (.writeToNetwork pkt) => .ok pkt
      | .ok _ => .error .unexpectedPacket)

/-- A keepalive is received like any packet; its payload is empty. -/
def onRecv (c : Cryptor P) (packet dst : Bytes) (env : Ambient) :
    Option (Cryptor P × Except Error Bytes) :=
  match c.noise.verifier.verifyPacket P packet with
  | .error _ => some (c, .error .unexpectedPacket)
  | .ok parsed =>
    (c.noise.handleVerifiedPacket parsed dst env.ephemeral env.now).map fun (noise, result) =>
      (⟨noise⟩, match result with
        | .error e => .error e
        | .ok (.writeToTunnel packet _) => .ok packet
        | .ok .done => .ok []
        | .ok _ => .error .unexpectedPacket)

def getPeerPublic (c : Cryptor P) : Key := c.noise.handshake.params.peerStaticPublic

/-- Initiate again on the same tunnel; the session in use stays in use. -/
def rekeyInit (c : Cryptor P) (dst : Bytes) (env : Ambient) : Cryptor P × Except Error Bytes :=
  let (h, result) := c.noise.handshake.formatHandshakeInitiation dst env.ephemeral env.now
  (⟨{ c.noise with handshake := h }⟩, result)

/-- Answer an INIT on the same tunnel; the session in use stays in use. -/
def rekeyRespond (c : Cryptor P) (packet dst : Bytes) (env : Ambient) :
    Option (Cryptor P × Except Error (Option Bytes)) :=
  match c.noise.verifier.verifyPacket P packet with
  | .error _ => some (c, .error .unexpectedPacket)
  | .ok parsed =>
    (c.noise.handleVerifiedPacket parsed dst env.ephemeral env.now).map fun (noise, result) =>
      (⟨noise⟩, match result with
        | .error e => .error e
        | .ok (.writeToNetwork resp) => .ok (some resp)
        | .ok _ => .ok none)

end Cryptor

/-- The static key that an INIT names, read without touching any state. -/
def peekInitPubkey (P : Primitives) (ownPriv ownPub : Key) (packet : Bytes) : Option Key :=
  match (Verifier.new P ownPub).verifyPacket P packet with
  | .ok (.handshakeInit p) => (Handshake.parseHandshakeAnon P ownPriv ownPub p).toOption
  | _ => none

/-! ## The slot of a peer -/

/-- A cryptor once there was a handshake. -/
structure RawCryptor (P : Primitives) where
  data : Option (Cryptor P)

namespace RawCryptor

variable {P : Primitives}

def new (P : Primitives) : RawCryptor P := ⟨none⟩

def initHandshake (raw : RawCryptor P) (peerIndex : UInt32) (ownPrikey nodePubkey : Key)
    (env : Ambient) : UInt32 × RawCryptor P × Except Error Bytes :=
  match raw.data with
  | some _ => (peerIndex, raw, .error .alreadyHandshake)
  | none =>
    match Cryptor.initHandshake P peerIndex ownPrikey nodePubkey env with
    | (peerIndex, .error e) => (peerIndex, raw, .error e)
    | (peerIndex, .ok (c, hs)) => (peerIndex, ⟨some c⟩, .ok hs)

def handleHandshake (raw : RawCryptor P) (peerIndex : UInt32) (ownPrikey ownPubkey : Key)
    (packet : Bytes) (env : Ambient) : UInt32 × RawCryptor P × Except Error (Option Bytes) :=
  match raw.data with
  | some _ => (peerIndex, raw, .error .alreadyHandshake)
  | none =>
    match Cryptor.handleHandshake P peerIndex ownPrikey ownPubkey packet env with
    | (peerIndex, .error e) => (peerIndex, raw, .error e)
    | (peerIndex, .ok (c, hs)) => (peerIndex, ⟨some c⟩, .ok hs)

/-- A call on the cryptor that is there. -/
def drive {α : Type} (raw : RawCryptor P) (call : Cryptor P → Cryptor P × Except Error α) :
    RawCryptor P × Except Error α :=
  match raw.data with
  | none => (raw, .error .mustHandshakeFirst)
  | some c => let (c, result) := call c; (⟨some c⟩, result)

/-- As `drive`, for a call that may not return. -/
def drive? {α : Type} (raw : RawCryptor P)
    (call : Cryptor P → Option (Cryptor P × Except Error α)) :
    Option (RawCryptor P × Except Error α) :=
  match raw.data with
  | none => some (raw, .error .mustHandshakeFirst)
  | some c => (call c).map fun (c, result) => (⟨some c⟩, result)

def handleHandshakeResponse (raw : RawCryptor P) (packet : Bytes) (now : Nat) :
    RawCryptor P × Except Error Unit :=
  raw.drive (·.handleHandshakeResponse packet now)

def onSend (raw : RawCryptor P) (packet dst : Bytes) (env : Ambient) :
    Option (RawCryptor P × Except Error Bytes) :=
  raw.drive? (·.onSend packet dst env)

def onRecv (raw : RawCryptor P) (packet dst : Bytes) (env : Ambient) :
    Option (RawCryptor P × Except Error Bytes) :=
  raw.drive? (·.onRecv packet dst env)

def getPeerPublic (raw : RawCryptor P) : Except Error Key :=
  match raw.data with
  | none => .error .mustHandshakeFirst
  | some c => .ok c.getPeerPublic

def rekeyInit (raw : RawCryptor P) (dst : Bytes) (env : Ambient) :
    RawCryptor P × Except Error Bytes :=
  raw.drive (·.rekeyInit dst env)

def rekeyRespond (raw : RawCryptor P) (packet dst : Bytes) (env : Ambient) :
    Option (RawCryptor P × Except Error (Option Bytes)) :=
  raw.drive? (·.rekeyRespond packet dst env)

end RawCryptor

/-! ## Index spaces -/

/-- The base that the `k`-th call of `next_session_base` returns, counted from zero. -/
def sessionBase (k : Nat) : UInt32 :=
  (nextSessionBase ((fun peerIndex => (nextSessionBase peerIndex).1)^[k] firstPeerIndex)).2

/-- Every local index that a tunnel can draw from now on. -/
def Noise.issuable {P : Primitives} (n : Noise P) : Set UInt32 :=
  { index | ∃ m, index = Handshake.succIndex^[m + 1] n.handshake.nextIndex }

lemma toNat_succIndex_iterate (index : UInt32) (m : Nat) :
    (Handshake.succIndex^[m] index).toNat =
      256 * (index.toNat / 256) + (index.toNat + m) % 256 := by
  induction m with
  | zero =>
    simp only [Function.iterate_zero, id_eq, Nat.add_zero]
    omega
  | succ m ih =>
    rw [Function.iterate_succ_apply', Handshake.toNat_succIndex, ih]
    omega

lemma toNat_peerIndex_iterate (k : Nat) :
    ((fun peerIndex => (nextSessionBase peerIndex).1)^[k] firstPeerIndex).toNat =
      (k + 1) % 2 ^ 32 := by
  induction k with
  | zero => rfl
  | succ k ih =>
    rw [Function.iterate_succ_apply', nextSessionBase, UInt32.toNat_add, ih]
    simp

/-- A mask of 24 bits and two shifts by a byte leave 16 bits of the counter. -/
lemma toNat_sessionBase (k : Nat) :
    (sessionBase k <<< 8).toNat = (k + 1) % 2 ^ 16 * 2 ^ 16 := by
  have hmask : (0x00ffffff : UInt32).toNat = 2 ^ 24 - 1 := rfl
  rw [sessionBase, nextSessionBase, UInt32.toNat_shiftLeft, UInt32.toNat_shiftLeft,
    UInt32.toNat_and, hmask, toNat_peerIndex_iterate, Nat.and_two_pow_sub_one_eq_mod]
  simp only [Nat.shiftLeft_eq, UInt32.reduceToNat, Nat.reducePow, Nat.reduceMod]
  omega

/-- The indices of a new tunnel are those with the upper 24 bits of its base. -/
lemma mem_issuable_new_iff {P : Primitives} {staticPrivate peerStaticPublic : Key}
    {presharedKey : Option Key} {k : Nat} {verifier : Option Verifier} {clock : Clock}
    {index : UInt32} :
    index ∈ (Noise.new P staticPrivate peerStaticPublic presharedKey (sessionBase k) verifier
      clock).issuable ↔ index.toNat / 256 = (k + 1) % 2 ^ 16 * 2 ^ 8 := by
  have hiterate : ∀ m, (Handshake.succIndex^[m] (sessionBase k <<< 8)).toNat =
      (k + 1) % 2 ^ 16 * 2 ^ 16 + m % 256 := by
    intro m
    rw [toNat_succIndex_iterate, toNat_sessionBase]
    omega
  constructor
  · rintro ⟨m, rfl⟩
    have := hiterate (m + 1)
    change (Handshake.succIndex^[m + 1] (sessionBase k <<< 8)).toNat / 256 = _
    omega
  · intro hindex
    refine ⟨index.toNat % 256 + 255, UInt32.toNat_inj.mp ?_⟩
    change _ = (Handshake.succIndex^[_] (sessionBase k <<< 8)).toNat
    rw [hiterate]
    omega

/-- Two of the bases that a process hands out lead to disjoint indices exactly when the calls that
made them are not a multiple of `2 ^ 16` apart. -/
theorem issuable_new_disjoint_iff (P : Primitives) (k₁ k₂ : Nat)
    (private₁ private₂ peer₁ peer₂ : Key) (psk₁ psk₂ : Option Key)
    (verifier₁ verifier₂ : Option Verifier) (clock₁ clock₂ : Clock) :
    Disjoint (Noise.new P private₁ peer₁ psk₁ (sessionBase k₁) verifier₁ clock₁).issuable
      (Noise.new P private₂ peer₂ psk₂ (sessionBase k₂) verifier₂ clock₂).issuable ↔
    k₁ % 2 ^ 16 ≠ k₂ % 2 ^ 16 := by
  rw [Set.disjoint_left]
  constructor
  · intro hdisjoint hmod
    have hmem : Handshake.succIndex (sessionBase k₁ <<< 8) ∈
        (Noise.new P private₁ peer₁ psk₁ (sessionBase k₁) verifier₁ clock₁).issuable := ⟨0, rfl⟩
    refine hdisjoint hmem (mem_issuable_new_iff.mpr ?_)
    rw [mem_issuable_new_iff.mp hmem]
    omega
  · intro hmod index h₁ h₂
    rw [mem_issuable_new_iff] at h₁ h₂
    omega

/-- The cryptors of the first call and of the 65537th draw the same indices. -/
theorem issuable_collide_after_65536 :
    65536 < 2 ^ 24 ∧ ∃ index,
      index ∈ (Noise.new Primitives.transparent (Primitives.xorKey [1] [])
        (Primitives.xorKey [2] []) none (sessionBase 0) none ⟨some 0, 0⟩).issuable ∧
      index ∈ (Noise.new Primitives.transparent (Primitives.xorKey [1] [])
        (Primitives.xorKey [3] []) none (sessionBase 65536) none ⟨some 0, 0⟩).issuable := by
  refine ⟨by decide, 65537, ?_, ?_⟩
  · rw [mem_issuable_new_iff]
    decide
  · rw [mem_issuable_new_iff]
    decide

end Fluxpeer.Tunnel
