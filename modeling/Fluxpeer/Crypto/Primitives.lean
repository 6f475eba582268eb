import Fluxpeer.Lib.Bytes

/-!
# Errors and cryptographic primitives

The hash, the key exchange and the cipher are parameters of the development. What the cipher
does to lengths is part of the parameter (it works in place, with a tag of its own), so every
instance has it; what a proof assumes beyond that is collected in `Primitives.Lawful`.

The wrappers of `handshake.rs` follow: HMAC on a zero-padded 64-byte block, and the cipher with
a 64-bit counter as its nonce.
-/

namespace Fluxpeer.Crypto

open Lib

/-- `fp_crypto::Error`. -/
inductive Error
  | randomnessUnavailable
  | mustHandshakeFirst
  | alreadyHandshake
  | destinationBufferTooSmall
  | incorrectPacketLength
  | unexpectedPacket
  | wrongPacketType
  | wrongIndex
  | wrongKey
  | invalidTai64nTimestamp
  | wrongTai64nTimestamp
  | invalidMac
  | invalidAeadTag
  | invalidCounter
  | duplicateCounter
  | invalidPacket
  | noCurrentSession
  | ifaceSendFailed
  | nonceExhausted
deriving DecidableEq, Repr

/-- Static and ephemeral keys, shared secrets, chaining keys and hashes: 32 bytes each. -/
abbrev Key := Block 32

abbrev Nonce := Block 12

/-- `SharedSecret::was_contributory`: a low-order public key takes every secret to zero. -/
def wasContributory (shared : Key) : Bool := shared ≠ .replicate 32 0

/-- Blake2s, X25519 and ChaCha20-Poly1305 as the program calls them. -/
structure Primitives where
  /-- `Blake2s256` over the concatenation of what was fed in. -/
  blake2s : Bytes → Key
  /-- `SimpleHmac<Blake2s256>` under a full 64-byte block. -/
  hmac : Block 64 → Bytes → Key
  /-- `Blake2sMac` with a 16-byte output. -/
  blake2sMac : Key → Bytes → Block 16
  publicKey : Key → Key
  diffieHellman : Key → Key → Key
  /-- `seal_in_place_separate_tag`: key, nonce, associated data, plaintext. -/
  sealInPlace : Key → Nonce → Bytes → Bytes → Option (Bytes × Block 16)
  /-- `open_in_place`: key, nonce, associated data, ciphertext with its tag. -/
  openInPlace : Key → Nonce → Bytes → Bytes → Option Bytes
  sealInPlace_length : ∀ k n aad p c t, sealInPlace k n aad p = some (c, t) → c.length = p.length
  openInPlace_length : ∀ k n aad c p, openInPlace k n aad c = some p → c.length = p.length + 16

/-- The key exchange commutes, and the cipher always seals and opens what it sealed. -/
structure Primitives.Lawful (P : Primitives) : Prop where
  diffieHellman_comm : ∀ a b, P.diffieHellman a (P.publicKey b) = P.diffieHellman b (P.publicKey a)
  open_seal : ∀ k n aad p, ∃ c t, P.sealInPlace k n aad p = some (c, t) ∧
    P.openInPlace k n aad (c ++ t.toList) = some p

namespace Primitives

variable (P : Primitives)

/-! ## Hashes -/

def b2sHash (data1 data2 : Bytes) : Key := P.blake2s (data1 ++ data2)

/-- A 32-byte key padded with zeroes to the block HMAC works on. -/
def hmacBlock (key : Key) : Block 64 := ⟨key.toList ++ List.replicate 32 0, by simp⟩

def b2sHmac (key : Key) (data1 : Bytes) : Key := P.hmac (hmacBlock key) data1

def b2sHmac2 (key : Key) (data1 data2 : Bytes) : Key := P.hmac (hmacBlock key) (data1 ++ data2)

def b2sKeyedMac16 (key : Key) (data1 : Bytes) : Block 16 := P.blake2sMac key data1

/-! ## The cipher with a counter nonce -/

/-- Four zero bytes and the counter, least significant byte first. -/
def counterNonce (counter : UInt64) : Nonce :=
  ⟨List.replicate 4 0 ++ leBytes 8 counter.toNat, by simp⟩

/-- `aead_chacha20_seal` into a destination of `len` bytes. -/
def aeadChacha20Seal (len : Nat) (key : Key) (counter : UInt64) (data aad : Bytes) :
    Except Error Bytes :=
  if data.length + 16 ≠ len then .error .destinationBufferTooSmall
  else match P.sealInPlace key (counterNonce counter) aad data with
    | none => .error .invalidAeadTag
    | some (body, tag) => .ok (body ++ tag.toList)

/-- `aead_chacha20_open` into a destination of `len` bytes. -/
def aeadChacha20Open (len : Nat) (key : Key) (counter : UInt64) (data aad : Bytes) :
    Except Error (Block len) :=
  match P.openInPlace key (counterNonce counter) aad data with
  | none => .error .invalidAeadTag
  | some plain =>
    match Block.ofBytes? len plain with
    | none => .error .invalidAeadTag
    | some out => .ok out

variable {P} {counter : UInt64} {key : Key}

lemma aeadChacha20Seal_length {len : Nat} {data aad out : Bytes}
    (h : P.aeadChacha20Seal len key counter data aad = .ok out) : out.length = len := by
  unfold aeadChacha20Seal at h
  split at h
  · cases h
  next hlen =>
  split at h
  · cases h
  next body tag hseal =>
  cases h
  have := P.sealInPlace_length _ _ _ _ _ _ hseal
  simp
  omega

/-- The wrapper seals every text of the length its destination is for. -/
lemma Lawful.aeadChacha20Seal_ne_error (hP : P.Lawful) {len : Nat} {data aad : Bytes} {e : Error}
    (hlen : data.length + 16 = len) : P.aeadChacha20Seal len key counter data aad ≠ .error e := by
  obtain ⟨body, tag, hseal, -⟩ := hP.open_seal key (counterNonce counter) aad data
  simp [aeadChacha20Seal, hlen, hseal]

/-- What the wrapper seals, the wrapper opens. -/
lemma Lawful.aeadChacha20Open_of_seal (hP : P.Lawful) {sealedLen len : Nat} (data : Block len)
    {aad out : Bytes} (h : P.aeadChacha20Seal sealedLen key counter data.toList aad = .ok out) :
    P.aeadChacha20Open len key counter out aad = .ok data := by
  obtain ⟨body, tag, hseal, hopen⟩ := hP.open_seal key (counterNonce counter) aad data.toList
  unfold aeadChacha20Seal at h
  split at h
  · cases h
  · rw [hseal] at h
    cases h
    simp [aeadChacha20Open, hopen]

/-! ## An instance -/

/-- Bytewise exclusive or of the first 32 bytes, missing bytes read as zero. -/
def xorKey (a b : Bytes) : Key :=
  ⟨((a ++ List.replicate 32 0).take 32).zipWith (· ^^^ ·) ((b ++ List.replicate 32 0).take 32),
    by simp⟩

/-- Primitives made of exclusive or, with the key itself as the tag. They satisfy the laws, so
the assumptions are consistent, and runs of the model can be evaluated under them. -/
def transparent : Primitives where
  blake2s data := xorKey (data.take 32) (data.drop 32)
  hmac block data := xorKey block.toList data
  blake2sMac key _ := ⟨key.toList.take 16, by simp⟩
  publicKey secret := secret
  diffieHellman secret other := xorKey secret.toList other.toList
  sealInPlace key _ _ plain := some (plain, ⟨key.toList.take 16, by simp⟩)
  openInPlace key _ _ data :=
    if 16 ≤ data.length ∧ data.drop (data.length - 16) = key.toList.take 16 then
      some (data.take (data.length - 16))
    else none
  sealInPlace_length := by
    intro k n aad p c t h
    cases h
    rfl
  openInPlace_length := by
    intro k n aad c p h
    split at h
    · next hlen =>
      cases h
      simp
      omega
    · cases h

lemma transparent_lawful : transparent.Lawful where
  diffieHellman_comm a b := by
    refine Subtype.ext ?_
    exact List.zipWith_comm_of_comm fun x y => UInt8.xor_comm x y
  open_seal k n aad p := by
    refine ⟨_, _, rfl, ?_⟩
    simp [transparent]

end Primitives

end Fluxpeer.Crypto
