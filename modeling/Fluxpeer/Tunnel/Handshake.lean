import Fluxpeer.Tunnel.Session

/-!
# The handshake

One side formats an initiation, the other answers it, and both end with a session. The two
transcripts are translated separately, step by step, as the source writes them; the `kdf`
functions name its recurring groups of HMAC calls.

Clocks and random bytes are arguments. An ephemeral key is an `Option`, `none` where the random
number generator fails. A call that fails returns the state it leaves behind: an initiation that
fails after its index was drawn has used that index up.
-/

namespace Fluxpeer.Tunnel

open Lib Crypto

/-! ## Key derivation -/

/-- `HASH(CONSTRUCTION)`. -/
def initialChainKey : Key :=
  ⟨[96, 226, 109, 174, 243, 39, 239, 192, 46, 195, 53, 226, 160, 37, 210, 208,
    22, 235, 66, 6, 248, 114, 119, 245, 45, 56, 209, 152, 139, 120, 205, 54], rfl⟩

/-- `HASH(initial chain key || IDENTIFIER)`. -/
def initialChainHash : Key :=
  ⟨[34, 17, 179, 97, 8, 26, 197, 102, 105, 18, 67, 219, 69, 138, 213, 50,
    45, 156, 108, 102, 34, 147, 232, 183, 14, 225, 156, 101, 186, 7, 158, 243], rfl⟩

section Kdf

variable (P : Primitives)

/-- `temp = HMAC(ck, data)`, `ck = HMAC(temp, 0x1)`. -/
def kdf1 (chainingKey : Key) (data : Bytes) : Key :=
  P.b2sHmac (P.b2sHmac chainingKey data) [1]

/-- As `kdf1`, with `key = HMAC(temp, ck || 0x2)`. -/
def kdf2 (chainingKey : Key) (data : Bytes) : Key × Key :=
  let temp := P.b2sHmac chainingKey data
  let chainingKey := P.b2sHmac temp [1]
  (chainingKey, P.b2sHmac2 temp chainingKey.toList [2])

/-- As `kdf2`, with a third output `HMAC(temp, second || 0x3)`. -/
def kdf3 (chainingKey : Key) (data : Bytes) : Key × Key × Key :=
  let temp := P.b2sHmac chainingKey data
  let chainingKey := P.b2sHmac temp [1]
  let temp2 := P.b2sHmac2 temp chainingKey.toList [2]
  (chainingKey, temp2, P.b2sHmac2 temp temp2.toList [3])

/-- The preshared key as it enters the transcript. -/
def presharedBytes (preshared : Option Key) : Bytes :=
  (preshared.getD (List.Vector.replicate 32 0)).toList

end Kdf

/-! ## Timestamps -/

structure Tai64N where
  secs : Nat
  nano : Nat
deriving DecidableEq, Repr

namespace Tai64N

def zero : Tai64N := ⟨0, 0⟩

def parse (buf : Block 12) : Tai64N :=
  ⟨fromBe (buf.toList.take 8), fromBe (buf.toList.drop 8)⟩

/-- Chronologically after the other timestamp. -/
def after (t other : Tai64N) : Bool :=
  t.secs > other.secs || (t.secs == other.secs && t.nano > other.nano)

end Tai64N

/-- A reading of the clocks: time since the Unix epoch, when the system clock is not before it,
and the monotonic clock, in nanoseconds. -/
structure Clock where
  unix : Option Nat
  instant : Nat
deriving DecidableEq, Repr

structure TimeStamper where
  durationAtStart : Option Nat
  instantAtStart : Nat
deriving DecidableEq, Repr

namespace TimeStamper

def new (clock : Clock) : TimeStamper := ⟨clock.unix, clock.instant⟩

def tai64Base : Nat := 2 ^ 62 + 37

def nanosPerSec : Nat := 1000000000

/-- Take a reading and generate a 12-byte timestamp. -/
def stamp (stamper : TimeStamper) (now : Nat) : Except Error (Block 12) :=
  match stamper.durationAtStart with
  | none => .error .invalidTai64nTimestamp
  | some start =>
    let stamp := (now - stamper.instantAtStart) + start
    let secs := stamp / nanosPerSec
    if secs ≥ 2 ^ 64 then .error .invalidTai64nTimestamp
    else if secs + tai64Base ≥ 2 ^ 64 then .error .invalidTai64nTimestamp
    else .ok ⟨beBytes 8 (secs + tai64Base) ++ beBytes 4 (stamp % nanosPerSec), by simp⟩

end TimeStamper

/-! ## State -/

/-- Parameters of one direction of trust. The derived fields agree with the keys they come
from. -/
structure NoiseParams (P : Primitives) where
  staticPublic : Key
  staticPrivate : Key
  peerStaticPublic : Key
  staticShared : Key
  sendingMac1Key : Key
  presharedKey : Option Key
  staticPublic_eq : staticPublic = P.publicKey staticPrivate
  staticShared_eq : staticShared = P.diffieHellman staticPrivate peerStaticPublic
  sendingMac1Key_eq : sendingMac1Key = P.b2sHash labelMac1 peerStaticPublic.toList

/-- `NoiseParams::new`, called with the public key of `staticPrivate`. -/
def NoiseParams.new (P : Primitives) (staticPrivate peerStaticPublic : Key)
    (presharedKey : Option Key) : NoiseParams P where
  staticPublic := P.publicKey staticPrivate
  staticPrivate := staticPrivate
  peerStaticPublic := peerStaticPublic
  staticShared := P.diffieHellman staticPrivate peerStaticPublic
  sendingMac1Key := P.b2sHash labelMac1 peerStaticPublic.toList
  presharedKey := presharedKey
  staticPublic_eq := rfl
  staticShared_eq := rfl
  sendingMac1Key_eq := rfl

structure HandshakeInitSentState where
  localIndex : UInt32
  hash : Key
  chainingKey : Key
  ephemeralPrivate : Key
  timeSent : Nat
deriving DecidableEq

inductive HandshakeState
  | none
  | initSent (s : HandshakeInitSentState)
  | initReceived (hash chainingKey peerEphemeralPublic : Key) (peerIndex : UInt32)
deriving DecidableEq

/-- The initiation a state waits on, when it was sent under `index`. -/
def HandshakeState.sentAs (index : UInt32) : HandshakeState → Option HandshakeInitSentState
  | .initSent s => if s.localIndex = index then some s else .none
  | _ => .none

structure Handshake (P : Primitives) where
  params : NoiseParams P
  nextIndex : UInt32
  previous : HandshakeState
  state : HandshakeState
  lastHandshakeTimestamp : Tai64N
  stamper : TimeStamper
  lastRtt : Option UInt32

namespace Handshake

variable {P : Primitives}

def new (P : Primitives) (staticPrivate peerStaticPublic : Key) (globalIdx : UInt32)
    (presharedKey : Option Key) (clock : Clock) : Handshake P where
  params := .new P staticPrivate peerStaticPublic presharedKey
  nextIndex := globalIdx
  previous := .none
  state := .none
  lastHandshakeTimestamp := .zero
  stamper := .new clock
  lastRtt := none

/-- The index after `index`: the low byte advances and wraps. -/
def succIndex (index : UInt32) : UInt32 :=
  (index &&& ~~~0xff) ||| (index.toUInt8 + 1).toUInt32

def incIndex (h : Handshake P) : Handshake P × UInt32 :=
  let nextIndex := succIndex h.nextIndex
  ({ h with nextIndex := nextIndex }, nextIndex)

/-- Compute the first MAC of a handshake message and put it in its place. -/
def appendMac1 (params : NoiseParams P) (dst : Bytes) : Bytes :=
  let msg := dst.take (dst.length - 32)
  msg ++ ((P.b2sKeyedMac16 params.sendingMac1Key msg).toList ++ dst.drop (dst.length - 16))

/-! ## The initiator's message -/

/-- The part of `format_handshake_initiation` after the index was drawn. The second MAC field
keeps what the buffer held. -/
def composeInitiation (h : Handshake P) (localIndex : UInt32) (dst : Bytes)
    (ephemeral : Option Key) (now : Nat) : Except Error (HandshakeInitSentState × Bytes) :=
  let hash := P.b2sHash initialChainHash.toList h.params.peerStaticPublic.toList
  match ephemeral with
  | none => .error .randomnessUnavailable
  | some ephemeralPrivate => do
    let ephemeralPublic := P.publicKey ephemeralPrivate
    let hash := P.b2sHash hash.toList ephemeralPublic.toList
    let chainingKey := kdf1 P initialChainKey ephemeralPublic.toList
    let ephemeralShared := P.diffieHellman ephemeralPrivate h.params.peerStaticPublic
    let (chainingKey, key) := kdf2 P chainingKey ephemeralShared.toList
    let encryptedStatic ← P.aeadChacha20Seal 48 key 0 h.params.staticPublic.toList hash.toList
    let hash := P.b2sHash hash.toList encryptedStatic
    let (chainingKey, key) := kdf2 P chainingKey h.params.staticShared.toList
    let timestamp ← h.stamper.stamp now
    let encryptedTimestamp ← P.aeadChacha20Seal 28 key 0 timestamp.toList hash.toList
    let hash := P.b2sHash hash.toList encryptedTimestamp
    let packet := initBytes ⟨localIndex, ephemeralPublic, encryptedStatic, encryptedTimestamp⟩
      (slice dst 116 handshakeInitSz)
    .ok (⟨localIndex, hash, chainingKey, ephemeralPrivate, now⟩, appendMac1 h.params packet)

def formatHandshakeInitiation (h : Handshake P) (dst : Bytes) (ephemeral : Option Key)
    (now : Nat) : Handshake P × Except Error Bytes :=
  if dst.length < handshakeInitSz then (h, .error .destinationBufferTooSmall)
  else
    let (h, localIndex) := h.incIndex
    match h.composeInitiation localIndex dst ephemeral now with
    | .error e => (h, .error e)
    | .ok (sent, packet) => ({ h with previous := h.state, state := .initSent sent }, .ok packet)

/-! ## The responder -/

/-- The part of `receive_handshake_initialization` that reads the message: the timestamp, the
chaining key and the hash. -/
def openInitiation (params : NoiseParams P) (packet : HandshakeInit) :
    Except Error (Tai64N × Key × Key) := do
  let hash := P.b2sHash initialChainHash.toList params.staticPublic.toList
  let peerEphemeralPublic := packet.unencryptedEphemeral
  let hash := P.b2sHash hash.toList peerEphemeralPublic.toList
  let chainingKey := kdf1 P initialChainKey peerEphemeralPublic.toList
  let ephemeralShared := P.diffieHellman params.staticPrivate peerEphemeralPublic
  let (chainingKey, key) := kdf2 P chainingKey ephemeralShared.toList
  let peerStaticPublic ← P.aeadChacha20Open 32 key 0 packet.encryptedStatic hash.toList
  if params.peerStaticPublic ≠ peerStaticPublic then .error .wrongKey
  else
    let hash := P.b2sHash hash.toList packet.encryptedStatic
    let (chainingKey, key) := kdf2 P chainingKey params.staticShared.toList
    let timestamp ← P.aeadChacha20Open 12 key 0 packet.encryptedTimestamp hash.toList
    let hash := P.b2sHash hash.toList packet.encryptedTimestamp
    .ok (Tai64N.parse timestamp, chainingKey, hash)

/-- The part of `format_handshake_response` after the index was drawn. -/
def composeResponse (params : NoiseParams P) (localIndex : UInt32) (dst : Bytes)
    (ephemeralPrivate hash chainingKey peerEphemeralPublic : Key) (peerIndex : UInt32) :
    Except Error (Bytes × Session) := do
  let ephemeralPublic := P.publicKey ephemeralPrivate
  let hash := P.b2sHash hash.toList ephemeralPublic.toList
  let chainingKey := kdf1 P chainingKey ephemeralPublic.toList
  let ephemeralShared := P.diffieHellman ephemeralPrivate peerEphemeralPublic
  let chainingKey := kdf1 P chainingKey ephemeralShared.toList
  let chainingKey :=
    kdf1 P chainingKey (P.diffieHellman ephemeralPrivate params.peerStaticPublic).toList
  let (chainingKey, temp2, key) := kdf3 P chainingKey (presharedBytes params.presharedKey)
  let hash := P.b2sHash hash.toList temp2.toList
  let encryptedNothing ← P.aeadChacha20Seal 16 key 0 [] hash.toList
  let (temp2, temp3) := kdf2 P chainingKey []
  let packet := respBytes ⟨localIndex, peerIndex, ephemeralPublic, encryptedNothing⟩
    (slice dst 60 handshakeRespSz)
  .ok (appendMac1 params packet, Session.new localIndex peerIndex temp2 temp3)

def formatHandshakeResponse (h : Handshake P) (dst : Bytes) (ephemeral : Option Key) :
    Handshake P × Except Error (Bytes × Session) :=
  if dst.length < handshakeRespSz then (h, .error .destinationBufferTooSmall)
  else
    let state := h.state
    let h := { h with state := .none }
    match state with
    | .initReceived hash chainingKey peerEphemeralPublic peerIndex =>
      match ephemeral with
      | none => (h, .error .randomnessUnavailable)
      | some ephemeralPrivate =>
        let (h, localIndex) := h.incIndex
        (h, composeResponse h.params localIndex dst ephemeralPrivate hash chainingKey
          peerEphemeralPublic peerIndex)
    | _ => (h, .error .unexpectedPacket)

def receiveHandshakeInitialization (h : Handshake P) (packet : HandshakeInit) (dst : Bytes)
    (ephemeral : Option Key) : Handshake P × Except Error (Bytes × Session) :=
  match openInitiation h.params packet with
  | .error e => (h, .error e)
  | .ok (timestamp, chainingKey, hash) =>
    if !timestamp.after h.lastHandshakeTimestamp then
      -- Possibly a replay.
      (h, .error .wrongTai64nTimestamp)
    else
      let h := { h with
        lastHandshakeTimestamp := timestamp
        previous := h.state
        state := .initReceived hash chainingKey packet.unencryptedEphemeral packet.senderIdx }
      h.formatHandshakeResponse dst ephemeral

/-- The static key an initiation names, read without the peer's parameters. -/
def parseHandshakeAnon (P : Primitives) (staticPrivate staticPublic : Key)
    (packet : HandshakeInit) : Except Error Key :=
  let hash := P.b2sHash initialChainHash.toList staticPublic.toList
  let peerEphemeralPublic := packet.unencryptedEphemeral
  let hash := P.b2sHash hash.toList peerEphemeralPublic.toList
  let chainingKey := kdf1 P initialChainKey peerEphemeralPublic.toList
  let ephemeralShared := P.diffieHellman staticPrivate peerEphemeralPublic
  let (_, key) := kdf2 P chainingKey ephemeralShared.toList
  P.aeadChacha20Open 32 key 0 packet.encryptedStatic hash.toList

/-! ## The initiator's end -/

/-- The part of `receive_handshake_response` that reads the message and derives the session. -/
def openResponse (params : NoiseParams P) (sent : HandshakeInitSentState)
    (packet : HandshakeResponse) : Except Error Session := do
  let peerIndex := packet.senderIdx
  let localIndex := sent.localIndex
  let ephemeralPublic := packet.unencryptedEphemeral
  let hash := P.b2sHash sent.hash.toList ephemeralPublic.toList
  let chainingKey := kdf1 P sent.chainingKey ephemeralPublic.toList
  let ephemeralShared := P.diffieHellman sent.ephemeralPrivate ephemeralPublic
  let chainingKey := kdf1 P chainingKey ephemeralShared.toList
  let chainingKey :=
    kdf1 P chainingKey (P.diffieHellman params.staticPrivate ephemeralPublic).toList
  let (chainingKey, temp2, key) := kdf3 P chainingKey (presharedBytes params.presharedKey)
  let hash := P.b2sHash hash.toList temp2.toList
  let _ ← P.aeadChacha20Open 0 key 0 packet.encryptedNothing hash.toList
  let (temp2, temp3) := kdf2 P chainingKey []
  .ok (Session.new localIndex peerIndex temp3 temp2)

/-- The initiation that a response to `receiverIdx` answers: the one in `state`, else the one in
`previous`. The flag tells which. -/
def awaiting (h : Handshake P) (receiverIdx : UInt32) : Option (HandshakeInitSentState × Bool) :=
  match h.state.sentAs receiverIdx with
  | some s => some (s, false)
  | none => (h.previous.sentAs receiverIdx).map (·, true)

def receiveHandshakeResponse (h : Handshake P) (packet : HandshakeResponse) (now : Nat) :
    Handshake P × Except Error Session :=
  match h.awaiting packet.receiverIdx with
  | none => (h, .error .unexpectedPacket)
  | some (sent, isPrevious) =>
    match openResponse h.params sent packet with
    | .error e => (h, .error e)
    | .ok session =>
      let h := { h with lastRtt := some (UInt32.ofNat ((now - sent.timeSent) / 1000000)) }
      let h := if isPrevious then { h with previous := .none } else { h with state := .none }
      (h, .ok session)

/-! ## Messages on the wire -/

variable {h : Handshake P} {dst packet : Bytes} {ephemeral : Option Key}
  {ephemeralPrivate hash chainingKey peerEphemeralPublic : Key} {session : Session}
  {params : NoiseParams P} {now : Nat} {localIndex peerIndex : UInt32}

lemma initBytes_append (p : HandshakeInit) (macs : Bytes) :
    initBytes p macs = initBytes p [] ++ macs := by
  simp [initBytes]

lemma respBytes_append (p : HandshakeResponse) (macs : Bytes) :
    respBytes p macs = respBytes p [] ++ macs := by
  simp [respBytes]

/-- The first MAC fills the first half of the MAC fields. -/
lemma appendMac1_append (params : NoiseParams P) (msg macs : Bytes) (hmacs : macs.length = 32) :
    appendMac1 params (msg ++ macs) =
      msg ++ ((P.b2sKeyedMac16 params.sendingMac1Key msg).toList ++ macs.drop 16) := by
  have htake : (msg ++ macs).take ((msg ++ macs).length - 32) = msg := by
    simp [hmacs]
  have hdrop : (msg ++ macs).drop ((msg ++ macs).length - 16) = macs.drop 16 := by
    have hlen : (msg ++ macs).length - 16 = msg.length + 16 := by simp [hmacs]
    rw [hlen, List.drop_append]
    simp
  simp only [appendMac1, htake, hdrop]

/-- What a formatted initiation consists of. -/
lemma composeInitiation_packet {localIndex : UInt32} {sent : HandshakeInitSentState}
    (hdst : handshakeInitSz ≤ dst.length)
    (hok : h.composeInitiation localIndex dst ephemeral now = .ok (sent, packet)) :
    ∃ p macs, p.senderIdx = localIndex ∧ p.encryptedStatic.length = 48 ∧
      p.encryptedTimestamp.length = 28 ∧ macs.length = 16 ∧
      packet = initBytes p
        ((P.b2sKeyedMac16 h.params.sendingMac1Key (initBytes p [])).toList ++ macs) := by
  have hslice : (slice dst 116 handshakeInitSz).length = 32 := length_slice dst 116 _ hdst
  unfold composeInitiation at hok
  cases ephemeral with
  | none => cases hok
  | some ephemeralPrivate =>
    simp only [bind, Except.bind] at hok
    split at hok
    · cases hok
    next encryptedStatic hstatic =>
    split at hok
    · cases hok
    split at hok
    · cases hok
    next encryptedTimestamp htimestamp =>
    cases hok
    refine ⟨⟨localIndex, P.publicKey ephemeralPrivate, encryptedStatic, encryptedTimestamp⟩,
      (slice dst 116 handshakeInitSz).drop 16, rfl, Primitives.aeadChacha20Seal_length hstatic,
      Primitives.aeadChacha20Seal_length htimestamp, by simp [hslice], ?_⟩
    rw [initBytes_append, appendMac1_append _ _ _ hslice, ← initBytes_append]

/-- A formatted initiation is read as an initiation under the index that was drawn. -/
lemma formatHandshakeInitiation_parse {h' : Handshake P}
    (hcall : h.formatHandshakeInitiation dst ephemeral now = (h', .ok packet)) :
    ∃ p, parseIncomingPacket packet = .ok (.handshakeInit p) ∧ p.senderIdx = h'.nextIndex := by
  unfold formatHandshakeInitiation at hcall
  split at hcall
  · cases hcall
  next hdst =>
  simp only [incIndex] at hcall
  split at hcall
  · cases hcall
  next sent _ hok =>
  cases hcall
  obtain ⟨p, macs, hindex, hstatic, htimestamp, hmacs, rfl⟩ :=
    composeInitiation_packet (Nat.not_lt.mp hdst) hok
  exact ⟨p, parseIncomingPacket_initBytes p _ hstatic htimestamp (by simp [hmacs]), hindex⟩

/-- A formatted response is read as a response under the index that was drawn. -/
lemma composeResponse_parse (hdst : handshakeRespSz ≤ dst.length)
    (hok : composeResponse params localIndex dst ephemeralPrivate hash chainingKey peerEphemeralPublic peerIndex = .ok (packet, session)) :
    ∃ q, parseIncomingPacket packet = .ok (.handshakeResponse q) ∧ q.senderIdx = localIndex := by
  have hslice : (slice dst 60 handshakeRespSz).length = 32 := length_slice dst 60 _ hdst
  simp only [composeResponse, bind, Except.bind] at hok
  split at hok
  · cases hok
  next encryptedNothing hseal =>
  cases hok
  refine ⟨⟨localIndex, peerIndex, P.publicKey ephemeralPrivate, encryptedNothing⟩, ?_, rfl⟩
  rw [respBytes_append, appendMac1_append _ _ _ hslice, ← respBytes_append]
  exact parseIncomingPacket_respBytes _ _ (Primitives.aeadChacha20Seal_length hseal)
    (by simp [hslice])

lemma receiveHandshakeInitialization_parse {h' : Handshake P} {p : HandshakeInit}
    (hcall : h.receiveHandshakeInitialization p dst ephemeral = (h', .ok (packet, session))) :
    ∃ q, parseIncomingPacket packet = .ok (.handshakeResponse q) ∧
      q.senderIdx = h'.nextIndex := by
  unfold receiveHandshakeInitialization at hcall
  split at hcall
  · cases hcall
  split at hcall
  · cases hcall
  unfold formatHandshakeResponse at hcall
  split at hcall
  · cases hcall
  next hdst =>
  cases ephemeral with
  | none => cases hcall
  | some ephemeralPrivate =>
    simp only [incIndex, Prod.mk.injEq] at hcall
    obtain ⟨rfl, hok⟩ := hcall
    exact composeResponse_parse (Nat.not_lt.mp hdst) hok

/-! ## What a call leaves behind -/

section Cases

variable {h h' : Handshake P}

variable {dst : Bytes} {ephemeral : Option Key} {sent : HandshakeInitSentState}

lemma composeInitiation_localIndex {localIndex : UInt32} {packet : Bytes}
    (hok : h.composeInitiation localIndex dst ephemeral now = .ok (sent, packet)) :
    sent.localIndex = localIndex := by
  unfold composeInitiation at hok
  cases ephemeral with
  | none => cases hok
  | some ephemeralPrivate =>
    simp only [bind, Except.bind] at hok
    split at hok
    · cases hok
    split at hok
    · cases hok
    split at hok
    · cases hok
    cases hok
    rfl

/-- An initiation draws an index unless the buffer is too small, and is remembered when it was
formatted. -/
lemma formatHandshakeInitiation_cases {result : Except Error Bytes}
    (hcall : h.formatHandshakeInitiation dst ephemeral now = (h', result)) :
    (h' = h ∧ ∃ e, result = .error e) ∨
    (h' = { h with nextIndex := succIndex h.nextIndex } ∧ ∃ e, result = .error e) ∨
    ∃ sent packet, sent.localIndex = succIndex h.nextIndex ∧ result = .ok packet ∧
      h' = { h with
        nextIndex := succIndex h.nextIndex
        previous := h.state
        state := .initSent sent } := by
  unfold formatHandshakeInitiation at hcall
  split at hcall
  · cases hcall
    exact Or.inl ⟨rfl, _, rfl⟩
  simp only [incIndex] at hcall
  split at hcall
  · cases hcall
    exact Or.inr (Or.inl ⟨rfl, _, rfl⟩)
  · next sent packet hok =>
    cases hcall
    exact Or.inr (Or.inr ⟨sent, packet, composeInitiation_localIndex hok, rfl, rfl⟩)

lemma composeResponse_session {packet : Bytes}
    (hok : composeResponse params localIndex dst ephemeralPrivate hash chainingKey peerEphemeralPublic peerIndex = .ok (packet, session)) :
    ∃ receiver sender, session = Session.new localIndex peerIndex receiver sender := by
  simp only [composeResponse, bind, Except.bind] at hok
  split at hok
  · cases hok
  · cases hok
    exact ⟨_, _, rfl⟩

/-- An INIT is refused without a trace, or moves `state` to `previous`; it installs a session
only under a newly drawn index. -/
lemma receiveHandshakeInitialization_cases {packet : HandshakeInit}
    {result : Except Error (Bytes × Session)}
    (hcall : h.receiveHandshakeInitialization packet dst ephemeral = (h', result)) :
    (h' = h ∧ ∃ e, result = .error e) ∨
    ∃ timestamp state, timestamp.after h.lastHandshakeTimestamp = true ∧
      (∀ index, state.sentAs index = none) ∧
      ((h' = { h with lastHandshakeTimestamp := timestamp, previous := h.state, state := state } ∧
        ∃ e, result = .error e) ∨
      (h' = { h with
          lastHandshakeTimestamp := timestamp
          previous := h.state
          state := state
          nextIndex := succIndex h.nextIndex } ∧
        ((∃ e, result = .error e) ∨ ∃ resp receiver sender, result =
          .ok (resp, Session.new (succIndex h.nextIndex) packet.senderIdx receiver sender)))) := by
  unfold receiveHandshakeInitialization at hcall
  split at hcall
  · cases hcall
    exact Or.inl ⟨rfl, _, rfl⟩
  next timestamp chainingKey hash _ =>
  split at hcall
  · cases hcall
    exact Or.inl ⟨rfl, _, rfl⟩
  next hafter =>
  right
  simp only [Bool.not_eq_true, Bool.not_eq_false'] at hafter
  unfold formatHandshakeResponse at hcall
  split at hcall
  · cases hcall
    exact ⟨timestamp, _, hafter, fun _ => rfl, Or.inl ⟨rfl, _, rfl⟩⟩
  cases ephemeral with
  | none =>
    cases hcall
    exact ⟨timestamp, .none, hafter, fun _ => rfl, Or.inl ⟨rfl, _, rfl⟩⟩
  | some ephemeralPrivate =>
    simp only [incIndex, Prod.mk.injEq] at hcall
    obtain ⟨rfl, hresult⟩ := hcall
    refine ⟨timestamp, .none, hafter, fun _ => rfl, Or.inr ⟨rfl, ?_⟩⟩
    cases result with
    | error e => exact Or.inl ⟨e, rfl⟩
    | ok answer =>
      obtain ⟨resp, session⟩ := answer
      obtain ⟨receiver, sender, rfl⟩ := composeResponse_session hresult
      exact Or.inr ⟨resp, receiver, sender, rfl⟩

lemma openResponse_session {packet : HandshakeResponse}
    (hok : openResponse params sent packet = .ok session) :
    session.receivingIndex = sent.localIndex := by
  simp only [openResponse, bind, Except.bind] at hok
  split at hok
  · cases hok
  · cases hok
    rfl

lemma sentAs_eq_some {state : HandshakeState} {index : UInt32}
    (hsent : state.sentAs index = some sent) :
    state = .initSent sent ∧ sent.localIndex = index := by
  cases state with
  | initSent s =>
    simp only [HandshakeState.sentAs, Option.ite_none_right_eq_some, Option.some.injEq] at hsent
    obtain ⟨hidx, rfl⟩ := hsent
    exact ⟨rfl, hidx⟩
  | none => cases hsent
  | initReceived => cases hsent

lemma awaiting_cases {receiverIdx : UInt32} {isPrevious : Bool}
    (hwait : h.awaiting receiverIdx = some (sent, isPrevious)) :
    sent.localIndex = receiverIdx ∧
      ((isPrevious = false ∧ h.state = .initSent sent) ∨
        (isPrevious = true ∧ h.previous = .initSent sent)) := by
  unfold awaiting at hwait
  split at hwait
  · next s hs =>
    cases hwait
    obtain ⟨hstate, hidx⟩ := sentAs_eq_some hs
    exact ⟨hidx, Or.inl ⟨rfl, hstate⟩⟩
  · simp only [Option.map_eq_some_iff, Prod.mk.injEq] at hwait
    obtain ⟨s, hs, rfl, rfl⟩ := hwait
    obtain ⟨hprevious, hidx⟩ := sentAs_eq_some hs
    exact ⟨hidx, Or.inr ⟨rfl, hprevious⟩⟩

/-- A response is refused without a trace, or answers one of the two initiations and clears it. -/
lemma receiveHandshakeResponse_cases {packet : HandshakeResponse} {result : Except Error Session}
    (hcall : h.receiveHandshakeResponse packet now = (h', result)) :
    (h' = h ∧ ∃ e, result = .error e) ∨
    ∃ sent isPrevious session rtt, h.awaiting packet.receiverIdx = some (sent, isPrevious) ∧
      result = .ok session ∧ session.receivingIndex = packet.receiverIdx ∧
      h' = if isPrevious then { h with lastRtt := rtt, previous := .none }
        else { h with lastRtt := rtt, state := .none } := by
  unfold receiveHandshakeResponse at hcall
  split at hcall
  · cases hcall
    exact Or.inl ⟨rfl, _, rfl⟩
  next sent isPrevious hwait =>
  split at hcall
  · cases hcall
    exact Or.inl ⟨rfl, _, rfl⟩
  next session hopen =>
  simp only [Prod.mk.injEq] at hcall
  obtain ⟨rfl, rfl⟩ := hcall
  have hidx : session.receivingIndex = packet.receiverIdx :=
    (openResponse_session hopen).trans (awaiting_cases hwait).1
  exact Or.inr ⟨sent, isPrevious, session, _, hwait, rfl, hidx, rfl⟩

end Cases

/-! ## Indices -/

lemma toNat_succIndex (index : UInt32) :
    (succIndex index).toNat = 256 * (index.toNat / 256) + (index.toNat + 1) % 256 := by
  have hmask : (~~~0xff : UInt32).toNat = 2 ^ 8 * (2 ^ 24 - 1) := by decide
  have hlow : ((index.toUInt8 + 1).toUInt32).toNat = (index.toNat + 1) % 2 ^ 8 := by
    simp
  have hlt : (index.toNat + 1) % 2 ^ 8 < 2 ^ 8 := Nat.mod_lt _ (by decide)
  apply Nat.eq_of_testBit_eq
  intro j
  rw [succIndex, UInt32.toNat_or, UInt32.toNat_and, hmask, hlow, Nat.testBit_or, Nat.testBit_and,
    show (256 : Nat) = 2 ^ 8 from rfl, Nat.testBit_two_pow_mul_add _ hlt]
  simp only [Nat.testBit_two_pow_mul, Nat.testBit_two_pow_sub_one, Nat.testBit_mod_two_pow,
    Nat.testBit_div_two_pow]
  by_cases hj : j < 8
  · simp [hj, Nat.not_le.mpr hj]
  have hbig : 24 ≤ j - 8 → index.toNat.testBit j = false := fun hj' =>
    Nat.testBit_lt_two_pow (Nat.lt_of_lt_of_le index.toNat_lt
      (Nat.pow_le_pow_right (by decide) (by omega)))
  have hsum : j - 8 + 8 = j := by omega
  by_cases hj' : j - 8 < 24
  · simp [hj, hj', Nat.not_lt.mp hj]
  · simp [hj, hj', hsum, hbig (by omega)]

end Handshake

end Fluxpeer.Tunnel
