import Fluxpeer.Crypto.Primitives

/-!
# Packets on the wire

The three packet kinds of the tunnel, their parser, and the check of the first MAC that a
handshake message must pass. A message type is a 32-bit word, so the three reserved bytes
behind the type byte are checked along with it.
-/

namespace Fluxpeer.Tunnel

open Lib Crypto

/-! ## Message types and sizes -/

/-- `HANDSHAKE_INIT`. -/
def handshakeInitType : UInt32 := 1

/-- `HANDSHAKE_RESP`. -/
def handshakeRespType : UInt32 := 2

/-- `DATA`. -/
def dataType : UInt32 := 4

def handshakeInitSz : Nat := 148

def handshakeRespSz : Nat := 92

/-- Header 16, length of the padding 1, padding at most 15, tag 16. -/
def dataOverheadSz : Nat := 48

/-- Header 16, length of the padding 1, tag 16. -/
def dataMinSz : Nat := 33

structure HandshakeInit where
  senderIdx : UInt32
  unencryptedEphemeral : Key
  encryptedStatic : Bytes
  encryptedTimestamp : Bytes
deriving DecidableEq

structure HandshakeResponse where
  senderIdx : UInt32
  receiverIdx : UInt32
  unencryptedEphemeral : Key
  encryptedNothing : Bytes
deriving DecidableEq

structure PacketData where
  receiverIdx : UInt32
  counter : UInt64
  encryptedEncapsulatedPacket : Bytes
deriving DecidableEq

inductive Packet
  | handshakeInit (p : HandshakeInit)
  | handshakeResponse (p : HandshakeResponse)
  | packetData (p : PacketData)
deriving DecidableEq

/-! ## Parsing -/

/-- `u32::from_le_bytes` of four bytes of the packet. -/
def readU32 (src : Bytes) (lo : Nat) : UInt32 := UInt32.ofNat (fromLe (slice src lo (lo + 4)))

def readU64 (src : Bytes) (lo : Nat) : UInt64 := UInt64.ofNat (fromLe (slice src lo (lo + 8)))

/-- `<&[u8; 32]>::try_from` of a slice of the packet. -/
def readKey (src : Bytes) (lo : Nat) : Except Error Key :=
  match Block.ofBytes? 32 (slice src lo (lo + 32)) with
  | some key => .ok key
  | none => .error .invalidPacket

def parseIncomingPacket (src : Bytes) : Except Error Packet :=
  if src.length < 4 then .error .invalidPacket
  else
    let packetType := readU32 src 0
    if packetType = handshakeInitType ∧ src.length = handshakeInitSz then do
      let ephemeral ← readKey src 8
      .ok (.handshakeInit {
        senderIdx := readU32 src 4
        unencryptedEphemeral := ephemeral
        encryptedStatic := slice src 40 88
        encryptedTimestamp := slice src 88 116 })
    else if packetType = handshakeRespType ∧ src.length = handshakeRespSz then do
      let ephemeral ← readKey src 12
      .ok (.handshakeResponse {
        senderIdx := readU32 src 4
        receiverIdx := readU32 src 8
        unencryptedEphemeral := ephemeral
        encryptedNothing := slice src 44 60 })
    else if packetType = dataType ∧ dataMinSz ≤ src.length then
      .ok (.packetData {
        receiverIdx := readU32 src 4
        counter := readU64 src 8
        encryptedEncapsulatedPacket := src.drop 16 })
    else .error .invalidPacket

lemma readU32_append (front back : Bytes) (x : UInt32) (lo : Nat) (h : front.length = lo) :
    readU32 (front ++ (leBytes 4 x.toNat ++ back)) lo = x := by
  rw [readU32, slice_append front _ back lo _ h (by simp), fromLe_leBytes]
  apply UInt32.toNat_inj.mp
  simp

lemma readU64_append (front back : Bytes) (x : UInt64) (lo : Nat) (h : front.length = lo) :
    readU64 (front ++ (leBytes 8 x.toNat ++ back)) lo = x := by
  rw [readU64, slice_append front _ back lo _ h (by simp), fromLe_leBytes]
  apply UInt64.toNat_inj.mp
  simp

lemma readKey_append (front back : Bytes) (x : Key) (lo : Nat) (h : front.length = lo) :
    readKey (front ++ (x.toList ++ back)) lo = .ok x := by
  rw [readKey, slice_append front _ back lo _ h (by simp)]
  simp

/-! ## What the parser reads back -/

/-- The layout of an initiation: everything before the MACs, and 32 bytes for them. -/
def initBytes (p : HandshakeInit) (macs : Bytes) : Bytes :=
  leBytes 4 handshakeInitType.toNat ++ (leBytes 4 p.senderIdx.toNat ++
    (p.unencryptedEphemeral.toList ++ (p.encryptedStatic ++ (p.encryptedTimestamp ++ macs))))

def respBytes (p : HandshakeResponse) (macs : Bytes) : Bytes :=
  leBytes 4 handshakeRespType.toNat ++ (leBytes 4 p.senderIdx.toNat ++
    (leBytes 4 p.receiverIdx.toNat ++ (p.unencryptedEphemeral.toList ++
      (p.encryptedNothing ++ macs))))

def dataBytes (p : PacketData) : Bytes :=
  leBytes 4 dataType.toNat ++ (leBytes 4 p.receiverIdx.toNat ++
    (leBytes 8 p.counter.toNat ++ p.encryptedEncapsulatedPacket))

lemma parseIncomingPacket_initBytes (p : HandshakeInit) (macs : Bytes)
    (hstatic : p.encryptedStatic.length = 48) (htime : p.encryptedTimestamp.length = 28)
    (hmacs : macs.length = 32) :
    parseIncomingPacket (initBytes p macs) = .ok (.handshakeInit p) := by
  have hlen : (initBytes p macs).length = handshakeInitSz := by
    simp [initBytes, handshakeInitSz, hstatic, htime, hmacs]
  have htype : readU32 (initBytes p macs) 0 = handshakeInitType :=
    readU32_append [] _ handshakeInitType 0 rfl
  have hidx : readU32 (initBytes p macs) 4 = p.senderIdx :=
    readU32_append (leBytes 4 handshakeInitType.toNat) _ p.senderIdx 4 (by simp)
  have hkey : readKey (initBytes p macs) 8 = .ok p.unencryptedEphemeral := by
    simpa only [initBytes, List.append_assoc] using readKey_append
      (leBytes 4 handshakeInitType.toNat ++ leBytes 4 p.senderIdx.toNat) _ _ 8 (by simp)
  have hstat : slice (initBytes p macs) 40 88 = p.encryptedStatic := by
    simpa only [initBytes, List.append_assoc] using slice_append
      (leBytes 4 handshakeInitType.toNat ++ leBytes 4 p.senderIdx.toNat ++
        p.unencryptedEphemeral.toList) _ _ 40 88 (by simp) (by simp [hstatic])
  have hstamp : slice (initBytes p macs) 88 116 = p.encryptedTimestamp := by
    simpa only [initBytes, List.append_assoc] using slice_append
      (leBytes 4 handshakeInitType.toNat ++ leBytes 4 p.senderIdx.toNat ++
        p.unencryptedEphemeral.toList ++ p.encryptedStatic) _ _ 88 116
        (by simp [hstatic]) (by simp [htime])
  unfold parseIncomingPacket
  rw [if_neg (by rw [hlen]; decide)]
  simp only [htype, hlen, hidx, hkey, hstat, hstamp]
  rfl

lemma parseIncomingPacket_respBytes (p : HandshakeResponse) (macs : Bytes)
    (hnothing : p.encryptedNothing.length = 16) (hmacs : macs.length = 32) :
    parseIncomingPacket (respBytes p macs) = .ok (.handshakeResponse p) := by
  have hlen : (respBytes p macs).length = handshakeRespSz := by
    simp [respBytes, handshakeRespSz, hnothing, hmacs]
  have htype : readU32 (respBytes p macs) 0 = handshakeRespType :=
    readU32_append [] _ handshakeRespType 0 rfl
  have hsender : readU32 (respBytes p macs) 4 = p.senderIdx :=
    readU32_append (leBytes 4 handshakeRespType.toNat) _ p.senderIdx 4 (by simp)
  have hreceiver : readU32 (respBytes p macs) 8 = p.receiverIdx := by
    simpa only [respBytes, List.append_assoc] using readU32_append
      (leBytes 4 handshakeRespType.toNat ++ leBytes 4 p.senderIdx.toNat) _ _ 8 (by simp)
  have hkey : readKey (respBytes p macs) 12 = .ok p.unencryptedEphemeral := by
    simpa only [respBytes, List.append_assoc] using readKey_append
      (leBytes 4 handshakeRespType.toNat ++ leBytes 4 p.senderIdx.toNat ++
        leBytes 4 p.receiverIdx.toNat) _ _ 12 (by simp)
  have hnone : slice (respBytes p macs) 44 60 = p.encryptedNothing := by
    simpa only [respBytes, List.append_assoc] using slice_append
      (leBytes 4 handshakeRespType.toNat ++ leBytes 4 p.senderIdx.toNat ++
        leBytes 4 p.receiverIdx.toNat ++ p.unencryptedEphemeral.toList) _ _ 44 60
        (by simp) (by simp [hnothing])
  unfold parseIncomingPacket
  rw [if_neg (by rw [hlen]; decide)]
  simp only [htype, hlen, hsender, hreceiver, hkey, hnone]
  rfl

lemma parseIncomingPacket_dataBytes (p : PacketData)
    (hbody : 17 ≤ p.encryptedEncapsulatedPacket.length) :
    parseIncomingPacket (dataBytes p) = .ok (.packetData p) := by
  have hlen : (dataBytes p).length = 16 + p.encryptedEncapsulatedPacket.length := by
    simp [dataBytes]
    omega
  have htype : readU32 (dataBytes p) 0 = dataType := readU32_append [] _ dataType 0 rfl
  have hidx : readU32 (dataBytes p) 4 = p.receiverIdx :=
    readU32_append (leBytes 4 dataType.toNat) _ p.receiverIdx 4 (by simp)
  have hcounter : readU64 (dataBytes p) 8 = p.counter := by
    simpa only [dataBytes, List.append_assoc] using readU64_append
      (leBytes 4 dataType.toNat ++ leBytes 4 p.receiverIdx.toNat) _ p.counter 8 (by simp)
  have hdrop : (dataBytes p).drop 16 = p.encryptedEncapsulatedPacket := by
    have hfront : (leBytes 4 dataType.toNat ++ leBytes 4 p.receiverIdx.toNat ++
        leBytes 8 p.counter.toNat).length = 16 := by simp
    simpa only [dataBytes, List.append_assoc] using List.drop_left' hfront
  unfold parseIncomingPacket
  rw [if_neg (by omega)]
  simp only [htype, hidx, hcounter, hdrop, hlen]
  rw [if_neg (by simp [dataType, handshakeInitType]),
    if_neg (by simp [dataType, handshakeRespType]),
    if_pos ⟨trivial, by unfold dataMinSz; omega⟩]

/-! ## What a packet was read from -/

/-- The parser takes the indices from fixed places, and the lengths cover them. -/
lemma parseIncomingPacket_cases {src : Bytes} {packet : Packet}
    (h : parseIncomingPacket src = .ok packet) :
    (∃ p, packet = .handshakeInit p ∧ readU32 src 0 = handshakeInitType ∧
      src.length = handshakeInitSz ∧ p.senderIdx = readU32 src 4) ∨
    (∃ p, packet = .handshakeResponse p ∧ readU32 src 0 = handshakeRespType ∧
      src.length = handshakeRespSz ∧ p.senderIdx = readU32 src 4 ∧
      p.receiverIdx = readU32 src 8) ∨
    ∃ p, packet = .packetData p ∧ readU32 src 0 = dataType ∧ dataMinSz ≤ src.length ∧
      p.receiverIdx = readU32 src 4 := by
  unfold parseIncomingPacket at h
  split at h
  · cases h
  dsimp only at h
  split at h
  · next hinit =>
    cases hkey : readKey src 8 with
    | error e => simp [hkey, bind, Except.bind] at h
    | ok key =>
      simp only [hkey, bind, Except.bind, Except.ok.injEq] at h
      exact Or.inl ⟨_, h.symm, hinit.1, hinit.2, rfl⟩
  split at h
  · next hresp =>
    cases hkey : readKey src 12 with
    | error e => simp [hkey, bind, Except.bind] at h
    | ok key =>
      simp only [hkey, bind, Except.bind, Except.ok.injEq] at h
      exact Or.inr (Or.inl ⟨_, h.symm, hresp.1, hresp.2, rfl, rfl⟩)
  split at h
  · next hdata =>
    simp only [Except.ok.injEq] at h
    exact Or.inr (Or.inr ⟨_, h.symm, hdata.1, hdata.2, rfl⟩)
  · cases h

/-- The first byte of the message type. -/
lemma head?_eq_readU32 {src : Bytes} (h : 4 ≤ src.length) :
    src.head? = some (UInt8.ofNat (readU32 src 0).toNat) := by
  match src, h with
  | a :: b :: c :: d :: rest, _ =>
    simp only [List.head?_cons, Option.some.injEq, readU32, slice, List.drop_zero, List.take,
      fromLe]
    apply UInt8.toNat_inj.mp
    simp

/-! ## Verification of the first MAC -/

/-- The bytes of `mac1----`. -/
def labelMac1 : Bytes := [109, 97, 99, 49, 45, 45, 45, 45]

structure Verifier where
  mac1Key : Key
deriving DecidableEq

def Verifier.new (P : Primitives) (publicKey : Key) : Verifier :=
  ⟨P.b2sHash labelMac1 publicKey.toList⟩

/-- The MAC is computed over everything before the two MAC fields; the second is not read. -/
def Verifier.verifyPacket (P : Primitives) (v : Verifier) (src : Bytes) : Except Error Packet := do
  let packet ← parseIncomingPacket src
  match packet with
  | .packetData _ => .ok packet
  | _ =>
    let msg := src.take (src.length - 32)
    let mac1 := slice src (src.length - 32) (src.length - 16)
    if (P.b2sKeyedMac16 v.mac1Key msg).toList = mac1 then .ok packet else .error .invalidMac

end Fluxpeer.Tunnel
