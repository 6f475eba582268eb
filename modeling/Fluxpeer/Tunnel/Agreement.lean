import Fluxpeer.Tunnel.Cryptor

/-!
# Agreement of the handshake

Two handshakes that know each other's static key, run in order: the initiation, the answer and
the response. The transcripts are compared message by message; a party's step is stated with what
the other party's step left behind, and the DH terms meet by commutation.
-/

namespace Fluxpeer.Tunnel

open Lib Crypto Primitives

namespace Handshake

variable {P : Primitives} {i r : NoiseParams P} {timestamp : Block 12}

/-- Two parties that hold each other's static key. -/
structure Acquainted (i r : NoiseParams P) : Prop where
  initiator : i.peerStaticPublic = r.staticPublic
  responder : r.peerStaticPublic = i.staticPublic

/-- Two parties that hold each other's static key and the same preshared key. -/
structure Paired (i r : NoiseParams P) : Prop extends Acquainted i r where
  preshared : i.presharedKey = r.presharedKey

lemma Acquainted.staticShared_eq (h : Acquainted i r) (hP : P.Lawful) :
    i.staticShared = r.staticShared := by
  rw [i.staticShared_eq, r.staticShared_eq, h.initiator, h.responder, i.staticPublic_eq,
    r.staticPublic_eq]
  exact hP.diffieHellman_comm _ _

/-- The DH term of an ephemeral key and the responder's static key. -/
lemma Acquainted.ephemeralShared_eq (h : Acquainted i r) (hP : P.Lawful) (ephemeral : Key) :
    P.diffieHellman ephemeral i.peerStaticPublic =
      P.diffieHellman r.staticPrivate (P.publicKey ephemeral) := by
  rw [h.initiator, r.staticPublic_eq]
  exact hP.diffieHellman_comm _ _

/-- A message that ends with its own MAC is accepted as what it parses to. -/
lemma verifyPacket_of_mac1 {v : Verifier} {msg rest : Bytes} {packet : Packet}
    (hrest : rest.length = 16)
    (hparse : parseIncomingPacket
      (msg ++ ((P.b2sKeyedMac16 v.mac1Key msg).toList ++ rest)) = .ok packet) :
    v.verifyPacket P (msg ++ ((P.b2sKeyedMac16 v.mac1Key msg).toList ++ rest)) = .ok packet := by
  have hlen : (msg ++ ((P.b2sKeyedMac16 v.mac1Key msg).toList ++ rest)).length =
      msg.length + 32 := by
    simp [hrest]
  simp only [Verifier.verifyPacket, hparse, hlen, bind, Except.bind]
  cases packet with
  | packetData p => rfl
  | handshakeInit p => simp [slice]
  | handshakeResponse p => simp [slice]

/-- With randomness and a clock, an initiation is always composed. -/
lemma composeInitiation_ok (hP : P.Lawful) (h : Handshake P) (localIndex : UInt32) (dst : Bytes)
    (ephemeral : Key) {now : Nat} (hstamp : h.stamper.stamp now = .ok timestamp) :
    ∃ sent packet, h.composeInitiation localIndex dst (some ephemeral) now = .ok (sent, packet) := by
  cases hcompose : h.composeInitiation localIndex dst (some ephemeral) now with
  | ok out => exact ⟨out.1, out.2, rfl⟩
  | error e =>
    simp only [composeInitiation, bind, Except.bind, hstamp] at hcompose
    split at hcompose
    · next hseal => exact absurd hseal (hP.aeadChacha20Seal_ne_error (by simp))
    split at hcompose
    · next hseal => exact absurd hseal (hP.aeadChacha20Seal_ne_error (by simp))
    cases hcompose

lemma composeResponse_ok (hP : P.Lawful) (r : NoiseParams P) (localIndex : UInt32) (dst : Bytes)
    (ephemeral hash chainingKey peerEphemeral : Key) (peerIndex : UInt32) :
    ∃ packet session, composeResponse r localIndex dst ephemeral hash chainingKey peerEphemeral
      peerIndex = .ok (packet, session) := by
  cases hcompose : composeResponse r localIndex dst ephemeral hash chainingKey peerEphemeral
      peerIndex with
  | ok out => exact ⟨out.1, out.2, rfl⟩
  | error e =>
    simp only [composeResponse, bind, Except.bind] at hcompose
    split at hcompose
    · next hseal => exact absurd hseal (hP.aeadChacha20Seal_ne_error rfl)
    · cases hcompose

/-- The responder reads the initiator's timestamp and ends with the initiator's chaining key and
hash; anyone with the responder's static key reads the initiator's static key. -/
lemma openInitiation_of_compose (hP : P.Lawful) {i : Handshake P} {r : NoiseParams P}
    (hknown : Acquainted i.params r) {localIndex : UInt32} {dst packet : Bytes} {ephemeral : Key}
    {now : Nat} {sent : HandshakeInitSentState} (hdst : handshakeInitSz ≤ dst.length)
    (hstamp : i.stamper.stamp now = .ok timestamp)
    (hok : i.composeInitiation localIndex dst (some ephemeral) now = .ok (sent, packet)) :
    ∃ p, parseIncomingPacket packet = .ok (.handshakeInit p) ∧
      (Verifier.new P r.staticPublic).verifyPacket P packet = .ok (.handshakeInit p) ∧
      p.senderIdx = localIndex ∧ p.unencryptedEphemeral = P.publicKey ephemeral ∧
      sent.localIndex = localIndex ∧ sent.ephemeralPrivate = ephemeral ∧
      openInitiation r p = .ok (Tai64N.parse timestamp, sent.chainingKey, sent.hash) ∧
      parseHandshakeAnon P r.staticPrivate r.staticPublic p = .ok i.params.staticPublic := by
  have hslice : (slice dst 116 handshakeInitSz).length = 32 := length_slice dst 116 _ hdst
  have hephemeral := hknown.ephemeralShared_eq hP ephemeral
  have hmac : (Verifier.new P r.staticPublic).mac1Key = i.params.sendingMac1Key := by
    rw [i.params.sendingMac1Key_eq, hknown.initiator]
    rfl
  simp only [composeInitiation, bind, Except.bind, hstamp] at hok
  split at hok
  · cases hok
  next encryptedStatic hstatic =>
  split at hok
  · cases hok
  next encryptedTimestamp htimestamp =>
  cases hok
  have hparse : ∀ macs : Bytes, macs.length = 32 → parseIncomingPacket (initBytes
      ⟨localIndex, P.publicKey ephemeral, encryptedStatic, encryptedTimestamp⟩ macs) =
      .ok (.handshakeInit
        ⟨localIndex, P.publicKey ephemeral, encryptedStatic, encryptedTimestamp⟩) :=
    fun macs hmacs => parseIncomingPacket_initBytes _ macs
      (aeadChacha20Seal_length hstatic) (aeadChacha20Seal_length htimestamp)
      hmacs
  have hopenStatic := hP.aeadChacha20Open_of_seal _ hstatic
  have hopenTimestamp := hP.aeadChacha20Open_of_seal _ htimestamp
  rw [hephemeral, hknown.initiator] at hopenStatic hopenTimestamp
  rw [hknown.staticShared_eq hP] at hopenTimestamp
  refine ⟨⟨localIndex, P.publicKey ephemeral, encryptedStatic, encryptedTimestamp⟩, ?_, ?_, rfl,
    rfl, rfl, rfl, ?_, ?_⟩
  · rw [initBytes_append, appendMac1_append _ _ _ hslice, ← initBytes_append]
    exact hparse _ (by simp [hslice])
  · rw [initBytes_append, appendMac1_append _ _ _ hslice, ← hmac]
    apply verifyPacket_of_mac1 (by simp [hslice])
    rw [← initBytes_append]
    exact hparse _ (by simp [hslice])
  · simp only [openInitiation, bind, Except.bind, hopenStatic, hopenTimestamp, hknown.responder,
      ne_eq, not_true, if_false]
    rw [hephemeral, hknown.initiator, hknown.staticShared_eq hP]
  · simpa only [parseHandshakeAnon] using hopenStatic

/-- The response to an initiation, read by the initiator that remembers it: the keys cross, and
each side's sending index is the other's local one. -/
lemma openResponse_of_compose (hP : P.Lawful) (hpaired : Paired i r) (localIndex : UInt32)
    {dst : Bytes} (hdst : handshakeRespSz ≤ dst.length) (ephemeral : Key)
    (sent : HandshakeInitSentState) :
    ∃ resp q session answered,
      composeResponse r localIndex dst ephemeral sent.hash sent.chainingKey
        (P.publicKey sent.ephemeralPrivate) sent.localIndex = .ok (resp, session) ∧
      parseIncomingPacket resp = .ok (.handshakeResponse q) ∧ q.receiverIdx = sent.localIndex ∧
      openResponse i sent q = .ok answered ∧
      answered.sender = session.receiver ∧ answered.receiver = session.sender ∧
      answered.sendingIndex = session.receivingIndex ∧
      session.sendingIndex = answered.receivingIndex := by
  have hslice : (slice dst 60 handshakeRespSz).length = 32 := length_slice dst 60 _ hdst
  have hephemeral : P.diffieHellman ephemeral (P.publicKey sent.ephemeralPrivate) =
      P.diffieHellman sent.ephemeralPrivate (P.publicKey ephemeral) := hP.diffieHellman_comm _ _
  have hstatic : P.diffieHellman ephemeral r.peerStaticPublic =
      P.diffieHellman i.staticPrivate (P.publicKey ephemeral) := by
    rw [hpaired.responder, i.staticPublic_eq]
    exact hP.diffieHellman_comm _ _
  obtain ⟨resp, session, hcompose⟩ := composeResponse_ok hP r localIndex dst ephemeral sent.hash
    sent.chainingKey (P.publicKey sent.ephemeralPrivate) sent.localIndex
  have hsame := hcompose
  simp only [composeResponse, bind, Except.bind] at hcompose
  split at hcompose
  · cases hcompose
  next encryptedNothing hseal =>
  cases hcompose
  have hopen := hP.aeadChacha20Open_of_seal List.Vector.nil hseal
  rw [hephemeral, hstatic, ← hpaired.preshared] at hopen
  refine ⟨_, ⟨localIndex, sent.localIndex, P.publicKey ephemeral, encryptedNothing⟩, _,
    Session.new sent.localIndex localIndex _ _, hsame, ?_, rfl, ?_, rfl, rfl, rfl, rfl⟩
  · rw [respBytes_append, appendMac1_append _ _ _ hslice, ← respBytes_append]
    exact parseIncomingPacket_respBytes _ _ (aeadChacha20Seal_length hseal)
      (by simp [hslice])
  · simp only [openResponse, bind, Except.bind, hopen]
    rw [hephemeral, hstatic, hpaired.preshared]

/-- The responder accepts an initiation that is newer than the last one it accepted. -/
lemma receiveHandshakeInitialization_of_open {r : Handshake P} {p : HandshakeInit}
    {timestamp : Tai64N} {chainingKey hash : Key}
    (hopen : openInitiation r.params p = .ok (timestamp, chainingKey, hash))
    (hafter : timestamp.after r.lastHandshakeTimestamp = true) {dst : Bytes}
    (hdst : handshakeRespSz ≤ dst.length) (ephemeral : Key) :
    (r.receiveHandshakeInitialization p dst (some ephemeral)).2 =
      composeResponse r.params (succIndex r.nextIndex) dst ephemeral hash chainingKey
        p.unencryptedEphemeral p.senderIdx := by
  simp only [receiveHandshakeInitialization, hopen, hafter, Bool.not_true, Bool.false_eq_true,
    if_false, formatHandshakeResponse, Nat.not_lt.mpr hdst, incIndex]

/-- Two parties that know each other's static key complete a handshake run in order: both end
with a session, the keys cross, the indices cross, and the responder learns the initiator's static
key. -/
theorem handshake_agreement (P : Primitives) (hP : P.Lawful) (i r : Handshake P)
    (hpaired : Paired i.params r.params) (dst₁ dst₂ : Bytes)
    (hdst₁ : handshakeInitSz ≤ dst₁.length) (hdst₂ : handshakeRespSz ≤ dst₂.length)
    (ephemeral₁ ephemeral₂ : Key) (now₁ now₂ : Nat) (timestamp : Block 12)
    (hstamp : i.stamper.stamp now₁ = .ok timestamp)
    (hafter : (Tai64N.parse timestamp).after r.lastHandshakeTimestamp = true) :
    ∃ i₁ packet p r₁ resp q i₂ initiated answered,
      i.formatHandshakeInitiation dst₁ (some ephemeral₁) now₁ = (i₁, .ok packet) ∧
      parseIncomingPacket packet = .ok (.handshakeInit p) ∧
      (Verifier.new P r.params.staticPublic).verifyPacket P packet = .ok (.handshakeInit p) ∧
      r.receiveHandshakeInitialization p dst₂ (some ephemeral₂) = (r₁, .ok (resp, answered)) ∧
      parseIncomingPacket resp = .ok (.handshakeResponse q) ∧
      i₁.receiveHandshakeResponse q now₂ = (i₂, .ok initiated) ∧
      initiated.sender = answered.receiver ∧ initiated.receiver = answered.sender ∧
      initiated.sendingIndex = answered.receivingIndex ∧
      answered.sendingIndex = initiated.receivingIndex ∧
      parseHandshakeAnon P r.params.staticPrivate r.params.staticPublic p =
        .ok i.params.staticPublic ∧
      peekInitPubkey P r.params.staticPrivate r.params.staticPublic packet =
        some i.params.staticPublic := by
  obtain ⟨sent, packet, hcompose⟩ :=
    composeInitiation_ok hP i.incIndex.1 (succIndex i.nextIndex) dst₁ ephemeral₁ hstamp
  obtain ⟨p, hparse, hverify, hsender, hephemeral, hlocal, hprivate, hopen, hanon⟩ :=
    openInitiation_of_compose (i := i.incIndex.1) hP hpaired.toAcquainted hdst₁ hstamp hcompose
  obtain ⟨resp, q, answered, initiated, hrespond, hparseResp, hreceiver, hopenResp, hcross⟩ :=
    openResponse_of_compose hP hpaired (succIndex r.nextIndex) hdst₂ ephemeral₂ sent
  have hinit : i.formatHandshakeInitiation dst₁ (some ephemeral₁) now₁ =
      ({ i with nextIndex := succIndex i.nextIndex, previous := i.state, state := .initSent sent },
        .ok packet) := by
    simp only [formatHandshakeInitiation, Nat.not_lt.mpr hdst₁, if_false]
    rw [show i.incIndex = (i.incIndex.1, succIndex i.nextIndex) from rfl, hcompose]
    rfl
  have hanswer : (r.receiveHandshakeInitialization p dst₂ (some ephemeral₂)).2 =
      .ok (resp, answered) := by
    rw [receiveHandshakeInitialization_of_open hopen hafter hdst₂, hephemeral, hsender, ← hlocal,
      ← hprivate]
    exact hrespond
  have hfinish : (({ i with
      nextIndex := succIndex i.nextIndex
      previous := i.state
      state := .initSent sent } : Handshake P).receiveHandshakeResponse q now₂).2 =
      .ok initiated := by
    simp only [receiveHandshakeResponse, awaiting, HandshakeState.sentAs, hreceiver, if_true,
      hopenResp]
  have hpeek : peekInitPubkey P r.params.staticPrivate r.params.staticPublic packet =
      some i.params.staticPublic := by
    simp only [peekInitPubkey, hverify, hanon]
    rfl
  exact ⟨_, packet, p, _, resp, q, _, initiated, answered, hinit, hparse, hverify,
    Prod.ext rfl hanswer, hparseResp, Prod.ext rfl hfinish, hcross.1, hcross.2.1, hcross.2.2.1,
    hcross.2.2.2, hanon, hpeek⟩

/-- Two new tunnels that know each other complete their first handshake. -/
theorem handshake_agreement_first :
    Paired Noise.sampleInitiator.handshake.params Noise.sampleResponder.handshake.params ∧
    ∃ i₁ packet,
      Noise.sampleInitiator.handshake.formatHandshakeInitiation (List.replicate 148 0)
        (some (Primitives.xorKey [3] [])) 0 = (i₁, .ok packet) ∧
      peekInitPubkey Primitives.transparent (Primitives.xorKey [2] []) (Primitives.xorKey [2] [])
        packet = some (Primitives.xorKey [1] []) := by
  have hpaired : Paired Noise.sampleInitiator.handshake.params
      Noise.sampleResponder.handshake.params := ⟨⟨rfl, rfl⟩, rfl⟩
  obtain ⟨i₁, packet, _, _, _, _, _, _, _, hinit, -, -, -, -, -, -, -, -, -, -, hpeek⟩ :=
    handshake_agreement Primitives.transparent Primitives.transparent_lawful
      Noise.sampleInitiator.handshake Noise.sampleResponder.handshake hpaired
      (List.replicate 148 0) (List.replicate 92 0) (by simp [handshakeInitSz])
      (by simp [handshakeRespSz])
      (Primitives.xorKey [3] []) (Primitives.xorKey [4] []) 0 0
      ⟨beBytes 8 TimeStamper.tai64Base ++ beBytes 4 0, by simp⟩ (by decide +kernel)
      (by decide +kernel)
  exact ⟨hpaired, i₁, packet, hinit, hpeek⟩

end Handshake

end Fluxpeer.Tunnel
