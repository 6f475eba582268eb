import Fluxpeer.Tunnel.Agreement
import Fluxpeer.Tunnel.Calls

/-!
# Answers to an INIT

What a cryptor makes of an INIT that its peer composed. The tunnel that is there answers only what
is newer than the last INIT it accepted; a tunnel built for the INIT answers any, since a timestamp
is never zero. Both need a random key for the answer.
-/

namespace Fluxpeer.Tunnel

open Lib Crypto Handshake

variable {P : Primitives}

/-! ## Timestamps -/

lemma Tai64N.not_after_self (t : Tai64N) : t.after t = false := by
  simp [Tai64N.after]

lemma Tai64N.parse_secs (secs nano : Nat)
    (h : (beBytes 8 secs ++ beBytes 4 nano).length = 12) :
    (Tai64N.parse ⟨beBytes 8 secs ++ beBytes 4 nano, h⟩).secs = secs % 256 ^ 8 := by
  rw [← fromBe_beBytes 8 secs]
  exact congrArg fromBe (List.take_left' (length_beBytes 8 secs))

/-- A timestamp counts from the TAI64 epoch, so it is never the one a new handshake starts from. -/
lemma TimeStamper.after_zero {stamper : TimeStamper} {now : Nat} {stamp : Block 12}
    (h : stamper.stamp now = .ok stamp) : (Tai64N.parse stamp).after .zero = true := by
  unfold TimeStamper.stamp at h
  split at h
  · cases h
  dsimp only at h
  split at h
  · cases h
  split at h
  · cases h
  next hsecs =>
  cases h
  have hbase : 0 < tai64Base := by decide
  simp only [Tai64N.after, Bool.or_eq_true, decide_eq_true_eq]
  left
  rw [Tai64N.parse_secs, show (256 : Nat) ^ 8 = 2 ^ 64 by decide,
    Nat.mod_eq_of_lt (Nat.not_le.mp hsecs)]
  exact Nat.add_pos_right _ hbase

/-! ## The tunnel that is there -/

namespace Handshake

/-- An INIT that a handshake composed, with the timestamp in it. -/
def Composes (i : Handshake P) (packet : Bytes) (timestamp : Tai64N) : Prop :=
  ∃ i' dst ephemeral now stamp, i.formatHandshakeInitiation dst ephemeral now = (i', .ok packet) ∧
    i.stamper.stamp now = .ok stamp ∧ timestamp = Tai64N.parse stamp

variable {i h : Handshake P} {r : NoiseParams P} {packet dst : Bytes} {timestamp : Tai64N}
  {p : HandshakeInit} {chainingKey hash : Key} {ephemeral : Option Key}

lemma Composes.after_zero (hcomposes : i.Composes packet timestamp) :
    timestamp.after .zero = true := by
  obtain ⟨_, _, _, _, _, -, hstamp, rfl⟩ := hcomposes
  exact TimeStamper.after_zero hstamp

variable (dst) in
/-- With a random key and a clock, an INIT can be composed. -/
lemma composes_of_stamp (hP : P.Lawful) (i : Handshake P) (hdst : handshakeInitSz ≤ dst.length)
    (ephemeral : Key) {now : Nat} {stamp : Block 12} (hstamp : i.stamper.stamp now = .ok stamp) :
    ∃ packet, (i.formatHandshakeInitiation dst (some ephemeral) now).2 = .ok packet ∧
      i.Composes packet (Tai64N.parse stamp) := by
  obtain ⟨sent, packet, hcompose⟩ :=
    composeInitiation_ok hP i.incIndex.1 (succIndex i.nextIndex) dst ephemeral hstamp
  have hformat : (i.formatHandshakeInitiation dst (some ephemeral) now).2 = .ok packet := by
    simp only [formatHandshakeInitiation, Nat.not_lt.mpr hdst, if_false]
    rw [show i.incIndex = (i.incIndex.1, succIndex i.nextIndex) from rfl, hcompose]
  exact ⟨packet, hformat, _, dst, some ephemeral, now, stamp, Prod.ext rfl hformat, hstamp, rfl⟩

/-- The party the INIT is for reads the initiator's key and the timestamp. -/
lemma Composes.opened (hP : P.Lawful) (hcomposes : i.Composes packet timestamp)
    (hknown : Acquainted i.params r) :
    ∃ p chainingKey hash,
      (Verifier.new P r.staticPublic).verifyPacket P packet = .ok (.handshakeInit p) ∧
      openInitiation r p = .ok (timestamp, chainingKey, hash) ∧
      parseHandshakeAnon P r.staticPrivate r.staticPublic p = .ok i.params.staticPublic := by
  obtain ⟨i', dst, ephemeral, now, stamp, hformat, hstamp, rfl⟩ := hcomposes
  unfold formatHandshakeInitiation at hformat
  split at hformat
  · cases hformat
  next hdst =>
  simp only [incIndex] at hformat
  split at hformat
  · cases hformat
  next sent _ hcompose =>
  cases hformat
  cases ephemeral with
  | none => cases hcompose
  | some ephemeral =>
    obtain ⟨p, -, hverify, -, -, -, -, hopen, hanon⟩ := openInitiation_of_compose
      (i := i.incIndex.1) hP hknown (Nat.not_lt.mp hdst) hstamp hcompose
    exact ⟨p, _, _, hverify, hopen, hanon⟩

/-- An INIT that is not newer than the last one is refused without a trace. -/
lemma receiveHandshakeInitialization_stale
    (hopen : openInitiation h.params p = .ok (timestamp, chainingKey, hash))
    (hstale : timestamp.after h.lastHandshakeTimestamp = false) :
    h.receiveHandshakeInitialization p dst ephemeral = (h, .error .wrongTai64nTimestamp) := by
  simp [receiveHandshakeInitialization, hopen, hstale]

lemma formatHandshakeResponse_lastHandshakeTimestamp (h : Handshake P) :
    (h.formatHandshakeResponse dst ephemeral).1.lastHandshakeTimestamp =
      h.lastHandshakeTimestamp := by
  unfold formatHandshakeResponse
  split
  · rfl
  dsimp only
  split
  · cases ephemeral <;> rfl
  · rfl

variable (dst ephemeral) in
/-- A newer INIT leaves its timestamp, whether or not it can be answered. -/
lemma receiveHandshakeInitialization_newer
    (hopen : openInitiation h.params p = .ok (timestamp, chainingKey, hash))
    (hnewer : timestamp.after h.lastHandshakeTimestamp = true) :
    (h.receiveHandshakeInitialization p dst ephemeral).1.lastHandshakeTimestamp = timestamp := by
  simp only [receiveHandshakeInitialization, hopen, hnewer, Bool.not_true, Bool.false_eq_true,
    if_false, formatHandshakeResponse_lastHandshakeTimestamp]

variable (h p dst) in
/-- Without a random key there is no answer. -/
lemma receiveHandshakeInitialization_silent :
    ∃ e, (h.receiveHandshakeInitialization p dst none).2 = .error e := by
  unfold receiveHandshakeInitialization
  split
  · exact ⟨_, rfl⟩
  split
  · exact ⟨_, rfl⟩
  unfold formatHandshakeResponse
  split <;> exact ⟨_, rfl⟩

variable (dst) in
/-- With a random key, a newer INIT is answered. -/
lemma receiveHandshakeInitialization_answered (hP : P.Lawful)
    (hopen : openInitiation h.params p = .ok (timestamp, chainingKey, hash))
    (hnewer : timestamp.after h.lastHandshakeTimestamp = true)
    (hdst : handshakeRespSz ≤ dst.length) (ephemeral : Key) :
    ∃ resp session, (h.receiveHandshakeInitialization p dst (some ephemeral)).2 =
      .ok (resp, session) := by
  rw [receiveHandshakeInitialization_of_open hopen hnewer hdst]
  exact composeResponse_ok hP _ _ _ _ _ _ _ _

end Handshake

lemma Noise.handleHandshakeInit_isOk (n : Noise P) (p : HandshakeInit) (dst : Bytes)
    (ephemeral : Option Key) : (n.handleHandshakeInit p dst ephemeral).2.isOk =
      (n.handshake.receiveHandshakeInitialization p dst ephemeral).2.isOk := by
  unfold handleHandshakeInit
  dsimp only
  split
  · next heq => rw [heq]; rfl
  · next heq => rw [heq]; rfl

namespace Cryptor

variable {c : Cryptor P} {packet dst : Bytes} {env : Ambient} {p : HandshakeInit}
  {timestamp : Tai64N} {chainingKey hash : Key}

variable (dst env) in
lemma rekeyRespond_eq (hverify : c.noise.verifier.verifyPacket P packet = .ok (.handshakeInit p)) :
    ∃ r, c.rekeyRespond packet dst env =
      some (⟨(c.noise.handleHandshakeInit p dst env.ephemeral).1⟩, r) := by
  simp only [rekeyRespond, hverify, Noise.handleVerifiedPacket, Option.map_some]
  exact ⟨_, rfl⟩

variable (dst env) in
lemma rekeyRespond_stale
    (hverify : c.noise.verifier.verifyPacket P packet = .ok (.handshakeInit p))
    (hopen : openInitiation c.noise.handshake.params p =
      .ok (timestamp, chainingKey, hash))
    (hstale : timestamp.after c.noise.handshake.lastHandshakeTimestamp = false) :
    c.rekeyRespond packet dst env = some (c, .error .wrongTai64nTimestamp) := by
  simp only [rekeyRespond, hverify, Noise.handleVerifiedPacket, Noise.handleHandshakeInit,
    receiveHandshakeInitialization_stale hopen hstale, Option.map_some]

variable (dst env) in
lemma rekeyRespond_newer
    (hverify : c.noise.verifier.verifyPacket P packet = .ok (.handshakeInit p))
    (hopen : openInitiation c.noise.handshake.params p =
      .ok (timestamp, chainingKey, hash))
    (hnewer : timestamp.after c.noise.handshake.lastHandshakeTimestamp = true) :
    ∃ c' r, c.rekeyRespond packet dst env = some (c', r) ∧
      c'.noise.handshake.lastHandshakeTimestamp = timestamp := by
  obtain ⟨r, hrespond⟩ := rekeyRespond_eq dst env hverify
  refine ⟨_, r, hrespond, ?_⟩
  rw [← receiveHandshakeInitialization_newer dst env.ephemeral hopen hnewer]
  unfold Noise.handleHandshakeInit
  dsimp only
  split <;> rfl

/-! ## A tunnel built for the INIT -/

variable {own ownPub pk : Key} {peerIndex : UInt32}

variable (env own peerIndex) in
lemma handleHandshake_of_peek_none
    (hpeek : peekInitPubkey P own (P.publicKey own) packet = none) :
    ∃ peerIndex' e, handleHandshake P peerIndex own (P.publicKey own) packet env =
      (peerIndex', .error e) := by
  cases hcall : handleHandshake P peerIndex own (P.publicKey own) packet env with
    | mk peerIndex' r =>
  cases r with
  | error e => exact ⟨peerIndex', e, rfl⟩
  | ok answer =>
    obtain ⟨-, hsome, -⟩ := handleHandshake_fresh rfl hcall
    rw [hpeek] at hsome
    cases hsome

variable (env peerIndex) in
/-- Whether a tunnel built for an INIT answers it depends on the randomness alone. -/
lemma handleHandshake_isOk (hP : P.Lawful)
    (hverify : (Verifier.new P ownPub).verifyPacket P packet = .ok (.handshakeInit p))
    (hanon : parseHandshakeAnon P own ownPub p = .ok pk)
    (hopen : openInitiation (NoiseParams.new P own pk none) p =
      .ok (timestamp, chainingKey, hash))
    (hzero : timestamp.after .zero = true) :
    (handleHandshake P peerIndex own ownPub packet env).2.isOk = env.ephemeral.isSome := by
  simp only [handleHandshake, hverify, hanon, nextSessionBase]
  generalize (peerIndex &&& 0x00ffffff) <<< 8 = base
  have hnew := Noise.handleHandshakeInit_isOk
    (Noise.new P own pk none base (some (Verifier.new P ownPub)) env.clock) p
    (List.replicate handshakeInitSz 0) env.ephemeral
  have hanswer : (((Noise.new P own pk none base (some (Verifier.new P ownPub))
      env.clock).handshake.receiveHandshakeInitialization p (List.replicate handshakeInitSz 0)
      env.ephemeral).2).isOk = env.ephemeral.isSome := by
    cases env.ephemeral with
    | none =>
      obtain ⟨e, he⟩ := receiveHandshakeInitialization_silent
        (Noise.new P own pk none base (some (Verifier.new P ownPub)) env.clock).handshake
        (List.replicate handshakeInitSz 0) p
      rw [he]
      rfl
    | some ephemeral =>
      obtain ⟨resp, session, hok⟩ := receiveHandshakeInitialization_answered
        (h := (Noise.new P own pk none base (some (Verifier.new P ownPub)) env.clock).handshake)
        (List.replicate handshakeInitSz 0) hP hopen hzero (by simp [handshakeRespSz,
          handshakeInitSz]) ephemeral
      rw [hok]
      rfl
  rw [← hanswer, ← hnew]
  split
  · next heq => rw [heq]; rfl
  · next heq => rw [heq]; rfl
  · next heq => rw [heq]; rfl

end Cryptor

end Fluxpeer.Tunnel
