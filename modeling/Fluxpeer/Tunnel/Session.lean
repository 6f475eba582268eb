import Fluxpeer.Tunnel.Packet
import Fluxpeer.Tunnel.ReplayWindow

/-!
# Transport sessions

A session seals payloads under a counter nonce and opens what its counterpart sealed. The
plaintext of a data packet is a padding length, that many random bytes, and the payload.

A call that would index outside of its buffer, or whose counter update never stops, is `none`.
A call that fails in an ordinary way still returns the session: the sending counter advances
before the checks that may refuse the packet.
-/

namespace Fluxpeer.Tunnel

open Lib Crypto Primitives

def maxNonce : UInt64 := 281474976710656

def maxPadding : Nat := 15

/-- Where encrypted data resides in a data packet. -/
def dataOffset : Nat := 16

def aeadSize : Nat := 16

structure Session where
  receivingIndex : UInt32
  sendingIndex : UInt32
  receiver : Key
  sender : Key
  sendingKeyCounter : UInt64
  receivingKeyCounter : ReceivingKeyCounterValidator
deriving DecidableEq

namespace Session

/-- `Session::new`. Keys of 32 bytes are always accepted. -/
def new (localIndex peerIndex : UInt32) (receivingKey sendingKey : Key) : Session where
  receivingIndex := localIndex
  sendingIndex := peerIndex
  receiver := receivingKey
  sender := sendingKey
  sendingKeyCounter := 0
  receivingKeyCounter := .default

def localIndex (s : Session) : Nat := s.receivingIndex.toNat

/-- What the random number generator gives to one data packet; `none` where it fails. -/
structure PaddingDraw where
  random : Option UInt32
  filler : Option (Block maxPadding)

/-- Write the payload behind the padding, encrypt in place and append the tag. -/
def sealPadded (P : Primitives) (s : Session) (counter : UInt64) (paddingLen : Nat)
    (src dst : Bytes) : Option (Except Error Bytes) := do
  let paddedLen := 1 + paddingLen + src.length
  let dst ← writeAt dst (dataOffset + (1 + paddingLen)) src
  match P.sealInPlace s.sender (Primitives.counterNonce counter) []
      (slice dst dataOffset (dataOffset + paddedLen)) with
  | none => some (.error .invalidAeadTag)
  | some (body, tag) => do
    let dst ← writeAt dst dataOffset body
    let dst ← writeAt dst (dataOffset + paddedLen) tag.toList
    some (.ok (dst.take (dataOffset + (paddedLen + aeadSize))))

def formatPacketData (P : Primitives) (s : Session) (src dst : Bytes) (draw : PaddingDraw) :
    Option (Session × Except Error Bytes) :=
  if dst.length < src.length + dataOverheadSz then
    some (s, .error .destinationBufferTooSmall)
  else
    let counter := s.sendingKeyCounter
    let s := { s with sendingKeyCounter := counter + 1 }
    if counter ≥ maxNonce then some (s, .error .nonceExhausted)
    else do
      let dst ← writeAt dst 0 (leBytes 4 dataType.toNat)
      let dst ← writeAt dst 4 (leBytes 4 s.sendingIndex.toNat)
      let dst ← writeAt dst 8 (leBytes 8 counter.toNat)
      match draw.random with
      | none => some (s, .error .randomnessUnavailable)
      | some random => do
        let paddingLen := random.toNat % (maxPadding + 1)
        let dst ← writeAt dst dataOffset [UInt8.ofNat paddingLen]
        if paddingLen > 0 then
          match draw.filler with
          | none => some (s, .error .randomnessUnavailable)
          | some filler => do
            let dst ← writeAt dst (dataOffset + 1) (filler.toList.take paddingLen)
            let sealed ← s.sealPadded P counter paddingLen src dst
            some (s, sealed)
        else do
          let sealed ← s.sealPadded P counter paddingLen src dst
          some (s, sealed)

def receivingCounterMark (s : Session) (counter : UInt64) :
    Option (Session × Except Error Unit) := do
  let (v, ret) ← s.receivingKeyCounter.markDidReceive counter
  match ret with
  | .ok () =>
    some ({ s with receivingKeyCounter := { v with receiveCnt := v.receiveCnt + 1 } }, .ok ())
  | .error e => some ({ s with receivingKeyCounter := v }, .error e)

/-- The payload behind the padding of a decrypted packet. -/
def stripPadding (decrypted : Bytes) : Except Error Bytes :=
  match decrypted with
  | [] => .error .invalidPacket
  | paddingLen :: _ =>
    let headerLen := 1 + paddingLen.toNat
    if headerLen > decrypted.length then .error .invalidPacket
    else .ok (decrypted.drop headerLen)

/-- `receive_packet_data` with a destination of `dstLen` bytes. -/
def receivePacketData (P : Primitives) (s : Session) (packet : PacketData) (dstLen : Nat) :
    Option (Session × Except Error Bytes) :=
  if dstLen < packet.encryptedEncapsulatedPacket.length then
    some (s, .error .destinationBufferTooSmall)
  else if packet.receiverIdx ≠ s.receivingIndex then some (s, .error .wrongIndex)
  else
    match s.receivingKeyCounter.willAccept packet.counter with
    | .error e => some (s, .error e)
    | .ok () =>
      match P.openInPlace s.receiver (Primitives.counterNonce packet.counter) []
          packet.encryptedEncapsulatedPacket with
      | none => some (s, .error .invalidAeadTag)
      | some decrypted => do
        let (s, marked) ← s.receivingCounterMark packet.counter
        match marked with
        | .error e => some (s, .error e)
        | .ok () => some (s, stripPadding decrypted)

/-! ## What a call does -/

/-- The random bytes in front of the payload. -/
def PaddingDraw.padding (draw : PaddingDraw) : Except Error Bytes :=
  match draw.random with
  | none => .error .randomnessUnavailable
  | some random =>
    let paddingLen := random.toNat % (maxPadding + 1)
    if paddingLen > 0 then
      match draw.filler with
      | none => .error .randomnessUnavailable
      | some filler => .ok (filler.toList.take paddingLen)
    else .ok []

/-- The packet that carries `src` behind `padding` under the session's current counter. -/
def sealPacket (P : Primitives) (s : Session) (padding src : Bytes) : Except Error Bytes :=
  match P.sealInPlace s.sender (Primitives.counterNonce s.sendingKeyCounter) []
      (UInt8.ofNat padding.length :: (padding ++ src)) with
  | none => .error .invalidAeadTag
  | some (body, tag) => .ok (dataBytes ⟨s.sendingIndex, s.sendingKeyCounter, body ++ tag.toList⟩)

variable {P : Primitives} {s : Session}

variable {padding src dst : Bytes} {counter : UInt64}

/-- The last part of a call, on a buffer that holds the header and the padding. -/
lemma sealPadded_eq {header : Bytes}
    (hfront : header ++ UInt8.ofNat padding.length :: padding <+: dst)
    (hheader : header.length = dataOffset)
    (hfit : dataOffset + (1 + padding.length + src.length) + aeadSize ≤ dst.length) :
    s.sealPadded P counter padding.length src dst =
      some (match P.sealInPlace s.sender (counterNonce counter) []
          (UInt8.ofNat padding.length :: (padding ++ src)) with
        | none => .error .invalidAeadTag
        | some (body, tag) => .ok (header ++ (body ++ tag.toList))) := by
  unfold aeadSize at hfit
  obtain ⟨dst₁, hwrite₁, hpre₁, hlen₁⟩ := writeAt_append
    (dataOffset + (1 + padding.length)) src hfront (by simp [hheader]; omega) (by omega)
  have hplain : slice dst₁ dataOffset (dataOffset + (1 + padding.length + src.length)) =
      UInt8.ofNat padding.length :: (padding ++ src) := by
    have hpre : header ++ UInt8.ofNat padding.length :: (padding ++ src) <+: dst₁ := by
      simpa using hpre₁
    exact slice_of_append hpre hheader (by simp; omega)
  unfold sealPadded
  simp only [hwrite₁, hplain, Option.bind_eq_bind, Option.bind_some]
  cases hseal : P.sealInPlace s.sender (counterNonce counter) []
      (UInt8.ofNat padding.length :: (padding ++ src)) with
  | none => rfl
  | some sealed =>
    obtain ⟨body, tag⟩ := sealed
    have hbody : body.length = 1 + padding.length + src.length := by
      rw [P.sealInPlace_length _ _ _ _ _ _ hseal]
      simp
      omega
    have hhead : header <+: dst₁ := by
      refine List.IsPrefix.trans ?_ hpre₁
      simp
    obtain ⟨dst₂, hwrite₂, hpre₂, hlen₂⟩ := writeAt_append dataOffset body hhead hheader (by omega)
    obtain ⟨dst₃, hwrite₃, hpre₃, hlen₃⟩ := writeAt_append
      (dataOffset + (1 + padding.length + src.length)) tag.toList hpre₂
      (by simp [hheader, hbody]) (by simp; omega)
    simp only [hwrite₂, hwrite₃, Option.bind_some]
    obtain ⟨rest, rfl⟩ := hpre₃
    have htake : (header ++ body ++ tag.toList).length =
        dataOffset + (1 + padding.length + src.length + aeadSize) := by
      simp [hheader, hbody, aeadSize]
    rw [List.take_left' htake, List.append_assoc]

/-- The same part as a packet: the header is the one of a data packet. -/
lemma sealPadded_eq_sealPacket (padding src : Bytes)
    (hfront : leBytes 4 dataType.toNat ++ leBytes 4 s.sendingIndex.toNat ++ leBytes 8 s.sendingKeyCounter.toNat ++ UInt8.ofNat padding.length :: padding <+: dst)
    (hfit : src.length + padding.length + 33 ≤ dst.length) :
    ({ s with sendingKeyCounter := s.sendingKeyCounter + 1 } : Session).sealPadded P
      s.sendingKeyCounter padding.length src dst = some (s.sealPacket P padding src) := by
  rw [sealPadded_eq hfront (by simp [dataOffset]) (by unfold dataOffset aeadSize; omega)]
  unfold sealPacket
  cases P.sealInPlace s.sender (counterNonce s.sendingKeyCounter) []
      (UInt8.ofNat padding.length :: (padding ++ src)) with
  | none => rfl
  | some sealed => simp [dataBytes]

/-- A call on a buffer that is large enough never indexes outside of it, and computes this. -/
lemma formatPacketData_eq (draw : PaddingDraw) (hfit : src.length + dataOverheadSz ≤ dst.length) :
    s.formatPacketData P src dst draw =
      some ({ s with sendingKeyCounter := s.sendingKeyCounter + 1 },
        if s.sendingKeyCounter ≥ maxNonce then .error .nonceExhausted
        else do s.sealPacket P (← draw.padding) src) := by
  unfold dataOverheadSz at hfit
  unfold formatPacketData
  rw [if_neg (by unfold dataOverheadSz; omega)]
  by_cases hmax : s.sendingKeyCounter ≥ maxNonce
  · simp only [if_pos hmax]
  simp only [if_neg hmax]
  obtain ⟨dst₁, hwrite₁, hpre₁, hlen₁⟩ := writeAt_append 0 (leBytes 4 dataType.toNat)
    (List.nil_prefix (l := dst)) rfl (by simp; omega)
  obtain ⟨dst₂, hwrite₂, hpre₂, hlen₂⟩ := writeAt_append 4 (leBytes 4 s.sendingIndex.toNat)
    hpre₁ (by simp) (by simp; omega)
  obtain ⟨dst₃, hwrite₃, hpre₃, hlen₃⟩ := writeAt_append 8 (leBytes 8 s.sendingKeyCounter.toNat)
    hpre₂ (by simp) (by simp; omega)
  simp only [hwrite₁, hwrite₂, hwrite₃, Option.bind_eq_bind, Option.bind_some]
  unfold PaddingDraw.padding
  cases draw.random with
  | none => rfl
  | some random =>
    have hlt : random.toNat % (maxPadding + 1) < 16 := Nat.mod_lt _ (by decide)
    dsimp only
    generalize random.toNat % (maxPadding + 1) = paddingLen at hlt
    obtain ⟨dst₄, hwrite₄, hpre₄, hlen₄⟩ := writeAt_append dataOffset [UInt8.ofNat paddingLen]
      hpre₃ (by simp [dataOffset]) (by simp [dataOffset]; omega)
    simp only [hwrite₄, Option.bind_some]
    by_cases hpos : paddingLen > 0
    · simp only [if_pos hpos]
      cases draw.filler with
      | none => rfl
      | some filler =>
        have hpad : (filler.toList.take paddingLen).length = paddingLen := by
          rw [List.length_take, Block.length_val, maxPadding]
          omega
        obtain ⟨dst₅, hwrite₅, hpre₅, hlen₅⟩ := writeAt_append (dataOffset + 1)
          (filler.toList.take paddingLen) hpre₄ (by simp [dataOffset])
          (by unfold dataOffset; omega)
        have hfront : leBytes 4 dataType.toNat ++ leBytes 4 s.sendingIndex.toNat ++
            leBytes 8 s.sendingKeyCounter.toNat ++
            UInt8.ofNat (filler.toList.take paddingLen).length ::
              filler.toList.take paddingLen <+: dst₅ := by
          simpa [hpad] using hpre₅
        have hseal := sealPadded_eq_sealPacket (P := P) _ src hfront (by omega)
        rw [hpad] at hseal
        simp only [hwrite₅, hseal, Option.bind_some]
        rfl
    · have hzero : paddingLen = 0 := by omega
      subst hzero
      have hseal := sealPadded_eq_sealPacket (P := P) [] src hpre₄ (by simp; omega)
      simp only [List.length_nil] at hseal
      simp only [if_neg hpos, hseal, Option.bind_some]
      rfl

/-- On a buffer that is too small nothing happens. -/
lemma formatPacketData_tooSmall (draw : PaddingDraw)
    (hsmall : ¬ src.length + dataOverheadSz ≤ dst.length) :
    s.formatPacketData P src dst draw = some (s, .error .destinationBufferTooSmall) :=
  if_pos (by omega)

variable {packet : Bytes}

lemma sealPacket_nonce (h : s.sealPacket P padding src = .ok packet) :
    readU64 packet 8 = s.sendingKeyCounter := by
  unfold sealPacket at h
  split at h
  · cases h
  cases h
  simpa only [dataBytes, List.append_assoc] using readU64_append
    (leBytes 4 dataType.toNat ++ leBytes 4 s.sendingIndex.toNat) _ s.sendingKeyCounter 8
    (by simp)

variable {draw : PaddingDraw}

lemma PaddingDraw.padding_le (h : draw.padding = .ok padding) : padding.length ≤ maxPadding := by
  unfold PaddingDraw.padding at h
  split at h
  · cases h
  next random _ =>
  dsimp only at h
  split at h
  · split at h
    · cases h
    · cases h
      rw [List.length_take, Block.length_val]
      omega
  · cases h
    simp

lemma PaddingDraw.padding_some (random : UInt32) (filler : Block maxPadding) :
    ∃ padding, (PaddingDraw.mk (some random) (some filler)).padding = .ok padding := by
  unfold PaddingDraw.padding
  dsimp only
  split
  · exact ⟨_, rfl⟩
  · exact ⟨_, rfl⟩

lemma stripPadding_padded (src : Bytes) (hpad : padding.length ≤ maxPadding) :
    stripPadding (UInt8.ofNat padding.length :: (padding ++ src)) = .ok src := by
  have hbyte : (UInt8.ofNat padding.length).toNat = padding.length := by
    unfold maxPadding at hpad
    rw [UInt8.toNat_ofNat']
    omega
  unfold stripPadding
  simp only [hbyte]
  rw [if_neg (by simp; omega), Nat.add_comm, List.drop_succ_cons, List.drop_left]

lemma receivingCounterMark_of_willAccept (hmax : counter.toNat < 2 ^ 48)
    (hfresh : s.receivingKeyCounter.willAccept counter = .ok ()) :
    ∃ s', s.receivingCounterMark counter = some (s', .ok ()) := by
  obtain ⟨w, hmark⟩ :=
    ReceivingKeyCounterValidator.markDidReceive_of_willAccept hmax hfresh
  unfold receivingCounterMark
  simp [hmark]

/-- Opening what was sealed gives the payload back. -/
lemma receivePacketData_of_open {packet : PacketData} {dstLen : Nat}
    (hdst : packet.encryptedEncapsulatedPacket.length ≤ dstLen)
    (hidx : packet.receiverIdx = s.receivingIndex) (hmax : packet.counter.toNat < 2 ^ 48)
    (hfresh : s.receivingKeyCounter.willAccept packet.counter = .ok ())
    (hpad : padding.length ≤ maxPadding)
    (hopen : P.openInPlace s.receiver (counterNonce packet.counter) [] packet.encryptedEncapsulatedPacket = some (UInt8.ofNat padding.length :: (padding ++ src)))
    :
    ∃ s', s.receivePacketData P packet dstLen = some (s', .ok src) := by
  obtain ⟨s', hmark⟩ := receivingCounterMark_of_willAccept hmax hfresh
  refine ⟨s', ?_⟩
  unfold receivePacketData
  rw [if_neg (by omega), if_neg (by simpa using hidx)]
  simp only [hfresh, hopen, hmark, Option.bind_eq_bind, Option.bind_some,
    stripPadding_padded src hpad]

/-- No call changes the indices or the keys of a session. -/
def SameKeys (s s' : Session) : Prop :=
  s'.receivingIndex = s.receivingIndex ∧ s'.sendingIndex = s.sendingIndex ∧
    s'.receiver = s.receiver ∧ s'.sender = s.sender

variable {s' : Session} {result : Except Error Bytes}

lemma formatPacketData_sameKeys (h : s.formatPacketData P src dst draw = some (s', result)) :
    s.SameKeys s' := by
  by_cases hfit : src.length + dataOverheadSz ≤ dst.length
  · rw [formatPacketData_eq draw hfit] at h
    cases h
    exact ⟨rfl, rfl, rfl, rfl⟩
  · rw [formatPacketData_tooSmall draw hfit] at h
    cases h
    exact ⟨rfl, rfl, rfl, rfl⟩

/-- The first byte of a formatted packet is the one of its type. -/
lemma formatPacketData_head (h : s.formatPacketData P src dst draw = some (s', .ok packet)) :
    packet.head? = some 4 := by
  by_cases hfit : src.length + dataOverheadSz ≤ dst.length
  · rw [formatPacketData_eq draw hfit] at h
    simp only [Option.some.injEq, Prod.mk.injEq] at h
    obtain ⟨-, hsealed⟩ := h
    split at hsealed
    · cases hsealed
    cases hpadding : draw.padding with
    | error e => simp [hpadding, bind, Except.bind] at hsealed
    | ok padding =>
      simp only [hpadding, bind, Except.bind, sealPacket] at hsealed
      split at hsealed
      · cases hsealed
      · cases hsealed
        rfl
  · rw [formatPacketData_tooSmall draw hfit] at h
    cases h

lemma receivingCounterMark_cases {r : Except Error Unit}
    (h : s.receivingCounterMark counter = some (s', r)) :
    (s' = s ∧ ∃ e, r = .error e) ∨
    (r = .ok () ∧ s.SameKeys s' ∧
      s'.receivingKeyCounter.receiveCnt ≠ s.receivingKeyCounter.receiveCnt) := by
  obtain ⟨⟨w, ret⟩, hmark, hrest⟩ := Option.bind_eq_some_iff.mp h
  rcases ReceivingKeyCounterValidator.markDidReceive_cases hmark with ⟨rfl, rfl⟩ | ⟨rfl, hcount⟩
  · cases hrest
    exact Or.inl ⟨rfl, _, rfl⟩
  · cases hrest
    refine Or.inr ⟨rfl, ⟨rfl, rfl, rfl, rfl⟩, ?_⟩
    simp [hcount]

/-- A received packet leaves the session as it was, or was authenticated on it: then the packet
names this session, and the count of received packets has advanced. -/
lemma receivePacketData_cases {packet : PacketData} {dstLen : Nat}
    (h : s.receivePacketData P packet dstLen = some (s', result)) :
    (s' = s ∧ ∃ e, result = .error e) ∨
    (s.SameKeys s' ∧ packet.receiverIdx = s.receivingIndex ∧
      s'.receivingKeyCounter.receiveCnt ≠ s.receivingKeyCounter.receiveCnt) := by
  unfold receivePacketData at h
  split at h
  · cases h
    exact Or.inl ⟨rfl, _, rfl⟩
  split at h
  · cases h
    exact Or.inl ⟨rfl, _, rfl⟩
  next hidx =>
  split at h
  · cases h
    exact Or.inl ⟨rfl, _, rfl⟩
  split at h
  · cases h
    exact Or.inl ⟨rfl, _, rfl⟩
  next decrypted _ =>
  obtain ⟨⟨s₁, marked⟩, hmark, hrest⟩ := Option.bind_eq_some_iff.mp h
  rcases receivingCounterMark_cases hmark with ⟨rfl, e, rfl⟩ | ⟨rfl, hsame, hcount⟩
  · cases hrest
    exact Or.inl ⟨rfl, _, rfl⟩
  · cases hrest
    exact Or.inr ⟨hsame, not_not.mp hidx, hcount⟩

/-! ## Nonces over a sequence of calls -/

/-- One call of `format_packet_data`: payload, buffer and random bytes. -/
structure Send where
  src : Bytes
  dst : Bytes
  draw : PaddingDraw

/-- A sequence of calls, with the packets that were emitted. -/
def sendAll (P : Primitives) : Session → List Send → Option (Session × List Bytes)
  | s, [] => some (s, [])
  | s, call :: calls => do
    let (s, result) ← s.formatPacketData P call.src call.dst call.draw
    let (s, packets) ← sendAll P s calls
    some (s, match result with
      | .ok packet => packet :: packets
      | .error _ => packets)

def packetNonce (packet : Bytes) : Nat := (readU64 packet 8).toNat

/-- What one call does to the counter, and which nonce its packet carries. -/
lemma formatPacketData_counter (P : Primitives) (s : Session) (call : Send) :
    ∃ s' result, s.formatPacketData P call.src call.dst call.draw = some (s', result) ∧
      (s' = s ∨ s' = { s with sendingKeyCounter := s.sendingKeyCounter + 1 }) ∧
      ∀ packet, result = .ok packet →
        s' = { s with sendingKeyCounter := s.sendingKeyCounter + 1 } ∧
        readU64 packet 8 = s.sendingKeyCounter ∧ s.sendingKeyCounter < maxNonce := by
  by_cases hfit : call.src.length + dataOverheadSz ≤ call.dst.length
  · refine ⟨_, _, formatPacketData_eq call.draw hfit, Or.inr rfl, fun packet hok => ?_⟩
    split at hok
    · cases hok
    next hlt =>
    refine ⟨rfl, ?_, UInt64.not_le.mp hlt⟩
    cases hpad : call.draw.padding with
    | error e =>
      rw [hpad] at hok
      cases hok
    | ok padding =>
      rw [hpad] at hok
      exact sealPacket_nonce hok
  · exact ⟨s, _, formatPacketData_tooSmall call.draw hfit, Or.inl rfl, fun packet hok => nomatch hok⟩

/-- Before the counter has run through all its values, the nonces of the emitted packets
increase and stay below the limit. -/
lemma sendAll_nonces (calls : List Send) (n : Nat) (s : Session)
    (hn : s.sendingKeyCounter = UInt64.ofNat n) (hbound : n + calls.length ≤ 2 ^ 64) :
    ∃ s' packets, sendAll P s calls = some (s', packets) ∧
      (packets.map packetNonce).Pairwise (· < ·) ∧
      ∀ m ∈ packets.map packetNonce, n ≤ m ∧ m < 2 ^ 48 := by
  induction calls generalizing s n with
  | nil => exact ⟨s, [], rfl, List.Pairwise.nil, by simp⟩
  | cons call calls ih =>
    simp only [List.length_cons] at hbound
    obtain ⟨s₁, result, hcall, hstate, hpacket⟩ := formatPacketData_counter P s call
    -- The counter value the remaining calls start from.
    obtain ⟨n₁, hn₁, hle, hn₁bound, hok⟩ : ∃ n₁, s₁.sendingKeyCounter = UInt64.ofNat n₁ ∧
        n ≤ n₁ ∧ n₁ + calls.length ≤ 2 ^ 64 ∧ ((∃ packet, result = .ok packet) → n < n₁) := by
      rcases hstate with rfl | rfl
      · refine ⟨n, hn, le_refl n, by omega, ?_⟩
        rintro ⟨packet, hp⟩
        obtain ⟨hsame, -, -⟩ := hpacket packet hp
        have hcounter := congrArg Session.sendingKeyCounter hsame
        simp at hcounter
      · refine ⟨n + 1, ?_, by omega, by omega, fun _ => by omega⟩
        simp [hn, UInt64.ofNat_add]
    obtain ⟨s', packets, hrest, hincreasing, hrange⟩ := ih n₁ s₁ hn₁ hn₁bound
    rw [sendAll, hcall]
    cases result with
    | error e =>
      refine ⟨s', packets, by simp [hrest], hincreasing, fun m hm => ?_⟩
      have := hrange m hm
      omega
    | ok packet =>
      have hlt := hok ⟨packet, rfl⟩
      obtain ⟨-, hread, hmax⟩ := hpacket packet rfl
      have hnonce : packetNonce packet = n := by
        rw [packetNonce, hread, hn, UInt64.toNat_ofNat']
        exact Nat.mod_eq_of_lt (by omega)
      have hlimit : n < 2 ^ 48 := by
        have := UInt64.lt_iff_toNat_lt.mp hmax
        rwa [← hread, ← packetNonce, hnonce] at this
      refine ⟨s', packet :: packets, by simp [hrest], ?_, ?_⟩
      · rw [List.map_cons, List.pairwise_cons]
        refine ⟨fun m hm => ?_, hincreasing⟩
        have := hrange m hm
        omega
      · intro m hm
        rcases List.mem_cons.mp hm with rfl | hm
        · omega
        · have := hrange m hm
          omega

/-- While the counter is below its limit a packet is emitted, it parses as data for the session
of the counterpart, and opens to the padded payload. -/
lemma formatPacketData_packet (hP : P.Lawful) (s : Session) (src dst : Bytes) (random : UInt32)
    (filler : Block maxPadding) (hfit : src.length + dataOverheadSz ≤ dst.length)
    (hmax : s.sendingKeyCounter < maxNonce) :
    ∃ padding data, (PaddingDraw.mk (some random) (some filler)).padding = .ok padding ∧
      s.formatPacketData P src dst ⟨some random, some filler⟩ =
        some ({ s with sendingKeyCounter := s.sendingKeyCounter + 1 }, .ok (dataBytes data)) ∧
      parseIncomingPacket (dataBytes data) = .ok (.packetData data) ∧
      data.receiverIdx = s.sendingIndex ∧ data.counter = s.sendingKeyCounter ∧
      P.openInPlace s.sender (counterNonce s.sendingKeyCounter) []
        data.encryptedEncapsulatedPacket =
          some (UInt8.ofNat padding.length :: (padding ++ src)) := by
  obtain ⟨padding, hpadding⟩ := PaddingDraw.padding_some random filler
  obtain ⟨body, tag, hseal, hopen⟩ := hP.open_seal s.sender
    (counterNonce s.sendingKeyCounter) []
    (UInt8.ofNat padding.length :: (padding ++ src))
  have hbody : body.length = 1 + padding.length + src.length := by
    rw [P.sealInPlace_length _ _ _ _ _ _ hseal]
    simp
    omega
  have hpacket : s.sealPacket P padding src =
      .ok (dataBytes ⟨s.sendingIndex, s.sendingKeyCounter, body ++ tag.toList⟩) := by
    simp [sealPacket, hseal]
  refine ⟨padding, ⟨s.sendingIndex, s.sendingKeyCounter, body ++ tag.toList⟩, hpadding, ?_, ?_,
    rfl, rfl, hopen⟩
  · rw [formatPacketData_eq _ hfit, if_neg (UInt64.not_le.mpr hmax), hpadding, ← hpacket]
    rfl
  · apply parseIncomingPacket_dataBytes
    simp [hbody]
    omega

/-- Data packets survive the way to the counterpart, and while the counter has not run through
all 64-bit values the nonces of a session increase. -/
theorem formatPacketData_roundTrip_and_nonces (P : Primitives) (hP : P.Lawful) :
    (∀ (s t : Session) (src dst : Bytes) (random : UInt32) (filler : Block maxPadding),
      src.length + dataOverheadSz ≤ dst.length → s.sendingKeyCounter < maxNonce →
      t.receiver = s.sender → t.receivingIndex = s.sendingIndex →
      t.receivingKeyCounter.willAccept s.sendingKeyCounter = .ok () →
      ∃ s' packet data,
        s.formatPacketData P src dst ⟨some random, some filler⟩ = some (s', .ok packet) ∧
        parseIncomingPacket packet = .ok (.packetData data) ∧
        ∀ dstLen, data.encryptedEncapsulatedPacket.length ≤ dstLen →
          ∃ t', t.receivePacketData P data dstLen = some (t', .ok src)) ∧
    (∀ (localIndex peerIndex : UInt32) (receivingKey sendingKey : Key) (calls : List Send),
      calls.length ≤ 2 ^ 64 →
      ∃ s' packets,
        sendAll P (Session.new localIndex peerIndex receivingKey sendingKey) calls =
          some (s', packets) ∧
        (packets.map packetNonce).Pairwise (· < ·) ∧
        ∀ m ∈ packets.map packetNonce, m < 2 ^ 48) := by
  constructor
  · intro s t src dst random filler hfit hmax hkey hidx hfresh
    obtain ⟨padding, data, hpadding, hformat, hparse, hto, hcounter, hopen⟩ :=
      formatPacketData_packet hP s src dst random filler hfit hmax
    refine ⟨_, _, data, hformat, hparse, fun dstLen hdst => ?_⟩
    rw [← hcounter] at hopen hmax hfresh
    exact receivePacketData_of_open hdst (hto.trans hidx.symm) (UInt64.lt_iff_toNat_lt.mp hmax)
      hfresh (PaddingDraw.padding_le hpadding) (hkey ▸ hopen)
  · intro localIndex peerIndex receivingKey sendingKey calls hcalls
    obtain ⟨s', packets, hrun, hincreasing, hrange⟩ := sendAll_nonces (P := P) calls 0
      (Session.new localIndex peerIndex receivingKey sendingKey) rfl (by omega)
    exact ⟨s', packets, hrun, hincreasing, fun m hm => (hrange m hm).2⟩

def sampleSession : Session :=
  Session.new 257 513 (Primitives.xorKey [1] []) (Primitives.xorKey [2] [])

/-- The other end of `sampleSession`. -/
def samplePeer : Session :=
  Session.new 513 257 (Primitives.xorKey [2] []) (Primitives.xorKey [1] [])

/-- A keepalive in the smallest buffer, with three bytes of padding. -/
def sampleSend : Send := ⟨[], List.replicate 48 0, ⟨some 3, some (List.Vector.replicate 15 7)⟩⟩

/-- A keepalive in a buffer of exactly its overhead, and a run of two of them. -/
theorem formatPacketData_roundTrip_and_nonces_keepalive :
    Primitives.transparent.Lawful ∧
    (∃ s' packet data,
      sampleSession.formatPacketData Primitives.transparent [] (List.replicate 48 0)
        ⟨some 3, some (List.Vector.replicate 15 7)⟩ = some (s', .ok packet) ∧
      parseIncomingPacket packet = .ok (.packetData data) ∧
      ∀ dstLen, data.encryptedEncapsulatedPacket.length ≤ dstLen →
        ∃ t', samplePeer.receivePacketData Primitives.transparent data dstLen =
          some (t', .ok [])) ∧
    ∃ s' packets,
      sendAll Primitives.transparent sampleSession [sampleSend, sampleSend] =
        some (s', packets) ∧
      (packets.map packetNonce).Pairwise (· < ·) ∧
      ∀ m ∈ packets.map packetNonce, m < 2 ^ 48 :=
  have h := formatPacketData_roundTrip_and_nonces transparent
    transparent_lawful
  ⟨transparent_lawful,
    h.1 sampleSession samplePeer [] (List.replicate 48 0) 3 (List.Vector.replicate 15 7)
      (by decide) (by decide) rfl rfl rfl,
    h.2 257 513 (xorKey [1] []) (xorKey [2] []) [sampleSend, sampleSend]
      (by decide)⟩

/-! ## The counter after all its values -/

lemma sendAll_append (s : Session) (calls more : List Send) :
    sendAll P s (calls ++ more) = (do
      let (s, packets) ← sendAll P s calls
      let (s, rest) ← sendAll P s more
      some (s, packets ++ rest)) := by
  induction calls generalizing s with
  | nil => cases h : sendAll P s more <;> simp [sendAll, h]
  | cons call calls ih =>
    simp only [List.cons_append, sendAll]
    cases s.formatPacketData P call.src call.dst call.draw with
    | none => rfl
    | some step =>
      obtain ⟨s₁, result⟩ := step
      simp only [Option.bind_eq_bind, Option.bind_some, ih]
      cases sendAll P s₁ calls with
      | none => rfl
      | some first =>
        obtain ⟨s₂, packets⟩ := first
        simp only [Option.bind_some]
        cases sendAll P s₂ more with
        | none => rfl
        | some second => cases result <;> rfl

variable {call : Send}

/-- Every call that finds room advances the counter, also past the nonce limit. -/
lemma sendAll_replicate (s : Session) (hfit : call.src.length + dataOverheadSz ≤ call.dst.length)
    (n : Nat) :
    ∃ packets, sendAll P s (List.replicate n call) =
      some ({ s with sendingKeyCounter := s.sendingKeyCounter + UInt64.ofNat n }, packets) := by
  induction n generalizing s with
  | zero => exact ⟨[], by simp [sendAll]⟩
  | succ n ih =>
    obtain ⟨packets, hrest⟩ := ih { s with sendingKeyCounter := s.sendingKeyCounter + 1 }
    have hcounter : s.sendingKeyCounter + UInt64.ofNat (n + 1) =
        s.sendingKeyCounter + 1 + UInt64.ofNat n := by
      rw [UInt64.ofNat_add, UInt64.add_comm (UInt64.ofNat n), UInt64.add_assoc]
      rfl
    rw [List.replicate_succ, sendAll, formatPacketData_eq call.draw hfit, hcounter]
    simp only [Option.bind_eq_bind, Option.bind_some, hrest]
    exact ⟨_, rfl⟩

lemma sendAll_first {calls : List Send} {s₁ : Session} {packets : List Bytes}
    (hcall : s.formatPacketData P call.src call.dst call.draw = some (s₁, .ok packet))
    (hrun : sendAll P s (call :: calls) = some (s', packets)) : packet ∈ packets := by
  rw [sendAll, hcall] at hrun
  cases hrest : sendAll P s₁ calls with
  | none => simp [hrest] at hrun
  | some rest =>
    simp only [hrest, Option.bind_eq_bind, Option.bind_some, Option.some.injEq,
      Prod.mk.injEq] at hrun
    rw [← hrun.2]
    exact List.mem_cons_self

/-- After `2 ^ 64` calls the counter is back where it was, and the next packet repeats a
nonce. -/
lemma sendAll_wraps
    (hcall : s.formatPacketData P call.src call.dst call.draw = some (s', .ok packet)) :
    ∃ s'' packets, sendAll P s (List.replicate (2 ^ 64) call ++ [call]) = some (s'', packets) ∧
      ¬ (packets.map packetNonce).Nodup := by
  have hfit : call.src.length + dataOverheadSz ≤ call.dst.length := by
    by_contra hsmall
    rw [formatPacketData_tooSmall call.draw hsmall] at hcall
    cases hcall
  obtain ⟨packets, hrun⟩ := sendAll_replicate (P := P) s hfit (2 ^ 64)
  have hback : s.sendingKeyCounter + UInt64.ofNat (2 ^ 64) = s.sendingKeyCounter := by simp
  rw [hback] at hrun
  -- The first of the calls has already emitted the packet that the last one emits.
  have hfirst : packet ∈ packets := by
    rw [show 2 ^ 64 = 2 ^ 64 - 1 + 1 by decide, List.replicate_succ] at hrun
    exact sendAll_first hcall hrun
  refine ⟨s', packets ++ [packet], ?_, ?_⟩
  · rw [sendAll_append, hrun]
    simp [sendAll, hcall]
  · intro hnodup
    rw [List.map_append, List.nodup_append] at hnodup
    exact hnodup.2.2 _ (List.mem_map_of_mem hfirst) _ (by simp) rfl

/-- A long enough sequence of calls emits one nonce twice. -/
theorem nonces_repeat_after_wrap :
    ∃ calls s' packets, sendAll Primitives.transparent sampleSession calls = some (s', packets) ∧
      ¬ (packets.map packetNonce).Nodup := by
  obtain ⟨s', packet, hcall⟩ : ∃ s' packet, sampleSession.formatPacketData transparent
      sampleSend.src sampleSend.dst sampleSend.draw = some (s', .ok packet) := ⟨_, _, rfl⟩
  obtain ⟨s'', packets, hrun, hrepeat⟩ := sendAll_wraps hcall
  exact ⟨_, s'', packets, hrun, hrepeat⟩

end Session

end Fluxpeer.Tunnel
