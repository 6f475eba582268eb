import Fluxpeer.Relay.Hub

/-!
# Relay frames on the wire

A frame is its type, the length of its body as a 32-bit integer, most significant byte first, and
the body. `decode` reads the first frame of a buffer. It asks for more bytes until the frame is
complete and rejects it as soon as the header or the body is wrong; what follows the frame does not
matter. `parse` is the stream of frames that a sequence of bytes stands for.
-/

namespace Fluxpeer.Relay

open Lib Block

def MAX_PACKET_SIZE : Nat := 64 * 1024

def KEY_LEN : Nat := 32

def HEADER_LEN : Nat := 1 + 4

def maxFrame : Nat := HEADER_LEN + (MAX_PACKET_SIZE + KEY_LEN)

inductive ProtoError
  | shortBuffer (need have' : Nat)
  | unknownType (ty : UInt8)
  | badLength (len : Nat)
  | tooLarge (len : Nat)
deriving DecidableEq

def ProtoError.isShort : ProtoError → Bool
  | .shortBuffer _ _ => true
  | _ => false

namespace Frame

def typeByte : Frame → UInt8
  | .clientInfo _ _ => 1
  | .serverInfo _ => 2
  | .sendPacket _ _ => 3
  | .recvPacket _ _ => 4
  | .ping _ => 5
  | .pong _ => 6
  | .peerGone _ => 7
  | .health => 8
  | .restarting => 9

def body : Frame → Bytes
  | .clientInfo pubkey protocolVersion => pubkey.toList ++ beBytes 4 protocolVersion.toNat
  | .serverInfo protocolVersion => beBytes 4 protocolVersion.toNat
  | .sendPacket key payload | .recvPacket key payload => key.toList ++ payload
  | .ping data | .pong data => data.toList
  | .peerGone pubkey => pubkey.toList
  | .health | .restarting => []

def encode (f : Frame) : Bytes := f.typeByte :: beBytes 4 f.body.length ++ f.body

def key (b : Bytes) : Except ProtoError PublicKey :=
  match Block.ofBytes? KEY_LEN (b.take KEY_LEN) with
  | some k => .ok k
  | none => .error (.badLength b.length)

def beU32 (b : Bytes) : Except ProtoError UInt32 :=
  if b.length < 4 then .error (.badLength b.length)
  else .ok (UInt32.ofNat (fromBe (b.take 4)))

/-- The frame of a type with a body. -/
def ofBody (ty : UInt8) (body : Bytes) : Except ProtoError Frame :=
  match ty.toNat with
  | 1 =>
    if body.length ≠ KEY_LEN + 4 then .error (.badLength body.length)
    else do
      let pubkey ← key body
      let protocolVersion ← beU32 (body.drop KEY_LEN)
      .ok (.clientInfo pubkey protocolVersion)
  | 2 =>
    if body.length ≠ 4 then .error (.badLength body.length)
    else do
      let protocolVersion ← beU32 body
      .ok (.serverInfo protocolVersion)
  | 3 | 4 =>
    if body.length < KEY_LEN then .error (.badLength body.length)
    else
      let payload := body.drop KEY_LEN
      if payload.length > MAX_PACKET_SIZE then .error (.tooLarge payload.length)
      else do
        let k ← key body
        .ok (if ty = 3 then .sendPacket k payload else .recvPacket k payload)
  | 5 | 6 =>
    if h : body.length = 8 then .ok (if ty = 5 then .ping ⟨body, h⟩ else .pong ⟨body, h⟩)
    else .error (.badLength body.length)
  | 7 =>
    if body.length ≠ KEY_LEN then .error (.badLength body.length)
    else do
      let pubkey ← key body
      .ok (.peerGone pubkey)
  -- the bodies of these two are not looked at
  | 8 => .ok .health
  | 9 => .ok .restarting
  | _ => .error (.unknownType ty)

/-- The first frame of a buffer and the number of bytes it takes. -/
def decode (buf : Bytes) : Except ProtoError (Frame × Nat) :=
  match buf with
  | ty :: b₁ :: b₂ :: b₃ :: b₄ :: rest =>
    let len := fromBe [b₁, b₂, b₃, b₄]
    if len > MAX_PACKET_SIZE + KEY_LEN then .error (.tooLarge len)
    else
      let total := HEADER_LEN + len
      if buf.length < total then .error (.shortBuffer total buf.length)
      else (ofBody ty (rest.take len)).map fun frame => (frame, total)
  | _ => .error (.shortBuffer HEADER_LEN buf.length)

/-- The payload is one that a relay carries. -/
def Carried : Frame → Prop
  | .sendPacket _ payload | .recvPacket _ payload => payload.length ≤ MAX_PACKET_SIZE
  | _ => True

/-! ## Round trip -/

section

variable {f : Frame} {e : ProtoError}

lemma key_append (k : PublicKey) (rest : Bytes) : key (k.toList ++ rest) = .ok k := by
  have htake : (k.toList ++ rest).take KEY_LEN = k.toList :=
    List.take_left' (length_val k)
  rw [key, htake]
  have hofBytes : ofBytes? KEY_LEN k.toList = some k := ofBytes?_toList k
  rw [hofBytes]

lemma beU32_beBytes (v : UInt32) : beU32 (beBytes 4 v.toNat) = .ok v := by
  have hlt := v.toNat_lt
  rw [beU32, if_neg (by simp), List.take_of_length_le (by simp), fromBe_beBytes]
  congr
  apply UInt32.toNat_inj.mp
  rw [UInt32.toNat_ofNat']
  omega

lemma length_body_le (h : f.Carried) : f.body.length ≤ MAX_PACKET_SIZE + KEY_LEN := by
  cases f with
  | sendPacket key payload | recvPacket key payload =>
    have hpayload : payload.length ≤ MAX_PACKET_SIZE := h
    simp only [body, List.length_append, length_val, KEY_LEN]
    omega
  | _ => simp [body, MAX_PACKET_SIZE, KEY_LEN]

lemma ofBody_body (h : f.Carried) : ofBody f.typeByte f.body = .ok f := by
  cases f with
  | clientInfo pubkey protocolVersion =>
    have hkey := key_append pubkey (beBytes 4 protocolVersion.toNat)
    have hdrop : (pubkey.toList ++ beBytes 4 protocolVersion.toNat).drop KEY_LEN =
        beBytes 4 protocolVersion.toNat := List.drop_left' (length_val pubkey)
    have hlen : (pubkey.toList ++ beBytes 4 protocolVersion.toNat).length = KEY_LEN + 4 := by
      simp [KEY_LEN]
    simp only [ofBody, typeByte, body, hkey, hdrop, hlen, beU32_beBytes]
    rfl
  | serverInfo protocolVersion =>
    simp only [ofBody, typeByte, body, beU32_beBytes, length_beBytes]
    rfl
  | sendPacket k payload | recvPacket k payload =>
    have hpayload : payload.length ≤ MAX_PACKET_SIZE := h
    have hdrop : (k.toList ++ payload).drop KEY_LEN = payload := List.drop_left' (length_val k)
    have hlen : ¬ (k.toList ++ payload).length < KEY_LEN := by simp [KEY_LEN]
    simp only [ofBody, typeByte, body, hdrop, key_append, if_neg hlen, if_neg (Nat.not_lt.mpr hpayload)]
    rfl
  | ping data | pong data =>
    simp only [ofBody, typeByte, body, length_val]
    rfl
  | peerGone pubkey =>
    have hkey := key_append pubkey []
    rw [List.append_nil] at hkey
    simp only [ofBody, typeByte, body, hkey, length_val]
    rfl
  | health => rfl
  | restarting => rfl

lemma length_encode (f : Frame) : f.encode.length = HEADER_LEN + f.body.length := by
  simp only [encode, List.cons_append, List.length_cons, List.length_append, length_beBytes,
    HEADER_LEN]
  omega

/-- What `decode` makes of a buffer with a complete header. -/
lemma decode_cons (ty : UInt8) {field : Bytes} (hfield : field.length = 4) (rest : Bytes) :
    decode (ty :: (field ++ rest)) =
      if fromBe field > MAX_PACKET_SIZE + KEY_LEN then .error (.tooLarge (fromBe field))
      else if rest.length < fromBe field then
        .error (.shortBuffer (HEADER_LEN + fromBe field) (HEADER_LEN + rest.length))
      else (ofBody ty (rest.take (fromBe field))).map fun frame =>
        (frame, HEADER_LEN + fromBe field) := by
  match field, hfield with
  | [b₁, b₂, b₃, b₄], _ =>
    have hlen : (ty :: b₁ :: b₂ :: b₃ :: b₄ :: rest).length = HEADER_LEN + rest.length := by
      simp only [List.length_cons, HEADER_LEN]
      omega
    simp only [List.cons_append, List.nil_append, decode, hlen, Nat.add_lt_add_iff_left]

/-- A buffer has no complete header, or one with a field of four bytes. -/
lemma header_cases (buf : Bytes) :
    buf.length < HEADER_LEN ∧ decode buf = .error (.shortBuffer HEADER_LEN buf.length) ∨
      ∃ ty field rest, field.length = 4 ∧ buf = ty :: (field ++ rest) := by
  match buf with
  | ty :: b₁ :: b₂ :: b₃ :: b₄ :: rest => exact .inr ⟨ty, [b₁, b₂, b₃, b₄], rest, rfl, rfl⟩
  | [] | [_] | [_, _] | [_, _, _] | [_, _, _, _] => exact .inl ⟨by simp [HEADER_LEN], rfl⟩

/-- What `decode` makes of the header of a frame and the bytes behind it. -/
lemma decode_header (h : f.Carried) (rest : Bytes) :
    decode (f.typeByte :: beBytes 4 f.body.length ++ rest) =
      if rest.length < f.body.length then
        .error (.shortBuffer (HEADER_LEN + f.body.length) (HEADER_LEN + rest.length))
      else (ofBody f.typeByte (rest.take f.body.length)).map fun frame =>
        (frame, HEADER_LEN + f.body.length) := by
  have hle := length_body_le h
  have hlen : fromBe (beBytes 4 f.body.length) = f.body.length := by
    rw [fromBe_beBytes]
    simp only [MAX_PACKET_SIZE, KEY_LEN] at hle
    omega
  rw [List.cons_append, decode_cons _ (length_beBytes ..), hlen, if_neg (Nat.not_lt.mpr hle)]

/-- An encoded frame is read back, whatever follows it. -/
lemma decode_encode_append (h : f.Carried) (rest : Bytes) :
    decode (f.encode ++ rest) = .ok (f, f.encode.length) := by
  have hassoc : f.encode ++ rest = f.typeByte :: beBytes 4 f.body.length ++ (f.body ++ rest) := by
    simp [encode]
  rw [hassoc, decode_header h, if_neg (by simp), List.take_left, ofBody_body h, length_encode]
  rfl

/-- A strict prefix of an encoded frame is too short. -/
lemma decode_incomplete (h : f.Carried) {p : Bytes} (hfront : p <+: f.encode) (hne : p ≠ f.encode) :
    ∃ need, decode p = .error (.shortBuffer need p.length) := by
  by_cases hheader : p.length < HEADER_LEN
  · rcases header_cases p with ⟨-, hshort⟩ | ⟨ty, field, rest, hfield, rfl⟩
    · exact ⟨_, hshort⟩
    · simp only [List.length_cons, List.length_append, HEADER_LEN] at hheader
      omega
  · -- the header is complete, so the rest of the prefix is a strict prefix of the body
    obtain ⟨back, hback⟩ := hfront
    have hlen : (f.typeByte :: beBytes 4 f.body.length).length = HEADER_LEN := by simp [HEADER_LEN]
    have hheader : f.typeByte :: beBytes 4 f.body.length <+: f.encode := ⟨f.body, rfl⟩
    obtain ⟨rest, rfl⟩ : f.typeByte :: beBytes 4 f.body.length <+: p := by
      refine List.prefix_of_prefix_length_le hheader ⟨back, hback⟩ ?_
      omega
    have hshort : rest.length < f.body.length := by
      have hback' : rest ++ back = f.body := by
        rw [encode, List.append_assoc] at hback
        exact List.append_cancel_left hback
      rw [← hback', List.length_append]
      have hpos : back ≠ [] := by
        rintro rfl
        rw [List.append_nil] at hback'
        exact hne (by rw [hback', encode])
      have := List.length_pos_iff.mpr hpos
      omega
    refine ⟨HEADER_LEN + f.body.length, ?_⟩
    rw [decode_header h, if_pos hshort, List.length_append, hlen]

/-! ## More bytes -/

/-- What is read from a body: a value with `Q`, or the body is wrong, which more bytes do not mend. -/
def Reads {α : Type} (x : Except ProtoError α) (Q : α → Prop) : Prop :=
  match x with
  | .ok a => Q a
  | .error e => e.isShort = false

lemma Reads.bind {α β : Type} {x : Except ProtoError α} {g : α → Except ProtoError β}
    {Q : α → Prop} {R : β → Prop} (hx : Reads x Q) (hg : ∀ a, Q a → Reads (g a) R) :
    Reads (x >>= g) R := by
  cases x with
  | ok a => exact hg a hx
  | error e => exact hx

lemma Reads.check {α : Type} {x : Except ProtoError α} {Q : α → Prop} {c : Prop} [Decidable c]
    (he : e.isShort = false) (hx : ¬ c → Reads x Q) : Reads (if c then .error e else x) Q := by
  split
  · exact he
  · next hc => exact hx hc

lemma key_reads (b : Bytes) : Reads (key b) fun k => k.toList ++ b.drop KEY_LEN = b := by
  unfold key
  split
  · next k hbytes =>
    have htake : b.take KEY_LEN = k.toList := ofBytes?_eq_some.mp hbytes
    exact (congrArg (· ++ b.drop KEY_LEN) htake).symm.trans (List.take_append_drop ..)
  · rfl

lemma beU32_reads {b : Bytes} (hlen : b.length = 4) :
    Reads (beU32 b) fun v => beBytes 4 v.toNat = b := by
  have hlt := fromBe_lt b
  rw [hlen] at hlt
  rw [beU32, if_neg (by omega), List.take_of_length_le (by omega)]
  change beBytes 4 (UInt32.ofNat _).toNat = b
  rw [UInt32.toNat_ofNat_of_lt' (by simpa using hlt), beBytes_fromBe hlen]

/-- A frame has the type and the body that it is read from, if the body is looked at. -/
lemma ofBody_reads (ty : UInt8) (body : Bytes) :
    Reads (ofBody ty body) fun f => f.typeByte = ty ∧ (f.body = body ∨ ty = 8 ∨ ty = 9) := by
  have hty : ∀ c : UInt8, ty.toNat = c.toNat → c = ty := fun c heq => UInt8.toNat_inj.mp heq.symm
  unfold ofBody
  split
  · next heq =>
    cases hty 1 heq
    refine .check rfl fun hlen => (key_reads body).bind fun k hk => ?_
    have hdrop : (body.drop KEY_LEN).length = 4 := by grind
    refine (beU32_reads hdrop).bind fun v hv => ⟨rfl, .inl ?_⟩
    rw [Frame.body, hv, hk]
  · next heq =>
    cases hty 2 heq
    refine .check rfl fun hlen => (beU32_reads (not_not.mp hlen)).bind fun v hv => ?_
    exact ⟨rfl, .inl hv⟩
  · next heq =>
    cases hty 3 heq
    exact .check rfl fun _ => .check rfl fun _ => (key_reads body).bind fun k hk => ⟨rfl, .inl hk⟩
  · next heq =>
    cases hty 4 heq
    exact .check rfl fun _ => .check rfl fun _ => (key_reads body).bind fun k hk => ⟨rfl, .inl hk⟩
  · next heq =>
    cases hty 5 heq
    split
    · exact ⟨rfl, .inl rfl⟩
    · rfl
  · next heq =>
    cases hty 6 heq
    split
    · exact ⟨rfl, .inl rfl⟩
    · rfl
  · next heq =>
    cases hty 7 heq
    refine .check rfl fun hlen => (key_reads body).bind fun k hk => ⟨rfl, .inl ?_⟩
    grind [Frame.body]
  · next heq => exact ⟨hty 8 heq, .inr (.inl (hty 8 heq).symm)⟩
  · next heq => exact ⟨hty 9 heq, .inr (.inr (hty 9 heq).symm)⟩
  · rfl

variable {buf : Bytes}

lemma decode_eq_short (h : decode buf = .error e) (hshort : e.isShort = true) :
    buf.length < maxFrame := by
  rcases header_cases buf with ⟨hlen, -⟩ | ⟨ty, field, rest, hfield, rfl⟩
  · exact Nat.lt_of_lt_of_le hlen (Nat.le_add_right ..)
  rw [decode_cons _ hfield] at h
  split at h
  · cases h
    cases hshort
  next hlen =>
  split at h
  · simp only [maxFrame, HEADER_LEN, List.length_cons, List.length_append]
    omega
  have hreads := ofBody_reads ty (rest.take (fromBe field))
  cases hbody : ofBody ty (rest.take (fromBe field)) with
  | error e' =>
    rw [hbody] at h hreads
    cases h
    cases hshort.symm.trans hreads
  | ok f =>
    rw [hbody] at h
    cases h

/-- The parts of a frame that is complete. -/
lemma decode_parts {n : Nat} (h : decode buf = .ok (f, n)) :
    ∃ ty field rest, field.length = 4 ∧ buf = ty :: (field ++ rest) ∧
      n = HEADER_LEN + fromBe field ∧ fromBe field ≤ rest.length ∧
      ofBody ty (rest.take (fromBe field)) = .ok f := by
  rcases header_cases buf with ⟨-, hshort⟩ | ⟨ty, field, rest, hfield, rfl⟩
  · cases h.symm.trans hshort
  rw [decode_cons _ hfield] at h
  split at h
  · cases h
  split at h
  · cases h
  next hrest =>
  cases hbody : ofBody ty (rest.take (fromBe field)) with
  | error e =>
    rw [hbody] at h
    cases h
  | ok f =>
    rw [hbody] at h
    cases h
    exact ⟨ty, field, rest, hfield, rfl, rfl, Nat.not_lt.mp hrest, hbody⟩

/-- Bytes behind a frame that is not too short do not matter. -/
lemma decode_append {r : Except ProtoError (Frame × Nat)} (h : decode buf = r)
    (hr : ∀ e, r = .error e → e.isShort = false) (more : Bytes) : decode (buf ++ more) = r := by
  rcases header_cases buf with ⟨-, hshort⟩ | ⟨ty, field, rest, hfield, rfl⟩
  · cases hr _ (h.symm.trans hshort)
  rw [List.cons_append, List.append_assoc, decode_cons _ hfield]
  rw [decode_cons _ hfield] at h
  split at h
  · next hlen => rw [if_pos hlen, h]
  next hlen =>
  split at h
  · cases hr _ h.symm
  next hrest =>
  have hle : fromBe field ≤ rest.length := Nat.not_lt.mp hrest
  rw [if_neg hlen, if_neg (by simp only [List.length_append]; omega),
    List.take_append_of_le_length hle, h]

/-- A frame that is complete takes some bytes of the buffer, and what follows does not matter. -/
lemma decode_eq_ok {n : Nat} (h : decode buf = .ok (f, n)) (more : Bytes) :
    0 < n ∧ n ≤ buf.length ∧ decode (buf ++ more) = .ok (f, n) := by
  refine ⟨?_, ?_, decode_append h nofun more⟩ <;>
    obtain ⟨ty, field, rest, hfield, rfl, rfl, hle, -⟩ := decode_parts h
  · simp only [HEADER_LEN]
    omega
  · simp only [HEADER_LEN, List.length_cons, List.length_append]
    omega

/-- A frame that is rejected stays so. -/
lemma decode_rejected (h : decode buf = .error e) (hshort : e.isShort = false) (more : Bytes) :
    decode (buf ++ more) = .error e := by
  refine decode_append h ?_ more
  rintro _ ⟨⟩
  exact hshort

/-! ## One encoding -/

/-- A frame without a body has none on the wire. -/
def Bare (buf : Bytes) : Prop :=
  buf.head? = some 8 ∨ buf.head? = some 9 → fromBe (slice buf 1 HEADER_LEN) = 0

/-- The bytes of a frame are its encoding exactly if a frame without a body comes without one. Two
such buffers with the same frame have the same bytes of it. -/
theorem encode_eq_consumed_iff (buf : Bytes) (f : Frame) (n : Nat) (h : decode buf = .ok (f, n)) :
    (f.encode = buf.take n ↔ Bare buf) ∧
      ∀ buf' n', decode buf' = .ok (f, n') → Bare buf → Bare buf' → buf'.take n' = buf.take n := by
  have hiff : ∀ {buf : Bytes} {n : Nat}, decode buf = .ok (f, n) →
      (f.encode = buf.take n ↔ Bare buf) := by
    intro buf n h
    obtain ⟨ty, field, rest, hfield, rfl, rfl, hle, hbody⟩ := decode_parts h
    have hreads := ofBody_reads ty (rest.take (fromBe field))
    rw [hbody] at hreads
    obtain ⟨htype, hf⟩ := hreads
    have htake : (ty :: (field ++ rest)).take (HEADER_LEN + fromBe field) =
        ty :: (field ++ rest.take (fromBe field)) := by
      grind [HEADER_LEN]
    have hslice : slice (ty :: (field ++ rest)) 1 HEADER_LEN = field := by
      simp [slice, HEADER_LEN, ← hfield]
    have hbytes : beBytes 4 (fromBe field) = field := beBytes_fromBe hfield
    rw [htake, Bare, hslice, encode, htype]
    by_cases hnone : ty = 8 ∨ ty = 9
    · have hnil : f.body = [] := by
        subst htype
        cases f <;> simp_all [typeByte, Frame.body]
      constructor
      · intro heq _
        have hlen := congrArg List.length heq
        simp only [hnil, List.cons_append, List.length_cons, List.length_append, length_beBytes,
          List.length_nil, List.length_take] at hlen
        omega
      · intro hzero
        have hzero : fromBe field = 0 := hzero (by simpa using hnone)
        rw [hzero] at hbytes
        simp [hnil, hzero, hbytes]
    · have hfull : f.body = rest.take (fromBe field) := by tauto
      have hlen : f.body.length = fromBe field := by grind
      refine iff_of_true ?_ (by grind)
      rw [hlen, hbytes, hfull, List.cons_append]
  refine ⟨hiff h, fun buf' n' h' hbare hbare' => ?_⟩
  rw [← (hiff h).mpr hbare, ← (hiff h').mpr hbare']

theorem encode_eq_consumed_iff_health :
    health.encode = [8, 0, 0, 0, 0, 7].take 5 ∧ decode [8, 0, 0, 0, 0, 7] = .ok (health, 5) := by
  have hdecode : decode [8, 0, 0, 0, 0, 7] = .ok (health, 5) := by decide +kernel
  exact ⟨(encode_eq_consumed_iff _ health 5 hdecode).1.mpr fun _ => rfl, hdecode⟩

/-- A byte behind the header of a frame without a body is read over. -/
theorem two_encodings_of_health :
    decode [8, 0, 0, 0, 1, 7] = .ok (health, 6) ∧ health.encode ≠ [8, 0, 0, 0, 1, 7].take 6 ∧
      decode [8, 0, 0, 0, 0] = .ok (health, 5) := by
  decide +kernel

end

end Frame

end Fluxpeer.Relay
