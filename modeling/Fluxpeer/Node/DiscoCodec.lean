import Fluxpeer.Node.Probes

/-!
# The disco codec

Encoding and decoding are inverse to each other: an encoded message is read back whatever follows
it, and what is accepted is the encoding of what is returned. The MAC of a datagram is therefore
over bytes that the message determines.

The decoder is given a second time with the indexing of the source. There `none` is the panic of
an index or a slice out of bounds.
-/

namespace Fluxpeer.Net

open Lib Block Disco

/-- The encoding says all there is to say about the address. -/
def SocketAddr.Plain : SocketAddr → Prop
  | .v4 .. => True
  | .v6 _ _ flowinfo scopeId => flowinfo = 0 ∧ scopeId = 0

instance : DecidablePred SocketAddr.Plain := fun
  | .v4 .. => .isTrue trivial
  | .v6 _ _ flowinfo scopeId => inferInstanceAs (Decidable (flowinfo = 0 ∧ scopeId = 0))

namespace Disco

/-- At most `maxCandidates` candidates, and plain addresses. -/
def Sendable : Disco → Prop
  | .ping .. => True
  | .pong _ observed => observed.Plain
  | .callMeMaybe candidates =>
    candidates.length ≤ maxCandidates ∧ ∀ c ∈ candidates, c.Plain

/-! ## Addresses -/

section Addresses

variable {a : SocketAddr} {b tail : Bytes} {n : Nat} {cs : List SocketAddr}

lemma port_toBytes (p : Block 2) :
    beBytes 2 (UInt16.ofNat (fromBe p.toList)).toNat = p.toList := by
  have hlt := fromBe_lt p.toList
  rw [length_val] at hlt
  rw [UInt16.toNat_ofNat', Nat.mod_eq_of_lt (show fromBe p.toList < 2 ^ 16 from hlt)]
  exact beBytes_fromBe (length_val p)

lemma port_ofBytes (port : UInt16) :
    UInt16.ofNat (fromBe (beBytes 2 port.toNat)) = port := by
  have hlt := port.toNat_lt
  apply UInt16.toNat_inj.mp
  rw [UInt16.toNat_ofNat', fromBe_beBytes]
  omega

/-- The length of an address on the wire. -/
lemma length_putAddr (a : SocketAddr) : 7 ≤ (putAddr a).length ∧ (putAddr a).length ≤ 19 := by
  cases a <;> simp [putAddr]

/-- An address and a port behind the family. -/
lemma read_pieces {k : Nat} (ip : Block k) (port : UInt16) (tail : Bytes) :
    ofBytes? k ((ip.toList ++ beBytes 2 port.toNat ++ tail).take k) = some ip ∧
    ∃ p, ofBytes? 2 (slice (ip.toList ++ beBytes 2 port.toNat ++ tail) k (k + 2)) = some p ∧
      UInt16.ofNat (fromBe p.toList) = port := by
  rw [List.append_assoc]
  obtain ⟨p, hp⟩ := exists_ofBytes? (length_beBytes 2 port.toNat)
  refine ⟨ofBytes?_take ip _, p, ?_, ?_⟩
  · rwa [slice_append _ _ _ _ _ (length_val ip) (by simp)]
  · rw [← ofBytes?_eq_some.mp hp, port_ofBytes]

lemma getAddr_putAddr (h : a.Plain) (tail : Bytes) :
    getAddr (putAddr a ++ tail) = .ok (a, (putAddr a).length) := by
  cases a with
  | v4 ip port =>
    obtain ⟨hip, p, hport, hback⟩ := read_pieces ip port tail
    simp only [putAddr, List.cons_append, getAddr, if_true, hip, hport, hback]
    simp
  | v6 ip port flowinfo scopeId =>
    obtain ⟨rfl, rfl⟩ := h
    obtain ⟨hip, p, hport, hback⟩ := read_pieces ip port tail
    have haf : afV6 ≠ afV4 := by decide
    simp only [putAddr, List.cons_append, getAddr, if_neg haf, if_true, hip, hport, hback]
    simp

lemma take_of_pieces {rest : Bytes} {k : Nat} {ip : Block k} {port : Block 2}
    (hip : ofBytes? k (rest.take k) = some ip)
    (hport : ofBytes? 2 (slice rest k (k + 2)) = some port) :
    rest.take (k + 2) = ip.toList ++ beBytes 2 (UInt16.ofNat (fromBe port.toList)).toNat ∧
      k + 2 ≤ rest.length := by
  have htake : rest.take (k + 2) = ip.toList ++ port.toList := by
    rw [List.take_add, ofBytes?_eq_some.mp hip, ← ofBytes?_eq_some.mp hport, slice,
      Nat.add_sub_cancel_left]
  have hlen := congrArg List.length htake
  rw [List.length_take, List.length_append, length_val, length_val] at hlen
  rw [port_toBytes]
  exact ⟨htake, by omega⟩

lemma putAddr_of_getAddr (h : getAddr b = .ok (a, n)) :
    putAddr a = b.take n ∧ n ≤ b.length ∧ a.Plain := by
  unfold getAddr at h
  split at h
  · cases h
  next af rest =>
  split at h
  · next haf =>
    split at h
    · next ip port hip hport =>
      cases h
      obtain ⟨htake, hlen⟩ := take_of_pieces hip hport
      refine ⟨?_, by simpa using hlen, trivial⟩
      rw [putAddr, List.take_succ_cons, htake, haf]
    · cases h
  split at h
  · next haf =>
    split at h
    · next ip port hip hport =>
      cases h
      obtain ⟨htake, hlen⟩ := take_of_pieces hip hport
      refine ⟨?_, by simpa using hlen, rfl, rfl⟩
      rw [putAddr, List.take_succ_cons, htake, haf]
    · cases h
  · cases h

/-! ## Candidates -/

lemma getAddrs_flatMap (h : ∀ c ∈ cs, c.Plain) (front tail : Bytes) :
    getAddrs (front ++ (cs.flatMap putAddr ++ tail)) cs.length front.length =
      .ok (cs, front.length + (cs.flatMap putAddr).length) := by
  induction cs generalizing front with
  | nil => rfl
  | cons c cs ih =>
    have hread : getAddr ((front ++ ((c :: cs).flatMap putAddr ++ tail)).drop front.length) =
        .ok (c, (putAddr c).length) := by
      rw [List.drop_left, List.flatMap_cons, List.append_assoc]
      exact getAddr_putAddr (h c List.mem_cons_self) _
    have hassoc : front ++ ((c :: cs).flatMap putAddr ++ tail) =
        (front ++ putAddr c) ++ (cs.flatMap putAddr ++ tail) := by
      simp
    have hrest := ih (fun c hc => h c (List.mem_cons_of_mem _ hc)) (front ++ putAddr c)
    rw [← hassoc, List.length_append] at hrest
    rw [List.length_cons, getAddrs, hread]
    simp only [bind, Except.bind]
    rw [hrest, List.flatMap_cons, List.length_append, Nat.add_assoc]

/-- What the loop over the candidates consumed is their encoding. -/
lemma flatMap_of_getAddrs {body : Bytes} {count off off' : Nat}
    (h : getAddrs body count off = .ok (cs, off')) (hoff : off ≤ body.length) :
    cs.length = count ∧ (∀ c ∈ cs, c.Plain) ∧ off' ≤ body.length ∧
      off' = off + (cs.flatMap putAddr).length ∧ cs.flatMap putAddr <+: body.drop off := by
  induction count generalizing off cs with
  | zero =>
    cases h
    simpa using hoff
  | succ count ih =>
    simp only [getAddrs, bind, Except.bind] at h
    split at h
    · cases h
    next entry hread =>
    obtain ⟨a, n⟩ := entry
    obtain ⟨hput, hn, hplain⟩ := putAddr_of_getAddr hread
    rw [List.length_drop] at hn
    split at h
    · cases h
    next more hrest =>
    obtain ⟨rest, off₁⟩ := more
    cases h
    obtain ⟨hlen, hplains, hle, hoff', back, hback⟩ := ih hrest (by omega)
    have hput_len : (putAddr a).length = n := by
      rw [hput, List.length_take, List.length_drop]
      omega
    refine ⟨by rw [List.length_cons, hlen], ?_, hle, ?_, back, ?_⟩
    · intro c hc
      rcases List.mem_cons.mp hc with rfl | hc
      · exact hplain
      · exact hplains c hc
    · rw [hoff', List.flatMap_cons, List.length_append, hput_len, Nat.add_assoc]
    · rw [List.flatMap_cons, List.append_assoc, hback, hput, ← List.drop_drop,
        List.take_append_drop]

end Addresses

/-! ## Messages -/

section Messages

variable {m : Disco} {body buf : Bytes} {ty : UInt8} {n : Nat}

lemma length_flatMap_putAddr_le (cs : List SocketAddr) :
    (cs.flatMap putAddr).length ≤ 19 * cs.length := by
  induction cs with
  | nil => simp
  | cons c cs ih =>
    have := (length_putAddr c).2
    simp only [List.flatMap_cons, List.length_append, List.length_cons]
    omega

lemma length_body_lt (h : m.Sendable) : m.body.length < 2 ^ 32 := by
  cases m with
  | ping txId sender => simp [body]
  | pong txId observed =>
    have := (length_putAddr observed).2
    simp only [body, List.length_append, length_val]
    omega
  | callMeMaybe candidates =>
    have hle : candidates.length ≤ maxCandidates := h.1
    have := length_flatMap_putAddr_le candidates
    simp only [body, List.length_append, length_beBytes, maxCandidates] at hle ⊢
    omega

lemma decodeBody_body (h : m.Sendable) : decodeBody m.typeByte m.body = .ok m := by
  have hid : ∀ (txId : TxId) tail, ofBytes? txidLen ((txId.toList ++ tail).take txidLen) =
      some txId := ofBytes?_take
  have hdrop : ∀ (txId : TxId) tail, (txId.toList ++ tail).drop txidLen = tail := drop_append
  cases m with
  | ping txId sender =>
    have hsender : ofBytes? keyLen sender.toList = some sender := ofBytes?_toList sender
    simp only [decodeBody, typeByte, body, if_true, hid, hdrop, hsender]
  | pong txId observed =>
    have hread := getAddr_putAddr h []
    rw [List.append_nil] at hread
    have hlen : txidLen + (putAddr observed).length = (txId.toList ++ putAddr observed).length := by
      simp [txidLen]
    have hty : ¬ (2 : UInt8) = 1 := by decide
    simp only [decodeBody, typeByte, body, if_neg hty, if_true, hdrop, hid, hread, bind,
      Except.bind, hlen, ne_eq, not_true_eq_false, if_false]
  | callMeMaybe candidates =>
    obtain ⟨hle, hplain⟩ := h
    have hsmall : candidates.length < 256 ^ 2 := Nat.lt_of_le_of_lt hle (by decide)
    obtain ⟨count, hcount⟩ := exists_ofBytes? (length_beBytes 2 candidates.length)
    have htake : (beBytes 2 candidates.length ++ candidates.flatMap putAddr).take 2 =
        beBytes 2 candidates.length := List.take_left' (length_beBytes 2 _)
    have hvalue : fromBe count.toList = candidates.length := by
      rw [← ofBytes?_eq_some.mp hcount, fromBe_beBytes, Nat.mod_eq_of_lt hsmall]
    have hread := getAddrs_flatMap hplain (beBytes 2 candidates.length) []
    rw [List.append_nil, length_beBytes] at hread
    have hlen : 2 + (candidates.flatMap putAddr).length =
        (beBytes 2 candidates.length ++ candidates.flatMap putAddr).length := by simp
    have hping : ¬ (3 : UInt8) = 1 := by decide
    have hpong : ¬ (3 : UInt8) = 2 := by decide
    simp only [decodeBody, typeByte, body, if_neg hping, if_neg hpong, if_true, htake, hcount,
      hvalue, hread, bind, Except.bind, hlen, if_neg (Nat.not_lt.mpr hle), ne_eq,
      not_true_eq_false, if_false]

lemma body_of_decodeBody (h : decodeBody ty body = .ok m) :
    ty = m.typeByte ∧ body = m.body ∧ m.Sendable := by
  unfold decodeBody at h
  split at h
  · next hty =>
    split at h
    · next txId sender hid hsender =>
      cases h
      refine ⟨hty, ?_, trivial⟩
      change body = txId.toList ++ sender.toList
      rw [← ofBytes?_eq_some.mp hid, ← ofBytes?_eq_some.mp hsender,
        List.take_append_drop]
    · cases h
  split at h
  · next hty =>
    split at h
    · cases h
    next txId hid =>
    simp only [bind, Except.bind] at h
    split at h
    · cases h
    next entry hread =>
    obtain ⟨observed, n⟩ := entry
    split at h
    · cases h
    next hlen =>
    cases h
    obtain ⟨hput, hn, hplain⟩ := putAddr_of_getAddr hread
    refine ⟨hty, ?_, hplain⟩
    have hall : (body.drop txidLen).length ≤ n := by rw [List.length_drop]; omega
    change body = txId.toList ++ putAddr observed
    rw [← ofBytes?_eq_some.mp hid, hput, List.take_of_length_le hall,
      List.take_append_drop]
  split at h
  · next hty =>
    split at h
    · cases h
    next countBytes hcount =>
    simp only [bind, Except.bind] at h
    split at h
    · cases h
    next hle =>
    split at h
    · cases h
    next entry hread =>
    obtain ⟨cs, off⟩ := entry
    split at h
    · cases h
    next hoff =>
    cases h
    have hcount := ofBytes?_eq_some.mp hcount
    have htwo : 2 ≤ body.length := by
      have := congrArg List.length hcount
      rw [List.length_take, length_val] at this
      omega
    obtain ⟨hlen, hplain, -, hend, back, hback⟩ := flatMap_of_getAddrs hread htwo
    have hnil : back = [] := by
      have := congrArg List.length hback
      rw [List.length_append, List.length_drop] at this
      exact List.length_eq_zero_iff.mp (by omega)
    have hbytes : beBytes 2 cs.length = body.take 2 := by
      rw [hlen, hcount]
      exact beBytes_fromBe (length_val countBytes)
    refine ⟨hty, ?_, ?_, hplain⟩
    · rw [Disco.body, hbytes]
      rw [hnil, List.append_nil] at hback
      rw [hback, List.take_append_drop]
    · rw [hlen]
      exact Nat.not_lt.mp hle
  · cases h

lemma length_encode (m : Disco) : m.encode.length = headerLen + m.body.length := by
  simp only [encode, List.length_cons, List.length_append, length_beBytes, headerLen]
  omega

/-- An encoded message is read back, whatever follows it. -/
lemma decode_encode_append (h : m.Sendable) (tail : Bytes) :
    decode (m.encode ++ tail) = .ok (m, m.encode.length) := by
  have hlt := length_body_lt h
  have htake : ((beBytes 4 m.body.length ++ m.body) ++ tail).take 4 = beBytes 4 m.body.length := by
    rw [List.append_assoc]
    exact List.take_left' (length_beBytes 4 _)
  have hlen : fromBe (beBytes 4 m.body.length) = m.body.length := by
    rw [fromBe_beBytes]
    exact Nat.mod_eq_of_lt hlt
  have hslice : slice (m.encode ++ tail) headerLen (headerLen + m.body.length) = m.body := by
    have hassoc : m.encode ++ tail =
        (m.typeByte :: beBytes 4 m.body.length) ++ (m.body ++ tail) := by simp [encode]
    rw [hassoc]
    exact slice_append _ _ _ _ _ (by simp [headerLen]) rfl
  have hcons : m.encode ++ tail =
      m.typeByte :: ((beBytes 4 m.body.length ++ m.body) ++ tail) := rfl
  have htotal : ¬ (m.encode ++ tail).length < headerLen + m.body.length := by
    rw [List.length_append, length_encode]
    omega
  have hheader : ¬ (m.encode ++ tail).length < headerLen := by
    rw [List.length_append, length_encode]
    omega
  rw [hcons] at htotal hheader hslice ⊢
  simp only [decode, if_neg hheader, htake, hlen, if_neg htotal, hslice, decodeBody_body h, bind,
    Except.bind, length_encode]

/-- What is accepted is the encoding of the message. -/
lemma encode_of_decode (h : decode buf = .ok (m, n)) :
    m.encode = buf.take n ∧ n ≤ buf.length ∧ m.Sendable := by
  unfold decode at h
  split at h
  · cases h
  next ty rest =>
  split at h
  · cases h
  next hheader =>
  simp only [bind, Except.bind] at h
  split at h
  · cases h
  next htotal =>
  split at h
  · cases h
  next m' hbody =>
  cases h
  obtain ⟨hty, hbytes, hsend⟩ := body_of_decodeBody hbody
  have hrest : 4 ≤ rest.length := by
    simp only [List.length_cons, headerLen] at hheader
    omega
  have hfour : (rest.take 4).length = 4 := by rw [List.length_take]; omega
  have hlen : m.body.length = fromBe (rest.take 4) := by
    rw [← hbytes, length_slice _ _ _ (Nat.not_lt.mp htotal)]
    omega
  refine ⟨?_, Nat.not_lt.mp htotal, hsend⟩
  rw [encode, hlen, beBytes_fromBe hfour, ← hty, ← hbytes]
  simp only [slice, headerLen, List.drop_succ_cons, Nat.add_sub_cancel_left]
  rw [show 5 + fromBe (rest.take 4) = (4 + fromBe (rest.take 4)) + 1 by omega,
    List.take_succ_cons, List.take_add]

end Messages

/-! ## Indexing -/

/-- A computation with the errors of the codec that may panic. -/
abbrev Indexed := ExceptT Error Option

/-- `b[i]` -/
def index (b : Bytes) (i : Nat) : Indexed UInt8 := ExceptT.lift b[i]?

/-- `&b[lo..hi]` -/
def range (b : Bytes) (lo hi : Nat) : Indexed Bytes := ExceptT.lift (slice? b lo hi)

/-- `copy_from_slice` into an array, which panics at another length. -/
def copied (n : Nat) (b : Bytes) : Indexed (Block n) := ExceptT.lift (Block.ofBytes? n b)

/-- `b.get(..need).ok_or(Malformed)` -/
def need (b : Bytes) (n : Nat) : Indexed Bytes :=
  if n ≤ b.length then pure (b.take n) else throw .malformed

def getAddrIndexed (b : Bytes) : Indexed (SocketAddr × Nat) :=
  match b.head? with
  | none => throw .malformed
  | some af =>
    if af = afV4 then do
      let s ← need b 7
      let ip : Block 4 := ⟨[← index s 1, ← index s 2, ← index s 3, ← index s 4], rfl⟩
      let port := UInt16.ofNat (fromBe [← index s 5, ← index s 6])
      pure (.v4 ip port, 7)
    else if af = afV6 then do
      let s ← need b 19
      let ip ← copied 16 (← range s 1 17)
      let port := UInt16.ofNat (fromBe [← index s 17, ← index s 18])
      pure (.v6 ip port 0 0, 19)
    else throw .malformed

def getAddrsIndexed (body : Bytes) : Nat → Nat → Indexed (List SocketAddr × Nat)
  | 0, off => pure ([], off)
  | count + 1, off => do
    let (a, n) ← getAddrIndexed (← range body off body.length)
    let (rest, off) ← getAddrsIndexed body count (off + n)
    pure (a :: rest, off)

def decodeBodyIndexed (ty : UInt8) (body : Bytes) : Indexed Disco :=
  if ty = 1 then
    if body.length ≠ txidLen + keyLen then throw .malformed
    else do
      let txId ← copied txidLen (← range body 0 txidLen)
      let sender ← copied keyLen (← range body txidLen body.length)
      pure (.ping txId sender)
  else if ty = 2 then
    if body.length < txidLen then throw .malformed
    else do
      let txId ← copied txidLen (← range body 0 txidLen)
      let (observed, n) ← getAddrIndexed (← range body txidLen body.length)
      if txidLen + n ≠ body.length then throw .malformed else pure (.pong txId observed)
  else if ty = 3 then
    match body[0]?, body[1]? with
    | some b₀, some b₁ => do
      let count := fromBe [b₀, b₁]
      if count > maxCandidates then throw (.tooManyCandidates count)
      else
        let (candidates, off) ← getAddrsIndexed body count 2
        if off ≠ body.length then throw .malformed else pure (.callMeMaybe candidates)
    | _, _ => throw .malformed
  else throw (.unknownType ty)

/-- `decode` with the indexing of the source. -/
def decodeIndexed (buf : Bytes) : Indexed (Disco × Nat) :=
  if buf.length < headerLen then throw (.shortBuffer headerLen buf.length)
  else do
    let ty ← index buf 0
    let len := fromBe [← index buf 1, ← index buf 2, ← index buf 3, ← index buf 4]
    let total := headerLen + len
    if buf.length < total then throw (.shortBuffer total buf.length)
    else
      let body ← range buf headerLen total
      let msg ← decodeBodyIndexed ty body
      pure (msg, total)

/-! ### In bounds -/

def Indexed.of {α : Type} (r : Except Error α) : Indexed α := some r

section InBounds

variable {α β : Type} {b body buf : Bytes}

@[simp] lemma Indexed.of_ok_bind (x : α) (f : α → Indexed β) :
    Indexed.of (.ok x) >>= f = f x := rfl

@[simp] lemma Indexed.of_error_bind (e : Error) (f : α → Indexed β) :
    Indexed.of (.error e) >>= f = .of (.error e) := rfl

@[simp] lemma Indexed.pure_eq (x : α) : (pure x : Indexed α) = .of (.ok x) := rfl

lemma index_eq {i : Nat} (h : i < b.length) : index b i = .of (.ok b[i]) := by
  rw [index, List.getElem?_eq_getElem h]
  rfl

lemma range_eq {lo hi : Nat} (hlo : lo ≤ hi) (hhi : hi ≤ b.length) :
    range b lo hi = .of (.ok (slice b lo hi)) := by
  rw [range, slice?_eq_some hlo hhi]
  rfl

lemma copied_eq {n : Nat} {x : Block n} (h : ofBytes? n b = some x) :
    copied n b = .of (.ok x) := by
  rw [copied, h]
  rfl

/-- `copy_from_slice` from the front. -/
lemma copied_front {n : Nat} (h : n ≤ b.length) :
    ∃ x, ofBytes? n (b.take n) = some x ∧ range b 0 n >>= copied n = .of (.ok x) := by
  obtain ⟨x, hx⟩ := exists_ofBytes? (n := n) (b := b.take n) (by simpa using h)
  refine ⟨x, hx, ?_⟩
  rw [range_eq (Nat.zero_le n) h, Indexed.of_ok_bind, slice, List.drop_zero]
  exact copied_eq hx

lemma range_drop {n : Nat} (h : n ≤ b.length) : range b n b.length = .of (.ok (b.drop n)) := by
  rw [range_eq h (Nat.le_refl _), slice, List.take_of_length_le (by rw [List.length_drop])]

lemma slice_two {k : Nat} (h : k + 2 ≤ b.length) :
    slice b k (k + 2) = [b[k], b[k + 1]] := by
  rw [slice, Nat.add_sub_cancel_left, List.drop_eq_getElem_cons (by omega), List.take_succ_cons,
    List.drop_eq_getElem_cons (by omega), List.take_succ_cons, List.take_zero]

lemma ofBytes?_two (x y : UInt8) : ofBytes? 2 [x, y] = some ⟨[x, y], rfl⟩ := rfl

lemma getAddrIndexed_eq (b : Bytes) : getAddrIndexed b = .of (getAddr b) := by
  cases b with
  | nil => rfl
  | cons af rest =>
    simp only [getAddrIndexed, getAddr, List.head?_cons]
    split
    · -- seven bytes or fewer are looked at one by one
      rcases rest with _ | ⟨a, _ | ⟨b, _ | ⟨c, _ | ⟨d, _ | ⟨e, _ | ⟨f, rest⟩⟩⟩⟩⟩⟩
      iterate 6 rfl
      rw [need, if_pos (by simp)]
      rfl
    · split
      · by_cases hlen : 18 ≤ rest.length
        · have hneed : need (af :: rest) 19 = .of (.ok (af :: rest.take 18)) := by
            rw [need, if_pos (by simpa using hlen), List.take_succ_cons]
            rfl
          have hs : (rest.take 18).length = 18 := by rw [List.length_take]; omega
          have hrange : slice (af :: rest.take 18) 1 17 = rest.take 16 := by
            simp [slice, List.take_take]
          obtain ⟨ip, hip⟩ := exists_ofBytes? (n := 16) (b := rest.take 16)
            (by rw [List.length_take]; omega)
          have hport := slice_two (b := rest) (k := 16) (by omega)
          rw [hneed, Indexed.of_ok_bind, range_eq (by decide) (by simp [hs]), Indexed.of_ok_bind,
            hrange, copied_eq hip, Indexed.of_ok_bind, index_eq (by simp [hs]), Indexed.of_ok_bind,
            index_eq (by simp [hs]), Indexed.of_ok_bind]
          simp only [hip, hport, ofBytes?_two]
          simp
        · have hneed : need (af :: rest) 19 = .of (.error .malformed) := by
            rw [need, if_neg (by simpa using hlen)]
            rfl
          have hport : ofBytes? 2 (slice rest 16 18) = none := by
            apply ofBytes?_eq_none
            simp only [slice, List.length_take, List.length_drop]
            omega
          rw [hneed, Indexed.of_error_bind, hport]
          cases ofBytes? 16 (rest.take 16) <;> rfl
      · rfl

lemma getAddrsIndexed_eq {count off : Nat} (h : off ≤ body.length) :
    getAddrsIndexed body count off = .of (getAddrs body count off) := by
  induction count generalizing off with
  | zero => rfl
  | succ count ih =>
    rw [getAddrsIndexed, getAddrs, range_drop h, Indexed.of_ok_bind, getAddrIndexed_eq]
    cases hread : getAddr (body.drop off) with
    | error e => rfl
    | ok entry =>
      obtain ⟨a, n⟩ := entry
      obtain ⟨-, hn, -⟩ := putAddr_of_getAddr hread
      rw [List.length_drop] at hn
      simp only [Indexed.of_ok_bind]
      rw [ih (by omega)]
      change _ = Indexed.of (getAddrs body count (off + n) >>= _)
      cases getAddrs body count (off + n) <;> rfl

lemma decodeBodyIndexed_eq (ty : UInt8) (body : Bytes) :
    decodeBodyIndexed ty body = .of (decodeBody ty body) := by
  unfold decodeBodyIndexed decodeBody
  split
  · split
    · next hlen =>
      have hnone : ofBytes? txidLen (body.take txidLen) = none ∨
          ofBytes? keyLen (body.drop txidLen) = none := by
        by_cases hshort : body.length < txidLen
        · exact .inl (ofBytes?_eq_none (by rw [List.length_take]; omega))
        · exact .inr (ofBytes?_eq_none (by rw [List.length_drop]; omega))
      rcases hnone with hnone | hnone <;> rw [hnone]
      · rfl
      · cases ofBytes? txidLen (body.take txidLen) <;> rfl
    next hlen =>
    have hlen : body.length = txidLen + keyLen := by simpa using hlen
    obtain ⟨txId, hid, hcopied⟩ := copied_front (n := txidLen) (b := body) (by omega)
    obtain ⟨sender, hsender⟩ := exists_ofBytes? (n := keyLen) (b := body.drop txidLen)
      (by rw [List.length_drop]; omega)
    rw [← bind_assoc, hcopied, Indexed.of_ok_bind, range_drop (by omega), Indexed.of_ok_bind,
      copied_eq hsender, Indexed.of_ok_bind, hid, hsender]
    rfl
  split
  · split
    · next hlen =>
      rw [ofBytes?_eq_none (by rw [List.length_take]; omega)]
      rfl
    next hlen =>
    obtain ⟨txId, hid, hcopied⟩ := copied_front (Nat.not_lt.mp hlen)
    rw [← bind_assoc, hcopied, Indexed.of_ok_bind, range_drop (Nat.not_lt.mp hlen),
      Indexed.of_ok_bind, getAddrIndexed_eq, hid]
    cases getAddr (body.drop txidLen) with
    | error e => rfl
    | ok entry =>
      rw [Indexed.of_ok_bind]
      simp only [bind, Except.bind]
      split <;> rfl
  split
  · match hbody : body with
    | [] | [_] => rfl
    | b₀ :: b₁ :: rest =>
      simp only [List.getElem?_cons_zero, List.getElem?_cons_succ, List.take_succ_cons,
        List.take_zero, ofBytes?_two]
      change (if fromBe [b₀, b₁] > maxCandidates then _ else _) =
        Indexed.of (if fromBe [b₀, b₁] > maxCandidates then _ else _)
      split
      · rfl
      rw [getAddrsIndexed_eq (by simp)]
      change _ = Indexed.of (getAddrs (b₀ :: b₁ :: rest) (fromBe [b₀, b₁]) 2 >>= _)
      cases getAddrs (b₀ :: b₁ :: rest) (fromBe [b₀, b₁]) 2 with
      | error e => rfl
      | ok entry =>
        rw [Indexed.of_ok_bind]
        simp only [bind, Except.bind]
        split <;> rfl
  · rfl

/-- No index and no slice of the decoder is out of bounds. -/
lemma decodeIndexed_eq (buf : Bytes) : decodeIndexed buf = .of (decode buf) := by
  unfold decodeIndexed decode
  match buf with
  | [] | [_] | [_, _] | [_, _, _] | [_, _, _, _] => rfl
  | ty :: b₁ :: b₂ :: b₃ :: b₄ :: rest =>
    have hheader : ¬ (ty :: b₁ :: b₂ :: b₃ :: b₄ :: rest).length < headerLen := by
      simp [headerLen]
    rw [if_neg hheader]
    simp only [if_neg hheader]
    change (if (ty :: b₁ :: b₂ :: b₃ :: b₄ :: rest).length <
      headerLen + fromBe (List.take 4 (b₁ :: b₂ :: b₃ :: b₄ :: rest)) then _ else _) = _
    split
    · rfl
    next htotal =>
    have htake : List.take 4 (b₁ :: b₂ :: b₃ :: b₄ :: rest) = [b₁, b₂, b₃, b₄] := rfl
    rw [htake] at htotal ⊢
    rw [range_eq (Nat.le_add_right _ _) (Nat.not_lt.mp htotal), Indexed.of_ok_bind,
      decodeBodyIndexed_eq]
    cases decodeBody ty _ <;> rfl

end InBounds

end Disco

end Fluxpeer.Net

namespace Fluxpeer.Node

open Lib Net

/-- Encoding and decoding are inverse to each other, the MAC is over the encoding of the message,
and the decoder stays within the buffer. -/
theorem disco_codec_exact :
    (∀ m : Disco, m.Sendable → ∀ tail,
      Disco.decode (m.encode ++ tail) = .ok (m, m.encode.length)) ∧
    (∀ buf m n, Disco.decode buf = .ok (m, n) → m.encode = buf.take n ∧ n ≤ buf.length) ∧
    (∀ P discoKey body m n, Disco.decode body = .ok (m, n) →
      (discoAuthed P discoKey (discoMagic ++ body) body n = true ↔
        slice body n (n + discoMacLen) = (discoMac P discoKey (discoDgram m)).toList)) ∧
    ∀ buf, Disco.decodeIndexed buf = some (Disco.decode buf) := by
  refine ⟨fun m h tail => Disco.decode_encode_append h tail, ?_, ?_, Disco.decodeIndexed_eq⟩
  · intro buf m n h
    obtain ⟨hencode, hn, -⟩ := Disco.encode_of_decode h
    exact ⟨hencode, hn⟩
  · intro P discoKey body m n h
    obtain ⟨hencode, hn, -⟩ := Disco.encode_of_decode h
    have hmacced : (discoMagic ++ body).take (discoMagic.length + n) = discoDgram m := by
      rw [List.take_length_add_append, ← hencode]
      rfl
    have htag : slice body n (n + discoMacLen) = (discoMac P discoKey (discoDgram m)).toList →
        n + discoMacLen ≤ body.length := by
      intro htag
      have := congrArg List.length htag
      rw [Block.length_val] at this
      simp only [slice, List.length_take, List.length_drop, discoMacLen] at this ⊢
      omega
    simp only [discoAuthed, hmacced, List.length_append, Nat.add_le_add_iff_left, hn,
      decide_true, Bool.and_true, Bool.and_eq_true, decide_eq_true_eq]
    exact ⟨And.right, fun h => ⟨htag h, h⟩⟩

def sampleCall : Disco :=
  .callMeMaybe [.v4 ⟨[192, 0, 2, 1], rfl⟩ 7, .v6 (.replicate 16 9) 8 0 0]

theorem disco_codec_exact_sampleCall :
    Disco.decode (sampleCall.encode ++ [1, 2]) = .ok (sampleCall, sampleCall.encode.length) ∧
      sampleCall.encode = (sampleCall.encode ++ [1, 2]).take sampleCall.encode.length := by
  have hread := disco_codec_exact.1 sampleCall ⟨by decide, by decide⟩ [1, 2]
  exact ⟨hread, (disco_codec_exact.2.1 _ _ _ hread).1⟩

end Fluxpeer.Node
