import Fluxpeer.Tunnel.Cryptor
import Fluxpeer.Tunnel.Ring

/-!
# What calls leave alone

No call changes the keys of a tunnel or the space it draws its indices from, and most calls leave
the session in use where it is. A packet that a call writes names an index of that space, unless it
carries data.
-/

namespace Fluxpeer.Tunnel

open Lib Crypto Handshake Noise

namespace Handshake

variable {P : Primitives}

/-- The upper 24 bits of every index that is drawn. -/
def space (h : Handshake P) : Nat := h.nextIndex.toNat / 256

/-- The keys and the space of indices are the same. -/
structure SameBase (h h' : Handshake P) : Prop where
  params : h'.params = h.params
  space : h'.space = h.space

variable {h h' : Handshake P}

lemma succIndex_div (index : UInt32) : (succIndex index).toNat / 256 = index.toNat / 256 := by
  rw [toNat_succIndex]
  omega

lemma sameBase_initiation {dst : Bytes} {ephemeral : Option Key} {now : Nat}
    {result : Except Error Bytes}
    (hcall : h.formatHandshakeInitiation dst ephemeral now = (h', result)) : h.SameBase h' := by
  rcases formatHandshakeInitiation_cases hcall with ⟨rfl, -⟩ | ⟨rfl, -⟩ | ⟨_, _, -, -, rfl⟩
  · exact ⟨rfl, rfl⟩
  · exact ⟨rfl, succIndex_div _⟩
  · exact ⟨rfl, succIndex_div _⟩

lemma sameBase_initialization {p : HandshakeInit} {dst : Bytes} {ephemeral : Option Key}
    {result : Except Error (Bytes × Session)}
    (hcall : h.receiveHandshakeInitialization p dst ephemeral = (h', result)) :
    h.SameBase h' := by
  rcases receiveHandshakeInitialization_cases hcall with
    ⟨rfl, -⟩ | ⟨_, _, -, -, ⟨rfl, -⟩ | ⟨rfl, -⟩⟩
  · exact ⟨rfl, rfl⟩
  · exact ⟨rfl, rfl⟩
  · exact ⟨rfl, succIndex_div _⟩

lemma sameBase_response {p : HandshakeResponse} {now : Nat} {result : Except Error Session}
    (hcall : h.receiveHandshakeResponse p now = (h', result)) : h.SameBase h' := by
  rcases receiveHandshakeResponse_cases hcall with ⟨rfl, -⟩ | ⟨_, isPrevious, _, _, -, -, -, rfl⟩
  · exact ⟨rfl, rfl⟩
  · cases isPrevious <;> exact ⟨rfl, rfl⟩

end Handshake

namespace Noise

variable {P : Primitives} {n n' : Noise P}

def space (n : Noise P) : Nat := n.handshake.space

structure SameBase (n n' : Noise P) : Prop where
  handshake : n.handshake.SameBase n'.handshake
  verifier : n'.verifier = n.verifier

/-- What no call changes. -/
def base (n : Noise P) : NoiseParams P × Verifier × Nat :=
  (n.handshake.params, n.verifier, n.space)

lemma SameBase.base_eq (h : n.SameBase n') : n'.base = n.base := by
  rw [base, space, h.handshake.params, h.verifier, h.handshake.space]
  rfl

/-- The session in use stays where it is, and none comes into its place. -/
structure Still (n n' : Noise P) : Prop where
  base : n.SameBase n'
  current : n'.current = n.current
  live : n'.currentLive = true → n.currentLive = true

lemma Still.refl (n : Noise P) : n.Still n :=
  ⟨⟨⟨rfl, rfl⟩, rfl⟩, rfl, id⟩

/-- A call that changes no more than the handshake and the queue. -/
lemma still_of_sessions (hbase : n.handshake.SameBase n'.handshake)
    (hverifier : n'.verifier = n.verifier) (hcurrent : n'.current = n.current)
    (hsessions : n'.sessions = n.sessions) : n.Still n' where
  base := ⟨hbase, hverifier⟩
  current := hcurrent
  live := by
    unfold currentLive
    rw [hcurrent, hsessions]
    exact id

/-- A session may advance its counters. -/
lemma still_setSession {i : Fin nSessions} {session session' : Session}
    (hold : n.sessions i = some session) (hsame : session.SameKeys session') :
    n.Still (n.setSession i session') where
  base := ⟨⟨rfl, rfl⟩, rfl⟩
  current := rfl
  live := by
    intro hlive
    obtain ⟨found, hfound, hindex⟩ := currentLive_iff.mp hlive
    have hindex : found.localIndex = n.current := hindex
    rw [currentLive_iff]
    simp only [sealing, setSession, Function.update_apply] at hfound ⊢
    split at hfound
    · next hi =>
      cases hfound
      rw [hi, hold]
      exact ⟨session, rfl, by rw [← hindex, Session.localIndex, Session.localIndex, hsame.1]⟩
    · exact ⟨found, hfound, hindex⟩

lemma still_queuePacket (n : Noise P) (packet : Bytes) : n.Still (n.queuePacket packet) := by
  unfold queuePacket
  split
  · exact still_of_sessions ⟨rfl, rfl⟩ rfl rfl rfl
  · exact .refl n

variable {dst : Bytes} {ephemeral : Option Key} {result : Except Error NoiseResult}
  {draw : Session.PaddingDraw}

lemma still_encapsulate {src : Bytes} {now : Nat}
    (hcall : n.encapsulate src dst draw ephemeral now = some (n', result)) : n.Still n' := by
  rcases encapsulate_cases hcall with ⟨session, session', hold, hsame, rfl⟩ | ⟨-, h', r, hinit, rfl⟩
  · exact still_setSession hold hsame
  · have hqueue := still_queuePacket n src
    exact ⟨⟨sameBase_initiation hinit, hqueue.base.verifier⟩, hqueue.current, hqueue.live⟩

/-! ## Packets written -/

/-- What is written is data, or an initiation under an index of the space. -/
lemma encapsulate_written {src packet : Bytes} {now : Nat}
    (hcall : n.encapsulate src dst draw ephemeral now = some (n', .ok (.writeToNetwork packet))) :
    packet.head? = some 4 ∨
    ∃ p, parseIncomingPacket packet = .ok (.handshakeInit p) ∧
      p.senderIdx.toNat / 256 = n'.space := by
  unfold encapsulate at hcall
  split at hcall
  · next session _ =>
    obtain ⟨⟨session', written⟩, hformat, hrest⟩ := Option.bind_eq_some_iff.mp hcall
    simp only [Option.some.injEq, Prod.mk.injEq] at hrest
    obtain ⟨-, hwritten⟩ := hrest
    cases written with
    | error e => cases hwritten
    | ok bytes =>
      cases hwritten
      exact Or.inl (Session.formatPacketData_head hformat)
  · right
    simp only [formatHandshakeInitiation, Option.some.injEq, Prod.mk.injEq] at hcall
    obtain ⟨rfl, hwritten⟩ := hcall
    cases hformat : (n.queuePacket src).handshake.formatHandshakeInitiation dst ephemeral now with
    | mk h' written =>
      rw [hformat] at hwritten
      cases written with
      | error e => cases hwritten
      | ok bytes =>
        cases hwritten
        obtain ⟨p, hparse, hindex⟩ := formatHandshakeInitiation_parse hformat
        exact ⟨p, hparse, by rw [hindex]; rfl⟩

/-! ## Packets received -/

variable {p : PacketData} {dstLen : Nat}

/-- An INIT is refused with the session in use left alone, or answered under the next index. -/
lemma handleHandshakeInit_cases {p : HandshakeInit}
    (hcall : n.handleHandshakeInit p dst ephemeral = (n', result)) :
    (n.Still n' ∧ ∃ e, result = .error e) ∨
    (n.SameBase n' ∧ n'.current = n.current ∧
      n'.handshake.nextIndex = succIndex n.handshake.nextIndex ∧
      (n'.currentLive = true →
        n.currentLive = true ∨ n'.handshake.nextIndex.toNat = n.current) ∧
      ∃ resp q, result = .ok (.writeToNetwork resp) ∧
        parseIncomingPacket resp = .ok (.handshakeResponse q) ∧
        q.senderIdx = n'.handshake.nextIndex) := by
  unfold handleHandshakeInit at hcall
  cases hreceive : n.handshake.receiveHandshakeInitialization p dst ephemeral with | mk h' r =>
  have hbase := sameBase_initialization hreceive
  rw [hreceive] at hcall
  cases r with
  | error e =>
    cases hcall
    exact Or.inl ⟨still_of_sessions hbase rfl rfl rfl, e, rfl⟩
  | ok answer =>
    obtain ⟨resp, session⟩ := answer
    obtain ⟨q, hparse, hindex⟩ := receiveHandshakeInitialization_parse hreceive
    cases hcall
    rcases receiveHandshakeInitialization_cases hreceive with
      ⟨-, _, ⟨⟩⟩ | ⟨_, _, -, -, ⟨-, _, ⟨⟩⟩ | ⟨rfl, ⟨_, ⟨⟩⟩ | ⟨_, receiver, sender, hok⟩⟩⟩
    cases hok
    refine Or.inr ⟨⟨hbase, rfl⟩, rfl, rfl, ?_, resp, q, rfl, hparse, hindex⟩
    intro hlive
    obtain ⟨found, hfound, hcurrent⟩ := currentLive_iff.mp hlive
    simp only [sealing, setSession, Function.update_apply] at hfound
    split at hfound
    · cases hfound
      exact Or.inr hcurrent
    · exact Or.inl (currentLive_iff.mpr ⟨found, hfound, hcurrent⟩)

lemma sameBase_install {p : HandshakeResponse} {now : Nat} {h : Handshake P} {session : Session}
    (hcall : n.handshake.receiveHandshakeResponse p now = (h, .ok session)) :
    n.SameBase (n.install h session) :=
  ⟨sameBase_response hcall, rfl⟩

/-- A data packet that was accepted named a session of the tunnel; it moves sending only to the
session that waited for it, whatever becomes of the payload. -/
lemma handleData_still (hcall : n.handleData p dstLen = some (n', result)) :
    (n.Still n' ∧ (result.isOk = true → n.next ≠ some p.receiverIdx.toNat ∧
      ∃ session, n.sessions (slot p.receiverIdx.toNat) = some session ∧
        session.receivingIndex = p.receiverIdx)) ∨
    (n.SameBase n' ∧ n.next = some p.receiverIdx.toNat ∧ n'.current = p.receiverIdx.toNat ∧
      ∃ session session' payload, n.sessions (slot p.receiverIdx.toNat) = some session ∧
        session.receivingIndex = p.receiverIdx ∧
        session.receivePacketData P p dstLen = some (session', .ok payload) ∧
        result = validateDecapsulatedPacket payload) := by
  unfold handleData at hcall
  dsimp only at hcall
  split at hcall
  · cases hcall
    exact Or.inl ⟨.refl n, by rintro ⟨⟩⟩
  next session hslot =>
  obtain ⟨⟨session', received⟩, hreceive, hrest⟩ := Option.bind_eq_some_iff.mp hcall
  have hcases := Session.receivePacketData_cases hreceive
  have hsame : session.SameKeys session' := by
    rcases hcases with ⟨rfl, -⟩ | ⟨hsame, -⟩
    · exact ⟨rfl, rfl, rfl, rfl⟩
    · exact hsame
  have hstill := still_setSession hslot hsame
  cases received with
  | error e =>
    cases hrest
    exact Or.inl ⟨hstill, by rintro ⟨⟩⟩
  | ok payload =>
    have hindex : session.receivingIndex = p.receiverIdx := by
      rcases hcases with ⟨-, e, ⟨⟩⟩ | ⟨-, hindex, -⟩
      exact hindex.symm
    simp only [Option.some.injEq, Prod.mk.injEq] at hrest
    obtain ⟨rfl, rfl⟩ := hrest
    split
    · next hnext =>
      exact Or.inr ⟨⟨⟨rfl, rfl⟩, rfl⟩, hnext, rfl, session, session', payload, hslot, hindex,
        hreceive, rfl⟩
    · next hnext => exact Or.inl ⟨hstill, fun _ => ⟨hnext, session, hslot, hindex⟩⟩

lemma sameBase_init {p : HandshakeInit}
    (hcall : n.handleHandshakeInit p dst ephemeral = (n', result)) : n.SameBase n' := by
  rcases handleHandshakeInit_cases hcall with ⟨hstill, -⟩ | ⟨hsame, -⟩
  · exact hstill.base
  · exact hsame

lemma sameBase_data (hcall : n.handleData p dstLen = some (n', result)) : n.SameBase n' := by
  rcases handleData_still hcall with ⟨hstill, -⟩ | ⟨hsame, -⟩
  · exact hstill.base
  · exact hsame

lemma validateDecapsulatedPacket_ok {payload : Bytes} {r : NoiseResult}
    (hok : validateDecapsulatedPacket payload = .ok r) :
    r = .done ∨ ∃ packet src, r = .writeToTunnel packet src := by
  cases payload with
  | nil =>
    cases hok
    exact Or.inl rfl
  | cons first rest =>
    simp only [validateDecapsulatedPacket, bind, Except.bind] at hok
    grind

/-- Nothing is written to the network for a data packet. -/
lemma handleData_ok {r : NoiseResult} (hcall : n.handleData p dstLen = some (n', .ok r)) :
    r = .done ∨ ∃ packet src, r = .writeToTunnel packet src := by
  unfold handleData at hcall
  dsimp only at hcall
  split at hcall
  · cases hcall
  obtain ⟨⟨session', received⟩, -, hrest⟩ := Option.bind_eq_some_iff.mp hcall
  cases received with
  | error e => cases hrest
  | ok payload =>
    simp only [Option.some.injEq, Prod.mk.injEq] at hrest
    exact validateDecapsulatedPacket_ok hrest.2

/-! ## New tunnels -/

/-- A tunnel that has not sent on any session yet. -/
structure Fresh (own pk : Key) (n : Noise P) : Prop where
  params : n.handshake.params = .new P own pk none
  verifier : n.verifier = .new P (P.publicKey own)
  current : n.current = 0
  idle : n.currentLive = false

lemma fresh_new (own pk : Key) (index : UInt32) (clock : Clock) :
    (new P own pk none index (some (.new P (P.publicKey own))) clock).Fresh own pk :=
  ⟨rfl, rfl, rfl, rfl⟩

lemma Fresh.of_still {own pk : Key} (h : n.Fresh own pk) (hstill : n.Still n') :
    n'.Fresh own pk where
  params := hstill.base.handshake.params.trans h.params
  verifier := hstill.base.verifier.trans h.verifier
  current := hstill.current.trans h.current
  idle := by
    rw [← Bool.not_eq_true]
    intro hlive
    have hold := h.idle
    rw [hstill.live hlive] at hold
    cases hold

/-- The first index of a space is not the one that sending starts from. -/
lemma succIndex_shiftLeft_ne_zero (index : UInt32) :
    (succIndex (index <<< 8)).toNat ≠ 0 := by
  have hlow : (index <<< 8).toNat % 256 = 0 := by
    simp [UInt32.toNat_shiftLeft, Nat.shiftLeft_eq]
  rw [toNat_succIndex]
  omega

end Noise

namespace Cryptor

variable {P : Primitives} {c c' : Cryptor P} {env : Ambient}

/-- An INIT on the wire under an index of the space of `n`. -/
def InitOf (n : Noise P) (packet : Bytes) : Prop :=
  ∃ p, parseIncomingPacket packet = .ok (.handshakeInit p) ∧ p.senderIdx.toNat / 256 = n.space

/-- A response on the wire under an index of the space of `n`. -/
def ResponseOf (n : Noise P) (packet : Bytes) : Prop :=
  ∃ q, parseIncomingPacket packet = .ok (.handshakeResponse q) ∧
    q.senderIdx.toNat / 256 = n.space

variable {dst : Bytes} {r : Except Error Bytes}

lemma rekeyInit_still (hcall : c.rekeyInit dst env = (c', r)) :
    c.noise.Still c'.noise ∧ ∀ packet, r = .ok packet → InitOf c'.noise packet := by
  unfold rekeyInit at hcall
  cases hformat : c.noise.handshake.formatHandshakeInitiation dst env.ephemeral env.now with
  | mk h' written =>
    rw [hformat] at hcall
    cases hcall
    refine ⟨still_of_sessions (sameBase_initiation hformat) rfl rfl rfl, ?_⟩
    rintro packet rfl
    obtain ⟨p, hparse, hindex⟩ := formatHandshakeInitiation_parse hformat
    exact ⟨p, hparse, by rw [hindex]; rfl⟩

variable {packet : Bytes}

lemma onSend_still (hcall : c.onSend packet dst env = some (c', r)) :
    c.noise.Still c'.noise ∧
      ∀ out, r = .ok out → out.head? = some 4 ∨ InitOf c'.noise out := by
  obtain ⟨⟨n', result⟩, hencapsulate, hrest⟩ := Option.map_eq_some_iff.mp hcall
  cases hrest
  refine ⟨still_encapsulate hencapsulate, ?_⟩
  intro out hout
  split at hout
  · cases hout
  · cases hout
    exact encapsulate_written hencapsulate
  · cases hout

lemma handleHandshakeResponse_cases {now : Nat} {r : Except Error Unit}
    (hcall : c.handleHandshakeResponse packet now = (c', r)) :
    (c' = c ∧ ∃ e, r = .error e) ∨
    ∃ p h session, parseIncomingPacket packet = .ok (.handshakeResponse p) ∧
      c.noise.handshake.receiveHandshakeResponse p now = (h, .ok session) ∧
      session.receivingIndex = p.receiverIdx ∧ c'.noise = c.noise.install h session ∧
      r = .ok () := by
  unfold handleHandshakeResponse at hcall
  split at hcall
  · cases hcall
    exact Or.inl ⟨rfl, _, rfl⟩
  · next p hparse =>
    cases hresponse : c.noise.handleHandshakeResponse p now with | mk n' result =>
    rw [hresponse] at hcall
    cases hcall
    rcases handleHandshakeResponse_cases hresponse with
      ⟨rfl, e, rfl⟩ | ⟨h, session, hreceive, hindex, rfl, rfl⟩
    · exact Or.inl ⟨rfl, e, rfl⟩
    · exact Or.inr ⟨p, h, session, hparse, hreceive, hindex, rfl, rfl⟩
  · cases hcall
    exact Or.inl ⟨rfl, _, rfl⟩

lemma verifyPacket_parse {v : Verifier} {src : Bytes} {packet : Packet}
    (h : v.verifyPacket P src = .ok packet) : parseIncomingPacket src = .ok packet := by
  unfold Verifier.verifyPacket at h
  cases hparse : parseIncomingPacket src with
  | error e => simp [hparse, bind, Except.bind] at h
  | ok parsed =>
    simp only [hparse, bind, Except.bind] at h
    split at h
    · exact h
    · split at h
      · exact h
      · cases h

/-- The first byte decides what a packet can be. -/
lemma data_of_head {src : Bytes} {packet : Packet} (hparse : parseIncomingPacket src = .ok packet)
    (hhead : src.head? = some 4) : ∃ p, packet = .packetData p := by
  rcases parseIncomingPacket_cases hparse with
    ⟨p, -, htype, hlen, -⟩ | ⟨p, -, htype, hlen, -⟩ | ⟨p, rfl, -⟩
  · rw [head?_eq_readU32 (by rw [hlen]; decide), htype] at hhead
    exact absurd hhead (by decide)
  · rw [head?_eq_readU32 (by rw [hlen]; decide), htype] at hhead
    exact absurd hhead (by decide)
  · exact ⟨p, rfl⟩

lemma init_of_head {src : Bytes} {packet : Packet} (hparse : parseIncomingPacket src = .ok packet)
    (hhead : src.head? = some 1) : ∃ p, packet = .handshakeInit p := by
  rcases parseIncomingPacket_cases hparse with
    ⟨p, rfl, -⟩ | ⟨p, -, htype, hlen, -⟩ | ⟨p, -, htype, hlen, -⟩
  · exact ⟨p, rfl⟩
  · rw [head?_eq_readU32 (by rw [hlen]; decide), htype] at hhead
    exact absurd hhead (by decide)
  · rw [head?_eq_readU32 (le_trans (by decide) hlen), htype] at hhead
    exact absurd hhead (by decide)

lemma onRecv_cases (hhead : packet.head? = some 4)
    (hcall : c.onRecv packet dst env = some (c', r)) :
    (c' = c ∧ ∃ e, r = .error e) ∨
    ∃ p result, parseIncomingPacket packet = .ok (.packetData p) ∧
      c.noise.handleData p dst.length = some (c'.noise, result) ∧ r.isOk = result.isOk := by
  unfold onRecv at hcall
  split at hcall
  · cases hcall
    exact Or.inl ⟨rfl, _, rfl⟩
  next parsed hverify =>
  have hparse := verifyPacket_parse hverify
  obtain ⟨p, rfl⟩ := data_of_head hparse hhead
  obtain ⟨⟨n', result⟩, hdata, hrest⟩ := Option.map_eq_some_iff.mp hcall
  cases hrest
  refine Or.inr ⟨p, result, hparse, hdata, ?_⟩
  cases result with
  | error e => rfl
  | ok out =>
    rcases handleData_ok hdata with rfl | ⟨_, _, rfl⟩ <;> rfl

lemma rekeyRespond_cases {r : Except Error (Option Bytes)} (hhead : packet.head? = some 1)
    (hcall : c.rekeyRespond packet dst env = some (c', r)) :
    (c' = c ∧ ∃ e, r = .error e) ∨
    ∃ p result, c.noise.verifier.verifyPacket P packet = .ok (.handshakeInit p) ∧
      c.noise.handleHandshakeInit p dst env.ephemeral = (c'.noise, result) ∧
      ((∃ e, result = .error e ∧ r = .error e) ∨
        ∃ resp, result = .ok (.writeToNetwork resp) ∧ r = .ok (some resp) ∧
          ResponseOf c'.noise resp) := by
  unfold rekeyRespond at hcall
  split at hcall
  · cases hcall
    exact Or.inl ⟨rfl, _, rfl⟩
  next parsed hverify =>
  obtain ⟨p, rfl⟩ := init_of_head (verifyPacket_parse hverify) hhead
  obtain ⟨⟨n', result⟩, hinit, hrest⟩ := Option.map_eq_some_iff.mp hcall
  simp only [handleVerifiedPacket, Option.some.injEq] at hinit
  cases hrest
  refine Or.inr ⟨p, result, hverify, hinit, ?_⟩
  rcases handleHandshakeInit_cases hinit with
    ⟨-, e, rfl⟩ | ⟨-, -, -, -, resp, q, rfl, hparse, hindex⟩
  · exact Or.inl ⟨e, rfl, rfl⟩
  · exact Or.inr ⟨resp, rfl, rfl, q, hparse, by rw [hindex]; rfl⟩

/-! ## New cryptors -/

lemma initHandshake_fresh {peerIndex peerIndex' : UInt32} {own pk : Key}
    (hcall : initHandshake P peerIndex own pk env = (peerIndex', .ok (c, packet))) :
    c.noise.Fresh own pk ∧ InitOf c.noise packet := by
  simp only [initHandshake, nextSessionBase, Prod.mk.injEq] at hcall
  obtain ⟨-, hok⟩ := hcall
  have hnew := fresh_new (P := P) own pk ((peerIndex &&& 0x00ffffff) <<< 8) env.clock
  generalize new P own pk none ((peerIndex &&& 0x00ffffff) <<< 8)
    (some (Verifier.new P (P.publicKey own))) env.clock = n at hok hnew
  cases hformat : n.handshake.formatHandshakeInitiation (List.replicate handshakeInitSz 0)
      env.ephemeral env.now with
  | mk h' written =>
    rw [hformat] at hok
    cases written with
    | error e => cases hok
    | ok bytes =>
      cases hok
      obtain ⟨p, hparse, hindex⟩ := formatHandshakeInitiation_parse hformat
      exact ⟨hnew.of_still
        (still_of_sessions (sameBase_initiation hformat) rfl rfl rfl),
        p, hparse, by rw [hindex]; rfl⟩

/-- A cryptor that an INIT created belongs to the peer that the INIT names. -/
lemma handleHandshake_fresh {peerIndex peerIndex' : UInt32} {own ownPub : Key}
    {resp : Option Bytes} (hown : ownPub = P.publicKey own)
    (hcall : handleHandshake P peerIndex own ownPub packet env = (peerIndex', .ok (c, resp))) :
    c.noise.Fresh own c.getPeerPublic ∧
      peekInitPubkey P own ownPub packet = some c.getPeerPublic ∧
      ∃ bytes, resp = some bytes ∧ ResponseOf c.noise bytes := by
  subst hown
  unfold handleHandshake at hcall
  dsimp only at hcall
  split at hcall
  · cases hcall
  · next p hverify =>
    split at hcall
    · cases hcall
    next pk hanon =>
    have hpeek : peekInitPubkey P own (P.publicKey own) packet = some pk := by
      simp only [peekInitPubkey, hverify, hanon]
      rfl
    simp only [nextSessionBase] at hcall
    generalize hbase : (peerIndex &&& 0x00ffffff) <<< 8 = base at hcall
    have hnew := fresh_new (P := P) own pk base env.clock
    have hzero := succIndex_shiftLeft_ne_zero base
    split at hcall
    · cases hcall
    · next n' bytes hinit =>
      cases hcall
      rcases handleHandshakeInit_cases hinit with
        ⟨-, _, ⟨⟩⟩ | ⟨hsame, hcurrent, hnext, hlive, resp, q, hok, hparse, hindex⟩
      cases hok
      have hfresh : n'.Fresh own pk := by
        refine ⟨hsame.handshake.params.trans hnew.params, hsame.verifier.trans hnew.verifier,
          hcurrent.trans hnew.current, ?_⟩
        rw [← Bool.not_eq_true]
        intro hlive'
        rcases hlive hlive' with hold | hidx
        · rw [hnew.idle] at hold
          cases hold
        · rw [hnext] at hidx
          exact hzero hidx
      have hpk : (Cryptor.mk n').getPeerPublic = pk := by
        rw [getPeerPublic, hfresh.params]
        rfl
      rw [hpk]
      exact ⟨hfresh, hpeek, bytes, rfl, q, hparse, by rw [hindex]; rfl⟩
    · next n' r hne hinit =>
      rcases handleHandshakeInit_cases hinit with
        ⟨-, _, ⟨⟩⟩ | ⟨-, -, -, -, resp, q, hok, -⟩
      cases hok
      exact absurd rfl (hne resp)
  · cases hcall

end Cryptor

namespace RawCryptor

variable {P : Primitives} {α : Type} {raw raw' : RawCryptor P} {r : Except Error α}

lemma initHandshake_cases {peerIndex peerIndex' : UInt32} {own pk : Key} {env : Ambient}
    {r : Except Error Bytes} (hnone : raw.data = none)
    (hcall : raw.initHandshake peerIndex own pk env = (peerIndex', raw', r)) :
    (raw' = raw ∧ ∃ e, r = .error e) ∨
    ∃ c packet, Cryptor.initHandshake P peerIndex own pk env = (peerIndex', .ok (c, packet)) ∧
      raw' = ⟨some c⟩ ∧ r = .ok packet := by
  simp only [initHandshake, hnone] at hcall
  split at hcall
  · cases hcall
    exact Or.inl ⟨rfl, _, rfl⟩
  · next hnew =>
    cases hcall
    exact Or.inr ⟨_, _, hnew, rfl, rfl⟩

lemma handleHandshake_cases {peerIndex peerIndex' : UInt32} {own ownPub : Key} {env : Ambient}
    {packet : Bytes} {r : Except Error (Option Bytes)}
    (hcall : (RawCryptor.new P).handleHandshake peerIndex own ownPub packet env =
      (peerIndex', raw', r)) :
    (raw' = .new P ∧ ∃ e, r = .error e) ∨
    ∃ c resp, Cryptor.handleHandshake P peerIndex own ownPub packet env =
        (peerIndex', .ok (c, resp)) ∧ raw' = ⟨some c⟩ ∧ r = .ok resp := by
  simp only [handleHandshake, RawCryptor.new] at hcall
  split at hcall
  · cases hcall
    exact Or.inl ⟨rfl, _, rfl⟩
  · next hnew =>
    cases hcall
    exact Or.inr ⟨_, _, hnew, rfl, rfl⟩

lemma drive_cases {call : Cryptor P → Cryptor P × Except Error α}
    (h : raw.drive call = (raw', r)) :
    (raw.data = none ∧ raw' = raw ∧ ∃ e, r = .error e) ∨
    ∃ c c', raw.data = some c ∧ call c = (c', r) ∧ raw' = ⟨some c'⟩ := by
  unfold drive at h
  split at h
  · next hnone =>
    cases h
    exact Or.inl ⟨hnone, rfl, _, rfl⟩
  · next c hsome =>
    cases h
    exact Or.inr ⟨c, _, hsome, rfl, rfl⟩

lemma drive?_cases {call : Cryptor P → Option (Cryptor P × Except Error α)}
    (h : raw.drive? call = some (raw', r)) :
    (raw.data = none ∧ raw' = raw ∧ ∃ e, r = .error e) ∨
    ∃ c c', raw.data = some c ∧ call c = some (c', r) ∧ raw' = ⟨some c'⟩ := by
  unfold drive? at h
  split at h
  · next hnone =>
    cases h
    exact Or.inl ⟨hnone, rfl, _, rfl⟩
  next c hsome =>
  obtain ⟨⟨c', r'⟩, hcall, hrest⟩ := Option.map_eq_some_iff.mp h
  cases hrest
  exact Or.inr ⟨c, c', hsome, hcall, rfl⟩

end RawCryptor

end Fluxpeer.Tunnel
