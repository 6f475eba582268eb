import Fluxpeer.Lib.Run
import Fluxpeer.Net.Prefix
import Fluxpeer.Tunnel.Handshake
import Mathlib.Logic.Function.Basic

/-!
# The tunnel

`Noise` is a point-to-point connection: the handshake in progress, a ring of the eight most
recent sessions, the index `current` of the session it sends on, and the index `next` of a
responder session that waits for its first data packet.

`step` is one call on a tunnel, and a run is a sequence of calls. What a single call can change
is said once for each call, in the `_cases` lemmas; the results on whole runs start from them.
-/

namespace Fluxpeer.Tunnel

open Lib Crypto Net

def nSessions : Nat := 8

def maxQueueDepth : Nat := 256

inductive NoiseResult
  | done
  | writeToNetwork (packet : Bytes)
  | writeToTunnel (packet : Bytes) (src : IpAddr)
deriving DecidableEq

/-- The ring slot of a session index. -/
def slot (index : Nat) : Fin nSessions := ⟨index % nSessions, Nat.mod_lt _ (by decide)⟩

structure Noise (P : Primitives) where
  handshake : Handshake P
  sessions : Fin nSessions → Option Session
  current : Nat
  next : Option Nat
  packetQueue : List Bytes
  verifier : Verifier

namespace Noise

variable {P : Primitives} {p : HandshakeResponse} {n : Noise P} {now : Nat} {session : Session}
  {h : Handshake P}

def new (P : Primitives) (staticPrivate peerStaticPublic : Key) (presharedKey : Option Key)
    (index : UInt32) (verifier : Option Verifier) (clock : Clock) : Noise P where
  handshake := .new P staticPrivate peerStaticPublic (index <<< 8) presharedKey clock
  sessions := fun _ => none
  current := 0
  next := none
  packetQueue := []
  verifier := verifier.getD (.new P (P.publicKey staticPrivate))

def setSession (n : Noise P) (i : Fin nSessions) (s : Session) : Noise P :=
  { n with sessions := Function.update n.sessions i (some s) }

/-- Push a packet to the back of the queue, unless too many are there already. -/
def queuePacket (n : Noise P) (packet : Bytes) : Noise P :=
  if n.packetQueue.length < maxQueueDepth then
    { n with packetQueue := n.packetQueue ++ [packet] }
  else n

def formatHandshakeInitiation (n : Noise P) (dst : Bytes) (ephemeral : Option Key) (now : Nat) :
    Noise P × Except Error NoiseResult :=
  let (h, result) := n.handshake.formatHandshakeInitiation dst ephemeral now
  ({ n with handshake := h }, result.map .writeToNetwork)

/-- Encapsulate a single packet from the tunnel interface. -/
def encapsulate (n : Noise P) (src dst : Bytes) (draw : Session.PaddingDraw)
    (ephemeral : Option Key) (now : Nat) : Option (Noise P × Except Error NoiseResult) :=
  match n.sessions (slot n.current) with
  | some session => do
    let (session, result) ← session.formatPacketData P src dst draw
    some (n.setSession (slot n.current) session, result.map .writeToNetwork)
  | none => some ((n.queuePacket src).formatHandshakeInitiation dst ephemeral now)

def handleHandshakeInit (n : Noise P) (p : HandshakeInit) (dst : Bytes) (ephemeral : Option Key) :
    Noise P × Except Error NoiseResult :=
  let (h, result) := n.handshake.receiveHandshakeInitialization p dst ephemeral
  let n := { n with handshake := h }
  match result with
  | .error e => (n, .error e)
  | .ok (packet, session) =>
    let index := session.localIndex
    ({ n.setSession (slot index) session with next := some index }, .ok (.writeToNetwork packet))

/-- The distance of two indices in the wrapping eight-bit counter they share. -/
def distance (index current : Nat) : UInt8 := UInt8.ofNat index - UInt8.ofNat current

/-- The session of `current` is in its ring slot. -/
def currentLive (n : Noise P) : Bool :=
  match n.sessions (slot n.current) with
  | some session => session.localIndex == n.current
  | none => false

def handleHandshakeResponse (n : Noise P) (p : HandshakeResponse) (now : Nat) :
    Noise P × Except Error NoiseResult :=
  let (h, result) := n.handshake.receiveHandshakeResponse p now
  let n := { n with handshake := h }
  match result with
  | .error e => (n, .error e)
  | .ok session =>
    let index := session.localIndex
    let n := n.setSession (slot index) session
    -- A delayed response must not roll sending back, unless the session in use is gone.
    let adopt := !n.currentLive ||
      (distance index n.current != 0 && distance index n.current < 128)
    (if adopt then { n with current := index, next := none } else n, .ok .done)

/-! ## Data -/

def ipv4MinHeaderSize : Nat := 20

def ipv6MinHeaderSize : Nat := 40

/-- Truncate an IP packet to the length its header gives; an empty packet is a keepalive. -/
def validateDecapsulatedPacket (packet : Bytes) : Except Error NoiseResult :=
  match packet with
  | [] => .ok .done
  | first :: _ => do
    let (computedLen, src) ←
      if first >>> 4 = 4 ∧ packet.length ≥ ipv4MinHeaderSize then
        match Block.ofBytes? 4 (slice packet 12 16) with
        | none => .error .invalidPacket
        | some octets => .ok (fromBe (slice packet 2 4), IpAddr.v4 octets)
      else if first >>> 4 = 6 ∧ packet.length ≥ ipv6MinHeaderSize then
        match Block.ofBytes? 16 (slice packet 8 24) with
        | none => .error .invalidPacket
        | some octets => .ok (fromBe (slice packet 4 6) + ipv6MinHeaderSize, IpAddr.v6 octets)
      else .error .invalidPacket
    if computedLen > packet.length then .error .invalidPacket
    else .ok (.writeToTunnel (packet.take computedLen) src)

/-- `handle_data` with a destination of `dstLen` bytes. -/
def handleData (n : Noise P) (packet : PacketData) (dstLen : Nat) :
    Option (Noise P × Except Error NoiseResult) :=
  let index := packet.receiverIdx.toNat
  match n.sessions (slot index) with
  | none => some (n, .error .noCurrentSession)
  | some session => do
    let (session, result) ← session.receivePacketData P packet dstLen
    let n := n.setSession (slot index) session
    match result with
    | .error e => some (n, .error e)
    | .ok payload =>
      -- Only confirmation of the pending responder session advances sending.
      let n := if n.next = some index then { n with current := index, next := none } else n
      some (n, validateDecapsulatedPacket payload)

def handleVerifiedPacket (n : Noise P) (packet : Packet) (dst : Bytes) (ephemeral : Option Key)
    (now : Nat) : Option (Noise P × Except Error NoiseResult) :=
  match packet with
  | .handshakeInit p => some (n.handleHandshakeInit p dst ephemeral)
  | .handshakeResponse p => some (n.handleHandshakeResponse p now)
  | .packetData p => n.handleData p dst.length

def decapsulate (n : Noise P) (datagram dst : Bytes) (ephemeral : Option Key) (now : Nat) :
    Option (Noise P × Except Error NoiseResult) :=
  match n.verifier.verifyPacket P datagram with
  | .error e => some (n, .error e)
  | .ok packet => n.handleVerifiedPacket packet dst ephemeral now

/-! ## Runs -/

/-- One call on a tunnel, with the clock reading and the random bytes it gets. A received packet
stands for any datagram that parses to it. -/
inductive Event
  | initiate (dst : Bytes) (ephemeral : Option Key) (now : Nat)
  | encapsulate (src dst : Bytes) (draw : Session.PaddingDraw) (ephemeral : Option Key) (now : Nat)
  | receive (packet : Packet) (dst : Bytes) (ephemeral : Option Key) (now : Nat)

def step (n : Noise P) : Event → Option (Noise P × Except Error NoiseResult)
  | .initiate dst ephemeral now => some (n.formatHandshakeInitiation dst ephemeral now)
  | .encapsulate src dst draw ephemeral now => n.encapsulate src dst draw ephemeral now
  | .receive packet dst ephemeral now => n.handleVerifiedPacket packet dst ephemeral now

def next? (n : Noise P) (e : Event) : Option (Noise P) := (n.step e).map Prod.fst

def run (n : Noise P) (events : List Event) : Option (Noise P) := runFrom next? n events

/-! ## The session in use -/

/-- The session that the next call of `encapsulate` seals with. -/
def sealing (n : Noise P) : Option Session := n.sessions (slot n.current)

lemma encapsulate_of_sealing (h : n.sealing = some session) (src dst : Bytes)
    (draw : Session.PaddingDraw) (ephemeral : Option Key) (now : Nat) :
    n.encapsulate src dst draw ephemeral now =
      (session.formatPacketData P src dst draw).map fun (session, result) =>
        (n.setSession (slot n.current) session, result.map .writeToNetwork) := by
  unfold encapsulate
  rw [show n.sessions (slot n.current) = some session from h]
  dsimp only
  cases session.formatPacketData P src dst draw <;> rfl

lemma currentLive_iff :
    n.currentLive = true ↔ ∃ session, n.sealing = some session ∧ session.localIndex = n.current := by
  unfold currentLive sealing
  cases n.sessions (slot n.current) with
  | none => simp
  | some session => simp

lemma slot_eq_iff {a b : Nat} : slot a = slot b ↔ a % 8 = b % 8 := by
  simp [slot, nSessions]

lemma toNat_distance (index current : Nat) :
    (distance index current).toNat = (index % 256 + 256 - current % 256) % 256 := by
  simp [distance, UInt8.toNat_sub]
  omega

/-! ## Responses -/

/-- Whether a response that installs a session under `index` moves `current` there, read off the
state before the response. -/
def adopts (n : Noise P) (index : Nat) : Bool :=
  if slot index = slot n.current then index != n.current
  else !n.currentLive || distance index n.current < 128

/-- The tunnel after a response that installed `session`. -/
def install (n : Noise P) (h : Handshake P) (session : Session) : Noise P where
  handshake := h
  sessions := Function.update n.sessions (slot session.localIndex) (some session)
  current := if n.adopts session.localIndex then session.localIndex else n.current
  next := if n.adopts session.localIndex then none else n.next
  packetQueue := n.packetQueue
  verifier := n.verifier

lemma handleHandshakeResponse_error {e : Error}
    (hcall : n.handshake.receiveHandshakeResponse p now = (h, .error e)) :
    n.handleHandshakeResponse p now = (n, .error e) := by
  have hsame : h = n.handshake := by
    rcases Handshake.receiveHandshakeResponse_cases hcall with ⟨hh, _⟩ | ⟨_, _, _, _, _, hok, _⟩
    · exact hh
    · cases hok
  simp [handleHandshakeResponse, hcall, hsame]

lemma distance_ne_zero {index current : Nat} (h : slot index ≠ slot current) :
    distance index current ≠ 0 := by
  intro hzero
  have hnat := toNat_distance index current
  rw [hzero] at hnat
  rw [Ne, slot_eq_iff] at h
  simp at hnat
  omega

/-- The test of the code, made after the session was stored, decides `adopts`. -/
lemma adopt_eq (n : Noise P) (h : Handshake P) (session : Session) :
    (!(({ n with handshake := h } : Noise P).setSession (slot session.localIndex)
        session).currentLive ||
      (distance session.localIndex n.current != 0 && distance session.localIndex n.current < 128)) =
    n.adopts session.localIndex := by
  unfold adopts currentLive setSession
  by_cases hslot : slot session.localIndex = slot n.current
  · simp only [hslot, Function.update_self, if_true]
    by_cases hindex : session.localIndex = n.current
    · simp [hindex, distance]
    · have hbeq : (session.localIndex == n.current) = false := beq_eq_false_iff_ne.mpr hindex
      simp [bne, hbeq]
  · have hne := distance_ne_zero hslot
    simp only [Function.update_of_ne (Ne.symm hslot), if_neg hslot, bne_iff_ne.mpr hne,
      Bool.true_and]

lemma handleHandshakeResponse_ok
    (hcall : n.handshake.receiveHandshakeResponse p now = (h, .ok session)) :
    n.handleHandshakeResponse p now = (n.install h session, .ok .done) := by
  have hadopt := adopt_eq n h session
  unfold handleHandshakeResponse
  simp only [hcall]
  rw [show (({ n with handshake := h } : Noise P).setSession (slot session.localIndex)
    session).current = n.current from rfl, hadopt]
  unfold install setSession
  cases n.adopts session.localIndex <;> rfl

/-- A response is refused without a trace, or installs a session under the index it answers. -/
lemma handleHandshakeResponse_cases {n n' : Noise P} {result : Except Error NoiseResult}
    (hcall : n.handleHandshakeResponse p now = (n', result)) :
    (n' = n ∧ ∃ e, result = .error e) ∨
    ∃ h session, n.handshake.receiveHandshakeResponse p now = (h, .ok session) ∧
      session.receivingIndex = p.receiverIdx ∧ n' = n.install h session ∧ result = .ok .done := by
  cases hreceive : n.handshake.receiveHandshakeResponse p now with
  | mk h received =>
    cases received with
    | error e =>
      rw [handleHandshakeResponse_error hreceive] at hcall
      cases hcall
      exact Or.inl ⟨rfl, e, rfl⟩
    | ok session =>
      rw [handleHandshakeResponse_ok hreceive] at hcall
      cases hcall
      refine Or.inr ⟨h, session, rfl, ?_, rfl, rfl⟩
      rcases Handshake.receiveHandshakeResponse_cases hreceive with
        ⟨_, e, he⟩ | ⟨_, _, _, _, _, hok, hidx, _⟩
      · cases he
      · cases hok
        exact hidx

lemma install_sealing_iff (n : Noise P) (h : Handshake P) (session : Session) :
    (n.install h session).sealing = some session ↔
      ¬ (n.currentLive = true ∧ slot session.localIndex ≠ slot n.current ∧
        ¬ distance session.localIndex n.current < 128) := by
  unfold sealing install adopts
  by_cases hsame : slot session.localIndex = slot n.current
  · -- The new session took the slot in use.
    simp only [hsame, if_true, ne_eq, not_true, false_and, and_false, not_false_iff, iff_true]
    split
    · rw [hsame, Function.update_self]
    · exact Function.update_self ..
  · simp only [hsame, if_false, ne_eq, not_false_iff, true_and]
    cases hlive : n.currentLive with
    | false => simp
    | true =>
      obtain ⟨old, hold, hindex⟩ := currentLive_iff.mp hlive
      by_cases hd : distance session.localIndex n.current < 128
      · simp [hd]
      have hne : old ≠ session := by
        rintro rfl
        exact hsame (by rw [hindex])
      have hslot : n.sessions (slot n.current) = some old := hold
      simp [hd, Function.update_of_ne (Ne.symm hsame), hslot, hne]

/-- After an accepted response the tunnel seals with the session it installed, unless the session
in use is still in another slot and the new index is at least half the counter ahead of it. -/
theorem handleHandshakeResponse_sealing_iff (n : Noise P) (p : HandshakeResponse) (now : Nat)
    (hok : (n.handleHandshakeResponse p now).2 = .ok .done) :
    ∃ session, session.receivingIndex = p.receiverIdx ∧
      (n.handleHandshakeResponse p now).1.sessions (slot p.receiverIdx.toNat) = some session ∧
      ((n.handleHandshakeResponse p now).1.sealing = some session ↔
        ¬ (n.currentLive = true ∧ p.receiverIdx.toNat % 8 ≠ n.current % 8 ∧
          128 ≤ (p.receiverIdx.toNat % 256 + 256 - n.current % 256) % 256)) := by
  cases hcall : n.handleHandshakeResponse p now with | mk n' result =>
  rw [hcall] at hok
  obtain ⟨-, e, rfl⟩ | ⟨h, session, -, hindex, rfl, -⟩ := handleHandshakeResponse_cases hcall
  · cases hok
  have hlocal : session.localIndex = p.receiverIdx.toNat := by rw [Session.localIndex, hindex]
  have hbig : ¬ distance session.localIndex n.current < 128 ↔
      128 ≤ (p.receiverIdx.toNat % 256 + 256 - n.current % 256) % 256 := by
    rw [UInt8.lt_iff_toNat_lt, toNat_distance, Nat.not_lt, hlocal]
    rfl
  refine ⟨session, hindex, ?_, ?_⟩
  · rw [← hlocal]
    exact Function.update_self ..
  · rw [install_sealing_iff, hbig, Ne, slot_eq_iff, hlocal]

/-! ## A concrete pair of tunnels -/

/-- The packet in what a call wrote to the network. -/
def written (result : Option (Noise P × Except Error NoiseResult)) : Option Packet :=
  match result with
  | some (_, .ok (.writeToNetwork bytes)) => (parseIncomingPacket bytes).toOption
  | _ => none

def sampleInitiator : Noise Primitives.transparent :=
  .new _ (Primitives.xorKey [1] []) (Primitives.xorKey [2] []) none 1 none ⟨some 0, 0⟩

def sampleResponder : Noise Primitives.transparent :=
  .new _ (Primitives.xorKey [2] []) (Primitives.xorKey [1] []) none 2 none ⟨some 0, 0⟩

/-- An initiation at a given time. -/
def sampleInitiate (now : Nat) : Event :=
  .initiate (List.replicate 148 0) (some (Primitives.xorKey [3] [])) now

/-- The reception of a packet, with a response formatted if it asks for one. -/
def sampleReceive (packet : Packet) : Event :=
  .receive packet (List.replicate 148 0) (some (Primitives.xorKey [4] [])) 0

/-- What the responder answers to the initiation that `n` formats at a given time. -/
def sampleAnswer (n : Noise Primitives.transparent) (now : Nat) : Option HandshakeResponse :=
  match written (n.step (sampleInitiate now)) with
  | none => none
  | some init =>
    match written (sampleResponder.step (sampleReceive init)) with
    | some (.handshakeResponse p) => some p
    | _ => none

/-- One completed handshake and then 128 initiations that nobody answers. -/
def unansweredEvents : List Event :=
  match sampleAnswer sampleInitiator 0 with
  | none => []
  | some p => [sampleInitiate 0, sampleReceive (.handshakeResponse p)] ++
      List.replicate 128 (sampleInitiate 1)

/-- The response to the initiation in `state` is accepted, but the tunnel goes on sealing with the
session of the first handshake. -/
theorem handleHandshakeResponse_half_counter_ahead :
    (do
      let n ← sampleInitiator.run unansweredEvents
      let p ← sampleAnswer n 1
      let n ← n.run [sampleInitiate 1]
      let (n', result) := n.handleHandshakeResponse p 0
      some ((n.handshake.state.sentAs p.receiverIdx).isSome, result, p.receiverIdx, n'.current,
        decide (n'.sealing = n'.sessions (slot p.receiverIdx.toNat)))) =
    some (true, .ok .done, 386, 257, false) := by
  decide +kernel

def sampleWaiting : Noise Primitives.transparent :=
  (sampleInitiator.formatHandshakeInitiation (List.replicate 148 0)
    (some (Primitives.xorKey [3] [])) 0).1

def sampleResponse : HandshakeResponse := (sampleAnswer sampleInitiator 0).get (by decide +kernel)

theorem handleHandshakeResponse_sealing_iff_first :
    (sampleWaiting.handleHandshakeResponse sampleResponse 0).2 = .ok .done ∧
    ∃ session, session.receivingIndex = sampleResponse.receiverIdx ∧
      (sampleWaiting.handleHandshakeResponse sampleResponse 0).1.sessions
        (slot sampleResponse.receiverIdx.toNat) = some session ∧
      ((sampleWaiting.handleHandshakeResponse sampleResponse 0).1.sealing = some session ↔
        ¬ (sampleWaiting.currentLive = true ∧
          sampleResponse.receiverIdx.toNat % 8 ≠ sampleWaiting.current % 8 ∧
          128 ≤ (sampleResponse.receiverIdx.toNat % 256 + 256 - sampleWaiting.current % 256) %
            256)) :=
  have hok : (sampleWaiting.handleHandshakeResponse sampleResponse 0).2 = .ok .done := by
    decide +kernel
  ⟨hok, handleHandshakeResponse_sealing_iff sampleWaiting sampleResponse 0 hok⟩

end Noise

end Fluxpeer.Tunnel
