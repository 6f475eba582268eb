import Fluxpeer.Node.Changes
import Fluxpeer.Node.RouteTable

/-!
# Delivery to the tunnel interface

What a peer sends reaches the tunnel interface only after three checks in three places: the
tunnel truncates the plaintext to the length in its header, the address reader asks for a whole
header, and the route table for an owner of the source. The header is at the front of what is
left after the truncation whenever the second check passes, so the length that was cut to is the
one that the delivered packet states.
-/

namespace Fluxpeer.Tunnel

open Lib Crypto

namespace Noise

variable {P : Primitives} {n n' : Noise P} {payload packet : Bytes} {src : Net.IpAddr}

/-- The length that the header of a packet states for its version. -/
def statedLength (packet : Bytes) : Option Nat :=
  match packet with
  | [] => none
  | first :: _ =>
    if first >>> 4 = 4 then some (fromBe (slice packet 2 4))
    else if first >>> 4 = 6 then some (fromBe (slice packet 4 6) + ipv6MinHeaderSize)
    else none

/-- What is written to the tunnel is the front of the plaintext, of the length stated there. -/
lemma validateDecapsulatedPacket_write
    (h : validateDecapsulatedPacket payload = .ok (.writeToTunnel packet src)) :
    ∃ len ≤ payload.length, statedLength payload = some len ∧ packet = payload.take len := by
  cases payload with
  | nil => cases h
  | cons first rest =>
    simp only [validateDecapsulatedPacket, bind, Except.bind] at h
    unfold statedLength
    grind

lemma handleData_write {p : PacketData} {dstLen : Nat}
    (h : n.handleData p dstLen = some (n', .ok (.writeToTunnel packet src))) :
    ∃ session session' payload, n.sessions (slot p.receiverIdx.toNat) = some session ∧
      session.receivePacketData P p dstLen = some (session', .ok payload) ∧
      validateDecapsulatedPacket payload = .ok (.writeToTunnel packet src) := by
  unfold handleData at h
  dsimp only at h
  split at h
  · cases h
  next session hslot =>
  obtain ⟨⟨session', received⟩, hreceive, hrest⟩ := Option.bind_eq_some_iff.mp h
  cases received with
  | error e => cases hrest
  | ok payload =>
    simp only [Option.some.injEq, Prod.mk.injEq] at hrest
    exact ⟨session, session', payload, hslot, hreceive, hrest.2⟩

end Noise

/-- The plaintext that a tunnel gets from a datagram on one of its sessions. -/
def Cryptor.Decrypts {P : Primitives} (c : Cryptor P) (bytes : Bytes) (dstLen : Nat)
    (plaintext : Bytes) : Prop :=
  ∃ p session session', parseIncomingPacket bytes = .ok (.packetData p) ∧
    c.noise.sessions (slot p.receiverIdx.toNat) = some session ∧
    session.receivePacketData P p dstLen = some (session', .ok plaintext)

/-- A packet that is not a keepalive was written to the tunnel. -/
lemma Cryptor.onRecv_write {P : Primitives} {c c' : Cryptor P} {bytes dst packet : Bytes}
    {env : Ambient} (hhead : bytes.head? = some 4) (hne : packet ≠ [])
    (h : c.onRecv bytes dst env = some (c', .ok packet)) :
    ∃ payload src, c.Decrypts bytes dst.length payload ∧
      Noise.validateDecapsulatedPacket payload = .ok (.writeToTunnel packet src) := by
  unfold onRecv at h
  split at h
  · cases h
  next parsed hverify =>
  have hparse := verifyPacket_parse hverify
  obtain ⟨p, rfl⟩ := data_of_head hparse hhead
  obtain ⟨⟨n', result⟩, hdata, hrest⟩ := Option.map_eq_some_iff.mp h
  cases result with
  | error e => cases hrest
  | ok out =>
    rcases Noise.handleData_ok hdata with rfl | ⟨_, src, rfl⟩
    · cases hrest
      exact absurd rfl hne
    · cases hrest
      obtain ⟨session, session', payload, hslot, hreceive, hvalidate⟩ := Noise.handleData_write hdata
      exact ⟨payload, src, ⟨p, session, session', hparse, hslot, hreceive⟩, hvalidate⟩

end Fluxpeer.Tunnel

namespace Fluxpeer.Node

open Lib Crypto Net Tunnel Tunnel.Noise

/-- A packet with a whole header that states the packet's own length. -/
def WholePacket (packet : Bytes) : Prop :=
  statedLength packet = some packet.length ∧
    ∃ first, packet.head? = some first ∧
      (first >>> 4 = 4 ∧ packet.length ≥ ipv4MinHeaderSize ∨
        first >>> 4 = 6 ∧ packet.length ≥ ipv6MinHeaderSize)

/-- Only a packet with a whole header has an address. -/
lemma header_of_addressAt {off4 off6 : Nat} {packet : Bytes} {a : IpAddr}
    (h : addressAt off4 off6 packet = some a) :
    ∃ first, packet.head? = some first ∧
      (first >>> 4 = 4 ∧ packet.length ≥ ipv4MinHeaderSize ∨
        first >>> 4 = 6 ∧ packet.length ≥ ipv6MinHeaderSize) := by
  unfold addressAt at h
  split at h
  · cases h
  next first rest =>
  refine ⟨first, rfl, ?_⟩
  split at h
  · next h4 => exact .inl h4
  · split at h
    · next h6 => exact .inr h6
    · cases h

/-- A cut that leaves a whole header leaves what the header states. -/
lemma statedLength_take {payload : Bytes} {len : Nat} (hlen : 6 ≤ len) :
    statedLength (payload.take len) = statedLength payload := by
  cases payload with
  | nil => simp
  | cons first rest =>
    obtain ⟨m, rfl⟩ : ∃ m, len = m + 1 := ⟨len - 1, by omega⟩
    have hslice : ∀ lo hi, hi ≤ m + 1 →
        slice (first :: rest.take m) lo hi = slice (first :: rest) lo hi := by
      intro lo hi hhi
      rw [← List.take_succ_cons, slice, slice, List.drop_take, List.take_take]
      congr 1
      omega
    simp only [List.take_succ_cons, statedLength]
    rw [hslice 2 4 (by omega), hslice 4 6 (by omega)]

lemma wholePacket_of_srcAddress {payload packet : Bytes} {src a : IpAddr}
    (hwrite : validateDecapsulatedPacket payload = .ok (.writeToTunnel packet src))
    (hsrc : srcAddress packet = some a) : packet <+: payload ∧ WholePacket packet := by
  obtain ⟨len, hle, hstated, rfl⟩ := validateDecapsulatedPacket_write hwrite
  have hheader := header_of_addressAt hsrc
  have hlength : (payload.take len).length = len := List.length_take_of_le hle
  refine ⟨List.take_prefix len payload, ?_, hheader⟩
  rw [statedLength_take ?_, hstated, hlength]
  obtain ⟨first, _, ⟨_, h4⟩ | ⟨_, h6⟩⟩ := hheader
  · rw [hlength] at h4
    exact le_trans (by decide) h4
  · rw [hlength] at h6
    exact le_trans (by decide) h6

namespace Shard

variable {P : Primitives} {cfg : Config P} {env : Env} {draw : Draw} {s s' : Shard P}
  {peer : Peer P} {pk : Key} {bytes pkt : Bytes} {src : Option SocketAddr} {via : Via}
  {out : List Output} {result : Option Bytes}

lemma tun_notMem_sendToPeer {resp : Bytes} : .tun pkt ∉ sendToPeer cfg env peer resp := by
  unfold sendToPeer
  grind

/-- The handler itself writes nothing to the tunnel interface; what it returns for it was decrypted
by the peer's tunnel. -/
lemma handleWg_result
    (h : s.handleWg cfg env draw peer bytes src via = some (s', out, result)) :
    (∀ pkt, .tun pkt ∉ out) ∧
      ∀ pkt, result = some pkt → ∃ c payload source, peer.raw.data = some c ∧
        c.Decrypts bytes 2048 payload ∧
        validateDecapsulatedPacket payload = .ok (.writeToTunnel pkt source) := by
  unfold handleWg at h
  split at h
  · split at h
    · cases h
      exact ⟨by simp, by simp⟩
    dsimp only at h
    split at h
    · cases h
    cases h
    refine ⟨?_, by simp⟩
    intro pkt hmem
    rcases List.mem_cons.mp hmem with hmark | hsent
    · cases hmark
    · split at hsent
      · exact tun_notMem_sendToPeer hsent
      · cases hsent
  · split at h
    · next hdata =>
      split at h
      · cases h
      · cases h
        exact ⟨by simp, by simp⟩
      next raw packet hcall =>
      cases h
      refine ⟨by simp, ?_⟩
      intro pkt hpkt
      rcases RawCryptor.drive?_cases hcall with ⟨-, -, _, ⟨⟩⟩ | ⟨c, c', hraw, hcall', rfl⟩
      have hne : packet ≠ [] ∧ packet = pkt := by
        cases packet with
        | nil => cases hpkt
        | cons b rest =>
          cases hpkt
          exact ⟨by simp, rfl⟩
      obtain ⟨hne, rfl⟩ := hne
      obtain ⟨payload, source, hdecrypts, hwrite⟩ := Cryptor.onRecv_write hdata hne hcall'
      rw [Block.length_val] at hdecrypts
      exact ⟨c, payload, source, hraw, hdecrypts, hwrite⟩
    · cases h
      exact ⟨by simp, by simp⟩

/-- The packets among some outputs that go to the tunnel interface. -/
def tunPackets (out : List Output) : List Bytes :=
  out.filterMap fun
    | .tun packet => some packet
    | _ => none

lemma mem_tunPackets : pkt ∈ tunPackets out ↔ .tun pkt ∈ out := by
  simp only [tunPackets, List.mem_filterMap]
  constructor
  · rintro ⟨o, hmem, heq⟩
    cases o <;> cases heq
    exact hmem
  · intro h
    exact ⟨_, h, rfl⟩

/-- Under the route table in force, at most one packet of a datagram reaches the tunnel interface:
the front of what the peer's tunnel decrypted, a whole packet, whose source the peer owns. -/
theorem deliverWg_authorised (table : RouteTable) (henv : env.acceptsSource = table.acceptsSource)
    (h : s.deliverWg cfg env pk bytes src via = some (s', out)) :
    (tunPackets out).length ≤ 1 ∧
      ∀ pkt ∈ tunPackets out, ∃ peer c plaintext a, s.findPeer pk = some peer ∧
        peer.pubkey = pk ∧ peer.raw.data = some c ∧ c.Decrypts bytes 2048 plaintext ∧
        pkt <+: plaintext ∧ WholePacket pkt ∧ srcAddress pkt = some a ∧
        Owns table.Claimed a pk := by
  unfold deliverWg at h
  split at h
  · cases h
    simp [tunPackets]
  next peer found =>
  obtain ⟨⟨s₁, sent, result⟩, hhandle, hrest⟩ := Option.bind_eq_some_iff.mp h
  obtain ⟨hsent, hresult⟩ := handleWg_result hhandle
  have hnone : tunPackets sent = [] :=
    List.eq_nil_iff_forall_not_mem.mpr fun pkt hmem => hsent pkt (mem_tunPackets.mp hmem)
  cases hrest
  rw [tunPackets, List.filterMap_append, ← tunPackets, hnone, List.nil_append]
  cases result with
  | none => simp
  | some packet =>
    dsimp only
    split
    · next haccepts =>
      refine ⟨by simp, ?_⟩
      rintro pkt hmem
      obtain rfl : pkt = packet := by simpa using hmem
      obtain ⟨c, payload, source, hraw, hdecrypts, hwrite⟩ := hresult pkt rfl
      rw [henv, RouteTable.acceptsSource_iff] at haccepts
      obtain ⟨a, hsrc, hfind⟩ := haccepts
      obtain ⟨hfront, hwhole⟩ := wholePacket_of_srcAddress hwrite hsrc
      exact ⟨peer, c, payload, a, found, findPeer_pubkey found, hraw, hdecrypts, hfront, hwhole,
        hsrc, RouteTable.owns_iff.mpr hfind⟩
    · simp

/-- A peer with a session, in a shard of its own. -/
def sampleShard : Shard Primitives.transparent :=
  let noise := Noise.sampleInitiator.setSession (slot 257) Session.sampleSession
  let peer := (Peer.fresh DataPlane.sampleConfig DataPlane.samplePeer []).withRaw ⟨some ⟨noise⟩⟩
  ⟨[peer], ⟨.empty 0, ∅, ∅, 0⟩⟩

/-- A table that gives the peer every IPv4 address. -/
def sampleTable : RouteTable :=
  ⟨[⟨⟨.v4 (.replicate 4 0), 0, by decide, by decide⟩, DataPlane.samplePeer, 0⟩], ∅,
    List.pairwise_singleton _ _⟩

def sampleEnv : Env :=
  { (DataPlane.sampleEvent 0 .tick).env with acceptsSource := sampleTable.acceptsSource }

/-- An IPv4 header that states its own length. -/
def samplePacket : Bytes := [0x45, 0, 0, 20] ++ List.replicate 16 0

/-- The packet from the other end of the session, with a byte more than its header states. -/
def sampleDatagram : Bytes :=
  match Session.samplePeer.formatPacketData Primitives.transparent (samplePacket ++ [7])
      (List.replicate 128 0) ⟨some 0, none⟩ with
  | some (_, .ok bytes) => bytes
  | _ => []

theorem deliverWg_authorised_truncated :
    ∃ s' out, sampleShard.deliverWg DataPlane.sampleConfig sampleEnv DataPlane.samplePeer
        sampleDatagram none .relay = some (s', out) ∧
      tunPackets out = [samplePacket] ∧
      WholePacket samplePacket := by
  have hdeliver : (sampleShard.deliverWg DataPlane.sampleConfig sampleEnv DataPlane.samplePeer
      sampleDatagram none .relay).map (fun r => tunPackets r.2) = some [samplePacket] := by
    decide +kernel
  obtain ⟨⟨s', out⟩, hcall, hout⟩ := Option.map_eq_some_iff.mp hdeliver
  refine ⟨s', out, hcall, hout, ?_⟩
  obtain ⟨_, hall⟩ := deliverWg_authorised sampleTable rfl hcall
  obtain ⟨_, _, _, _, _, _, _, _, _, hwhole, _⟩ := hall samplePacket (by simp [hout])
  exact hwhole

end Shard

end Fluxpeer.Node
