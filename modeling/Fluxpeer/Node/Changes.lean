import Fluxpeer.Node.Worker
import Fluxpeer.Tunnel.Calls

/-!
# What a message changes

Most of what a worker does for a peer is quiet: it leaves the cryptor alone, or makes a call that
leaves the session in use where it is, or registers an index that the cryptor drew. Three things
are not. A packet may be received on a cryptor; a cryptor may be built anew, with the peer added or
the peer's indices dropped; and a peer may be removed.

`handle_handled` says that a message leads to at most one packet received and one cryptor built or
dropped, with quiet changes around them. The results on runs of workers start from it.
-/

namespace Fluxpeer.Node

open Lib Crypto Net Tunnel Cryptor RawCryptor Relation Keyed Shard

variable {P : Primitives} {n : Noise P} {r : Except Error Bytes}

/-! ## Quiet changes to a peer -/

def Peer.noise (peer : Peer P) : Option (Noise P) := peer.raw.data.map Cryptor.noise

lemma Peer.noise_eq_some {peer : Peer P} : peer.noise = some n ↔ peer.raw.data = some ⟨n⟩ := by
  unfold Peer.noise
  cases peer.raw.data with
  | none => simp
  | some c =>
    obtain ⟨m⟩ := c
    simp

def Peer.withNoise (peer : Peer P) (n : Noise P) : Peer P := { peer with raw := ⟨some ⟨n⟩⟩ }

@[simp] lemma Peer.withNoise_pubkey (peer : Peer P) (n : Noise P) :
    (peer.withNoise n).pubkey = peer.pubkey := rfl

/-- Neither the key nor the cryptor changes, and a handshake is not forgotten. -/
structure Peer.Touched (peer peer' : Peer P) : Prop where
  pubkey : peer'.pubkey = peer.pubkey
  raw : peer'.raw = peer.raw
  handshaked : peer.handshaked = true → peer'.handshaked = true

structure Tables.SameIndices (t t' : Tables) : Prop where
  table : t'.table = t.table
  owner : t'.owner = t.owner

lemma Tables.SameIndices.refl (t : Tables) : t.SameIndices t := ⟨rfl, rfl⟩

inductive Quiet : Tables × Peer P → Tables × Peer P → Prop
  | touch {t t' : Tables} {peer peer' : Peer P} (indices : t.SameIndices t')
    (touched : peer.Touched peer') : Quiet (t, peer) (t', peer')
  | call {t : Tables} {peer : Peer P} {n n' : Noise P} (before : peer.noise = some n)
    (still : n.Still n') : Quiet (t, peer) (t, peer.withNoise n')
  | register {t : Tables} {peer : Peer P} {n : Noise P} {idx : UInt32}
    (before : peer.noise = some n) (mem : idx.toNat / 256 = n.space) :
    Quiet (t, peer) (t.insertIndex (some idx) peer.pubkey, peer)

abbrev Quietly : Tables × Peer P → Tables × Peer P → Prop := ReflTransGen Quiet

section Quiet

variable {t t' : Tables} {peer peer' : Peer P} {raw : RawCryptor P} {x y : Tables × Peer P}

lemma Quiet.pubkey (h : Quiet x y) : y.2.pubkey = x.2.pubkey := by
  cases h with
  | touch _ touched => exact touched.pubkey
  | call => rfl
  | register => rfl

lemma Quietly.pubkey (h : Quietly x y) : y.2.pubkey = x.2.pubkey := by
  induction h with
  | refl => rfl
  | tail _ hstep ih => exact hstep.pubkey.trans ih

lemma quietly_touch (indices : t.SameIndices t') (touched : peer.Touched peer') :
    Quietly (t, peer) (t', peer') :=
  .single (.touch indices touched)

/-- A call on the cryptor, if there is one. -/
lemma quietly_drive {α : Type} {call : Cryptor P → Cryptor P × Except Error α}
    {r : Except Error α} (hcall : peer.raw.drive call = (raw, r))
    (hstill : ∀ c c' r, call c = (c', r) → c.noise.Still c'.noise) :
    Quietly (t, peer) (t, (peer.withRaw raw)) := by
  rcases drive_cases hcall with ⟨-, rfl, -⟩ | ⟨c, c', hdata, hcall', rfl⟩
  · exact .refl
  · refine .single (Quiet.call (n := c.noise) ?_ (hstill c c' r hcall'))
    rw [Peer.noise, hdata]
    rfl

variable {packet : Bytes}

lemma quietly_onSend {dst : Bytes} {env : Ambient}
    (hcall : peer.raw.onSend packet dst env = some (raw, r)) :
    Quietly (t, peer) (t, (peer.withRaw raw)) := by
  rcases drive?_cases hcall with ⟨-, rfl, -⟩ | ⟨c, c', hdata, hcall', rfl⟩
  · exact .refl
  · refine .single (Quiet.call (n := c.noise) ?_ (onSend_still hcall').1)
    rw [Peer.noise, hdata]
    rfl

lemma leU32_of_initOf (h : Cryptor.InitOf n packet) :
    ∃ idx, leU32 packet 4 = some idx ∧ idx.toNat / 256 = n.space := by
  obtain ⟨p, hparse, hspace⟩ := h
  rcases parseIncomingPacket_cases hparse with
    ⟨p', heq, -, hlen, hindex⟩ | ⟨p', heq, -⟩ | ⟨p', heq, -⟩ <;> cases heq
  exact ⟨p.senderIdx, by rw [leU32, if_pos (by rw [hlen]; decide), hindex], hspace⟩

lemma leU32_of_responseOf (h : Cryptor.ResponseOf n packet) :
    ∃ idx, leU32 packet 4 = some idx ∧ idx.toNat / 256 = n.space := by
  obtain ⟨p, hparse, hspace⟩ := h
  rcases parseIncomingPacket_cases hparse with
    ⟨p', heq, -⟩ | ⟨p', heq, -, hlen, hindex, -⟩ | ⟨p', heq, -⟩ <;> cases heq
  exact ⟨p.senderIdx, by rw [leU32, if_pos (by rw [hlen]; decide), hindex], hspace⟩

/-! ## Paths and probes -/

lemma touched_setPath (peer : Peer P) (src : Option SocketAddr) (via : Via) (now : Nat) :
    peer.Touched (peer.setPath src via now) := by
  cases via <;> exact ⟨rfl, rfl, id⟩

lemma touched_authenticatedData (peer : Peer P) : peer.Touched peer.authenticatedData :=
  ⟨rfl, rfl, id⟩

lemma touched_withCandidates (peer : Peer P) (candidates : List SocketAddr) :
    peer.Touched (peer.withCandidates candidates) :=
  ⟨rfl, rfl, id⟩

lemma touched_heard (peer : Peer P) (now : Nat) : peer.Touched (peer.heard now) :=
  ⟨rfl, rfl, id⟩

lemma touched_answered (peer : Peer P) (init : Bytes) (now : Nat) :
    peer.Touched (peer.answered init now) :=
  ⟨rfl, rfl, id⟩

lemma touched_withResp (peer : Peer P) (resp : Bytes) : peer.Touched (peer.withResp resp) :=
  ⟨rfl, rfl, id⟩

lemma touched_established (peer : Peer P) (now : Nat) : peer.Touched (peer.established now) :=
  ⟨rfl, rfl, fun _ => rfl⟩

lemma touched_noteRtt (peer : Peer P) (now : Nat) : peer.Touched (peer.noteRtt now) := by
  unfold Peer.noteRtt
  split <;> exact ⟨rfl, rfl, id⟩

lemma Peer.Touched.trans {peer'' : Peer P} (h : peer.Touched peer') (h' : peer'.Touched peer'') :
    peer.Touched peer'' :=
  ⟨h'.pubkey.trans h.pubkey, h'.raw.trans h.raw, h'.handshaked ∘ h.handshaked⟩

namespace Shard

variable {cfg : Config P} {env : Env} {draw : Draw}

lemma tickProbe_sameIndices :
    t.SameIndices (tickProbe cfg env draw t peer).1 := by
  unfold tickProbe
  split <;> exact ⟨rfl, rfl⟩

lemma tickProbe_touched : peer.Touched (tickProbe cfg env draw t peer).2.1 := by
  unfold tickProbe
  split <;> exact ⟨rfl, rfl, id⟩

/-! ## The tick of a peer -/

variable {sent : List Output}

lemma emitRekey_quietly {ephemeral : Option Key} :
    Quietly (t, peer) ((emitRekey cfg env draw ephemeral t peer).1,
      (emitRekey cfg env draw ephemeral t peer).2.1) := by
  unfold emitRekey
  split
  · next raw e hcall =>
    exact quietly_drive hcall fun c c' r h => (rekeyInit_still h).1
  next raw init hcall =>
  rcases drive_cases hcall with ⟨-, -, _, ⟨⟩⟩ | ⟨c, c', hdata, hcall', rfl⟩
  obtain ⟨hstill, hinit⟩ := rekeyInit_still hcall'
  obtain ⟨idx, hle, hspace⟩ := leU32_of_initOf (hinit init rfl)
  have hbefore : peer.noise = some c.noise := by
    rw [Peer.noise, hdata]
    rfl
  simp only [hle]
  refine ((ReflTransGen.single (Quiet.call hbefore hstill)).trans (quietly_touch (.refl t)
    (show Peer.Touched _ ((peer.withNoise c'.noise).noteRekey env.now) from
      ⟨rfl, rfl, id⟩))).tail ?_
  exact Quiet.register rfl hspace

lemma tickWaiting_touched : peer.Touched (tickWaiting cfg env peer).1 := by
  unfold tickWaiting
  dsimp only
  split <;> split <;> exact ⟨rfl, rfl, id⟩

lemma keepaliveSend_quietly {ka : Bytes}
    (h : keepaliveSend cfg env draw t peer ka = (t', peer', sent)) :
    Quietly (t, peer) (t', peer') := by
  unfold keepaliveSend at h
  dsimp only at h
  split at h
  · cases h
    exact quietly_touch ⟨rfl, rfl⟩ ⟨rfl, rfl, id⟩
  · cases h
    exact .refl

lemma tickKeepalive_quietly (h : tickKeepalive cfg env draw t peer = some (t', peer', sent)) :
    Quietly (t, peer) (t', peer') := by
  obtain ⟨⟨raw, result⟩, hcall, hrest⟩ := Option.bind_eq_some_iff.mp h
  have hquiet := quietly_onSend (t := t) hcall
  dsimp only at hrest
  split at hrest
  · cases hrest
    exact hquiet
  next out =>
  split at hrest
  · simp only [Option.some.injEq] at hrest
    exact hquiet.trans (keepaliveSend_quietly hrest)
  next hdata =>
  split at hrest
  · rcases drive?_cases hcall with ⟨-, -, _, ⟨⟩⟩ | ⟨c, c', -, hcall', rfl⟩
    rcases (onSend_still hcall').2 out rfl with hhead | hinit
    · exact absurd hhead hdata
    obtain ⟨idx, hle, hspace⟩ := leU32_of_initOf hinit
    rw [hle] at hrest
    cases hrest
    exact hquiet.tail (Quiet.register rfl hspace)
  · cases hrest
    exact hquiet

lemma tickSilent_quietly :
    Quietly (t, peer)
      ((tickSilent cfg env draw t peer).1, (tickSilent cfg env draw t peer).2.1) := by
  have hpin : Quietly (t, peer) (t, pin env peer) := quietly_touch (.refl t) ⟨rfl, rfl, id⟩
  unfold tickSilent
  dsimp only
  split
  · split
    · refine (hpin.trans emitRekey_quietly).trans (quietly_touch (.refl _) ?_)
      split <;> exact ⟨rfl, rfl, id⟩
    · exact hpin
  · exact .refl

lemma tickAged_quietly :
    Quietly (t, peer) ((tickAged cfg env draw t peer).1, (tickAged cfg env draw t peer).2.1) := by
  unfold tickAged
  dsimp only
  split
  · refine emitRekey_quietly.trans (quietly_touch (.refl _) ?_)
    split <;> exact ⟨rfl, rfl, id⟩
  · exact .refl

lemma tickUpgrade_touched : peer.Touched (tickUpgrade env peer) := by
  unfold tickUpgrade
  split <;> exact ⟨rfl, rfl, id⟩

lemma tickPeer_quietly (h : tickPeer cfg env draw t peer = some (t', peer', sent)) :
    Quietly (t, peer) (t', peer') := by
  have hprobe : Quietly (t, peer)
      ((tickProbe cfg env draw t peer).1, (tickProbe cfg env draw t peer).2.1) :=
    quietly_touch tickProbe_sameIndices tickProbe_touched
  unfold tickPeer at h
  dsimp only at h
  split at h
  · cases h
    exact hprobe.trans (quietly_touch (.refl _) tickWaiting_touched)
  obtain ⟨⟨t₁, peer₁, kept⟩, hkeep, hrest⟩ := Option.bind_eq_some_iff.mp h
  cases hrest
  exact (((hprobe.trans (tickKeepalive_quietly hkeep)).trans tickSilent_quietly).trans
    (quietly_touch (.refl _) tickUpgrade_touched)).trans tickAged_quietly

end Shard

end Quiet

/-! ## Changes to a shard -/

namespace Shard

variable {cfg : Config P} {env : Env} {s s' : Shard P} {peer peer' : Peer P} {t t' : Tables}

def Unique (s : Shard P) : Prop := (s.peers.map Peer.pubkey).Nodup

@[simp] lemma withTables_tables : (s.withTables t).tables = t := rfl

@[simp] lemma setPeer_tables : (s.setPeer peer).tables = s.tables := rfl

lemma unique_setPeer : (s.setPeer peer).Unique ↔ s.Unique := by
  unfold Unique setPeer
  rw [map_key_set]

variable {pk : Key}

lemma findPeer_pubkey (h : s.findPeer pk = some peer) : peer.pubkey = pk :=
  key_of_find h

lemma findPeer_self (h : s.findPeer pk = some peer) : s.findPeer peer.pubkey = some peer := by
  rwa [findPeer_pubkey h]

lemma setPeer_self (h : s.findPeer peer.pubkey = some peer) : s.setPeer peer = s := by
  unfold setPeer
  rw [set_self h]

lemma setPeer_setPeer (h : peer.pubkey = peer'.pubkey) :
    ((s.setPeer peer).withTables t).setPeer peer' = (s.withTables t).setPeer peer' := by
  unfold setPeer withTables
  rw [set_set h]

lemma findPeer_setPeer (h : (s.findPeer peer.pubkey).isSome) :
    (s.setPeer peer).findPeer peer.pubkey = some peer := by
  have := congrFun (find_set h) peer.pubkey
  rw [Function.update_self] at this
  exact this

inductive QuietStep : Shard P → Shard P → Prop
  | tables {s : Shard P} {t : Tables} (indices : s.tables.SameIndices t) :
    QuietStep s (s.withTables t)
  | peer {s : Shard P} {t : Tables} {peer peer' : Peer P}
    (found : s.findPeer peer.pubkey = some peer) (quiet : Quiet (s.tables, peer) (t, peer')) :
    QuietStep s ((s.withTables t).setPeer peer')

abbrev QuietSteps : Shard P → Shard P → Prop := ReflTransGen QuietStep

lemma quietSteps_setPeer {x : Tables × Peer P} (found : s.findPeer peer.pubkey = some peer)
    (quietly : Quietly (s.tables, peer) x) : QuietSteps s ((s.withTables x.1).setPeer x.2) := by
  induction quietly with
  | refl =>
    rw [show s.withTables s.tables = s from rfl, setPeer_self found]
  | @tail x y hprev hstep ih =>
    have hpubkey : x.2.pubkey = peer.pubkey := Quietly.pubkey hprev
    have hfound : ((s.withTables x.1).setPeer x.2).findPeer x.2.pubkey = some x.2 := by
      apply findPeer_setPeer
      rw [hpubkey]
      exact Option.isSome_iff_exists.mpr ⟨peer, found⟩
    have hlast : QuietStep ((s.withTables x.1).setPeer x.2)
        ((((s.withTables x.1).setPeer x.2).withTables y.1).setPeer y.2) := .peer hfound hstep
    rw [setPeer_setPeer hstep.pubkey.symm] at hlast
    exact ih.tail hlast

/-- A packet for a peer was handed to its cryptor. -/
inductive Received (s : Shard P) (pk : Key) (bytes : Bytes) : Shard P → Prop
  | response {peer : Peer P} {n : Noise P} {p : HandshakeResponse} {now : Nat} {h : Handshake P}
    {session : Session} (found : s.findPeer pk = some peer) (before : peer.noise = some n)
    (parsed : parseIncomingPacket bytes = .ok (.handshakeResponse p))
    (accepted : n.handshake.receiveHandshakeResponse p now = (h, .ok session))
    (index : session.receivingIndex = p.receiverIdx) :
    Received s pk bytes ((s.withTables (s.tables.confirmIndex (some p.receiverIdx) pk)).setPeer
      (peer.withNoise (n.install h session)))
  | data {peer : Peer P} {n n' : Noise P} {p : PacketData} {result : Except Error NoiseResult}
    (found : s.findPeer pk = some peer) (before : peer.noise = some n)
    (parsed : parseIncomingPacket bytes = .ok (.packetData p))
    (handled : n.handleData p 2048 = some (n', result)) :
    Received s pk bytes ((s.withTables (if result.isOk then
      s.tables.confirmIndex (some p.receiverIdx) pk else s.tables)).setPeer (peer.withNoise n'))
  | init {peer : Peer P} {n n' : Noise P} {p : HandshakeInit} {dst : Bytes}
    {ephemeral : Option Key} {result : Except Error NoiseResult}
    (found : s.findPeer pk = some peer) (before : peer.noise = some n)
    (parsed : parseIncomingPacket bytes = .ok (.handshakeInit p))
    (handled : n.handleHandshakeInit p dst ephemeral = (n', result)) :
    Received s pk bytes (s.setPeer (peer.withNoise n'))

/-- A cryptor was built anew, or a peer came or went. -/
inductive Reset (cfg : Config P) (s : Shard P) : Shard P → Prop
  | rebuild {pk : Key} {peer : Peer P} {n : Noise P} (found : s.findPeer pk = some peer)
    (fresh : n.Fresh cfg.ownPriv pk) :
    Reset cfg s ((s.withTables (s.tables.removeIndices pk)).setPeer (peer.rebuilt ⟨some ⟨n⟩⟩))
  | add {peer : Peer P} (absent : s.findPeer peer.pubkey = none)
    (fresh : ∀ n, peer.noise = some n → n.Fresh cfg.ownPriv peer.pubkey) :
    Reset cfg s ⟨s.peers ++ [peer], s.tables⟩
  | remove (pk : Key) :
    Reset cfg s ⟨s.peers.filter (·.pubkey ≠ pk), s.tables.removeIndices pk⟩

/-- The packet of a message and the peer whose cryptor gets it first. -/
def addressed (cfg : Config P) (s : Shard P) : WorkerMsg → Option (Key × Bytes)
  | .udpIn _ bytes =>
    if discoMagic.isPrefixOf bytes then none
    else if bytes.head? = some tHandshakeInit then
      (s.rekeyPeer cfg bytes).map fun peer => (peer.pubkey, bytes)
    else ((wgIndex bytes).bind s.tables.table.get).map fun pk => (pk, bytes)
  | .relayIn sender bytes | .tcpIn sender bytes =>
    if bytes.head? = some tHandshakeInit then
      (s.rekeyPeer cfg bytes).map fun peer => (peer.pubkey, bytes)
    else some (sender, bytes)
  | _ => none

/-- What handling a message amounts to: a packet received, a cryptor built or dropped, and quiet
changes after each. -/
structure Handled (cfg : Config P) (packet : Option (Key × Bytes)) (s s' : Shard P) : Prop where
  phases : ∃ s₁ s₂ s₃,
    (s₁ = s ∨ ∃ pk bytes, packet = some (pk, bytes) ∧ s.Received pk bytes s₁) ∧
    s₁.QuietSteps s₂ ∧ (s₃ = s₂ ∨ s₂.Reset cfg s₃) ∧ s₃.QuietSteps s'

lemma handled_of_quiet {packet : Option (Key × Bytes)} (h : s.QuietSteps s') :
    Handled cfg packet s s' :=
  ⟨s, s', s', Or.inl rfl, h, Or.inl rfl, .refl⟩

variable {bytes : Bytes}

lemma handled_of_received {s₁ : Shard P} (hreceived : s.Received pk bytes s₁)
    (h : s₁.QuietSteps s') : Handled cfg (some (pk, bytes)) s s' :=
  ⟨s₁, s', s', Or.inr ⟨pk, bytes, rfl, hreceived⟩, h, Or.inl rfl, .refl⟩

/-! ## The handlers -/

variable {rest : List (Peer P)} {src : Option SocketAddr} {via : Via} {out : List Output}
  {candidates : List SocketAddr} {front : List (Peer P)}

lemma setPeer_append_cons (hpubkey : peer'.pubkey = peer.pubkey)
    (hunique : (mk (front ++ peer :: rest) t).Unique) :
    ((mk (front ++ peer :: rest) t).withTables t').setPeer peer' =
      ⟨front ++ peer' :: rest, t'⟩ := by
  unfold setPeer withTables
  rw [set_append_cons hpubkey.symm]
  rw [hpubkey]
  unfold Unique at hunique
  rw [List.map_append, List.nodup_append] at hunique
  intro hfront
  exact hunique.2.2 _ hfront _ (by simp) rfl

lemma unique_append_cons (hpubkey : peer'.pubkey = peer.pubkey)
    (hunique : (mk (front ++ peer :: rest) t).Unique) :
    (mk ((front ++ [peer']) ++ rest) t').Unique := by
  unfold Unique at hunique ⊢
  simpa [hpubkey] using hunique

/-- What the tick of each peer does to the shard, the tick does, if it composes. -/
lemma tickFrom_rel {R : Shard P → Shard P → Prop} (refl : ∀ s, R s s)
    (trans : ∀ {s₁ s₂ s₃}, R s₁ s₂ → R s₂ s₃ → R s₁ s₃)
    (step : ∀ {s peer draw t' peer' sent}, s.findPeer peer.pubkey = some peer →
      tickPeer cfg env draw s.tables peer = some (t', peer', sent) →
      R s ((s.withTables t').setPeer peer'))
    (front : List (Peer P)) {rest' : List (Peer P)} {i : Nat}
    {sent : List Output} (h : tickFrom cfg env i rest t = some (t', rest', sent))
    (hunique : (mk (front ++ rest) t).Unique) : R ⟨front ++ rest, t⟩ ⟨front ++ rest', t'⟩ := by
  induction rest generalizing front t i t' rest' sent with
  | nil =>
    cases h
    exact refl _
  | cons peer rest ih =>
    obtain ⟨⟨t₁, peer₁, sent₁⟩, hpeer, hrest⟩ := Option.bind_eq_some_iff.mp h
    obtain ⟨⟨t₂, rest₂, sent₂⟩, hfrom, hlast⟩ := Option.bind_eq_some_iff.mp hrest
    cases hlast
    have hpubkey := (tickPeer_quietly hpeer).pubkey
    have hstep := step (s := ⟨front ++ peer :: rest, t⟩) (find_of_mem hunique (by simp)) hpeer
    rw [setPeer_append_cons hpubkey hunique] at hstep
    have hlater := ih (front ++ [peer₁]) hfrom (unique_append_cons hpubkey hunique)
    rw [List.append_assoc, List.append_assoc] at hlater
    exact trans hstep hlater

lemma tickFrom_quietSteps {peers : List (Peer P)} {i : Nat} {sent : List Output}
    (h : tickFrom cfg env i s.peers s.tables = some (t, peers, sent)) (hunique : s.Unique) :
    QuietSteps s ⟨peers, t⟩ :=
  tickFrom_rel (fun _ => .refl) .trans
    (fun found h => quietSteps_setPeer found (tickPeer_quietly h)) [] h hunique

lemma quietSteps_touch (found : s.findPeer peer.pubkey = some peer)
    (indices : s.tables.SameIndices t) (touched : peer.Touched peer') :
    QuietSteps s ((s.withTables t).setPeer peer') :=
  quietSteps_setPeer found (quietly_touch indices touched)

lemma leU32_of_response {p : HandshakeResponse}
    (hparse : parseIncomingPacket bytes = .ok (.handshakeResponse p)) :
    leU32 bytes 8 = some p.receiverIdx := by
  rcases parseIncomingPacket_cases hparse with
    ⟨p', heq, -⟩ | ⟨p', heq, -, hlen, -, hindex⟩ | ⟨p', heq, -⟩ <;> cases heq
  rw [leU32, if_pos (by rw [hlen]; decide), hindex]

lemma leU32_of_data {p : PacketData} (hparse : parseIncomingPacket bytes = .ok (.packetData p)) :
    leU32 bytes 4 = some p.receiverIdx := by
  rcases parseIncomingPacket_cases hparse with
    ⟨p', heq, -⟩ | ⟨p', heq, -⟩ | ⟨p', heq, -, hlen, hindex⟩ <;> cases heq
  rw [leU32, if_pos (le_trans (by decide) hlen), hindex]

/-- A refused response leaves the cryptor as it was; an accepted one was received. -/
lemma handleWg_response {raw : RawCryptor P} {now : Nat} {r : Except Error Unit}
    (found : s.findPeer pk = some peer)
    (hcall : peer.raw.handleHandshakeResponse bytes now = (raw, r)) :
    (raw = peer.raw ∧ ∃ e, r = .error e) ∨
    (r = .ok () ∧ s.Received pk bytes
      ((s.withTables (s.tables.confirmIndex (leU32 bytes 8) pk)).setPeer
        (peer.withRaw raw))) := by
  rcases drive_cases hcall with ⟨-, rfl, herror⟩ | ⟨c, c', hdata, hcall', rfl⟩
  · exact Or.inl ⟨rfl, herror⟩
  rcases handleHandshakeResponse_cases hcall' with
    ⟨rfl, herror⟩ | ⟨p, h, session, hparse, hreceive, hindex, hnoise, rfl⟩
  · refine Or.inl ⟨?_, herror⟩
    rw [← hdata]
  refine Or.inr ⟨rfl, ?_⟩
  have hreceived := Received.response found (Peer.noise_eq_some.mpr hdata) hparse hreceive hindex
  rw [← hnoise, ← leU32_of_response hparse] at hreceived
  exact hreceived

lemma handleWg_data {dst : Bytes} {raw : RawCryptor P} {ambient : Ambient}
    (found : s.findPeer pk = some peer) (hhead : bytes.head? = some tData)
    (hdst : dst.length = 2048) (hcall : peer.raw.onRecv bytes dst ambient = some (raw, r)) :
    (raw = peer.raw ∧ ∃ e, r = .error e) ∨
    s.Received pk bytes ((s.withTables (if r.isOk then
      s.tables.confirmIndex (leU32 bytes 4) pk else s.tables)).setPeer (peer.withRaw raw)) := by
  rcases drive?_cases hcall with ⟨-, rfl, herror⟩ | ⟨c, c', hdata, hcall', rfl⟩
  · exact Or.inl ⟨rfl, herror⟩
  rcases onRecv_cases hhead hcall' with ⟨rfl, herror⟩ | ⟨p, result, hparse, hhandled, hok⟩
  · refine Or.inl ⟨?_, herror⟩
    rw [← hdata]
  right
  rw [hdst] at hhandled
  have hreceived := Received.data found (Peer.noise_eq_some.mpr hdata) hparse hhandled
  rw [← hok, ← leU32_of_data hparse] at hreceived
  exact hreceived

/-- Quiet changes to the peer that a change has just put in place. -/
lemma quietSteps_again {peer₁ peer₂ : Peer P} (found : s.findPeer pk = some peer)
    (hpubkey : peer₁.pubkey = pk) (quietly : Quietly (t, peer₁) (t', peer₂)) :
    QuietSteps ((s.withTables t).setPeer peer₁) ((s.withTables t').setPeer peer₂) := by
  subst hpubkey
  have hfound : ((s.withTables t).setPeer peer₁).findPeer peer₁.pubkey = some peer₁ :=
    findPeer_setPeer (Option.isSome_iff_exists.mpr ⟨peer, found⟩)
  have hsteps := quietSteps_setPeer hfound quietly
  rwa [setPeer_setPeer (Quietly.pubkey quietly).symm] at hsteps

lemma handleWg_handled {draw : Draw} {pkt : Option Bytes} (found : s.findPeer pk = some peer)
    (h : s.handleWg cfg env draw peer bytes src via = some (s', out, pkt)) :
    Handled cfg (some (pk, bytes)) s s' := by
  obtain rfl : peer.pubkey = pk := findPeer_pubkey found
  have hrefused : ∀ raw, raw = peer.raw →
      Handled cfg (some (peer.pubkey, bytes)) s (s.setPeer (peer.withRaw raw)) :=
    fun raw hraw => handled_of_quiet (quietSteps_touch found (.refl _) ⟨rfl, hraw, id⟩)
  unfold handleWg at h
  split at h
  · split at h
    · next raw e hcall =>
      cases h
      rcases handleWg_response found hcall with ⟨hraw, -⟩ | ⟨⟨⟩, -⟩
      exact hrefused raw hraw
    · next raw hcall =>
      rcases handleWg_response found hcall with ⟨-, _, ⟨⟩⟩ | ⟨-, hreceived⟩
      dsimp only at h
      split at h
      · cases h
      next raw' result hsend =>
      cases h
      refine handled_of_received hreceived (quietSteps_again found ?_ ?_)
      · rfl
      · refine (quietly_touch (.refl _) ?_).trans (quietly_onSend hsend)
        exact (touched_setPath _ src via env.now).trans
          ((touched_established _ env.now).trans (touched_noteRtt _ env.now))
  split at h
  · next hhead =>
    split at h
    · cases h
    · next raw e hcall =>
      cases h
      rcases handleWg_data found hhead (Block.length_val _) hcall with ⟨hraw, -⟩ | hreceived
      · exact hrefused raw hraw
      · exact handled_of_received hreceived .refl
    · next raw packet hcall =>
      cases h
      rcases handleWg_data found hhead (Block.length_val _) hcall with ⟨-, _, ⟨⟩⟩ | hreceived
      refine handled_of_received hreceived (quietSteps_again found ?_ ?_)
      · rfl
      · exact quietly_touch (.refl _) ((touched_authenticatedData _).trans
          ((touched_setPath _ src via env.now).trans (touched_heard _ env.now)))
  · cases h
    exact handled_of_quiet .refl

lemma deliverWg_handled (h : s.deliverWg cfg env pk bytes src via = some (s', out)) :
    Handled cfg (some (pk, bytes)) s s' := by
  unfold deliverWg at h
  split at h
  · cases h
    exact handled_of_quiet .refl
  next peer found =>
  obtain ⟨⟨s₁, out₁, pkt⟩, hwg, hrest⟩ := Option.bind_eq_some_iff.mp h
  cases hrest
  exact handleWg_handled found hwg

/-! ### INITs -/

/-- Answering an INIT is quiet once the peer's cryptor has accepted it. -/
lemma answerInit_quietSteps {peer₁ : Peer P} {resp : Option Bytes} {role : Role}
    (found : s.findPeer pk = some peer) (hpubkey : peer₁.pubkey = pk)
    (hnoise : peer₁.noise = some n)
    (hresp : ∀ bytes, resp = some bytes → Cryptor.ResponseOf n bytes)
    (h : (s.withTables t).answerInit cfg env peer₁ bytes src via resp role = (s', out)) :
    QuietSteps ((s.withTables t).setPeer peer₁) s' := by
  have htouched : peer₁.Touched ((peer₁.setPath src via env.now).answered bytes env.now) :=
    (touched_setPath _ src via env.now).trans (touched_answered _ bytes env.now)
  unfold answerInit at h
  cases resp with
  | none =>
    cases h
    exact quietSteps_again found hpubkey (quietly_touch (.refl t) htouched)
  | some resp =>
    obtain ⟨idx, hle, hspace⟩ := leU32_of_responseOf (hresp resp rfl)
    have htouched' := htouched.trans (touched_withResp _ resp)
    dsimp only at h
    rw [hle] at h
    cases h
    refine quietSteps_again found hpubkey ((quietly_touch (.refl t) htouched').tail ?_)
    refine Quiet.register (n := n) ?_ hspace
    rw [Peer.noise, htouched'.raw]
    exact hnoise

/-- The part of `accept_init` that builds a cryptor resets the peer, or nothing but the counter of
bases changes. -/
lemma acceptFresh_phases {draw : Draw} (h : s.acceptFresh cfg env draw bytes src via = (s', out))
    :
    ∃ s₂ s₃, s.QuietSteps s₂ ∧ (s₃ = s₂ ∨ s₂.Reset cfg s₃) ∧ s₃.QuietSteps s' := by
  unfold acceptFresh at h
  cases hcall : (new P).handleHandshake s.tables.peerIndex cfg.ownPriv cfg.ownPub bytes
      (env.ambient draw.fresh draw) with | mk peerIndex rest =>
  obtain ⟨raw, result⟩ := rest
  rw [hcall] at h
  have hquiet : s.QuietSteps (s.withTables { s.tables with peerIndex := peerIndex }) :=
    .single (.tables ⟨rfl, rfl⟩)
  dsimp only at h
  split at h
  · next resp pk hpk =>
    rcases handleHandshake_cases hcall with ⟨-, _, ⟨⟩⟩ | ⟨c, _, hnew, rfl, ⟨⟩⟩
    obtain ⟨hfresh, -, bytes', rfl, hresp⟩ := handleHandshake_fresh cfg.ownPub_eq hnew
    rw [show c.getPeerPublic = pk from Except.ok.inj hpk] at hfresh
    split at h
    · cases h
      exact ⟨_, _, hquiet, Or.inl rfl, .refl⟩
    next peer found =>
    have hpubkey : peer.pubkey = pk := findPeer_pubkey found
    refine ⟨_, _, hquiet, Or.inr (@Reset.rebuild _ _ _ _ peer _ found hfresh), ?_⟩
    refine answerInit_quietSteps found hpubkey rfl ?_ h
    rintro _ ⟨⟩
    exact hresp
  · cases h
    exact ⟨_, _, hquiet, Or.inl rfl, .refl⟩

lemma rekeyPeer_found (h : s.rekeyPeer cfg bytes = some peer) :
    s.findPeer peer.pubkey = some peer := by
  obtain ⟨pk, -, found⟩ := Option.bind_eq_some_iff.mp h
  exact findPeer_self found

lemma acceptInit_handled {draw : Draw} (hhead : bytes.head? = some tHandshakeInit)
    (h : s.acceptInit cfg env draw bytes src via = some (s', out)) :
    Handled cfg ((s.rekeyPeer cfg bytes).map fun peer => (peer.pubkey, bytes)) s s' := by
  unfold acceptInit at h
  split at h
  · cases h
    exact handled_of_quiet .refl
  split at h
  · obtain ⟨s₂, s₃, hquiet, hreset, hlast⟩ := acceptFresh_phases (Option.some.inj h)
    exact ⟨s, s₂, s₃, Or.inl rfl, hquiet, hreset, hlast⟩
  next peer hpeer =>
  have found := rekeyPeer_found hpeer
  rw [hpeer]
  split at h
  · cases h
  · next raw resp hcall =>
    rcases drive?_cases hcall with ⟨-, -, _, ⟨⟩⟩ | ⟨c, c', hdata, hcall', rfl⟩
    rcases rekeyRespond_cases hhead hcall' with
      ⟨-, _, ⟨⟩⟩ | ⟨p, result, hverify, hinit, ⟨_, -, ⟨⟩⟩ | ⟨resp', -, hok, hresp⟩⟩
    cases hok
    refine handled_of_received (Received.init found (Peer.noise_eq_some.mpr hdata)
      (verifyPacket_parse hverify) hinit) ?_
    refine answerInit_quietSteps (t := s.tables) found rfl rfl ?_ (Option.some.inj h)
    rintro _ ⟨⟩
    exact hresp
  · next raw e hcall =>
    obtain ⟨s₂, s₃, hquiet, hreset, hlast⟩ := acceptFresh_phases (Option.some.inj h)
    -- A packet that the verifier refuses did not reach the cryptor.
    have hrefused : raw = peer.raw → s.setPeer (peer.withRaw raw) = s := by
      rintro rfl
      exact setPeer_self found
    rcases drive?_cases hcall with ⟨-, hraw, -⟩ | ⟨c, c', hdata, hcall', rfl⟩
    · rw [hrefused hraw] at hquiet
      exact ⟨s, s₂, s₃, Or.inl rfl, hquiet, hreset, hlast⟩
    rcases rekeyRespond_cases hhead hcall' with ⟨rfl, -⟩ | ⟨p, result, hverify, hinit, -⟩
    · rw [hrefused (by rw [← hdata])] at hquiet
      exact ⟨s, s₂, s₃, Or.inl rfl, hquiet, hreset, hlast⟩
    · exact ⟨_, s₂, s₃, Or.inr ⟨peer.pubkey, bytes, rfl, Received.init found
        (Peer.noise_eq_some.mpr hdata) (verifyPacket_parse hverify) hinit⟩,
        hquiet, hreset, hlast⟩

/-! ### The other messages -/

lemma onDisco_quietSteps {src : SocketAddr} {dgram : Bytes} (hunique : s.Unique) :
    s.QuietSteps (s.onDisco cfg env src dgram).1 := by
  unfold onDisco
  dsimp only
  split
  · split
    · exact .refl
    next peer hfound =>
    have found := findPeer_self hfound
    split
    · exact .refl
    split
    · exact quietSteps_touch found (.refl _) ⟨rfl, rfl, id⟩
    split
    · exact quietSteps_touch found ⟨rfl, rfl⟩ ⟨rfl, rfl, id⟩
    · exact quietSteps_touch found (.refl _) ⟨rfl, rfl, id⟩
  · split
    · exact .refl
    next peer hfound =>
    have found : s.findPeer peer.pubkey = some peer :=
      find_of_mem hunique (List.mem_of_find?_eq_some hfound)
    split
    · exact .refl
    split
    · exact .refl
    · exact quietSteps_touch found ⟨rfl, rfl⟩ ⟨rfl, rfl, id⟩
  · exact .refl

lemma onTcpConn_quietSteps {connGen : Nat} {out : Option Nat} :
    s.QuietSteps (s.onTcpConn pk connGen out) := by
  unfold onTcpConn
  split
  · exact .refl
  next peer hfound =>
  have found := findPeer_self hfound
  split
  · exact quietSteps_touch found (.refl _) ⟨rfl, rfl, id⟩
  · split
    · exact quietSteps_touch found (.refl _) ⟨rfl, rfl, id⟩
    · exact .refl

lemma onUpdateCandidates_quietSteps :
    s.QuietSteps (s.onUpdateCandidates cfg env pk candidates).1 := by
  unfold onUpdateCandidates
  split
  · exact .refl
  next peer hfound =>
  have found := findPeer_self hfound
  exact quietSteps_touch found tickProbe_sameIndices
    ((touched_withCandidates peer candidates).trans tickProbe_touched)

/-- A new peer, with changes to the tables for it. -/
lemma handled_of_add (indices : s.tables.SameIndices t)
    (absent : s.findPeer peer.pubkey = none)
    (fresh : ∀ n, peer.noise = some n → n.Fresh cfg.ownPriv peer.pubkey)
    (quietly : Quietly (t, peer) (t', peer)) : Handled cfg none s ⟨s.peers ++ [peer], t'⟩ := by
  have hadd : (s.withTables t).Reset cfg ⟨s.peers ++ [peer], t⟩ :=
    Reset.add (s := s.withTables t) absent fresh
  have hfound : (mk (s.peers ++ [peer]) t').findPeer peer.pubkey = some peer := by
    have := congrFun (find_append_singleton absent) peer.pubkey
    rwa [Function.update_self] at this
  have hlast := quietSteps_setPeer (s := ⟨s.peers ++ [peer], t⟩) hfound quietly
  rw [show (mk (s.peers ++ [peer]) t).withTables t' = ⟨s.peers ++ [peer], t'⟩ from rfl,
    setPeer_self hfound] at hlast
  exact ⟨s, s.withTables t, _, Or.inl rfl, .single (.tables indices), Or.inr hadd, hlast⟩

lemma onAddPeer_handled {initiator : Bool}
    (h : s.onAddPeer cfg env pk candidates initiator = (s', out)) : Handled cfg none s s' := by
  unfold onAddPeer at h
  split at h
  · cases h
    exact handled_of_quiet .refl
  next hknown =>
  have habsent : s.findPeer pk = none := by
    simpa [findPeer, find] using hknown
  dsimp only at h
  have hsame : s.tables.SameIndices
      (tickProbe cfg env (env.draws 0) s.tables (Peer.fresh cfg pk candidates)).1 :=
    tickProbe_sameIndices
  have htouched : (Peer.fresh cfg pk candidates).Touched
      (tickProbe cfg env (env.draws 0) s.tables (Peer.fresh cfg pk candidates)).2.1 :=
    tickProbe_touched
  generalize tickProbe cfg env (env.draws 0) s.tables (Peer.fresh cfg pk candidates) = probed
    at h hsame htouched
  obtain ⟨t, peer, sent⟩ := probed
  have hpk : peer.pubkey = pk := htouched.pubkey
  have hnone : peer.raw.data = none := congrArg data htouched.raw
  have hidle : ∀ n, peer.noise = some n → n.Fresh cfg.ownPriv peer.pubkey := by
    intro n hn
    rw [Peer.noise, hnone] at hn
    cases hn
  split at h
  · split at h
    · next peerIndex raw e hcall =>
      cases h
      rcases initHandshake_cases hnone hcall with ⟨rfl, -⟩ | ⟨_, _, -, -, ⟨⟩⟩
      refine handled_of_add (t := { t with peerIndex := peerIndex }) ⟨hsame.table, hsame.owner⟩
        (hpk ▸ habsent) ?_ .refl
      exact fun n hn => hidle n hn
    · next peerIndex raw init hcall =>
      cases h
      rcases initHandshake_cases hnone hcall with ⟨-, _, ⟨⟩⟩ | ⟨c, _, hnew, rfl, ⟨⟩⟩
      obtain ⟨hfresh, hinit⟩ := initHandshake_fresh hnew
      obtain ⟨idx, hle, hspace⟩ := leU32_of_initOf hinit
      rw [hle]
      subst hpk
      have hnoise : ((peer.withRaw ⟨some c⟩).withInit init env.now).noise = some c.noise := rfl
      refine handled_of_add (t := { t with peerIndex := peerIndex }) ⟨hsame.table, hsame.owner⟩
        habsent ?_ (.single (Quiet.register hnoise hspace))
      intro n hn
      rw [hnoise] at hn
      cases hn
      exact hfresh
  · cases h
    exact handled_of_add hsame (hpk ▸ habsent) hidle .refl

lemma onRemovePeer_handled : Handled cfg none s (s.onRemovePeer pk) := by
  unfold onRemovePeer
  split
  · exact ⟨s, s, _, Or.inl rfl, .refl, Or.inr (.remove pk), .single (.tables ⟨rfl, rfl⟩)⟩
  · exact handled_of_quiet .refl

lemma onTunEgress_quietSteps {pkt : Bytes} (hunique : s.Unique)
    (h : s.onTunEgress cfg env pk pkt = some (s', out)) : s.QuietSteps s' := by
  unfold onTunEgress at h
  split at h
  · cases h
    exact .refl
  next peer hfound =>
  have found : s.findPeer peer.pubkey = some peer :=
    find_of_mem hunique (List.mem_of_find?_eq_some hfound)
  have hpk : peer.pubkey = pk := by
    have := List.find?_some hfound
    simp only [Bool.and_eq_true, decide_eq_true_eq] at this
    exact this.1
  obtain ⟨⟨raw, result⟩, hcall, hrest⟩ := Option.bind_eq_some_iff.mp h
  have hquiet : Quietly (s.tables, peer) (s.tables, peer.withRaw raw) := quietly_onSend hcall
  have hsent : s.QuietSteps (s.setPeer (peer.withRaw raw)) := quietSteps_setPeer found hquiet
  dsimp only at hrest
  split at hrest
  · cases hrest
    exact hsent
  next enc =>
  split at hrest
  · next hhead =>
    split at hrest
    · rcases drive?_cases hcall with ⟨-, -, _, ⟨⟩⟩ | ⟨c, c', hdata, hcall', rfl⟩
      rcases (onSend_still hcall').2 enc rfl with hdata | hinit
      · rw [hdata] at hhead
        exact absurd hhead (by decide)
      obtain ⟨idx, hle, hspace⟩ := leU32_of_initOf hinit
      rw [hle, ← hpk] at hrest
      cases hrest
      exact quietSteps_setPeer found (hquiet.tail (Quiet.register rfl hspace))
    · cases hrest
      exact hsent
  split at hrest
  · cases hrest
    exact hsent
  · cases hrest
    exact hsent

/-- What handling any message amounts to. -/
lemma handle_handled {msg : WorkerMsg} (hunique : s.Unique)
    (h : s.handle cfg env msg = some (s', out)) : Handled cfg (s.addressed cfg msg) s s' := by
  have hframed : ∀ sender bytes via, s.onFramed cfg env sender bytes via = some (s', out) →
      Handled cfg (if bytes.head? = some tHandshakeInit then
        (s.rekeyPeer cfg bytes).map fun peer => (peer.pubkey, bytes) else some (sender, bytes))
        s s' := by
    intro sender bytes via hcall
    unfold onFramed at hcall
    split at hcall
    · next hhead =>
      rw [if_pos hhead]
      exact acceptInit_handled hhead hcall
    · next hhead =>
      rw [if_neg hhead]
      exact deliverWg_handled hcall
  cases msg with
  | tick =>
    obtain ⟨⟨t, peers, sent⟩, htick, hrest⟩ := Option.bind_eq_some_iff.mp h
    cases hrest
    exact handled_of_quiet (tickFrom_quietSteps htick hunique)
  | udpIn src bytes =>
    simp only [handle, onUdpIn] at h
    simp only [addressed]
    split at h
    · have hs : (s.onDisco cfg env src bytes).1 = s' := congrArg Prod.fst (Option.some.inj h)
      rw [← hs]
      exact handled_of_quiet (onDisco_quietSteps hunique)
    next hdisco =>
    rw [if_neg hdisco]
    split at h
    · next hhead =>
      rw [if_pos hhead]
      exact acceptInit_handled hhead h
    next hhead =>
    rw [if_neg hhead]
    split at h
    · cases h
      exact handled_of_quiet .refl
    · next pk hpk =>
      rw [hpk]
      exact deliverWg_handled h
  | relayIn sender bytes => exact hframed sender bytes .relay h
  | tcpIn sender bytes => exact hframed sender bytes .tcpDirect h
  | tcpConn pk connGen conn =>
    cases h
    exact handled_of_quiet onTcpConn_quietSteps
  | tunEgress pk pkt => exact handled_of_quiet (onTunEgress_quietSteps hunique h)
  | addPeer pk candidates initiator => exact onAddPeer_handled (Option.some.inj h)
  | removePeer pk =>
    cases h
    exact onRemovePeer_handled
  | updateCandidates pk candidates =>
    have hs : (s.onUpdateCandidates cfg env pk candidates).1 = s' :=
      congrArg Prod.fst (Option.some.inj h)
    rw [← hs]
    exact handled_of_quiet onUpdateCandidates_quietSteps

/-! ## What changes leave alone -/

section Views

variable {pk : Key}

def noiseOf (s : Shard P) (pk : Key) : Option (Noise P) := (s.findPeer pk).bind Peer.noise

/-- The keys and the index space of a peer's cryptor. -/
def baseOf (s : Shard P) (pk : Key) : Option (NoiseParams P × Verifier × Nat) :=
  (s.noiseOf pk).map Noise.base

def Shaken (s : Shard P) (pk : Key) : Prop :=
  ∃ peer, s.findPeer pk = some peer ∧ peer.handshaked = true

lemma noiseOf_of_found (found : s.findPeer pk = some peer) : s.noiseOf pk = peer.noise := by
  rw [noiseOf, found]
  rfl

lemma findPeer_setPeer_eq (found : s.findPeer pk = some peer) (hpk : peer'.pubkey = pk) :
    ((s.withTables t).setPeer peer').findPeer = Function.update s.findPeer pk (some peer') := by
  subst hpk
  exact find_set (Option.isSome_iff_exists.mpr ⟨peer, found⟩)

lemma noiseOf_update {f : Key → Option (Peer P)} {x : Option (Peer P)}
    (h : s'.findPeer = Function.update f pk x) (hf : s.findPeer = f) :
    s'.noiseOf = Function.update s.noiseOf pk (x.bind Peer.noise) := by
  subst hf
  funext pk'
  rw [noiseOf, h, Function.update_apply, Function.update_apply, noiseOf]
  split <;> rfl

lemma noiseOf_setPeer (found : s.findPeer pk = some peer) (hpk : peer'.pubkey = pk) :
    ((s.withTables t).setPeer peer').noiseOf = Function.update s.noiseOf pk peer'.noise :=
  noiseOf_update (findPeer_setPeer_eq found hpk) rfl

lemma noiseOf_add (absent : s.findPeer peer.pubkey = none) :
    noiseOf ⟨s.peers ++ [peer], t⟩ = Function.update s.noiseOf peer.pubkey peer.noise :=
  noiseOf_update (s := s) (x := some peer) (find_append_singleton absent) rfl

variable (pk) in
lemma noiseOf_remove :
    noiseOf ⟨s.peers.filter (·.pubkey ≠ pk), t⟩ = Function.update s.noiseOf pk none :=
  noiseOf_update (s := s) (x := none) find_filter_ne rfl

lemma baseOf_setPeer (found : s.findPeer pk = some peer) (hpk : peer'.pubkey = pk)
    (hbase : peer'.noise.map Noise.base = peer.noise.map Noise.base) :
    ((s.withTables t).setPeer peer').baseOf = s.baseOf := by
  funext pk'
  rw [baseOf, noiseOf_setPeer found hpk, Function.update_apply, baseOf]
  split
  · next heq => rw [heq, noiseOf_of_found found, hbase]
  · rfl

lemma base_withNoise {n n' : Noise P} (before : peer.noise = some n) (hsame : n.SameBase n') :
    (peer.withNoise n').noise.map Noise.base = peer.noise.map Noise.base := by
  rw [before]
  exact congrArg some hsame.base_eq

lemma QuietStep.baseOf (hstep : QuietStep s s') : s'.baseOf = s.baseOf := by
  cases hstep with
  | tables => rfl
  | peer found quiet =>
    refine baseOf_setPeer found quiet.pubkey ?_
    cases quiet with
    | touch _ touched =>
      exact congrArg (fun raw => (raw.data.map noise).map Noise.base) touched.raw
    | call before still => exact base_withNoise before still.base
    | register => rfl

lemma QuietSteps.baseOf (hsteps : QuietSteps s s') : s'.baseOf = s.baseOf := by
  induction hsteps with
  | refl => rfl
  | tail _ hstep ih => exact hstep.baseOf.trans ih

variable {bytes : Bytes}

/-- A packet changes one tunnel, whose keys and index space stay. -/
lemma Received.changes (hreceived : s.Received pk bytes s') : ∃ t peer n n',
    s.findPeer pk = some peer ∧ peer.noise = some n ∧ n.SameBase n' ∧
      s' = (s.withTables t).setPeer (peer.withNoise n') := by
  cases hreceived with
  | response found before _ accepted =>
    exact ⟨_, _, _, _, found, before, Noise.sameBase_install accepted, rfl⟩
  | data found before _ handled =>
    exact ⟨_, _, _, _, found, before, Noise.sameBase_data handled, rfl⟩
  | init found before _ handled =>
    exact ⟨s.tables, _, _, _, found, before, Noise.sameBase_init handled, rfl⟩

lemma Received.baseOf (hreceived : s.Received pk bytes s') : s'.baseOf = s.baseOf := by
  obtain ⟨t, peer, n, n', found, before, hbase, rfl⟩ := hreceived.changes
  exact baseOf_setPeer found ((peer.withNoise_pubkey _).trans (findPeer_pubkey found))
    (base_withNoise before hbase)

/-! ### Keys -/

lemma QuietStep.unique (hstep : QuietStep s s') (h : s.Unique) : s'.Unique := by
  cases hstep with
  | tables => exact h
  | peer => exact unique_setPeer.mpr h

lemma QuietSteps.unique (hsteps : QuietSteps s s') (h : s.Unique) : s'.Unique := by
  induction hsteps with
  | refl => exact h
  | tail _ hstep ih => exact hstep.unique ih

lemma Received.unique (hreceived : s.Received pk bytes s') (h : s.Unique) : s'.Unique := by
  cases hreceived <;> exact unique_setPeer.mpr h

lemma Reset.unique (hreset : s.Reset cfg s') (h : s.Unique) : s'.Unique := by
  cases hreset with
  | rebuild => exact unique_setPeer.mpr h
  | add absent =>
    unfold Unique
    rw [List.map_append, List.nodup_append]
    refine ⟨h, by simp, ?_⟩
    intro pk hpk pk' hpk' heq
    rw [List.map_singleton, List.mem_singleton] at hpk'
    exact find_eq_none.mp absent (hpk' ▸ heq ▸ hpk)
  | remove => exact h.sublist (List.filter_sublist.map _)

lemma Handled.unique {packet : Option (Key × Bytes)} (hhandled : Handled cfg packet s s')
    (h : s.Unique) : s'.Unique := by
  obtain ⟨s₁, s₂, s₃, hreceived, hquiet, hreset, hlast⟩ := hhandled.phases
  have h₁ : s₁.Unique := by
    rcases hreceived with rfl | ⟨_, _, -, hreceived⟩
    · exact h
    · exact hreceived.unique h
  have h₂ := QuietSteps.unique hquiet h₁
  have h₃ : s₃.Unique := by
    rcases hreset with rfl | hreset
    · exact h₂
    · exact hreset.unique h₂
  exact QuietSteps.unique hlast h₃

/-! ### Completed handshakes -/

/-- No handshake is forgotten, and no peer appears. -/
structure Keeps (s s' : Shard P) : Prop where
  shaken : ∀ pk, s.Shaken pk → s'.Shaken pk
  absent : ∀ pk, s.findPeer pk = none → s'.findPeer pk = none

lemma Keeps.refl (s : Shard P) : s.Keeps s := ⟨fun _ => id, fun _ => id⟩

lemma Keeps.trans {s'' : Shard P} (h : s.Keeps s') (h' : s'.Keeps s'') : s.Keeps s'' :=
  ⟨fun pk => h'.shaken pk ∘ h.shaken pk, fun pk => h'.absent pk ∘ h.absent pk⟩

lemma keeps_setPeer (found : s.findPeer pk = some peer) (hpk : peer'.pubkey = pk)
    (hkeep : peer.handshaked = true → peer'.handshaked = true) :
    s.Keeps ((s.withTables t).setPeer peer') := by
  constructor
  · rintro pk' ⟨old, hold, hshaken⟩
    unfold Shaken
    rw [findPeer_setPeer_eq found hpk, Function.update_apply]
    split
    · next heq =>
      rw [heq, found] at hold
      cases hold
      exact ⟨peer', rfl, hkeep hshaken⟩
    · exact ⟨old, hold, hshaken⟩
  · intro pk' hnone
    rw [findPeer_setPeer_eq found hpk, Function.update_apply]
    split
    · next heq =>
      rw [heq, found] at hnone
      cases hnone
    · exact hnone

lemma QuietStep.keeps (hstep : QuietStep s s') : s.Keeps s' := by
  cases hstep with
  | tables => exact ⟨fun _ => id, fun _ => id⟩
  | peer found quiet =>
    refine keeps_setPeer found quiet.pubkey ?_
    cases quiet with
    | touch _ touched => exact touched.handshaked
    | call => exact id
    | register => exact id

lemma QuietSteps.keeps (hsteps : QuietSteps s s') : s.Keeps s' := by
  induction hsteps with
  | refl => exact .refl _
  | tail _ hstep ih => exact ih.trans hstep.keeps

lemma Received.keeps (hreceived : s.Received pk bytes s') : s.Keeps s' := by
  obtain ⟨t, peer, n, n', found, -, -, rfl⟩ := hreceived.changes
  exact keeps_setPeer found ((peer.withNoise_pubkey _).trans (findPeer_pubkey found)) id

/-- Only a peer that is removed loses its handshake. -/
lemma Reset.shaken (hreset : s.Reset cfg s') (h : s.Shaken pk) :
    s'.Shaken pk ∨ s'.findPeer pk = none := by
  cases hreset with
  | @rebuild _ peer n found =>
    have hpk : (peer.rebuilt ⟨some ⟨n⟩⟩).pubkey = peer.pubkey := rfl
    exact Or.inl ((keeps_setPeer found (hpk.trans (findPeer_pubkey found)) fun _ => rfl).shaken
      pk h)
  | @add peer absent =>
    obtain ⟨old, hold, hshaken⟩ := h
    left
    refine ⟨old, ?_, hshaken⟩
    have hne : pk ≠ peer.pubkey := by
      rintro rfl
      rw [absent] at hold
      cases hold
    exact (congrFun (find_append_singleton absent) pk).trans
      ((Function.update_of_ne hne _ _).trans hold)
  | remove pk' =>
    obtain ⟨old, hold, hshaken⟩ := h
    have hfind : find Peer.pubkey (s.peers.filter fun p => p.pubkey ≠ pk') pk =
        Function.update (find Peer.pubkey s.peers) pk' none pk :=
      congrFun find_filter_ne pk
    rw [Function.update_apply] at hfind
    split at hfind
    · exact Or.inr hfind
    · exact Or.inl ⟨old, hfind.trans hold, hshaken⟩

lemma Handled.shaken {packet : Option (Key × Bytes)} (hhandled : Handled cfg packet s s')
    (h : s.Shaken pk) : s'.Shaken pk ∨ s'.findPeer pk = none := by
  obtain ⟨s₁, s₂, s₃, hreceived, hquiet, hreset, hlast⟩ := hhandled.phases
  have h₁ : s₁.Shaken pk := by
    rcases hreceived with rfl | ⟨_, _, -, hreceived⟩
    · exact h
    · exact hreceived.keeps.shaken pk h
  have h₂ := (QuietSteps.keeps hquiet).shaken pk h₁
  have h₃ : s₃.Shaken pk ∨ s₃.findPeer pk = none := by
    rcases hreset with rfl | hreset
    · exact Or.inl h₂
    · exact hreset.shaken h₂
  have hkeeps := QuietSteps.keeps hlast
  exact h₃.imp (hkeeps.shaken pk) (hkeeps.absent pk)

end Views

end Shard

/-! ## Steps of the data plane -/

namespace DataPlane

variable {cfg : Config P} {d d' : DataPlane P} {e : Event}

lemma shard_setShard_self (wid : Nat) (s : Shard P) : (d.setShard wid s).shard wid = s := by
  simp [shard, setShard]

lemma shard_setShard_of_ne {wid wid' : Nat} (s : Shard P) (hne : wid' ≠ wid) :
    (d.setShard wid s).shard wid' = ⟨(d.workers wid').peers,
      ⟨(d.workers wid').table, s.tables.owner, s.tables.routes, s.tables.peerIndex⟩⟩ := by
  simp [shard, setShard, Function.update_of_ne hne]

lemma step_eq_some {out : List Output} (h : d.step cfg e = some (d', out)) :
    ∃ s, (d.shard e.wid).handle cfg e.env e.msg = some (s, out) ∧ d' = d.setShard e.wid s := by
  obtain ⟨⟨s, out'⟩, hhandle, heq⟩ := Option.map_eq_some_iff.mp h
  cases heq
  exact ⟨s, hhandle, rfl⟩

lemma next?_eq_some (h : d.next? cfg e = some d') :
    ∃ s out, (d.shard e.wid).handle cfg e.env e.msg = some (s, out) ∧ d' = d.setShard e.wid s := by
  obtain ⟨⟨d₁, out⟩, hstep, rfl⟩ := Option.map_eq_some_iff.mp h
  obtain ⟨s, hhandle, rfl⟩ := step_eq_some hstep
  exact ⟨s, out, hhandle, rfl⟩

end DataPlane

end Fluxpeer.Node
