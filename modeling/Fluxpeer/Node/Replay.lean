import Fluxpeer.Node.Changes
import Fluxpeer.Tunnel.Answers

/-!
# Replayed INITs

A worker that gets an old INIT of a peer again should at most send the stored response again. What
counts as old is recorded beside the data plane: the timestamps of the INITs that were accepted
from a peer since it was added. `acceptInit_undisturbed_iff` says for which replays the peer is
left alone.
-/

namespace Fluxpeer.Node

open Lib Crypto Net Tunnel Shard RawCryptor

variable {P : Primitives} {role : Role} {resp : Option Bytes}

/-! ## What a replay must not touch -/

/-- The cryptor, the handshake flag and the path of a peer are the same. -/
structure Peer.Alike (peer peer' : Peer P) : Prop where
  raw : peer'.raw = peer.raw
  handshaked : peer'.handshaked = peer.handshaked
  directAddr : peer'.directAddr = peer.directAddr
  preferTcp : peer'.preferTcp = peer.preferTcp
  preferRelay : peer'.preferRelay = peer.preferRelay

namespace Shard

/-- The peer and its indices are the same, and at most a stored response was sent. -/
structure Undisturbed (cfg : Config P) (env : Env) (pk : Key) (s s' : Shard P)
    (out : List Output) : Prop where
  peer : ∃ peer peer', s.findPeer pk = some peer ∧ s'.findPeer pk = some peer' ∧ peer.Alike peer'
  slots : s'.tables.table.slotsOf pk = s.tables.table.slotsOf pk
  locals : ∀ idx, s'.tables.table.get idx = some pk ↔ s.tables.table.get idx = some pk
  owner : ∀ idx, s.tables.table.get idx = some pk →
    s'.tables.owner.lookup idx = s.tables.owner.lookup idx
  sent : out = [] ∨
    ∃ q ∈ s.peers, ∃ resp, q.lastResp = some resp ∧ out = sendToPeer cfg env q resp

variable {cfg : Config P} {env : Env} {draw : Draw} {s s' : Shard P} {pk : Key} {peer : Peer P}
  {bytes : Bytes} {src : Option SocketAddr} {via : Via} {out : List Output} {t : Tables}

lemma undisturbed_withTables (found : s.findPeer pk = some peer)
    (indices : s.tables.SameIndices t)
    (sent : out = [] ∨
      ∃ q ∈ s.peers, ∃ resp, q.lastResp = some resp ∧ out = sendToPeer cfg env q resp) :
    s.Undisturbed cfg env pk (s.withTables t) out where
  peer := ⟨peer, peer, found, found, ⟨rfl, rfl, rfl, rfl, rfl⟩⟩
  slots := by rw [withTables_tables, indices.table]
  locals := by
    intro idx
    rw [withTables_tables, indices.table]
  owner := by
    intro idx _
    rw [withTables_tables, indices.owner]
  sent := sent

lemma handshake_notMem_sendToPeer {q : Peer P} {resp : Bytes} :
    Output.handshake pk role ∉ sendToPeer cfg env q resp := by
  unfold sendToPeer
  split
  · simp
  split
  · simp
  split <;> simp

/-- A completed handshake is more than a response sent again. -/
lemma not_undisturbed_of_handshake (hmem : Output.handshake pk role ∈ out) :
    ¬ s.Undisturbed cfg env pk s' out := by
  intro h
  rcases h.sent with rfl | ⟨q, -, resp, -, rfl⟩
  · cases hmem
  · exact handshake_notMem_sendToPeer hmem

lemma not_undisturbed_of_noise (hne : s'.noiseOf pk ≠ s.noiseOf pk) :
    ¬ s.Undisturbed cfg env pk s' out := by
  intro h
  obtain ⟨peer, peer', found, found', halike⟩ := h.peer
  refine hne ?_
  rw [noiseOf_of_found found, noiseOf_of_found found', Peer.noise, Peer.noise, halike.raw]

/-! ## The outcomes of `accept_init` -/

lemma answerInit_handshake :
    Output.handshake peer.pubkey role ∈ (s.answerInit cfg env peer bytes src via resp role).2 := by
  have hpk : ((peer.setPath src via env.now).answered bytes env.now).pubkey = peer.pubkey :=
    ((touched_setPath peer src via env.now).trans (touched_answered _ bytes env.now)).pubkey
  unfold answerInit
  cases resp with
  | none =>
    dsimp only
    rw [hpk]
    exact List.mem_cons_self
  | some resp =>
    dsimp only
    rw [show (((peer.setPath src via env.now).answered bytes env.now).withResp resp).pubkey =
      peer.pubkey from hpk]
    exact List.mem_cons_self

variable (src via) in
/-- A cryptor that cannot be built leaves nothing but a used base. -/
lemma acceptFresh_refused {e : Error}
    (h : (Cryptor.handleHandshake P s.tables.peerIndex cfg.ownPriv cfg.ownPub bytes
      (env.ambient draw.fresh draw)).2 = .error e) :
    ∃ peerIndex, s.acceptFresh cfg env draw bytes src via =
      (s.withTables { s.tables with peerIndex := peerIndex }, []) := by
  cases hcall : Cryptor.handleHandshake P s.tables.peerIndex cfg.ownPriv cfg.ownPub bytes
      (env.ambient draw.fresh draw) with | mk peerIndex r =>
  rw [hcall] at h
  cases h
  refine ⟨peerIndex, ?_⟩
  simp only [acceptFresh, handleHandshake, new, hcall]

lemma acceptFresh_accepted {answer : Cryptor P × Option Bytes}
    (found : s.findPeer pk = some peer)
    (hpeek : peekInitPubkey P cfg.ownPriv cfg.ownPub bytes = some pk)
    (h : (Cryptor.handleHandshake P s.tables.peerIndex cfg.ownPriv cfg.ownPub bytes
      (env.ambient draw.fresh draw)).2 = .ok answer) :
    Output.handshake pk .responder ∈ (s.acceptFresh cfg env draw bytes src via).2 := by
  cases hcall : Cryptor.handleHandshake P s.tables.peerIndex cfg.ownPriv cfg.ownPub bytes
      (env.ambient draw.fresh draw) with | mk peerIndex r =>
  obtain ⟨c, resp⟩ := answer
  rw [hcall] at h
  cases h
  obtain ⟨-, hpk, -⟩ := Cryptor.handleHandshake_fresh cfg.ownPub_eq hcall
  rw [hpeek] at hpk
  cases hpk
  have hfound : (s.withTables { s.tables with peerIndex := peerIndex }).findPeer c.getPeerPublic =
    some peer := found
  simp only [acceptFresh, handleHandshake, new, hcall,
    getPeerPublic, hfound]
  have hanswer : ∀ s₁ : Shard P, Output.handshake c.getPeerPublic .responder ∈
      (s₁.answerInit cfg env (peer.rebuilt ⟨some c⟩) bytes src via resp .responder).2 := by
    intro s₁
    rw [← findPeer_pubkey found]
    exact answerInit_handshake
  exact hanswer _

/-- The peers' cryptors were made with the node's own key for the peers' keys. -/
def OwnKeys (cfg : Config P) (s : Shard P) : Prop :=
  ∀ pk base, s.baseOf pk = some base →
    base.1 = NoiseParams.new P cfg.ownPriv pk none ∧ base.2.1 = Verifier.new P cfg.ownPub

lemma rekeyPeer_of_shaken (found : s.findPeer pk = some peer)
    (hshaken : s.Shaken pk) (hpeek : peekInitPubkey P cfg.ownPriv cfg.ownPub bytes = some pk) :
    s.rekeyPeer cfg bytes = some peer := by
  obtain ⟨peer', found', hhandshaked⟩ := hshaken
  have hany : (s.peers.any fun p => p.pubkey = pk && p.handshaked) = true := by
    rw [List.any_eq_true]
    refine ⟨peer', Keyed.mem_of_find found', ?_⟩
    rw [findPeer_pubkey found', hhandshaked]
    simp
  simp only [rekeyPeer, hpeek, Option.filter, hany, if_true, Option.bind_some, found]

end Shard

/-- An INIT that a party with the key `pk` composed, with its timestamp. An ideal MAC is accepted
only by the party that the INIT is for. -/
def Produced (cfg : Config P) (pk : Key) (bytes : Bytes) (timestamp : Tai64N) : Prop :=
  ∃ i : Handshake P, i.params.staticPublic = pk ∧ i.Composes bytes timestamp ∧
    (i.params.peerStaticPublic = cfg.ownPub ∨
      ∀ packet, (Verifier.new P cfg.ownPub).verifyPacket P bytes ≠ .ok packet)

/-- The node reads the INIT as one of `pk` with the timestamp. -/
def ReadAs (cfg : Config P) (pk : Key) (bytes : Bytes) (timestamp : Tai64N) : Prop :=
  ∃ p chainingKey hash,
    (Verifier.new P cfg.ownPub).verifyPacket P bytes = .ok (.handshakeInit p) ∧
    Handshake.openInitiation (NoiseParams.new P cfg.ownPriv pk none) p =
      .ok (timestamp, chainingKey, hash) ∧
    Handshake.parseHandshakeAnon P cfg.ownPriv cfg.ownPub p = .ok pk

section ReadAs

variable {cfg : Config P} {env : Env} {draw : Draw} {s s' : Shard P} {pk : Key} {peer : Peer P}
  {bytes : Bytes} {src : Option SocketAddr} {via : Via} {timestamp : Tai64N}

lemma Produced.cases (hP : P.Lawful) (h : Produced cfg pk bytes timestamp) :
    peekInitPubkey P cfg.ownPriv cfg.ownPub bytes = none ∨ ReadAs cfg pk bytes timestamp := by
  obtain ⟨i, rfl, hcomposes, hown | hrejected⟩ := h
  · right
    have hknown : Handshake.Acquainted i.params
        (NoiseParams.new P cfg.ownPriv i.params.staticPublic none) :=
      ⟨hown.trans cfg.ownPub_eq, rfl⟩
    have hopened := hcomposes.opened hP hknown
    unfold ReadAs
    rw [cfg.ownPub_eq]
    exact hopened
  · left
    unfold peekInitPubkey
    split
    · next hverify => exact absurd hverify (hrejected _)
    · rfl

lemma Produced.after_zero (h : Produced cfg pk bytes timestamp) :
    timestamp.after .zero = true := by
  obtain ⟨i, -, hcomposes, -⟩ := h
  exact hcomposes.after_zero

lemma ReadAs.peek (h : ReadAs cfg pk bytes timestamp) :
    peekInitPubkey P cfg.ownPriv cfg.ownPub bytes = some pk := by
  obtain ⟨p, _, _, hverify, -, hanon⟩ := h
  simp only [peekInitPubkey, hverify, hanon]
  rfl

/-- A cryptor of the peer that is there refuses what is not newer. -/
lemma ReadAs.rekeyRespond_stale (h : ReadAs cfg pk bytes timestamp) (hkeys : s.OwnKeys cfg)
    (found : s.findPeer pk = some peer)
    (hstale : ∀ n, peer.noise = some n →
      timestamp.after n.handshake.lastHandshakeTimestamp = false)
    (dst : Bytes) (ambient : Ambient) :
    ∃ e, peer.raw.rekeyRespond bytes dst ambient = some (peer.raw, .error e) := by
  unfold rekeyRespond drive?
  cases hdata : peer.raw.data with
  | none => exact ⟨_, rfl⟩
  | some c =>
    have hnoise : peer.noise = some c.noise := Peer.noise_eq_some.mpr hdata
    obtain ⟨p, _, _, hverify, hopen, -⟩ := h
    obtain ⟨hparams, hverifier⟩ := hkeys pk c.noise.base (by
      rw [baseOf, noiseOf_of_found found, hnoise]
      rfl)
    have hrespond := Cryptor.rekeyRespond_stale (c := c) dst ambient
      (by rw [show c.noise.verifier = _ from hverifier]; exact hverify)
      (by rw [show c.noise.handshake.params = _ from hparams]; exact hopen)
      (hstale c.noise hnoise)
    refine ⟨.wrongTai64nTimestamp, ?_⟩
    simp only [hrespond, Option.map_some]
    rw [← hdata]

/-- It takes the timestamp of what is newer. -/
lemma ReadAs.rekeyRespond_newer (h : ReadAs cfg pk bytes timestamp) (hkeys : s.OwnKeys cfg)
    (found : s.findPeer pk = some peer) {n : Noise P} (hnoise : peer.noise = some n)
    (hnewer : timestamp.after n.handshake.lastHandshakeTimestamp = true)
    (dst : Bytes) (ambient : Ambient) :
    ∃ c r, peer.raw.rekeyRespond bytes dst ambient = some (⟨some c⟩, r) ∧
      c.noise.handshake.lastHandshakeTimestamp = timestamp := by
  obtain ⟨p, _, _, hverify, hopen, -⟩ := h
  obtain ⟨hparams, hverifier⟩ := hkeys pk n.base (by
    rw [baseOf, noiseOf_of_found found, hnoise]
    rfl)
  obtain ⟨c', r, hrespond, hstamp⟩ := Cryptor.rekeyRespond_newer (c := ⟨n⟩) dst
    ambient (by rw [show n.verifier = _ from hverifier]; exact hverify)
    (by rw [show n.handshake.params = _ from hparams]; exact hopen) hnewer
  refine ⟨c', r, ?_, hstamp⟩
  unfold rekeyRespond drive?
  rw [Peer.noise_eq_some.mp hnoise]
  simp only [hrespond, Option.map_some]

variable (env draw src via) in
/-- A cryptor built for the INIT answers it exactly when there is a random key. -/
lemma ReadAs.acceptFresh (hP : P.Lawful) (h : ReadAs cfg pk bytes timestamp)
    (hzero : timestamp.after .zero = true) (found : s.findPeer pk = some peer) :
    if draw.fresh.isSome then
      Output.handshake pk .responder ∈ (s.acceptFresh cfg env draw bytes src via).2
    else ∃ peerIndex, s.acceptFresh cfg env draw bytes src via =
      (s.withTables { s.tables with peerIndex := peerIndex }, []) := by
  have hpeek := h.peek
  obtain ⟨p, _, _, hverify, hopen, hanon⟩ := h
  have hok := Cryptor.handleHandshake_isOk (env.ambient draw.fresh draw) s.tables.peerIndex
    hP hverify hanon hopen hzero
  cases hcall : (Cryptor.handleHandshake P s.tables.peerIndex cfg.ownPriv cfg.ownPub bytes
    (env.ambient draw.fresh draw)).2 with
  | error e =>
    rw [hcall] at hok
    have hnone : draw.fresh.isSome = false := hok.symm
    rw [if_neg (Bool.not_eq_true _ ▸ hnone)]
    exact acceptFresh_refused src via hcall
  | ok answer =>
    rw [hcall] at hok
    have hsome : draw.fresh.isSome = true := hok.symm
    rw [if_pos hsome]
    exact acceptFresh_accepted found hpeek hcall

/-- What the cryptor of the peer refuses goes on to a cryptor built anew. -/
lemma ReadAs.acceptInit_stale (h : ReadAs cfg pk bytes timestamp) (hkeys : s.OwnKeys cfg)
    (found : s.findPeer pk = some peer) (hshaken : s.Shaken pk)
    (hfind : s.peers.find? (·.lastInit = some bytes) = none)
    (hstale : ∀ n, peer.noise = some n →
      timestamp.after n.handshake.lastHandshakeTimestamp = false) :
    s.acceptInit cfg env draw bytes src via = some (s.acceptFresh cfg env draw bytes src via) := by
  obtain ⟨e, hrespond⟩ := h.rekeyRespond_stale hkeys found hstale (List.replicate 256 0)
    (env.ambient draw.ephemeral draw)
  have hsame : s.setPeer (peer.withRaw peer.raw) = s :=
    setPeer_self ((findPeer_pubkey found).symm ▸ found)
  simp only [acceptInit, hfind, rekeyPeer_of_shaken found hshaken h.peek, hrespond,
    hsame]

/-- What the cryptor of the peer takes leaves a trace in any case. -/
lemma ReadAs.acceptInit_newer (hP : P.Lawful) (h : ReadAs cfg pk bytes timestamp)
    (hzero : timestamp.after .zero = true) (hkeys : s.OwnKeys cfg)
    (found : s.findPeer pk = some peer) (hshaken : s.Shaken pk)
    (hfind : s.peers.find? (·.lastInit = some bytes) = none) {n : Noise P}
    (hnoise : peer.noise = some n)
    (hnewer : timestamp.after n.handshake.lastHandshakeTimestamp = true) {out : List Output}
    (hcall : s.acceptInit cfg env draw bytes src via = some (s', out)) :
    ¬ s.Undisturbed cfg env pk s' out := by
  obtain ⟨c, r, hrespond, hstamp⟩ := h.rekeyRespond_newer hkeys found hnoise hnewer
    (List.replicate 256 0) (env.ambient draw.ephemeral draw)
  obtain rfl : peer.pubkey = pk := findPeer_pubkey found
  simp only [acceptInit, hfind, rekeyPeer_of_shaken found hshaken h.peek, hrespond]
    at hcall
  cases r with
  | ok resp =>
    have hmem : Output.handshake (peer.withRaw ⟨some c⟩).pubkey .rekeyResponder ∈ (s.answerInit cfg
        env (peer.withRaw ⟨some c⟩) bytes src via resp .rekeyResponder).2 :=
      answerInit_handshake
    rw [Option.some.inj hcall] at hmem
    exact not_undisturbed_of_handshake hmem
  | error e =>
    have found' : (s.setPeer (peer.withRaw ⟨some c⟩)).findPeer peer.pubkey =
        some (peer.withRaw ⟨some c⟩) :=
      findPeer_setPeer (Option.isSome_iff_exists.mpr ⟨peer, found⟩)
    have hfresh := h.acceptFresh env draw src via hP hzero found'
    have hcall := Option.some.inj hcall
    split at hfresh
    · rw [hcall] at hfresh
      exact not_undisturbed_of_handshake hfresh
    obtain ⟨peerIndex, hrefused⟩ := hfresh
    have hnoise' := noiseOf_of_found found'
    obtain rfl : s' = _ := congrArg Prod.fst (hcall.symm.trans hrefused)
    refine not_undisturbed_of_noise fun heq => ?_
    -- The timestamps tell the cryptors apart.
    have hsame : some c.noise = some n :=
      hnoise'.symm.trans (heq.trans ((noiseOf_of_found found).trans hnoise))
    cases hsame
    rw [hstamp, Tai64N.not_after_self] at hnewer
    cases hnewer

/-- An INIT that was the last one answered is answered again from what was stored. -/
lemma Shard.acceptInit_resent {q : Peer P} (found : s.findPeer pk = some peer)
    (hfind : s.peers.find? (·.lastInit = some bytes) = some q) :
    ∃ s' out, s.acceptInit cfg env draw bytes src via = some (s', out) ∧
      s.Undisturbed cfg env pk s' out := by
  refine ⟨s, _, by rw [acceptInit, hfind], undisturbed_withTables found (.refl _) ?_⟩
  cases hresp : q.lastResp with
  | none => exact Or.inl rfl
  | some resp => exact Or.inr ⟨q, List.mem_of_find?_eq_some hfind, resp, hresp, rfl⟩

/-- An INIT that the node cannot read is dropped. -/
lemma Shard.acceptInit_unread (found : s.findPeer pk = some peer)
    (hfind : s.peers.find? (·.lastInit = some bytes) = none)
    (hpeek : peekInitPubkey P cfg.ownPriv cfg.ownPub bytes = none) :
    ∃ s' out, s.acceptInit cfg env draw bytes src via = some (s', out) ∧
      s.Undisturbed cfg env pk s' out := by
  have hrekey : s.rekeyPeer cfg bytes = none := by
    rw [rekeyPeer, hpeek]
    rfl
  obtain ⟨peerIndex, e, hcall⟩ := Cryptor.handleHandshake_of_peek_none (P := P)
    (env.ambient draw.fresh draw) cfg.ownPriv s.tables.peerIndex (cfg.ownPub_eq ▸ hpeek)
  rw [← cfg.ownPub_eq] at hcall
  obtain ⟨peerIndex', hrefused⟩ := acceptFresh_refused src via
    (congrArg Prod.snd hcall)
  have haccept : s.acceptInit cfg env draw bytes src via =
      some (s.withTables { s.tables with peerIndex := peerIndex' }, []) := by
    rw [acceptInit, hfind, hrekey]
    exact congrArg some hrefused
  exact ⟨_, _, haccept, undisturbed_withTables found ⟨rfl, rfl⟩ (Or.inl rfl)⟩

/-- The INITs of a peer that leave it alone: the last one answered, one that the node cannot read,
and one that is not newer than the last one accepted while there is no random key for a new
cryptor. -/
def Shard.Harmless (cfg : Config P) (draw : Draw) (s : Shard P) (pk : Key) (bytes : Bytes)
    (timestamp : Tai64N) : Prop :=
  (∃ q ∈ s.peers, q.lastInit = some bytes) ∨
    peekInitPubkey P cfg.ownPriv cfg.ownPub bytes = none ∨
    ((∀ n, s.noiseOf pk = some n →
      timestamp.after n.handshake.lastHandshakeTimestamp = false) ∧ draw.fresh = none)

lemma Shard.acceptInit_undisturbed (hP : P.Lawful) (hkeys : s.OwnKeys cfg)
    (found : s.findPeer pk = some peer) (hshaken : s.Shaken pk)
    (hproduced : Produced cfg pk bytes timestamp) :
    (∃ s' out, s.acceptInit cfg env draw bytes src via = some (s', out) ∧
      s.Undisturbed cfg env pk s' out) ↔ s.Harmless cfg draw pk bytes timestamp := by
  unfold Harmless
  rw [noiseOf_of_found found]
  cases hfind : s.peers.find? (·.lastInit = some bytes) with
  | some q =>
    have hlast := List.find?_some hfind
    exact iff_of_true (acceptInit_resent found hfind)
      (Or.inl ⟨q, List.mem_of_find?_eq_some hfind, of_decide_eq_true hlast⟩)
  | none =>
    have hnone : ¬ ∃ q ∈ s.peers, q.lastInit = some bytes := by
      rintro ⟨q, hmem, hlast⟩
      exact List.find?_eq_none.mp hfind q hmem (decide_eq_true hlast)
    rw [or_iff_right hnone]
    rcases hproduced.cases hP with hpeek | hread
    · exact iff_of_true (acceptInit_unread found hfind hpeek) (Or.inl hpeek)
    rw [hread.peek, or_iff_right (by simp)]
    by_cases hstale : ∀ n, peer.noise = some n →
        timestamp.after n.handshake.lastHandshakeTimestamp = false
    · rw [hread.acceptInit_stale hkeys found hshaken hfind hstale, and_iff_right hstale]
      have hfresh := hread.acceptFresh (s := s) env draw src via hP
        hproduced.after_zero found
      split at hfresh
      · next hsome =>
        refine iff_of_false ?_ (Option.isSome_iff_ne_none.mp hsome)
        rintro ⟨s', out, hcall, hundisturbed⟩
        rw [Option.some.inj hcall] at hfresh
        exact not_undisturbed_of_handshake hfresh hundisturbed
      · next hnone =>
        obtain ⟨peerIndex, hrefused⟩ := hfresh
        refine iff_of_true ?_ (Option.not_isSome_iff_eq_none.mp hnone)
        exact ⟨_, _, congrArg some hrefused,
          undisturbed_withTables found ⟨rfl, rfl⟩ (Or.inl rfl)⟩
    · refine iff_of_false ?_ fun h => hstale h.1
      simp only [not_forall, Bool.not_eq_false] at hstale
      obtain ⟨n, hnoise, hnewer⟩ := hstale
      rintro ⟨s', out, hcall, hundisturbed⟩
      exact hread.acceptInit_newer hP hproduced.after_zero hkeys found hshaken hfind hnoise
        hnewer hcall hundisturbed

end ReadAs

/-! ## Runs -/

/-- The INIT of a message that is handed to `accept_init`. -/
def WorkerMsg.init? : WorkerMsg → Option Bytes
  | .udpIn _ bytes =>
    if !discoMagic.isPrefixOf bytes && bytes.head? = some tHandshakeInit then some bytes else none
  | .relayIn _ bytes | .tcpIn _ bytes =>
    if bytes.head? = some tHandshakeInit then some bytes else none
  | _ => none

/-- The timestamp in an INIT of a peer. -/
def initTimestamp (cfg : Config P) (pk : Key) (bytes : Bytes) : Option Tai64N :=
  match (Verifier.new P cfg.ownPub).verifyPacket P bytes with
  | .ok (.handshakeInit p) =>
    (Handshake.openInitiation (NoiseParams.new P cfg.ownPriv pk none) p).toOption.map Prod.fst
  | _ => none

/-- A handshake with the peer was completed. -/
def Output.completes (pk : Key) : Output → Bool
  | .handshake pk' _ => pk' = pk
  | _ => false

/-- A data plane with the timestamps that each worker accepted from each peer since the peer was
added. -/
structure Recorded (P : Primitives) where
  plane : DataPlane P
  accepted : Nat → Key → List Tai64N

namespace Shard

variable {cfg : Config P} {env : Env} {draw : Draw} {s s' : Shard P} {pk : Key} {peer : Peer P}
  {bytes : Bytes} {src : Option SocketAddr} {via : Via} {out : List Output}

variable (cfg env) in
lemma handle_init {msg : WorkerMsg} (h : msg.init? = some bytes) :
    ∃ src via, s.handle cfg env msg = s.acceptInit cfg env (env.draws 0) bytes src via := by
  have hframed : ∀ (sender : Key) (bytes' : Bytes) (via : Via),
      (if bytes'.head? = some tHandshakeInit then some bytes' else none) = some bytes →
      s.onFramed cfg env sender bytes' via = s.acceptInit cfg env (env.draws 0) bytes none via := by
    intro sender bytes' via h
    split at h
    · next hhead =>
      cases h
      rw [onFramed, if_pos hhead]
    · cases h
  cases msg with
  | udpIn src bytes' =>
    simp only [WorkerMsg.init?] at h
    split at h
    · next hhead =>
      cases h
      simp only [Bool.and_eq_true, Bool.not_eq_true', decide_eq_true_eq] at hhead
      refine ⟨some src, .udpDirect, ?_⟩
      simp only [handle, onUdpIn, hhead.1, hhead.2, Bool.false_eq_true, if_false, if_true]
    · cases h
  | relayIn sender bytes' => exact ⟨none, .relay, hframed sender bytes' .relay h⟩
  | tcpIn sender bytes' => exact ⟨none, .tcpDirect, hframed sender bytes' .tcpDirect h⟩
  | _ => cases h

lemma any_completes : (out.any (·.completes pk)) = true ↔ ∃ role, Output.handshake pk role ∈ out := by
  rw [List.any_eq_true]
  constructor
  · rintro ⟨o, hmem, hcompletes⟩
    cases o with
    | handshake pk' role =>
      obtain rfl : pk' = pk := of_decide_eq_true hcompletes
      exact ⟨role, hmem⟩
    | _ => cases hcompletes
  · rintro ⟨role, hmem⟩
    exact ⟨_, hmem, decide_eq_true rfl⟩

variable (peer) in
lemma answerInit_shaken {role role' : Role} (found : (s.findPeer peer.pubkey).isSome)
    (hshaken : peer.handshaked = true)
    (h : s.answerInit cfg env peer bytes src via resp role = (s', out))
    (hout : Output.handshake pk role' ∈ out) : s'.Shaken pk := by
  have htouched : peer.Touched ((peer.setPath src via env.now).answered bytes env.now) :=
    (touched_setPath peer src via env.now).trans (touched_answered _ bytes env.now)
  have hplace : ∀ (t : Tables) (peer' : Peer P), peer.Touched peer' →
      ((s.withTables t).setPeer peer').Shaken peer'.pubkey := by
    intro t peer' htouched
    refine ⟨peer', findPeer_setPeer ?_, htouched.handshaked hshaken⟩
    rw [htouched.pubkey]
    exact found
  unfold answerInit at h
  cases resp with
  | none =>
    cases h
    rw [List.mem_singleton] at hout
    cases hout
    exact hplace s.tables _ htouched
  | some resp =>
    cases h
    rcases List.mem_cons.mp hout with heq | hmem
    · cases heq
      exact hplace _ _ (htouched.trans (touched_withResp _ resp))
    · exact absurd hmem handshake_notMem_sendToPeer

lemma acceptFresh_shaken (h : s.acceptFresh cfg env draw bytes src via = (s', out))
    (hout : Output.handshake pk role ∈ out) : s'.Shaken pk := by
  unfold acceptFresh at h
  dsimp only at h
  split at h
  · split at h
    · cases h
      cases hout
    next peer found =>
    refine answerInit_shaken _ (Option.isSome_iff_exists.mpr ⟨peer, ?_⟩) rfl h hout
    have hpk := findPeer_pubkey found
    exact hpk.symm ▸ found
  · cases h
    cases hout

lemma rekeyPeer_handshaked (hunique : s.Unique) (h : s.rekeyPeer cfg bytes = some peer) :
    peer.handshaked = true := by
  obtain ⟨pk, hfilter, found⟩ := Option.bind_eq_some_iff.mp h
  obtain ⟨-, hany⟩ := Option.filter_eq_some_iff.mp hfilter
  obtain ⟨p, hmem, hp⟩ := List.any_eq_true.mp hany
  simp only [Bool.and_eq_true, decide_eq_true_eq] at hp
  have hsame := Keyed.find_of_mem hunique hmem
  rw [hp.1] at hsame
  cases hsame.symm.trans found
  exact hp.2

/-- A handshake that `accept_init` completes is not forgotten. -/
lemma acceptInit_shaken (hunique : s.Unique)
    (h : s.acceptInit cfg env draw bytes src via = some (s', out))
    (hout : Output.handshake pk role ∈ out) : s'.Shaken pk := by
  unfold acceptInit at h
  split at h
  · cases h
    split at hout
    · cases hout
    · exact absurd hout handshake_notMem_sendToPeer
  split at h
  · exact acceptFresh_shaken (Option.some.inj h) hout
  next peer hpeer =>
  split at h
  · cases h
  · next raw resp hcall =>
    refine answerInit_shaken (peer.withRaw raw) ?_ ?_ (Option.some.inj h) hout
    · exact Option.isSome_iff_exists.mpr ⟨peer, rekeyPeer_found hpeer⟩
    · exact (rekeyPeer_handshaked hunique hpeer :)
  · exact acceptFresh_shaken (Option.some.inj h) hout

/-! ### Keys of cryptors -/

lemma ownKeys_update {pk : Key} {x : Option (Noise P)} (h : s.OwnKeys cfg)
    (hnoise : s'.noiseOf = Function.update s.noiseOf pk x)
    (hx : ∀ n, x = some n → n.Fresh cfg.ownPriv pk) : s'.OwnKeys cfg := by
  intro pk' base hbase
  rw [baseOf, hnoise, Function.update_apply] at hbase
  split at hbase
  · next heq =>
    obtain ⟨n, hn, rfl⟩ := Option.map_eq_some_iff.mp hbase
    have hfresh := hx n hn
    rw [heq, cfg.ownPub_eq]
    exact ⟨hfresh.params, hfresh.verifier⟩
  · exact h pk' base hbase

lemma Reset.ownKeys (hreset : s.Reset cfg s') (h : s.OwnKeys cfg) : s'.OwnKeys cfg := by
  cases hreset with
  | @rebuild pk peer n found fresh =>
    refine ownKeys_update h (noiseOf_setPeer found (findPeer_pubkey found :)) ?_
    rintro _ ⟨⟩
    exact fresh
  | add absent fresh => exact ownKeys_update h (noiseOf_add absent) fresh
  | remove pk => exact ownKeys_update h (noiseOf_remove pk) fun _ hn => nomatch hn

lemma Handled.ownKeys {packet : Option (Key × Bytes)} (hhandled : Handled cfg packet s s')
    (h : s.OwnKeys cfg) : s'.OwnKeys cfg := by
  have hcongr : ∀ {s s' : Shard P}, s'.baseOf = s.baseOf → s.OwnKeys cfg → s'.OwnKeys cfg := by
    intro s s' hbase h pk base hpk
    rw [hbase] at hpk
    exact h pk base hpk
  obtain ⟨s₁, s₂, s₃, hreceived, hquiet, hreset, hlast⟩ := hhandled.phases
  have h₁ : s₁.OwnKeys cfg := by
    rcases hreceived with rfl | ⟨_, _, -, hreceived⟩
    · exact h
    · exact hcongr hreceived.baseOf h
  have h₂ : s₂.OwnKeys cfg := hcongr (QuietSteps.baseOf hquiet) h₁
  have h₃ : s₃.OwnKeys cfg := by
    rcases hreset with rfl | hreset
    · exact h₂
    · exact hreset.ownKeys h₂
  exact hcongr (QuietSteps.baseOf hlast) h₃

end Shard

namespace Recorded

variable {cfg : Config P} {r r' : Recorded P} {e : DataPlane.Event}

def new (P : Primitives) : Recorded P := ⟨.new P, fun _ _ => []⟩

/-- The timestamps that handling an event adds for a peer. -/
def added (cfg : Config P) (e : DataPlane.Event) (out : List Output) (wid : Nat) (pk : Key) :
    List Tai64N :=
  if wid = e.wid ∧ out.any (·.completes pk) then
    (e.msg.init?.bind (initTimestamp cfg pk)).toList
  else []

def next? (cfg : Config P) (r : Recorded P) (e : DataPlane.Event) : Option (Recorded P) :=
  (r.plane.step cfg e).map fun (d, out) => ⟨d, fun wid pk =>
    if ((d.shard wid).findPeer pk).isNone then [] else added cfg e out wid pk ++ r.accepted wid pk⟩

/-- What every run keeps: the keys of peers and cryptors, and the handshakes that were recorded. -/
structure Kept (cfg : Config P) (r : Recorded P) : Prop where
  unique : ∀ wid, (r.plane.shard wid).Unique
  keys : ∀ wid, (r.plane.shard wid).OwnKeys cfg
  shaken : ∀ wid pk, r.accepted wid pk ≠ [] → (r.plane.shard wid).Shaken pk

lemma kept_new (P : Primitives) (cfg : Config P) : (Recorded.new P).Kept cfg where
  unique := fun _ => List.nodup_nil
  keys := by
    intro wid pk base hbase
    cases hbase
  shaken := fun _ _ h => absurd rfl h

lemma next?_eq_some (h : r.next? cfg e = some r') :
    ∃ s out, (r.plane.shard e.wid).handle cfg e.env e.msg = some (s, out) ∧
      r'.plane = r.plane.setShard e.wid s ∧
      ∀ wid pk, r'.accepted wid pk = if ((r'.plane.shard wid).findPeer pk).isNone then []
        else added cfg e out wid pk ++ r.accepted wid pk := by
  obtain ⟨⟨d, out⟩, hstep, rfl⟩ := Option.map_eq_some_iff.mp h
  obtain ⟨s, hhandle, rfl⟩ := DataPlane.step_eq_some hstep
  exact ⟨s, out, hhandle, rfl, fun _ _ => rfl⟩

/-- A timestamp is recorded only with a completed handshake. -/
lemma added_shaken {s s' : Shard P} {out : List Output} {pk : Key} (hunique : s.Unique)
    (hhandle : s.handle cfg e.env e.msg = some (s', out))
    (hadded : added cfg e out e.wid pk ≠ []) : s'.Shaken pk := by
  unfold added at hadded
  split at hadded
  · next hcompletes =>
    obtain ⟨role, hmem⟩ := any_completes.mp hcompletes.2
    cases hinit : e.msg.init? with
    | none =>
      rw [hinit] at hadded
      exact absurd rfl hadded
    | some bytes =>
      obtain ⟨src, via, hcall⟩ := handle_init (s := s) cfg e.env hinit
      exact acceptInit_shaken hunique (hcall.symm.trans hhandle) hmem
  · exact absurd rfl hadded

lemma Kept.step (h : r.Kept cfg) (hstep : r.next? cfg e = some r') : r'.Kept cfg := by
  obtain ⟨s, out, hhandle, hplane, haccepted⟩ := next?_eq_some hstep
  have hhandled := handle_handled (h.unique e.wid) hhandle
  have hself : r'.plane.shard e.wid = s := by
    rw [hplane]
    exact DataPlane.shard_setShard_self e.wid s
  -- Another worker sees new shared tables at most.
  have hother : ∀ wid, wid ≠ e.wid → ∃ t, r'.plane.shard wid = (r.plane.shard wid).withTables t := by
    intro wid hne
    rw [hplane, DataPlane.shard_setShard_of_ne s hne]
    exact ⟨_, rfl⟩
  refine ⟨?_, ?_, ?_⟩
  · intro wid
    by_cases heq : wid = e.wid
    · rw [heq, hself]
      exact hhandled.unique (h.unique e.wid)
    · obtain ⟨t, hshard⟩ := hother wid heq
      rw [hshard]
      exact h.unique wid
  · intro wid
    by_cases heq : wid = e.wid
    · rw [heq, hself]
      exact hhandled.ownKeys (h.keys e.wid)
    · obtain ⟨t, hshard⟩ := hother wid heq
      rw [hshard]
      exact h.keys wid
  · intro wid pk hne
    rw [haccepted] at hne
    split at hne
    · exact absurd rfl hne
    next hpresent =>
    by_cases heq : wid = e.wid
    · subst heq
      rw [hself] at hpresent ⊢
      by_cases hadded : added cfg e out e.wid pk = []
      · rw [hadded, List.nil_append] at hne
        refine (hhandled.shaken (h.shaken e.wid pk hne)).resolve_right ?_
        rwa [Option.isNone_iff_eq_none] at hpresent
      · exact added_shaken (h.unique e.wid) hhandle hadded
    · obtain ⟨t, hshard⟩ := hother wid heq
      rw [hshard]
      rw [added, if_neg fun h => heq h.1, List.nil_append] at hne
      exact h.shaken wid pk hne

/-- In every run of all workers each has a peer once, with a cryptor of our key for the peer's, and
a peer whose INIT was accepted is handshaked. -/
theorem always_kept (P : Primitives) (cfg : Config P) (es : List DataPlane.Event) :
    Always (next? cfg) (Kept cfg) (new P) es :=
  always_of_forall (fun _ _ _ h hstep => h.step hstep) (fun _ h => h) (kept_new P cfg)

/-- In every state that a data plane can reach, an INIT of a known peer that is not newer than one
accepted from it leaves the peer alone exactly when it is harmless. -/
theorem acceptInit_undisturbed_iff (hP : P.Lawful) (cfg : Config P) (events : List DataPlane.Event)
    (hrun : runFrom (next? cfg) (Recorded.new P) events = some r) (wid : Nat) (pk : Key)
    (hknown : ((r.plane.shard wid).findPeer pk).isSome) (bytes : Bytes) (timestamp : Tai64N)
    (hproduced : Produced cfg pk bytes timestamp)
    (hreplay : ∃ accepted ∈ r.accepted wid pk, timestamp.after accepted = false)
    (env : Env) (draw : Draw) (src : Option SocketAddr) (via : Via) :
    (∃ s' out, (r.plane.shard wid).acceptInit cfg env draw bytes src via = some (s', out) ∧
      (r.plane.shard wid).Undisturbed cfg env pk s' out) ↔
    (r.plane.shard wid).Harmless cfg draw pk bytes timestamp := by
  have hkept : r.Kept cfg :=
    inv_of_runFrom (fun _ _ _ h hstep => h.step hstep) (kept_new P cfg) hrun
  obtain ⟨peer, found⟩ := Option.isSome_iff_exists.mp hknown
  obtain ⟨accepted, hmem, -⟩ := hreplay
  exact acceptInit_undisturbed hP (hkept.keys wid) found
    (hkept.shaken wid pk (List.ne_nil_of_mem hmem)) hproduced

/-! ## Concrete replays -/

open DataPlane

/-- An INIT that the sample peer composes at a time in seconds. -/
def sampleInit (secs : Nat) : Bytes :=
  (Noise.sampleResponder.handshake.formatHandshakeInitiation (List.replicate 148 0)
    (some (Primitives.xorKey [4] [])) (secs * Env.nanos)).2.toOption.getD []

def sampleStamp (secs : Nat) : Block 12 :=
  ⟨beBytes 8 (secs + TimeStamper.tai64Base) ++ beBytes 4 0, by simp⟩

lemma produced_sampleInit (secs : Nat)
    (hstamp : Noise.sampleResponder.handshake.stamper.stamp (secs * Env.nanos) =
      .ok (sampleStamp secs)) :
    Produced sampleConfig samplePeer (sampleInit secs) (Tai64N.parse (sampleStamp secs)) := by
  obtain ⟨packet, hformat, hcomposes⟩ := Handshake.composes_of_stamp
    (List.replicate 148 0) Primitives.transparent_lawful Noise.sampleResponder.handshake
    (by simp [handshakeInitSz]) (Primitives.xorKey [4] []) hstamp
  refine ⟨Noise.sampleResponder.handshake, rfl, ?_, Or.inl rfl⟩
  rw [sampleInit, hformat]
  exact hcomposes

/-- The peer is added and sends two INITs over the relay. -/
def twoInits : List Event :=
  [sampleEvent 0 (.addPeer samplePeer [] false),
    sampleEvent 1 (.relayIn samplePeer (sampleInit 1)),
    sampleEvent 2 (.relayIn samplePeer (sampleInit 2))]

/-- The peer is known and the INIT of a time is not newer than one accepted. -/
def replays (r : Recorded Primitives.transparent) (secs : Nat) : Bool :=
  ((r.plane.shard 0).findPeer samplePeer).isSome &&
    (r.accepted 0 samplePeer).any fun accepted =>
      !(Tai64N.parse (sampleStamp secs)).after accepted

lemma exists_of_replays {r : Recorded Primitives.transparent} {secs : Nat}
    (h : r.replays secs = true) :
    ((r.plane.shard 0).findPeer samplePeer).isSome ∧ ∃ accepted ∈ r.accepted 0 samplePeer,
      (Tai64N.parse (sampleStamp secs)).after accepted = false := by
  simpa only [replays, Bool.and_eq_true, List.any_eq_true, Bool.not_eq_true'] using h

/-- What `accept_init` makes of the INIT of a time that comes over UDP. -/
def sampleReplay (r : Recorded Primitives.transparent) (secs : Nat) :
    Option (Shard Primitives.transparent × List Output) :=
  (r.plane.shard 0).acceptInit sampleConfig (sampleEvent 3 .tick).env sampleDraw (sampleInit secs)
    none .udpDirect

/-- The peer has other indices and another path. -/
def disturbed (s s' : Shard Primitives.transparent) : Bool :=
  s'.tables.table.slotsOf samplePeer != s.tables.table.slotsOf samplePeer &&
    (s'.findPeer samplePeer).map (·.preferRelay) != (s.findPeer samplePeer).map (·.preferRelay)

/-- The first INIT, sent again after the second, is refused by the peer's cryptor and accepted by
one built for it: the indices of the session in use are dropped and the path is taken over. -/
theorem disturbed_by_first_init :
    ∃ r s' out, runFrom (next? sampleConfig) (.new _) twoInits = some r ∧
      ((r.plane.shard 0).findPeer samplePeer).isSome ∧
      Produced sampleConfig samplePeer (sampleInit 1) (Tai64N.parse (sampleStamp 1)) ∧
      (∃ accepted ∈ r.accepted 0 samplePeer,
        (Tai64N.parse (sampleStamp 1)).after accepted = false) ∧
      r.sampleReplay 1 = some (s', out) ∧ disturbed (r.plane.shard 0) s' = true ∧
      ¬ (r.plane.shard 0).Undisturbed sampleConfig (sampleEvent 3 .tick).env samplePeer s' out := by
  have hcheck : (runFrom (next? sampleConfig) (.new _) twoInits).any (fun r => r.replays 1 &&
      (r.sampleReplay 1).any fun x => disturbed (r.plane.shard 0) x.1) = true := by
    decide +kernel
  obtain ⟨r, hrun, hr⟩ := (Option.any_eq_true _ _).mp hcheck
  obtain ⟨hreplays, hreplay⟩ := (Bool.and_eq_true _ _).mp hr
  obtain ⟨⟨s', out⟩, hcall, hdisturbed⟩ := (Option.any_eq_true _ _).mp hreplay
  obtain ⟨hknown, haccepted⟩ := exists_of_replays hreplays
  refine ⟨r, s', out, hrun, hknown, produced_sampleInit 1 (by decide +kernel), haccepted, hcall,
    hdisturbed, fun hundisturbed => ?_⟩
  have hslots := ((Bool.and_eq_true _ _).mp hdisturbed).1
  rw [hundisturbed.slots, bne_self_eq_false] at hslots
  cases hslots

/-- The second INIT, sent again, is answered from what was stored. -/
theorem acceptInit_undisturbed_iff_second_init :
    ∃ r s' out, runFrom (next? sampleConfig) (.new _) twoInits = some r ∧
      Produced sampleConfig samplePeer (sampleInit 2) (Tai64N.parse (sampleStamp 2)) ∧
      r.sampleReplay 2 = some (s', out) ∧
      (r.plane.shard 0).Undisturbed sampleConfig (sampleEvent 3 .tick).env samplePeer s' out := by
  have hcheck : (runFrom (next? sampleConfig) (.new _) twoInits).any (fun r => r.replays 2 &&
      (r.plane.shard 0).peers.any fun q => q.lastInit = some (sampleInit 2)) = true := by
    decide +kernel
  obtain ⟨r, hrun, hr⟩ := (Option.any_eq_true _ _).mp hcheck
  obtain ⟨hreplays, hlast⟩ := (Bool.and_eq_true _ _).mp hr
  obtain ⟨hknown, haccepted⟩ := exists_of_replays hreplays
  have hproduced := produced_sampleInit 2 (by decide +kernel)
  have hharmless : (r.plane.shard 0).Harmless sampleConfig sampleDraw samplePeer (sampleInit 2)
      (Tai64N.parse (sampleStamp 2)) := by
    obtain ⟨q, hmem, hq⟩ := List.any_eq_true.mp hlast
    exact Or.inl ⟨q, hmem, of_decide_eq_true hq⟩
  obtain ⟨s', out, hcall, hundisturbed⟩ := (acceptInit_undisturbed_iff
    Primitives.transparent_lawful sampleConfig twoInits hrun 0 samplePeer hknown (sampleInit 2)
    (Tai64N.parse (sampleStamp 2)) hproduced haccepted (sampleEvent 3 .tick).env sampleDraw none
    .udpDirect).mpr hharmless
  exact ⟨r, s', out, hrun, hproduced, hcall, hundisturbed⟩

end Recorded

end Fluxpeer.Node
