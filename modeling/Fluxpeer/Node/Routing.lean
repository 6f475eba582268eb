import Fluxpeer.Node.Changes

/-!
# Routing of the session in use

A peer's data on the session in use reaches the peer when the worker's table maps the session's
index to it and the shared map names the worker. The tunnel and the table move separately, on the
same packets: the tunnel to the session that a response or a data packet installed or confirmed,
the table to the index it holds as pending. `Routed` says that they agree, and `InStep` on which
packets they move together.
-/

namespace Fluxpeer.Node

open Lib Crypto Net Tunnel IndexTable Noise

variable {P : Primitives}

/-! ## Agreement of table and tunnels -/

/-- The confirmed index is the one in use, or nothing was confirmed and nothing is in use. -/
def Synced (slots : IndexSlots) (n : Noise P) : Prop :=
  (∃ idx, slots.current = some idx ∧ idx.toNat = n.current) ∨
    (slots.current = none ∧ n.current = 0 ∧ n.currentLive = false)

namespace Synced

variable {slots : IndexSlots} {n n' : Noise P}

/-- The index of a live session is confirmed. -/
lemma of_live (h : Synced slots n) (hlive : n.currentLive = true) :
    ∃ idx, slots.current = some idx ∧ idx.toNat = n.current := by
  rcases h with h | ⟨-, -, hidle⟩
  · exact h
  · rw [hlive] at hidle
    cases hidle

lemma still (h : Synced slots n) (hcurrent : n'.current = n.current)
    (hlive : slots.current = none → n'.currentLive = true → n.currentLive = true) :
    Synced slots n' := by
  rcases h with ⟨idx, hidx, heq⟩ | ⟨hnone, hzero, hidle⟩
  · exact Or.inl ⟨idx, hidx, heq.trans hcurrent.symm⟩
  · refine Or.inr ⟨hnone, hcurrent.trans hzero, ?_⟩
    rw [← Bool.not_eq_true] at hidle ⊢
    exact fun hlive' => hidle (hlive hnone hlive')

lemma of_current (idx : UInt32) (hslots : slots.current = some idx)
    (hcurrent : n.current = idx.toNat) : Synced slots n :=
  Or.inl ⟨idx, hslots, hcurrent.symm⟩

end Synced

namespace Shard

variable {cfg : Config P} {s s' : Shard P} {pk : Key} {peer peer' : Peer P} {t : Tables}

def spaceOf (s : Shard P) (pk : Key) : Option Nat := (s.noiseOf pk).map Noise.space

lemma spaceOf_eq_of_baseOf (h : s'.baseOf = s.baseOf) : s'.spaceOf = s.spaceOf := by
  funext pk
  have hpk := congrArg (Option.map fun base => base.2.2) (congrFun h pk)
  rw [baseOf, baseOf, Option.map_map, Option.map_map] at hpk
  exact hpk

/-- No two peers draw from one index space. -/
def Spread (s : Shard P) : Prop :=
  ∀ pk pk' space, s.spaceOf pk = some space → s.spaceOf pk' = some space → pk = pk'

/-- The table holds indices of the peers' own spaces, is published, and has confirmed what the
tunnels send on. -/
structure Routed (s : Shard P) : Prop where
  unique : s.Unique
  consistent : s.tables.table.Consistent s.tables.owner
  spaced : ∀ idx pk, s.tables.table.locals.lookup idx = some pk →
    s.spaceOf pk = some (idx.toNat / 256)
  synced : ∀ pk n, s.noiseOf pk = some n → Synced (s.tables.table.slotsOf pk) n

/-- What a change leaves to the other workers: only owners of indices in the shard's own spaces
change. -/
structure Frame (s s' : Shard P) : Prop where
  owners : ∀ idx, (∀ pk, s.spaceOf pk ≠ some (idx.toNat / 256)) →
    s'.tables.owner.lookup idx = s.tables.owner.lookup idx
  wid : s'.tables.table.wid = s.tables.table.wid

lemma Frame.refl (s : Shard P) : s.Frame s := ⟨fun _ _ => rfl, rfl⟩

lemma Frame.trans {s'' : Shard P} (h : s.Frame s') (h' : s'.Frame s'')
    (hspaces : s'.spaceOf = s.spaceOf) : s.Frame s'' where
  owners := by
    intro idx hidx
    rw [h'.owners idx (hspaces ▸ hidx), h.owners idx hidx]
  wid := h'.wid.trans h.wid

/-- The rule for a change to one peer and its entries. -/
lemma Routed.setPeer (h : s.Routed) (found : s.findPeer pk = some peer)
    (hpk : peer'.pubkey = pk) (consistent : t.table.Consistent t.owner)
    (spaced : ∀ idx pk', t.table.locals.lookup idx = some pk' →
      if pk' = pk then peer'.noise.map space = some (idx.toNat / 256)
      else s.tables.table.locals.lookup idx = some pk')
    (others : ∀ pk', pk' ≠ pk → t.table.slotsOf pk' = s.tables.table.slotsOf pk')
    (synced : ∀ n, peer'.noise = some n → Synced (t.table.slotsOf pk) n) :
    ((s.withTables t).setPeer peer').Routed where
  unique := unique_setPeer.mpr h.unique
  consistent := consistent
  spaced := by
    intro idx pk' hidx
    have hspaced := spaced idx pk' hidx
    rw [spaceOf, noiseOf_setPeer found hpk, Function.update_apply]
    split at hspaced
    · next heq => rw [if_pos heq, hspaced]
    · next hne =>
      rw [if_neg hne]
      exact h.spaced idx pk' hspaced
  synced := by
    intro pk' n hn
    rw [noiseOf_setPeer found hpk, Function.update_apply] at hn
    split at hn
    · next heq =>
      rw [heq]
      exact synced n hn
    · next hne =>
      rw [setPeer_tables, withTables_tables, others pk' hne]
      exact h.synced pk' n hn

/-! ## Quiet changes -/

variable {idx : UInt32} {n : Noise P}

lemma routed_withTables (h : s.Routed) (indices : s.tables.SameIndices t) :
    (s.withTables t).Routed ∧ s.Frame (s.withTables t) := by
  obtain ⟨htable, howner⟩ := indices
  refine ⟨⟨h.unique, ?_, ?_, ?_⟩, ⟨?_, ?_⟩⟩
  · rw [withTables_tables, htable, howner]
    exact h.consistent
  · rw [withTables_tables, htable]
    exact h.spaced
  · rw [withTables_tables, htable]
    exact h.synced
  · intro idx _
    rw [withTables_tables, howner]
  · rw [withTables_tables, htable]

lemma space_eq_of_base (h : peer'.noise.map base = peer.noise.map base) :
    peer'.noise.map space = peer.noise.map space := by
  have hspace := congrArg (Option.map fun base => base.2.2) h
  rw [Option.map_map, Option.map_map] at hspace
  exact hspace

/-- A peer changes with its entries left alone. -/
lemma Routed.stillPeer (h : s.Routed) (found : s.findPeer pk = some peer)
    (hpk : peer'.pubkey = pk) (hbase : peer'.noise.map base = peer.noise.map base)
    (synced : ∀ n, peer'.noise = some n → Synced (s.tables.table.slotsOf pk) n) :
    (s.setPeer peer').Routed := by
  refine Routed.setPeer (t := s.tables) h found hpk h.consistent ?_ (fun _ _ => rfl) synced
  intro idx pk' hidx
  split
  · next heq =>
    rw [space_eq_of_base hbase, ← noiseOf_of_found found, ← heq]
    exact h.spaced idx pk' hidx
  · exact hidx

/-- The indices that a table maps to a peer are in the peer's space. -/
lemma Routed.lookup_ne (h : s.Routed) (hidx : ∀ pk, s.spaceOf pk ≠ some (idx.toNat / 256))
    (pk : Key) : s.tables.table.locals.lookup idx ≠ some pk :=
  fun hlookup => hidx pk (h.spaced idx pk hlookup)

lemma Routed.register (h : s.Routed) (hspread : s.Spread) (found : s.findPeer pk = some peer)
    (hnoise : peer.noise = some n) (hmem : idx.toNat / 256 = n.space) :
    ((s.withTables (s.tables.insertIndex (some idx) pk)).setPeer peer).Routed ∧
      s.Frame ((s.withTables (s.tables.insertIndex (some idx) pk)).setPeer peer) := by
  have hspace : s.spaceOf pk = some (idx.toNat / 256) := by
    rw [spaceOf, noiseOf_of_found found, hnoise, hmem]
    rfl
  have hlocals := insert_locals s.tables.table s.tables.owner pk idx
  refine ⟨h.setPeer found (findPeer_pubkey found) ?_ ?_ ?_ ?_, ⟨?_, ?_⟩⟩
  · refine h.consistent.insert fun pk' hidx => ?_
    exact hspread pk' pk _ (h.spaced idx pk' hidx) hspace
  · intro i pk' hi
    have hspaced := h.spaced i pk'
    have hi : (s.tables.table.insert s.tables.owner idx pk).1.locals.lookup i = some pk' := hi
    rw [hlocals] at hi
    rw [hnoise]
    rw [spaceOf, noiseOf_of_found found, hnoise] at hspace
    split
    · next heq =>
      subst heq
      rw [spaceOf, noiseOf_of_found found, hnoise] at hspaced
      grind
    · grind
  · intro pk' hne
    change (s.tables.table.insert s.tables.owner idx pk).1.slotsOf pk' = _
    rw [slotsOf_insert, if_neg hne]
  · intro n' hn'
    have hsynced := h.synced pk n' ((noiseOf_of_found found).trans hn')
    change Synced ((s.tables.table.insert s.tables.owner idx pk).1.slotsOf pk) n'
    rw [slotsOf_insert, if_pos rfl]
    exact hsynced
  · intro i hi
    have hne := h.lookup_ne hi pk
    have hidx : i ≠ idx := by
      rintro rfl
      exact hi pk hspace
    change (s.tables.table.insert s.tables.owner idx pk).2.lookup i = _
    rw [insert_owner]
    grind
  · exact insert_wid

lemma QuietStep.routed (hstep : QuietStep s s') (h : s.Routed) (hspread : s.Spread) :
    s'.Routed ∧ s.Frame s' := by
  cases hstep with
  | tables indices => exact routed_withTables h indices
  | peer found quiet =>
    cases quiet with
    | touch indices touched =>
      have hnoise := congrArg (fun raw => raw.data.map Cryptor.noise) touched.raw
      obtain ⟨hrouted, hframe⟩ := routed_withTables h indices
      refine ⟨hrouted.stillPeer found touched.pubkey (congrArg _ hnoise) ?_,
        ⟨hframe.owners, hframe.wid⟩⟩
      intro n hn
      exact hrouted.synced _ n ((noiseOf_of_found found).trans (hnoise.symm.trans hn))
    | call before still =>
      refine ⟨h.stillPeer found rfl (base_withNoise before still.base) ?_,
        ⟨fun _ _ => rfl, rfl⟩⟩
      rintro _ ⟨⟩
      exact (h.synced _ _ ((noiseOf_of_found found).trans before)).still still.current
        fun _ => still.live
    | register before mem => exact h.register hspread found before mem

lemma spread_congr (hspaces : s'.spaceOf = s.spaceOf) : s'.Spread ↔ s.Spread := by
  unfold Spread
  rw [hspaces]

lemma QuietSteps.routed (hsteps : QuietSteps s s') (h : s.Routed) (hspread : s.Spread) :
    s'.Routed ∧ s.Frame s' := by
  induction hsteps with
  | refl => exact ⟨h, .refl s⟩
  | tail hprev hstep ih =>
    obtain ⟨hrouted, hframe⟩ := ih
    have hspaces := spaceOf_eq_of_baseOf (QuietSteps.baseOf hprev)
    obtain ⟨hrouted', hframe'⟩ := hstep.routed hrouted ((spread_congr hspaces).mpr hspread)
    exact ⟨hrouted', hframe.trans hframe' hspaces⟩

/-! ## Packets received -/

/-- What the packet decrypts to, if it does, is a keepalive or a whole IP packet. -/
def acceptable (P : Primitives) (session : Session) (p : PacketData) : Bool :=
  match session.receivePacketData P p 2048 with
  | some (_, .ok payload) => (Noise.validateDecapsulatedPacket payload).isOk
  | _ => true

/-- On which packets the tunnel and the table move together.

A response or a data packet that names another session than the one in use must move both or
neither: the table moves to the index it holds as pending, the tunnel to the session it adopts or
waits for. A data packet that moves the tunnel must also carry a payload that the worker accepts,
since it confirms the index only then. A response that names the session in use must find its
index confirmed or pending, and so must an INIT that draws this index anew. -/
def InStep (slots : IndexSlots) (n : Noise P) : Packet → Prop
  | .handshakeInit _ =>
    (Handshake.succIndex n.handshake.nextIndex).toNat = n.current →
      slots.current = some (Handshake.succIndex n.handshake.nextIndex)
  | .handshakeResponse p =>
    (n.handshake.awaiting p.receiverIdx).isSome →
      if p.receiverIdx.toNat = n.current then
        slots.current = some p.receiverIdx ∨ slots.pending = some p.receiverIdx
      else slots.pending = some p.receiverIdx ↔ n.adopts p.receiverIdx.toNat = true
  | .packetData p =>
    match n.sessions (slot p.receiverIdx.toNat) with
    | none => True
    | some session =>
      session.receivingIndex = p.receiverIdx → p.receiverIdx.toNat ≠ n.current →
        (n.next = some p.receiverIdx.toNat ↔ slots.pending = some p.receiverIdx) ∧
        (n.next = some p.receiverIdx.toNat → acceptable P session p)

instance (slots : IndexSlots) (n : Noise P) (packet : Packet) :
    Decidable (InStep slots n packet) :=
  match packet with
  | .handshakeInit _ => inferInstanceAs (Decidable (_ → _))
  | .handshakeResponse _ => inferInstanceAs (Decidable (_ → ite _ _ _))
  | .packetData p =>
    match h : n.sessions (slot p.receiverIdx.toNat) with
    | none => .isTrue (by simp only [InStep, h])
    | some session => decidable_of_iff (session.receivingIndex = p.receiverIdx →
        p.receiverIdx.toNat ≠ n.current →
        (n.next = some p.receiverIdx.toNat ↔ slots.pending = some p.receiverIdx) ∧
        (n.next = some p.receiverIdx.toNat → acceptable P session p)) (by simp only [InStep, h])

/-- The slots of a peer after `confirm`. -/
def confirmed (slots : IndexSlots) (idx : UInt32) : IndexSlots :=
  if slots.pending = some idx then ⟨some idx, slots.current, none⟩ else slots

lemma Routed.confirm (h : s.Routed) (found : s.findPeer pk = some peer) (hpk : peer'.pubkey = pk)
    (hbase : peer'.noise.map base = peer.noise.map base)
    (synced : ∀ n, peer'.noise = some n → Synced (confirmed (s.tables.table.slotsOf pk) idx) n) :
    ((s.withTables (s.tables.confirmIndex (some idx) pk)).setPeer peer').Routed ∧
      s.Frame ((s.withTables (s.tables.confirmIndex (some idx) pk)).setPeer peer') := by
  have hslots := slotsOf_confirm s.tables.table s.tables.owner idx pk
  refine ⟨h.setPeer found hpk (h.consistent.confirm idx pk) ?_ ?_ ?_, ⟨?_, ?_⟩⟩
  · intro i pk' hi
    have hi : (s.tables.table.confirm s.tables.owner idx pk).1.locals.lookup i = some pk' := hi
    have hold : s.tables.table.locals.lookup i = some pk' := by
      rw [confirm_locals] at hi
      split at hi
      · cases hi
      · exact hi
    split
    · next heq =>
      rw [space_eq_of_base hbase, ← noiseOf_of_found found, ← heq]
      exact h.spaced i pk' hold
    · exact hold
  · intro pk' hne
    exact (hslots pk').trans (if_neg fun hand => hne hand.1)
  · intro n hn
    have hconfirmed : (s.tables.table.confirm s.tables.owner idx pk).1.slotsOf pk =
        confirmed (s.tables.table.slotsOf pk) idx := by
      rw [hslots, confirmed]
      simp only [true_and]
    change Synced ((s.tables.table.confirm s.tables.owner idx pk).1.slotsOf pk) n
    rw [hconfirmed]
    exact synced n hn
  · intro i hi
    exact (confirm_owner i).trans (if_neg fun hand => h.lookup_ne hi pk hand.1.2.1)
  · exact confirm_wid

variable {slots : IndexSlots} {result : Except Error NoiseResult}

/-- An accepted response moves both or neither. -/
lemma synced_response {p : HandshakeResponse} {now : Nat} {h : Handshake P} {session : Session}
    (hsynced : Synced slots n) (hin : InStep slots n (.handshakeResponse p))
    (accepted : n.handshake.receiveHandshakeResponse p now = (h, .ok session))
    (hindex : session.receivingIndex = p.receiverIdx) :
    Synced (confirmed slots p.receiverIdx) (n.install h session) := by
  have hawait : (n.handshake.awaiting p.receiverIdx).isSome := by
    rcases Handshake.receiveHandshakeResponse_cases accepted with
      ⟨-, _, ⟨⟩⟩ | ⟨_, _, _, _, hawait, -⟩
    rw [hawait]
    rfl
  have hin := hin hawait
  have hcurrent : (n.install h session).current =
      if n.adopts p.receiverIdx.toNat then p.receiverIdx.toNat else n.current := by
    simp only [install, Session.localIndex, hindex]
  have hadopts : n.adopts p.receiverIdx.toNat = false →
      p.receiverIdx.toNat ≠ n.current → n.currentLive = true := by
    unfold adopts
    split <;> grind
  by_cases hsame : p.receiverIdx.toNat = n.current
  · have hstays : n.adopts p.receiverIdx.toNat = false := by
      simp [adopts, hsame]
    rw [if_pos hsame] at hin
    refine .of_current p.receiverIdx ?_ ?_
    · unfold confirmed
      grind
    · rw [hcurrent, hstays, hsame]
      rfl
  · rw [if_neg hsame] at hin
    cases hadopt : n.adopts p.receiverIdx.toNat with
    | true =>
      refine .of_current p.receiverIdx ?_ ?_
      · rw [confirmed, if_pos (hin.mpr hadopt)]
      · rw [hcurrent, if_pos hadopt]
    | false =>
      obtain ⟨idx, hidx, heq⟩ := hsynced.of_live (hadopts hadopt hsame)
      have hpending : slots.pending ≠ some p.receiverIdx := fun hp => by
        rw [hin.mp hp] at hadopt
        cases hadopt
      rw [confirmed, if_neg hpending]
      refine .of_current _ hidx ?_
      rw [hcurrent, hadopt, heq]
      rfl

/-- A data packet moves both or neither. -/
lemma synced_data {n' : Noise P} {p : PacketData} (hsynced : Synced slots n)
    (hin : InStep slots n (.packetData p)) (handled : n.handleData p 2048 = some (n', result)) :
    Synced (if result.isOk then confirmed slots p.receiverIdx else slots) n' := by
  have hnamed : ∀ session, n.sessions (slot p.receiverIdx.toNat) = some session →
      session.receivingIndex = p.receiverIdx → p.receiverIdx.toNat ≠ n.current →
      (n.next = some p.receiverIdx.toNat ↔ slots.pending = some p.receiverIdx) ∧
      (n.next = some p.receiverIdx.toNat → acceptable P session p) := by
    intro session hslot
    simpa only [InStep, hslot] using hin
  -- A session that the packet names and that is in use has its index confirmed.
  have hlive : ∀ session, n.sessions (slot p.receiverIdx.toNat) = some session →
      session.receivingIndex = p.receiverIdx → p.receiverIdx.toNat = n.current →
      slots.current = some p.receiverIdx := by
    intro session hslot hindex hsame
    obtain ⟨idx, hidx, heq⟩ := hsynced.of_live (currentLive_iff.mpr
      ⟨session, by rw [sealing, ← hsame, hslot], by rw [Session.localIndex, hindex, hsame]⟩)
    rw [hidx, UInt32.toNat_inj.mp (heq.trans hsame.symm)]
  have hkeeps : slots.current = some p.receiverIdx →
      (confirmed slots p.receiverIdx).current = some p.receiverIdx := by
    intro hcurrent
    unfold confirmed
    split
    · rfl
    · exact hcurrent
  rcases handleData_still handled with ⟨hstill, hok⟩ | ⟨-, hnext, hcurrent, session, session',
    payload, hslot, hindex, hreceive, rfl⟩
  · have hsame := hsynced.still hstill.current fun _ => hstill.live
    split
    · next hisOk =>
      obtain ⟨hnext, session, hslot, hindex⟩ := hok hisOk
      by_cases hcur : p.receiverIdx.toNat = n.current
      · exact .of_current _ (hkeeps (hlive session hslot hindex hcur)) (hstill.current.trans hcur.symm)
      have hpending : slots.pending ≠ some p.receiverIdx :=
        fun hp => hnext ((hnamed session hslot hindex hcur).1.mpr hp)
      rw [confirmed, if_neg hpending]
      exact hsame
    · exact hsame
  · by_cases hcur : p.receiverIdx.toNat = n.current
    · have hslots := hlive session hslot hindex hcur
      refine .of_current p.receiverIdx ?_ hcurrent
      split
      · exact hkeeps hslots
      · exact hslots
    · obtain ⟨hiff, hvalid⟩ := hnamed session hslot hindex hcur
      have hok := hvalid hnext
      rw [acceptable, hreceive] at hok
      rw [if_pos hok, confirmed, if_pos (hiff.mp hnext)]
      exact .of_current _ rfl hcurrent

/-- An INIT moves neither. -/
lemma synced_init {n' : Noise P} {p : HandshakeInit} {dst : Bytes} {ephemeral : Option Key}
    (hsynced : Synced slots n) (hin : InStep slots n (.handshakeInit p))
    (handled : n.handleHandshakeInit p dst ephemeral = (n', result)) : Synced slots n' := by
  rcases handleHandshakeInit_cases handled with
    ⟨hstill, -⟩ | ⟨-, hcurrent, hnext, hlive, -⟩
  · exact hsynced.still hstill.current fun _ => hstill.live
  refine hsynced.still hcurrent fun hnone hlive' => ?_
  rcases hlive hlive' with hold | hidx
  · exact hold
  · rw [hnext] at hidx
    rw [hin hidx] at hnone
    cases hnone

lemma Received.routed {bytes : Bytes} (hreceived : s.Received pk bytes s') (h : s.Routed)
    (hin : ∀ n packet, s.noiseOf pk = some n → parseIncomingPacket bytes = .ok packet →
      InStep (s.tables.table.slotsOf pk) n packet) : s'.Routed ∧ s.Frame s' := by
  cases hreceived with
  | @response peer n p now h' session found before parsed accepted index =>
    have hnoise := (noiseOf_of_found found).trans before
    have hsynced := synced_response (h.synced pk n hnoise) (hin n _ hnoise parsed) accepted index
    refine h.confirm found ((peer.withNoise_pubkey _).trans (findPeer_pubkey found))
      (base_withNoise before (sameBase_install accepted)) ?_
    rintro _ ⟨⟩
    exact hsynced
  | @data peer n n' p result found before parsed handled =>
    have hnoise := (noiseOf_of_found found).trans before
    have hpk := (peer.withNoise_pubkey n').trans (findPeer_pubkey found)
    have hbase := base_withNoise before (sameBase_data handled)
    have hsynced := synced_data (h.synced pk n hnoise) (hin n _ hnoise parsed) handled
    split at hsynced
    · next hok =>
      rw [if_pos hok]
      refine h.confirm found hpk hbase ?_
      rintro _ ⟨⟩
      exact hsynced
    · next hok =>
      rw [if_neg hok]
      refine ⟨h.stillPeer found hpk hbase ?_, ⟨fun _ _ => rfl, rfl⟩⟩
      rintro _ ⟨⟩
      exact hsynced
  | @init peer n n' p dst ephemeral result found before parsed handled =>
    have hnoise := (noiseOf_of_found found).trans before
    have hsynced := synced_init (h.synced pk n hnoise) (hin n _ hnoise parsed) handled
    refine ⟨h.stillPeer found ((peer.withNoise_pubkey _).trans (findPeer_pubkey found))
      (base_withNoise before (sameBase_init handled)) ?_, ⟨fun _ _ => rfl, rfl⟩⟩
    rintro _ ⟨⟩
    exact hsynced

/-! ## Cryptors built and dropped -/

/-- A tunnel that has not sent yet goes with slots that hold nothing. -/
lemma synced_fresh {own : Key} (h : n.Fresh own pk) : Synced .default n :=
  Or.inr ⟨rfl, h.current, h.idle⟩

/-- A peer without a cryptor has no entries. -/
lemma Routed.slotsOf_eq_default (h : s.Routed) (hnone : s.noiseOf pk = none) :
    s.tables.table.slotsOf pk = .default := by
  have hlisted : ∀ idx, some idx ∉ (s.tables.table.slotsOf pk).keep := by
    intro idx hidx
    have := h.spaced idx pk (h.consistent.listed pk idx hidx)
    rw [spaceOf, hnone] at this
    cases this
  cases hslots : s.tables.table.slotsOf pk with | mk current previous pending =>
  rw [hslots] at hlisted
  simp only [IndexSlots.keep, List.mem_cons, not_or] at hlisted
  rw [IndexSlots.default, IndexSlots.mk.injEq]
  refine ⟨?_, ?_, ?_⟩
  · exact Option.eq_none_iff_forall_ne_some.mpr fun idx h => (hlisted idx).1 h.symm
  · exact Option.eq_none_iff_forall_ne_some.mpr fun idx h => (hlisted idx).2.1 h.symm
  · exact Option.eq_none_iff_forall_ne_some.mpr fun idx h => (hlisted idx).2.2.1 h.symm

lemma Reset.routed (hreset : s.Reset cfg s') (h : s.Routed) : s'.Routed ∧ s.Frame s' := by
  have howners : ∀ pk idx, (∀ pk, s.spaceOf pk ≠ some (idx.toNat / 256)) →
      (s.tables.removeIndices pk).owner.lookup idx = s.tables.owner.lookup idx := by
    intro pk idx hidx
    change (s.tables.table.removePeer s.tables.owner pk).2.lookup idx = _
    rw [removePeer_owner, if_neg (h.lookup_ne hidx pk)]
  have hlocals : ∀ pk idx pk', (s.tables.removeIndices pk).table.locals.lookup idx = some pk' →
      pk' ≠ pk ∧ s.tables.table.locals.lookup idx = some pk' := by
    intro pk idx pk' hidx
    have hidx : (s.tables.table.removePeer s.tables.owner pk).1.locals.lookup idx = some pk' := hidx
    rw [removePeer_locals] at hidx
    grind
  have hslots : ∀ pk pk', (s.tables.removeIndices pk).table.slotsOf pk' =
      if pk' = pk then .default else s.tables.table.slotsOf pk' :=
    fun _ pk' => slotsOf_removePeer s.tables.owner pk'
  cases hreset with
  | @rebuild pk peer n found fresh =>
    have hpk : peer.pubkey = pk := findPeer_pubkey found
    refine ⟨h.setPeer found hpk (h.consistent.removePeer pk) ?_ ?_ ?_, ⟨howners pk, rfl⟩⟩
    · intro idx pk' hidx
      obtain ⟨hne, hold⟩ := hlocals pk idx pk' hidx
      rw [if_neg hne]
      exact hold
    · intro pk' hne
      rw [hslots, if_neg hne]
    · rintro _ ⟨⟩
      rw [hslots, if_pos rfl]
      exact synced_fresh fresh
  | @add peer absent fresh =>
    have hnoise := noiseOf_add (t := s.tables) absent
    have hnone : s.noiseOf peer.pubkey = none := by
      rw [noiseOf, absent]
      rfl
    refine ⟨⟨?_, h.consistent, ?_, ?_⟩, ⟨fun _ _ => rfl, rfl⟩⟩
    · exact (Reset.add absent fresh).unique h.unique
    · intro idx pk hidx
      have hspaced := h.spaced idx pk hidx
      have hne : pk ≠ peer.pubkey := by
        rintro rfl
        rw [spaceOf, hnone] at hspaced
        cases hspaced
      rw [spaceOf, hnoise, Function.update_of_ne hne]
      exact hspaced
    · intro pk n hn
      rw [hnoise, Function.update_apply] at hn
      split at hn
      · next heq =>
        rw [heq, h.slotsOf_eq_default hnone]
        exact synced_fresh (fresh n hn)
      · exact h.synced pk n hn
  | remove pk =>
    have hnoise := noiseOf_remove (s := s) (t := s.tables.removeIndices pk) pk
    refine ⟨⟨?_, h.consistent.removePeer pk, ?_, ?_⟩, ⟨howners pk, rfl⟩⟩
    · exact (show Reset cfg s _ from .remove pk).unique h.unique
    · intro idx pk' hidx
      obtain ⟨hne, hold⟩ := hlocals pk idx pk' hidx
      rw [spaceOf, hnoise, Function.update_of_ne hne]
      exact h.spaced idx pk' hold
    · intro pk' n hn
      rw [hnoise, Function.update_apply] at hn
      split at hn
      · cases hn
      · next hne =>
        rw [hslots, if_neg hne]
        exact h.synced pk' n hn

lemma Handled.routed {packet : Option (Key × Bytes)} (hhandled : Handled cfg packet s s')
    (h : s.Routed) (hspread : s.Spread) (hspread' : s'.Spread)
    (hin : ∀ pk bytes n parsed, packet = some (pk, bytes) → s.noiseOf pk = some n →
      parseIncomingPacket bytes = .ok parsed → InStep (s.tables.table.slotsOf pk) n parsed) :
    s'.Routed ∧ s'.tables.table.wid = s.tables.table.wid ∧
      ∀ idx, (∀ pk, s.spaceOf pk ≠ some (idx.toNat / 256)) →
        (∀ pk, s'.spaceOf pk ≠ some (idx.toNat / 256)) →
        s'.tables.owner.lookup idx = s.tables.owner.lookup idx := by
  obtain ⟨s₁, s₂, s₃, hreceived, hquiet, hreset, hlast⟩ := hhandled.phases
  obtain ⟨⟨h₁, hframe₁⟩, hspaces₁⟩ : (s₁.Routed ∧ s.Frame s₁) ∧ s₁.spaceOf = s.spaceOf := by
    rcases hreceived with rfl | ⟨pk, bytes, hpacket, hreceived⟩
    · exact ⟨⟨h, .refl _⟩, rfl⟩
    · exact ⟨hreceived.routed h fun n parsed => hin pk bytes n parsed hpacket,
        spaceOf_eq_of_baseOf hreceived.baseOf⟩
  have hspaces₂ := (spaceOf_eq_of_baseOf (QuietSteps.baseOf hquiet)).trans hspaces₁
  obtain ⟨h₂, hframe₂⟩ := QuietSteps.routed hquiet h₁ ((spread_congr hspaces₁).mpr hspread)
  obtain ⟨h₃, hframe₃⟩ : s₃.Routed ∧ s₂.Frame s₃ := by
    rcases hreset with rfl | hreset
    · exact ⟨h₂, .refl _⟩
    · exact hreset.routed h₂
  have hspaces' := spaceOf_eq_of_baseOf (QuietSteps.baseOf hlast)
  obtain ⟨h', hframe'⟩ := QuietSteps.routed hlast h₃ ((spread_congr hspaces').mp hspread')
  have hframe := (hframe₁.trans hframe₂ hspaces₁).trans hframe₃ hspaces₂
  refine ⟨h', hframe'.wid.trans hframe.wid, fun idx hidx hidx' => ?_⟩
  rw [hframe'.owners idx (hspaces' ▸ hidx'), hframe.owners idx hidx]

end Shard

/-! ## Runs of the data plane -/

namespace DataPlane

variable {cfg : Config P} {d d' : DataPlane P} {e : Event}

/-- Distinct peers have disjoint index spaces. -/
def Spread (d : DataPlane P) : Prop :=
  ∀ wid wid' pk pk' space, (d.shard wid).spaceOf pk = some space →
    (d.shard wid').spaceOf pk' = some space → wid = wid' ∧ pk = pk'

/-- The packet of the event, if it is for a cryptor, moves that tunnel and its table together. -/
def InStep (cfg : Config P) (d : DataPlane P) (e : Event) : Prop :=
  ∀ x ∈ (d.shard e.wid).addressed cfg e.msg, ∀ n ∈ (d.shard e.wid).noiseOf x.1,
    ∀ packet ∈ (parseIncomingPacket x.2).toOption,
      Shard.InStep ((d.workers e.wid).table.slotsOf x.1) n packet

instance (cfg : Config P) (d : DataPlane P) (e : Event) : Decidable (d.InStep cfg e) :=
  inferInstanceAs (Decidable (∀ x ∈ _, _))

/-- The index of every live session in use leads to the worker and the peer of the session. -/
def Routable (d : DataPlane P) : Prop :=
  ∀ wid peer c session, peer ∈ (d.workers wid).peers → peer.raw.data = some c →
    c.noise.sealing = some session → session.localIndex = c.noise.current →
    (d.workers wid).table.get session.receivingIndex = some peer.pubkey ∧
      d.owner.lookup session.receivingIndex = some wid

structure Routed (d : DataPlane P) : Prop where
  shards : ∀ wid, (d.shard wid).Routed
  wids : ∀ wid, (d.workers wid).table.wid = wid
  spread : d.Spread

lemma routed_new (P : Primitives) : (DataPlane.new P).Routed where
  shards := by
    intro wid
    refine ⟨List.nodup_nil, consistent_empty wid _, ?_, ?_⟩
    · intro idx pk hidx
      cases hidx
    · intro pk n hn
      cases hn
  wids := fun _ => rfl
  spread := by
    intro wid wid' pk pk' space hspace
    cases hspace

lemma Routed.step (h : d.Routed) (hstep : d.next? cfg e = some d') (hspread' : d'.Spread)
    (hin : d.InStep cfg e) : d'.Routed := by
  obtain ⟨s, out, hhandle, rfl⟩ := next?_eq_some hstep
  have hshard := h.shards e.wid
  have hself : ((d.setShard e.wid s).shard e.wid) = s := shard_setShard_self e.wid s
  have hspread : (d.shard e.wid).Spread := fun pk pk' space hpk hpk' =>
    (h.spread e.wid e.wid pk pk' space hpk hpk').2
  have hspreadS : s.Spread := fun pk pk' space hpk hpk' =>
    (hspread' e.wid e.wid pk pk' space (by rw [hself]; exact hpk) (by rw [hself]; exact hpk')).2
  obtain ⟨hs, hwid, howners⟩ := (Shard.handle_handled hshard.unique hhandle).routed hshard hspread
    hspreadS fun pk bytes n packet hx hn hparse =>
      hin (pk, bytes) hx n hn packet (by rw [hparse]; rfl)
  refine ⟨?_, ?_, hspread'⟩
  · intro wid
    by_cases heq : wid = e.wid
    · rw [heq, hself]
      exact hs
    have hold := h.shards wid
    have hshape := shard_setShard_of_ne (d := d) s heq
    rw [hshape]
    refine ⟨hold.unique, ⟨?_, hold.consistent.listed⟩, hold.spaced, hold.synced⟩
    -- The indices of another worker are outside of the spaces of this one, before and after.
    intro idx pk hidx
    have hspace := hold.spaced idx pk hidx
    have hspace' : ((d.setShard e.wid s).shard wid).spaceOf pk = some (idx.toNat / 256) := by
      rw [hshape]
      exact hspace
    refine Eq.trans (howners idx ?_ ?_) (hold.consistent.owned idx pk hidx)
    · intro pk' hpk'
      exact heq (h.spread wid e.wid pk pk' _ hspace hpk').1
    · intro pk' hpk'
      exact heq (hspread' wid e.wid pk pk' _ hspace' (by rw [hself]; exact hpk')).1
  · intro wid
    by_cases heq : wid = e.wid
    · have hwid' : ((d.setShard e.wid s).workers e.wid).table = s.tables.table := by
        simp [setShard]
      rw [heq, hwid', hwid]
      exact h.wids e.wid
    · have hwid' : (d.setShard e.wid s).workers wid = d.workers wid := by
        simp [setShard, Function.update_of_ne heq]
      rw [hwid']
      exact h.wids wid

lemma Routed.routable (h : d.Routed) : d.Routable := by
  intro wid peer c session hmem hdata hsealing hindex
  have hrouted := h.shards wid
  have found : (d.shard wid).findPeer peer.pubkey = some peer :=
    Keyed.find_of_mem hrouted.unique hmem
  have hnoise : (d.shard wid).noiseOf peer.pubkey = some c.noise := by
    rw [Shard.noiseOf_of_found found, Peer.noise, hdata]
    rfl
  obtain ⟨idx, hidx, heq⟩ := (hrouted.synced _ _ hnoise).of_live
    (currentLive_iff.mpr ⟨session, hsealing, hindex⟩)
  obtain rfl : idx = session.receivingIndex := UInt32.toNat_inj.mp (heq.trans hindex.symm)
  have hlocal := hrouted.consistent.listed peer.pubkey session.receivingIndex (by
    rw [IndexSlots.keep, hidx]
    exact List.mem_cons_self)
  refine ⟨hlocal, ?_⟩
  have howned := hrouted.consistent.owned _ _ hlocal
  rw [show (d.shard wid).tables.table.wid = wid from h.wids wid] at howned
  exact howned

/-- In a run in which distinct peers keep disjoint index spaces and every packet moves a tunnel and
its table together, the session in use is always routable. -/
theorem always_routable (P : Primitives) (cfg : Config P) (events : List Event)
    (hrun : EveryStep (next? cfg) (fun d e d' => d'.Spread ∧ d.InStep cfg e) (DataPlane.new P)
      events) :
    Always (next? cfg) Routable (DataPlane.new P) events :=
  always_of_inv (fun _ _ _ h hstep hC => h.step hstep hC.1 hC.2) (fun _ h => h.routable)
    (routed_new P) hrun

/-! ## From the socket to the tunnel -/

/-- `disco::owner` -/
def discoOwner (routes : Routes) (id : TxId) (now : Nat) : Option Key :=
  ((routes.lookup id).filter (now ≤ ·.2)).map (·.1)

/-- `route_udp`: the worker that is given a datagram. -/
def routeUdp (cfg : Config P) (d : DataPlane P) (peerToWid : HashMap Key Nat) (now : Nat)
    (bytes : Bytes) : Option Nat :=
  if discoMagic.isPrefixOf bytes then
    match Disco.decode (bytes.drop discoMagic.length) with
    | .ok (.ping _ sender, _) => peerToWid.lookup sender
    | .ok (.pong id _, _) => (discoOwner d.routes id now).bind peerToWid.lookup
    | _ => none
  else if bytes.head? = some tHandshakeInit then
    (peekInitPubkey P cfg.ownPriv cfg.ownPub bytes).bind peerToWid.lookup
  else (Shard.wgIndex bytes).bind d.owner.lookup

/-- A datagram under the index of a live session in use gets to the tunnel of the session. -/
def Reachable (cfg : Config P) (d : DataPlane P) : Prop :=
  ∀ wid peer c session bytes peerToWid now env src, peer ∈ (d.workers wid).peers →
    peer.raw.data = some c → c.noise.sealing = some session →
    session.localIndex = c.noise.current → discoMagic.isPrefixOf bytes = false →
    bytes.head? ≠ some tHandshakeInit → Shard.wgIndex bytes = some session.receivingIndex →
    d.routeUdp cfg peerToWid now bytes = some wid ∧ (d.shard wid).onUdpIn cfg env src bytes =
      (d.shard wid).deliverWg cfg env peer.pubkey bytes (some src) .udpDirect

theorem always_reachable (P : Primitives) (cfg : Config P) (es : List Event)
    (hrun : EveryStep (next? cfg) (fun d e d' => d'.Spread ∧ d.InStep cfg e) (.new P) es) :
    Always (next? cfg) (Reachable cfg) (.new P) es := by
  refine always_of_inv (fun _ _ _ h hstep hC => h.step hstep hC.1 hC.2) (fun d h => ?_)
    (routed_new P) hrun
  intro wid peer c session bytes peerToWid now env src hmem hdata hsealing hlocal hdisco hinit hidx
  obtain ⟨hget, howner⟩ := h.routable wid peer c session hmem hdata hsealing hlocal
  constructor
  · simp [routeUdp, hdisco, hinit, hidx, howner]
  · simp [Shard.onUdpIn, shard, hdisco, hinit, hidx, hget]

/-! ## Concrete runs -/

section Lone

variable {pk : Key}

/-- The first worker has a single peer, and the others have none. -/
def Lone (pk : Key) (d : DataPlane P) : Prop :=
  ∀ wid, ∀ peer ∈ (d.workers wid).peers, wid = 0 ∧ peer.pubkey = pk

lemma Lone.spread (h : d.Lone pk) : d.Spread := by
  have hpeer : ∀ wid pk' space, (d.shard wid).spaceOf pk' = some space → wid = 0 ∧ pk' = pk := by
    intro wid pk' space hspace
    obtain ⟨n, hn, -⟩ := Option.map_eq_some_iff.mp hspace
    obtain ⟨peer, found, -⟩ := Option.bind_eq_some_iff.mp hn
    obtain ⟨hwid, hpk⟩ := h wid peer (Keyed.mem_of_find found)
    exact ⟨hwid, (Shard.findPeer_pubkey found).symm.trans hpk⟩
  intro wid wid' pk₁ pk₂ space h₁ h₂
  obtain ⟨hwid, hpk⟩ := hpeer wid pk₁ space h₁
  obtain ⟨hwid', hpk'⟩ := hpeer wid' pk₂ space h₂
  exact ⟨hwid.trans hwid'.symm, hpk.trans hpk'.symm⟩

variable (cfg pk) (C : DataPlane P → Event → Prop) [∀ d e, Decidable (C d e)]

/-- Every event is for the first worker and satisfies `C`, and no other peer than `pk` appears. -/
def checkRun : DataPlane P → List Event → Bool
  | _, [] => true
  | d, e :: es => e.wid == 0 && decide (C d e) &&
    match d.next? cfg e with
    | none => true
    | some d' => ((d'.workers 0).peers.all fun peer => peer.pubkey = pk) && checkRun d' es

variable {cfg pk C}

lemma everyStep_of_checkRun {d : DataPlane P} {es : List Event} (hlone : d.Lone pk)
    (hcheck : checkRun cfg pk C d es = true) :
    EveryStep (next? cfg) (fun d e d' => d'.Spread ∧ C d e) d es := by
  induction es generalizing d with
  | nil => trivial
  | cons e es ih =>
    intro d' hstep
    simp only [checkRun, hstep, Bool.and_eq_true, beq_iff_eq, decide_eq_true_eq, List.all_eq_true]
      at hcheck
    obtain ⟨⟨hwid, hC⟩, hpeers, hrest⟩ := hcheck
    have hlone' : d'.Lone pk := by
      intro wid peer hmem
      by_cases hzero : wid = 0
      · subst hzero
        exact ⟨rfl, hpeers peer hmem⟩
      · obtain ⟨s, -, -, rfl⟩ := next?_eq_some hstep
        refine hlone wid peer ?_
        simpa [setShard, hwid, Function.update_of_ne hzero] using hmem
    exact ⟨⟨hlone'.spread, hC⟩, ih hlone' hrest⟩

lemma lone_new (P : Primitives) (pk : Key) : (DataPlane.new P).Lone pk := by
  rintro wid peer ⟨⟩

end Lone

/-- What the last event of a run sends over the relay. -/
def sampleSent : DataPlane Primitives.transparent → List Event → List Bytes
  | _, [] => []
  | d, e :: es =>
    match d.step sampleConfig e with
    | none => []
    | some (d', out) =>
      if es.isEmpty then
        out.filterMap fun
          | .relay _ bytes => some bytes
          | _ => none
      else sampleSent d' es

/-- The peer's response to the INIT that the last event of a run sends. -/
def sampleAnswer (events : List Event) : Bytes :=
  match (sampleSent (.new _) events).find? (fun bytes => bytes.head? = some 1) with
  | none => []
  | some init =>
    match Noise.sampleResponder.decapsulate init (List.replicate 148 0)
        (some (Primitives.xorKey [4] [])) 0 with
    | some (_, .ok (.writeToNetwork resp)) => resp
    | _ => []

/-- The peer is added, and answers. -/
def sampleHandshake : List Event :=
  let add := [sampleEvent 0 (.addPeer samplePeer [] true)]
  add ++ [sampleEvent 0 (.relayIn samplePeer (sampleAnswer add))]

/-- Two rekeys by age, and then the answer to the first of them. -/
def lateAnswer : List Event :=
  let first := sampleHandshake ++ [sampleEvent 120 .tick]
  first ++ [sampleEvent 240 .tick, sampleEvent 240 (.relayIn samplePeer (sampleAnswer first))]

/-- A peer of the first worker sends on a live session whose index the table does not have. -/
def stranded (d : DataPlane P) : Bool :=
  (d.workers 0).peers.any fun peer => peer.raw.data.any fun c => c.noise.sealing.any fun session =>
    session.localIndex == c.noise.current &&
      ((d.workers 0).table.get session.receivingIndex).isNone

lemma not_routable_of_stranded (h : d.stranded = true) : ¬ d.Routable := by
  intro hroutable
  obtain ⟨peer, hmem, hpeer⟩ := List.any_eq_true.mp h
  obtain ⟨c, hdata, hc⟩ := (Option.any_eq_true _ _).mp hpeer
  obtain ⟨session, hsealing, hsession⟩ := (Option.any_eq_true _ _).mp hc
  rw [Bool.and_eq_true, beq_iff_eq, Option.isNone_iff_eq_none] at hsession
  have hget := (hroutable 0 peer c session hmem hdata hsealing hsession.1).1
  rw [hsession.2] at hget
  cases hget

/-- An answer that comes after the next rekey is adopted by the tunnel, but its index has left the
table. -/
theorem lateAnswer_not_routable :
    EveryStep (next? sampleConfig) (fun _ _ d' => d'.Spread) (.new _) lateAnswer ∧
      ∃ d, runFrom (next? sampleConfig) (.new _) lateAnswer = some d ∧ ¬ d.Routable := by
  have hcheck : checkRun sampleConfig samplePeer (fun _ _ => True) (.new _) lateAnswer = true := by
    decide +kernel
  have hsteps := everyStep_of_checkRun (lone_new _ samplePeer) hcheck
  refine ⟨everyStep_of_inv (fun _ _ _ (_ : True) _ _ => trivial)
    (fun _ _ _ _ _ h => h.1) trivial hsteps, ?_⟩
  have hstranded : (runFrom (next? sampleConfig) (.new _) lateAnswer).any stranded = true := by
    decide +kernel
  obtain ⟨d, hrun, hd⟩ := (Option.any_eq_true _ _).mp hstranded
  exact ⟨d, hrun, not_routable_of_stranded hd⟩

/-- The peer answers every rekey before the next one, and the tunnel sends data in between. -/
def promptAnswers : List Event :=
  let first := sampleHandshake ++ [sampleEvent 1 (.tunEgress samplePeer [5]), sampleEvent 120 .tick]
  first ++ [sampleEvent 121 (.relayIn samplePeer (sampleAnswer first)), sampleEvent 240 .tick]

theorem always_routable_promptAnswers :
    EveryStep (next? sampleConfig) (fun d e d' => d'.Spread ∧ d.InStep sampleConfig e) (.new _)
      promptAnswers ∧
    Always (next? sampleConfig) Routable (.new _) promptAnswers := by
  have hcheck : checkRun sampleConfig samplePeer (InStep sampleConfig) (.new _) promptAnswers =
      true := by
    decide +kernel
  have hsteps := everyStep_of_checkRun (lone_new _ samplePeer) hcheck
  exact ⟨hsteps, always_routable _ sampleConfig promptAnswers hsteps⟩

theorem always_reachable_promptAnswers :
    Always (next? sampleConfig) (Reachable sampleConfig) (.new _) promptAnswers :=
  always_reachable _ sampleConfig promptAnswers
    (everyStep_of_checkRun (lone_new _ samplePeer) (by decide +kernel))

end DataPlane

end Fluxpeer.Node
