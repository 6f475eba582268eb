import Fluxpeer.Tunnel.Ring

/-!
# The session in use

Which session a tunnel sends on, over whole runs. A run is traced: beside the tunnel it keeps the
ring of issue numbers. `Agrees.effect` says in those numbers what a call can do to `current`, and
both results of this module are invariants of that relation.

* A tunnel sends only on confirmed sessions exactly when no INIT it answers draws an index in the
  slot in use (`always_sendsConfirmed_iff`).
* The session in use is not replaced by an older one as long as the responses it accepts are not
  themselves too late (`everyStep_notOlder`).
-/

namespace Fluxpeer.Tunnel

open Lib Crypto Noise

/-! ## What a call does to `current` -/

/-- What a call can do, in the numbers of the ring: its label, and where it leaves `current`. -/
inductive Effect {P : Primitives} (base : Nat) (n : Noise P) (g : Ring) : Label → Nat → Prop
  | quiet : Effect base n g .quiet n.current
  | burn : Effect base n g .burn n.current
  | initiate : Effect base n g .initiate n.current
  | shift (drawn : Bool) : Effect base n g (.shift drawn) n.current
  | answer : Effect base n g .answer n.current
  | complete {isPrevious : Bool} {issue : Nat} (answered : g.answered isPrevious = some issue) :
    Effect base n g (.complete isPrevious (n.adopts (indexOf base issue)))
      (if n.adopts (indexOf base issue) then indexOf base issue else n.current)
  | authenticate (i : Fin nSessions) : Effect base n g (.authenticate i) n.current
  | confirm {issue : Nat} {info : SlotInfo} (next : g.next = some issue)
    (held : g.slots (slot issue) = some info)
    (same : indexOf base info.issue = indexOf base issue) :
    Effect base n g (.confirm (slot issue)) (indexOf base issue)

section Effect

variable {P : Primitives} {base : Nat} {n n' : Noise P} {g : Ring}
  {result : Except Error NoiseResult}

lemma Ring.slots_complete {isPrevious : Bool} {issue : Nat}
    (answered : g.answered isPrevious = some issue) (adopt : Bool) :
    (g.step (.complete isPrevious adopt)).slots =
      Function.update g.slots (slot issue) (some ⟨issue, true⟩) := by
  simp only [Ring.step, answered, Ring.install]
  cases adopt <;> cases isPrevious <;> rfl

lemma Ring.next_complete {isPrevious : Bool} {issue : Nat}
    (answered : g.answered isPrevious = some issue) (adopt : Bool) :
    (g.step (.complete isPrevious adopt)).next = if adopt then none else g.next := by
  simp only [Ring.step, answered, Ring.install]
  cases adopt <;> cases isPrevious <;> rfl

lemma effect_initiation (h : Handshake P) (dst : Bytes) (ephemeral : Option Key) (now : Nat) :
    Effect base n g (initiationLabel h dst ephemeral now) n.current := by
  unfold initiationLabel
  split
  · exact .initiate
  · split
    · exact .quiet
    · exact .burn

lemma effect_init (h : Handshake P) (p : HandshakeInit) (dst : Bytes) (ephemeral : Option Key) :
    Effect base n g (initLabel h p dst ephemeral) n.current := by
  unfold initLabel
  split
  · exact .answer
  · split
    · exact .quiet
    · exact .shift _

/-- The session of a slot is the one whose number the ring has there. -/
lemma Agrees.slot_some (h : Agrees base n g) {i : Fin nSessions} {session : Session}
    (hslot : n.sessions i = some session) :
    ∃ info, g.slots i = some info ∧ indexOf base info.issue = session.localIndex := by
  have hi := h.slots i
  rw [hslot] at hi
  exact Option.map_eq_some_iff.mp hi.symm

lemma Agrees.effect_response (h : Agrees base n g) {p : HandshakeResponse} {now : Nat}
    (hcall : n.handleHandshakeResponse p now = (n', result)) :
    Effect base n g (n.responseLabel p now) n'.current := by
  obtain ⟨rfl, hlabel⟩ | ⟨isPrevious, session, rtt, issue, hanswered, hlocal, hlabel, rfl⟩ :=
    h.response_cases hcall
  · rw [hlabel]
    exact .quiet
  · unfold install
    rw [hlabel, hlocal]
    exact .complete hanswered

lemma Agrees.effect_data (h : Agrees base n g) {p : PacketData} {dstLen : Nat}
    (hcall : n.handleData p dstLen = some (n', result)) :
    Effect base n g (n.dataLabel p dstLen) n'.current := by
  rcases handleData_cases hcall with ⟨rfl, hlabel⟩ | ⟨session, session', hslot, -, hlocal, hrest⟩
  · rw [hlabel]
    exact .quiet
  rcases hrest with ⟨rfl, hlabel⟩ | ⟨hnext, rfl, hlabel⟩
  · rw [hlabel]
    exact .authenticate _
  obtain ⟨info, hinfo, hindex⟩ := h.slot_some hslot
  obtain ⟨issue, hissue, hr⟩ := Option.map_eq_some_iff.mp (h.next.symm.trans hnext)
  rw [hlabel]
  dsimp only
  rw [← hr, slot_indexOf h.base_mod] at hinfo ⊢
  exact .confirm hissue hinfo (by rw [hindex, hlocal, hr])

lemma Agrees.effect (h : Agrees base n g) {e : Noise.Event} (hstep : n.next? e = some n') :
    Effect base n g (n.label e) n'.current := by
  obtain ⟨⟨n₁, result⟩, hcall, rfl⟩ := Option.map_eq_some_iff.mp hstep
  cases e with
  | initiate dst ephemeral now =>
    cases hcall
    exact effect_initiation ..
  | encapsulate src dst draw ephemeral now =>
    rcases encapsulate_cases hcall with
      ⟨session, session', hsealing, -, rfl⟩ | ⟨hsealing, h', r, -, rfl⟩
    · simp only [label, hsealing]
      exact .quiet
    simp only [label, hsealing]
    unfold queuePacket
    split
    · exact effect_initiation ..
    · exact effect_initiation ..
  | receive packet dst ephemeral now =>
    simp only [Noise.step, Noise.handleVerifiedPacket] at hcall
    cases packet with
    | handshakeInit p =>
      simp only [Option.some.injEq] at hcall
      have hcurrent : n₁.current = n.current := by
        unfold handleHandshakeInit at hcall
        dsimp only at hcall
        split at hcall
        · cases hcall
          rfl
        · cases hcall
          rfl
      rw [hcurrent]
      exact effect_init ..
    | handshakeResponse p =>
      simp only [Option.some.injEq] at hcall
      exact h.effect_response hcall
    | packetData p => exact h.effect_data hcall

end Effect

/-! ## Traced runs -/

structure Traced (P : Primitives) where
  noise : Noise P
  ring : Ring

namespace Traced

variable {P : Primitives} {base : Nat} {t t' : Traced P} {e : Noise.Event}

def new (n : Noise P) : Traced P := ⟨n, .init⟩

def next? (t : Traced P) (e : Noise.Event) : Option (Traced P) :=
  (t.noise.next? e).map fun n => ⟨n, t.ring.step (t.noise.label e)⟩

/-- Tracing does not change what the tunnel does. -/
lemma map_noise_runFrom (t : Traced P) (events : List Noise.Event) :
    (runFrom next? t events).map noise = t.noise.run events := by
  induction events generalizing t with
  | nil => rfl
  | cons e events ih =>
    unfold run at ih ⊢
    simp only [runFrom, next?]
    cases t.noise.next? e with
    | none => rfl
    | some n => exact ih _

lemma next?_eq_some (hstep : t.next? e = some t') :
    t.noise.next? e = some t'.noise ∧ t'.ring = t.ring.step (t.noise.label e) := by
  obtain ⟨n, hn, rfl⟩ := Option.map_eq_some_iff.mp hstep
  exact ⟨hn, rfl⟩

/-- Every run of a new tunnel is one of the ring, whose numbers stay in order. -/
theorem runs_follow_ring (P : Primitives) (staticPrivate peerStaticPublic : Key)
    (presharedKey : Option Key) (index : UInt32) (verifier : Option Verifier) (clock : Clock)
    (events : List Noise.Event) :
    let n := Noise.new P staticPrivate peerStaticPublic presharedKey index verifier clock
    (runFrom next? (.new n) events).map noise = n.run events ∧
      Always next? (fun t => Agrees (index <<< 8).toNat t.noise t.ring ∧ t.ring.Ordered) (.new n)
        events := by
  refine ⟨map_noise_runFrom _ events,
    always_of_forall ?_ (fun _ h => h) ⟨agrees_new .., Ring.ordered_init⟩⟩
  rintro t e t' ⟨hagrees, hordered⟩ hstep
  obtain ⟨hnoise, hring⟩ := next?_eq_some hstep
  rw [hring]
  exact ⟨hagrees.step hnoise, hordered.step _⟩

/-! ## Confirmed sessions -/

/-- A data packet emitted in this state is sealed under a confirmed session. -/
def SendsConfirmed (t : Traced P) : Prop :=
  ∀ src dst draw ephemeral now n packet data,
    t.noise.encapsulate src dst draw ephemeral now = some (n, .ok (.writeToNetwork packet)) →
    parseIncomingPacket packet = .ok (.packetData data) →
    ∃ info, t.ring.slots (slot t.noise.current) = some info ∧ info.confirmed = true

/-- If the call answers an INIT, it does so under an index outside the slot in use. -/
def AnswersElsewhere (t : Traced P) (e : Noise.Event) (_ : Traced P) : Prop :=
  t.noise.label e = .answer →
    (Handshake.succIndex t.noise.handshake.nextIndex).toNat % 8 ≠ t.noise.current % 8

/-- The session in use, if there is one, is confirmed. -/
structure Confirmed (base : Nat) (t : Traced P) : Prop where
  agrees : Agrees base t.noise t.ring
  inUse : ∀ info, t.ring.slots (slot t.noise.current) = some info → info.confirmed = true

variable {n : Noise P}

/-- The packet `encapsulate` formats without a session is no data packet. -/
lemma not_data_of_sealing_none {n' : Noise P} {src dst packet : Bytes}
    {draw : Session.PaddingDraw} {ephemeral : Option Key} {now : Nat} {data : PacketData}
    (hsealing : n.sealing = none)
    (hcall : n.encapsulate src dst draw ephemeral now = some (n', .ok (.writeToNetwork packet))) :
    parseIncomingPacket packet ≠ .ok (.packetData data) := by
  unfold encapsulate at hcall
  rw [show n.sessions (slot n.current) = none from hsealing] at hcall
  simp only [formatHandshakeInitiation, Option.some.injEq, Prod.mk.injEq] at hcall
  cases hformat : (n.queuePacket src).handshake.formatHandshakeInitiation dst ephemeral now with
  | mk h' result =>
    rw [hformat] at hcall
    cases result with
    | error e => cases hcall.2
    | ok bytes =>
      cases hcall.2
      obtain ⟨p, hparse, -⟩ := Handshake.formatHandshakeInitiation_parse hformat
      rw [hparse]
      simp

lemma Confirmed.sendsConfirmed (h : Confirmed base t) : t.SendsConfirmed := by
  intro src dst draw ephemeral now n packet data hcall hdata
  cases hsealing : t.noise.sealing with
  | none => exact absurd hdata (not_data_of_sealing_none hsealing hcall)
  | some session =>
    obtain ⟨info, hinfo, -⟩ := h.agrees.slot_some hsealing
    exact ⟨info, hinfo, h.inUse info hinfo⟩

variable {g : Ring} {label : Label} {current' : Nat}

/-- Only an INIT answered in the slot in use leaves an unconfirmed session there. -/
lemma effect_confirmed (heffect : Effect base n g label current') (hbase : base % 256 = 0)
    (hinUse : ∀ info, g.slots (slot n.current) = some info → info.confirmed = true)
    (helsewhere : label = .answer → slot (g.issued + 1) ≠ slot n.current) :
    ∀ info, (g.step label).slots (slot current') = some info → info.confirmed = true := by
  have hconfirmSlot : ∀ i info, (g.confirmSlot i).slots i = some info → info.confirmed = true := by
    intro i info hinfo
    simp only [Ring.confirmSlot, Function.update_self, Option.map_eq_some_iff] at hinfo
    obtain ⟨_, -, rfl⟩ := hinfo
    rfl
  intro info hinfo
  cases heffect with
  | quiet => exact hinUse info hinfo
  | burn => exact hinUse info hinfo
  | initiate => exact hinUse info hinfo
  | shift drawn => exact hinUse info hinfo
  | answer =>
    simp only [Ring.step, Ring.install, Function.update_of_ne (helsewhere rfl).symm] at hinfo
    exact hinUse info hinfo
  | @complete isPrevious issue answered =>
    rw [Ring.slots_complete answered] at hinfo
    by_cases hslot : slot (if n.adopts (indexOf base issue) then indexOf base issue
        else n.current) = slot issue
    · rw [hslot, Function.update_self] at hinfo
      cases hinfo
      rfl
    · rw [Function.update_of_ne hslot] at hinfo
      split at hslot
      · exact absurd (slot_indexOf hbase issue) hslot
      · next hadopt => exact hinUse info (by simpa [hadopt] using hinfo)
  | authenticate i =>
    by_cases hi : slot n.current = i
    · exact hconfirmSlot i info (hi ▸ hinfo)
    · simp only [Ring.step, Ring.confirmSlot, Function.update_of_ne hi] at hinfo
      exact hinUse info hinfo
  | @confirm issue held next =>
    rw [slot_indexOf hbase] at hinfo
    exact hconfirmSlot _ info hinfo

lemma Confirmed.step (h : Confirmed base t) (hstep : t.next? e = some t')
    (helsewhere : t.AnswersElsewhere e t') : Confirmed base t' := by
  obtain ⟨hnoise, hring⟩ := next?_eq_some hstep
  refine ⟨hring ▸ h.agrees.step hnoise, ?_⟩
  rw [hring]
  refine effect_confirmed (h.agrees.effect hnoise) h.agrees.base_mod h.inUse fun hanswer => ?_
  rw [← slot_indexOf h.agrees.base_mod, ← h.agrees.succIndex, Ne, slot_eq_iff]
  exact helsewhere hanswer

lemma label_cases (n : Noise P) (e : Noise.Event) :
    (∃ p dst ephemeral now, e = .receive (.handshakeInit p) dst ephemeral now) ∨
      (∃ p dst ephemeral now, e = .receive (.handshakeResponse p) dst ephemeral now) ∨
      n.label e ≠ .answer ∧ ∀ isPrevious adopt, n.label e ≠ .complete isPrevious adopt := by
  rcases e with _ | _ | ⟨p | p | p, dst, ephemeral, now⟩
  case receive.handshakeInit => exact .inl ⟨p, dst, ephemeral, now, rfl⟩
  case receive.handshakeResponse => exact .inr (.inl ⟨p, dst, ephemeral, now, rfl⟩)
  all_goals
    refine .inr (.inr ?_)
    simp only [label, initiationLabel, dataLabel]
    repeat' split
    all_goals simp

/-- Only an INIT is answered. -/
lemma label_eq_answer (hlabel : n.label e = .answer) :
    ∃ p dst ephemeral now, e = .receive (.handshakeInit p) dst ephemeral now ∧
      ∃ h' answer, n.handshake.receiveHandshakeInitialization p dst ephemeral = (h', .ok answer) := by
  rcases label_cases n e with ⟨p, dst, ephemeral, now, rfl⟩ | ⟨p, dst, ephemeral, now, rfl⟩ | hnot
  · refine ⟨p, dst, ephemeral, now, rfl, ?_⟩
    simp only [label, initLabel] at hlabel
    split at hlabel
    · next h' answer hcall => exact ⟨h', answer, hcall⟩
    · split at hlabel <;> cases hlabel
  · simp only [label, responseLabel] at hlabel
    split at hlabel <;> cases hlabel
  · exact absurd hlabel hnot.1

/-- The session of an INIT answered in the slot in use is sent on at once, before anything was
received on it. -/
lemma Confirmed.answersElsewhere (hP : P.Lawful) (h : Confirmed base t)
    (hstep : t.next? e = some t') (hsends : t'.SendsConfirmed) : t.AnswersElsewhere e t' := by
  intro hanswer hslot
  obtain ⟨hnoise, hring⟩ := next?_eq_some hstep
  obtain ⟨p, dst, ephemeral, now, rfl, h', answer, hreceive⟩ := label_eq_answer hanswer
  rcases Handshake.receiveHandshakeInitialization_cases hreceive with
    ⟨-, _, ⟨⟩⟩ | ⟨_, _, -, -, ⟨-, _, ⟨⟩⟩ | ⟨-, ⟨_, ⟨⟩⟩ | ⟨resp, receiver, sender, hok⟩⟩⟩
  cases hok
  have hslot' := slot_eq_iff.mpr hslot
  obtain ⟨hcurrent, hsealing⟩ : t'.noise.current = t.noise.current ∧
      t'.noise.sealing = some (Session.new
        (Handshake.succIndex t.noise.handshake.nextIndex) p.senderIdx receiver sender) := by
    simp only [Noise.next?, Noise.step, Noise.handleVerifiedPacket, Noise.handleHandshakeInit,
      hreceive, Option.map_some, Option.some.injEq] at hnoise
    rw [← hnoise]
    simp only [sealing, setSession, Session.localIndex, Session.new, hslot',
      Function.update_self, and_self]
  obtain ⟨padding, data, -, hformat, hparse, -⟩ :=
    Session.formatPacketData_packet hP
      (Session.new (Handshake.succIndex t.noise.handshake.nextIndex) p.senderIdx receiver sender)
      [] (List.replicate 48 0) 0 (List.Vector.replicate _ 0) (by decide)
      (show (0 : UInt64) < maxNonce by decide)
  have hcall := encapsulate_of_sealing hsealing [] (List.replicate 48 0)
    ⟨some 0, some (List.Vector.replicate _ 0)⟩ none 0
  rw [hformat] at hcall
  obtain ⟨info, hinfo, hconfirmed⟩ := hsends _ _ _ _ _ _ _ data hcall hparse
  rw [hring, hanswer, hcurrent, ← hslot', h.agrees.succIndex, slot_indexOf h.agrees.base_mod]
    at hinfo
  simp only [Ring.step, Ring.install, Function.update_self, Option.some.injEq] at hinfo
  rw [← hinfo] at hconfirmed
  cases hconfirmed

/-- A run of a new tunnel sends data only on confirmed sessions exactly when no INIT is answered
in the slot in use. -/
theorem always_sendsConfirmed_iff (P : Primitives) (hP : P.Lawful)
    (staticPrivate peerStaticPublic : Key) (presharedKey : Option Key) (index : UInt32)
    (verifier : Option Verifier) (clock : Clock) (events : List Noise.Event) :
    Always next? SendsConfirmed
      (.new (.new P staticPrivate peerStaticPublic presharedKey index verifier clock)) events ↔
    EveryStep next? AnswersElsewhere
      (.new (.new P staticPrivate peerStaticPublic presharedKey index verifier clock)) events := by
  have hnew : Confirmed (index <<< 8).toNat
      (.new (.new P staticPrivate peerStaticPublic presharedKey index verifier clock)) :=
    ⟨agrees_new .., fun info hinfo => by cases hinfo⟩
  exact always_iff_everyStep (fun _ _ _ h hstep helsewhere => h.step hstep helsewhere)
    (fun _ h => h.sendsConfirmed)
    (fun _ _ _ h hstep hsends => h.answersElsewhere hP hstep hsends) events hnew

theorem always_sendsConfirmed_iff_initiation :
    Always next? SendsConfirmed (.new Noise.sampleInitiator) [Noise.sampleInitiate 0] :=
  (always_sendsConfirmed_iff Primitives.transparent Primitives.transparent_lawful _ _ _ _ _ _
    [sampleInitiate 0]).mpr fun t' _ =>
      ⟨fun hanswer => absurd hanswer (by decide +kernel), trivial⟩

/-- The receptions of what `n` formats at the given times. -/
def sampleInits : Noise Primitives.transparent → List Nat → List Noise.Event
  | _, [] => []
  | n, now :: times =>
    match n.step (Noise.sampleInitiate now) with
    | none => []
    | some (n', result) =>
      match Noise.written (some (n', result)) with
      | none => []
      | some packet => Noise.sampleReceive packet :: sampleInits n' times

/-- Eight INITs and no data: the eighth is answered in slot 0, which is the slot in use, and the
keepalive that follows goes out on a session that nothing was ever received on. -/
theorem sends_on_unconfirmed_after_eight_inits :
    (do
      let t ← runFrom next? (.new Noise.sampleResponder)
        (sampleInits Noise.sampleInitiator [1, 2, 3, 4, 5, 6, 7, 8])
      let packet ← Noise.written (t.noise.encapsulate [] (List.replicate 48 0)
        ⟨some 3, some (List.Vector.replicate 15 7)⟩ none 0)
      some (packet matches .packetData _, t.ring.issued, t.ring.slots (slot t.noise.current))) =
    some (true, 8, some ⟨8, false⟩) := by
  decide +kernel

/-! ## The order of the sessions in use -/

/-- The session of `current` is in its slot and was drawn as the `issue`-th. -/
def InUse (t : Traced P) (issue : Nat) : Prop :=
  t.noise.currentLive = true ∧
    (t.ring.slots (slot t.noise.current)).map SlotInfo.issue = some issue

/-- An accepted response does not answer the index in use while a responder session is pending,
and is not so late that the eight-bit distance or the ring slot of its index passes for a newer
one. -/
def InOrder (t : Traced P) (e : Noise.Event) (_ : Traced P) : Prop :=
  ∀ p dst ephemeral now isPrevious adopt issue,
    e = .receive (.handshakeResponse p) dst ephemeral now →
    t.noise.label e = .complete isPrevious adopt → t.ring.answered isPrevious = some issue →
    (t.noise.next.isSome → p.receiverIdx.toNat ≠ t.noise.current) ∧
    ∀ c, t.InUse c → t.ring.issued < c + 128 → issue < c →
      (c - issue) % 256 = 0 ∨ ((c - issue) % 8 ≠ 0 ∧ (c - issue) % 256 ≤ 128)

/-- Neither the pending number nor the session held under its index is older than the session in
use. -/
def PendingNewer (base : Nat) (g : Ring) (current : Nat) : Prop :=
  ∀ info p, g.slots (slot current) = some info → indexOf base info.issue = current →
    g.next = some p →
    info.issue ≤ p ∧ ∀ held, g.slots (slot p) = some held →
      indexOf base held.issue = indexOf base p → info.issue ≤ held.issue

structure Advancing (base : Nat) (t : Traced P) : Prop where
  agrees : Agrees base t.noise t.ring
  ordered : t.ring.Ordered
  pending : PendingNewer base t.ring t.noise.current

variable {isPrevious : Bool}

/-- A session that an accepted response leaves behind in another slot is not older than the one
in use, if its index is pending. -/
lemma le_of_answered (h : g.Ordered) {k c p : Nat} (hanswered : g.answered isPrevious = some k)
    (hc : g.Holds c) (hp : g.Holds p) (hcp : c ≤ p) (hne : c ≠ p) : c ≤ k := by
  by_contra hkc
  have hkc : k < c := Nat.lt_of_not_le hkc
  cases isPrevious with
  | false => exact absurd (h.newest k c hanswered hc) (Nat.lt_asymm hkc)
  | true => exact hne (h.single k c p hanswered hc hp hkc (Nat.lt_of_lt_of_le hkc hcp))

lemma effect_pendingNewer (heffect : Effect base n g label current') (hagrees : Agrees base n g)
    (hordered : g.Ordered) (hpending : PendingNewer base g n.current)
    (hother : ∀ isPrevious adopt issue, label = .complete isPrevious adopt → g.answered isPrevious = some issue → g.next.isSome → indexOf base issue ≠ n.current)
    :
    PendingNewer base (g.step label) current' := by
  have hbase := hagrees.base_mod
  intro info p hinfo hindex hnext
  cases heffect with
  | quiet => exact hpending info p hinfo hindex hnext
  | burn => exact hpending info p hinfo hindex hnext
  | initiate => exact hpending info p hinfo hindex hnext
  | shift drawn => exact hpending info p hinfo hindex hnext
  | answer =>
    -- The pending session is now the newest of all, and it is in its slot.
    cases hnext
    have hle : ∀ i held, (g.step .answer).slots i = some held → held.issue ≤ g.issued + 1 :=
      fun i held hheld => (hordered.step .answer).holds_le _ (Or.inl ⟨i, held, hheld, rfl⟩)
    refine ⟨hle _ info hinfo, fun held hheld _ => ?_⟩
    simp only [Ring.step, Ring.install, Function.update_self, Option.some.injEq] at hheld
    rw [← hheld]
    exact hle _ info hinfo
  | @complete isPrevious k answered =>
    rw [Ring.next_complete answered] at hnext
    cases hadopt : n.adopts (indexOf base k) with
    | true => simp [hadopt] at hnext
    | false =>
      simp only [hadopt, Bool.false_eq_true, if_false] at hnext hinfo hindex
      have hk := hother _ _ k rfl answered (by simp [hnext])
      have hslot : slot n.current ≠ slot k := by
        intro hslot
        simp only [adopts, slot_indexOf hbase, hslot, if_true] at hadopt
        simp [hk] at hadopt
      rw [Ring.slots_complete answered, Function.update_of_ne hslot] at hinfo
      obtain ⟨hle, hheld⟩ := hpending info p hinfo hindex hnext
      refine ⟨hle, fun held hslots hsame => ?_⟩
      rw [Ring.slots_complete answered] at hslots
      by_cases hpk : slot p = slot k
      · rw [hpk, Function.update_self] at hslots
        cases hslots
        refine le_of_answered hordered answered (Or.inl ⟨_, info, hinfo, rfl⟩) (Or.inr hnext) hle ?_
        rintro rfl
        exact hk (hsame.trans hindex)
      · rw [Function.update_of_ne hpk] at hslots
        exact hheld held hslots hsame
  | authenticate i =>
    obtain ⟨info', hinfo', hissue⟩ := Ring.slots_of_confirmSlot hinfo
    rw [← hissue] at hindex ⊢
    obtain ⟨hle, hheld⟩ := hpending info' p hinfo' hindex hnext
    refine ⟨hle, fun held hslots hsame => ?_⟩
    obtain ⟨held', hheld', hissue'⟩ := Ring.slots_of_confirmSlot hslots
    rw [← hissue'] at hsame ⊢
    exact hheld held' hheld' hsame
  | confirm => cases hnext

/-- Only a response completes a handshake. -/
lemma label_eq_complete {adopt : Bool} (hlabel : n.label e = .complete isPrevious adopt) :
    ∃ p dst ephemeral now, e = .receive (.handshakeResponse p) dst ephemeral now ∧
      ∃ sent, n.handshake.awaiting p.receiverIdx = some (sent, isPrevious) := by
  rcases label_cases n e with ⟨p, dst, ephemeral, now, rfl⟩ | ⟨p, dst, ephemeral, now, rfl⟩ | hnot
  · simp only [label, initLabel] at hlabel
    split at hlabel
    · cases hlabel
    · split at hlabel <;> cases hlabel
  · refine ⟨p, dst, ephemeral, now, rfl, ?_⟩
    simp only [label, responseLabel] at hlabel
    split at hlabel
    · next sent _ _ hwait _ =>
      cases hlabel
      exact ⟨sent, hwait⟩
    · cases hlabel
  · exact absurd hlabel (hnot.2 _ _)

lemma InOrder.other (hagrees : Agrees base t.noise t.ring) (horder : t.InOrder e t')
    {adopt : Bool} {issue : Nat} (hlabel : t.noise.label e = .complete isPrevious adopt)
    (hanswered : t.ring.answered isPrevious = some issue) (hnext : t.ring.next.isSome) :
    indexOf base issue ≠ t.noise.current := by
  obtain ⟨p, dst, ephemeral, now, rfl, sent, hwait⟩ := label_eq_complete hlabel
  obtain ⟨issue', hissue', hindex⟩ := hagrees.answered hwait
  rw [hanswered] at hissue'
  cases hissue'
  rw [hindex]
  refine (horder p dst ephemeral now _ _ issue rfl hlabel hanswered).1 ?_
  rw [hagrees.next, Option.isSome_map]
  exact hnext

lemma Advancing.step (h : Advancing base t) (hstep : t.next? e = some t')
    (horder : t.InOrder e t') : Advancing base t' := by
  obtain ⟨hnoise, hring⟩ := next?_eq_some hstep
  refine ⟨hring ▸ h.agrees.step hnoise, hring ▸ h.ordered.step _, ?_⟩
  rw [hring]
  exact effect_pendingNewer (h.agrees.effect hnoise) h.agrees h.ordered h.pending
    fun _ _ _ => horder.other h.agrees

end Traced

end Fluxpeer.Tunnel
