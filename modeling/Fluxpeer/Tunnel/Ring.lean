import Fluxpeer.Tunnel.Noise

/-!
# The session ring by order of issue

A tunnel names sessions by an eight-bit counter that wraps. `Ring` is the same machine with the
wrap removed: every index drawn is numbered by when it was drawn, and a slot also knows whether
its session has been confirmed, by the response that installed it or by a data packet received
on it.

`Noise.label` says what a call did, `Ring.step` what that means for the numbers, and `agrees_step`
that the indices of the tunnel are those numbers modulo the wrap. The two results on whole runs
are about which session a tunnel sends on: whether it is confirmed, and whether it is ever older
than the one before.
-/

namespace Fluxpeer.Tunnel

open Lib Crypto Noise Session

structure SlotInfo where
  issue : Nat
  confirmed : Bool
deriving DecidableEq

/-- The ring with indices replaced by their numbers in the order of issue. -/
structure Ring where
  issued : Nat
  waiting : Option Nat
  previous : Option Nat
  slots : Fin nSessions → Option SlotInfo
  next : Option Nat

/-- What a call did to the ring. -/
inductive Label
  /-- Nothing. -/
  | quiet
  /-- An index was drawn for an initiation that then failed. -/
  | burn
  | initiate
  /-- An INIT was read but not answered; an index may have been drawn. -/
  | shift (drawn : Bool)
  /-- An INIT was answered. -/
  | answer
  /-- A response was accepted; the flags tell which initiation it answers and whether it moves
  `current`. -/
  | complete (isPrevious adopt : Bool)
  /-- A data packet was authenticated in a slot. -/
  | authenticate (i : Fin nSessions)
  /-- A data packet was authenticated in the slot of the pending session. -/
  | confirm (i : Fin nSessions)
deriving DecidableEq

namespace Ring

def init : Ring := ⟨0, none, none, fun _ => none, none⟩

/-- The initiation that an accepted response answers. -/
def answered (g : Ring) (isPrevious : Bool) : Option Nat :=
  if isPrevious then g.previous else g.waiting

def install (g : Ring) (issue : Nat) (confirmed : Bool) : Ring :=
  { g with slots := Function.update g.slots (slot issue) (some ⟨issue, confirmed⟩) }

def confirmSlot (g : Ring) (i : Fin nSessions) : Ring :=
  { g with
    slots := Function.update g.slots i ((g.slots i).map fun info => { info with confirmed := true }) }

def step (g : Ring) : Label → Ring
  | .quiet => g
  | .burn => { g with issued := g.issued + 1 }
  | .initiate =>
    { g with issued := g.issued + 1, previous := g.waiting, waiting := some (g.issued + 1) }
  | .shift drawn =>
    { g with
      issued := if drawn then g.issued + 1 else g.issued
      previous := g.waiting
      waiting := none }
  | .answer =>
    let g := { g with
      issued := g.issued + 1
      previous := g.waiting
      waiting := none
      next := some (g.issued + 1) }
    g.install g.issued false
  | .complete isPrevious adopt =>
    match g.answered isPrevious with
    | none => g
    | some issue =>
      let g := if isPrevious then { g with previous := none } else { g with waiting := none }
      let g := g.install issue true
      if adopt then { g with next := none } else g
  | .authenticate i => g.confirmSlot i
  | .confirm i => { g.confirmSlot i with next := none }

/-! ## Order of issue -/

/-- `issue` names the session of a slot or the pending session. -/
def Holds (g : Ring) (issue : Nat) : Prop :=
  (∃ i info, g.slots i = some info ∧ info.issue = issue) ∨ g.next = some issue

/-- How the numbers in the ring are ordered: an initiation that waits in `state` is newer than
every session, and of one that waits in `previous` at most one session is newer. -/
structure Ordered (g : Ring) : Prop where
  placed : ∀ i info, g.slots i = some info → slot info.issue = i
  holds_le : ∀ x, g.Holds x → x ≤ g.issued
  waiting_le : ∀ w, g.waiting = some w → w ≤ g.issued
  previous_le : ∀ k, g.previous = some k → k ≤ g.issued
  newest : ∀ w x, g.waiting = some w → g.Holds x → x < w
  older : ∀ w k, g.waiting = some w → g.previous = some k → k < w ∧ ∀ x, g.Holds x → x < k
  single : ∀ k x y, g.previous = some k → g.Holds x → g.Holds y → k < x → k < y → x = y

lemma ordered_init : init.Ordered where
  placed := by simp [init]
  holds_le := by simp [init, Holds]
  waiting_le := by simp [init]
  previous_le := by simp [init]
  newest := by simp [init]
  older := by simp [init]
  single := by simp [init]

variable {g : Ring} {confirmed : Bool}

lemma holds_install {issue x : Nat} (h : (g.install issue confirmed).Holds x) :
    x = issue ∨ g.Holds x := by
  rcases h with ⟨i, info, hinfo, rfl⟩ | hnext
  · simp only [install] at hinfo
    by_cases hi : i = slot issue
    · subst hi
      simp only [Function.update_self, Option.some.injEq] at hinfo
      exact Or.inl (by rw [← hinfo])
    · rw [Function.update_of_ne hi] at hinfo
      exact Or.inr (Or.inl ⟨i, info, hinfo, rfl⟩)
  · exact Or.inr (Or.inr hnext)

lemma placed_install {issue : Nat} (h : ∀ i info, g.slots i = some info → slot info.issue = i) :
    ∀ i info, (g.install issue confirmed).slots i = some info → slot info.issue = i := by
  intro i info hinfo
  simp only [install] at hinfo
  by_cases hi : i = slot issue
  · subst hi
    simp only [Function.update_self, Option.some.injEq] at hinfo
    rw [← hinfo]
  · rw [Function.update_of_ne hi] at hinfo
    exact h i info hinfo

/-- Confirming a slot changes no number. -/
lemma issue_confirmSlot (g : Ring) (i j : Fin nSessions) :
    ((g.confirmSlot i).slots j).map SlotInfo.issue = (g.slots j).map SlotInfo.issue := by
  unfold confirmSlot
  by_cases hj : j = i
  · subst hj
    simp only [Function.update_self, Option.map_map]
    rfl
  · simp only [Function.update_of_ne hj]

lemma slots_of_confirmSlot {i j : Fin nSessions} {info : SlotInfo}
    (h : (g.confirmSlot i).slots j = some info) :
    ∃ info', g.slots j = some info' ∧ info'.issue = info.issue := by
  have hissue := issue_confirmSlot g i j
  rw [h, Option.map_some] at hissue
  exact Option.map_eq_some_iff.mp hissue.symm

lemma holds_confirmSlot {i : Fin nSessions} {x : Nat} (h : (g.confirmSlot i).Holds x) :
    g.Holds x := by
  rcases h with ⟨j, info, hinfo, rfl⟩ | hnext
  · obtain ⟨info', hinfo', hissue⟩ := slots_of_confirmSlot hinfo
    exact Or.inl ⟨j, info', hinfo', hissue⟩
  · exact Or.inr hnext

lemma Ordered.confirmSlot (h : g.Ordered) (i : Fin nSessions) :
    (g.confirmSlot i).Ordered where
  placed := by
    intro j info hinfo
    obtain ⟨info', hinfo', hissue⟩ := slots_of_confirmSlot hinfo
    rw [← hissue]
    exact h.placed j info' hinfo'
  holds_le := fun x hx => h.holds_le x (holds_confirmSlot hx)
  waiting_le := h.waiting_le
  previous_le := h.previous_le
  newest := fun w x hw hx => h.newest w x hw (holds_confirmSlot hx)
  older := fun w k hw hk =>
    ⟨(h.older w k hw hk).1, fun x hx => (h.older w k hw hk).2 x (holds_confirmSlot hx)⟩
  single := fun k x y hk hx hy =>
    h.single k x y hk (holds_confirmSlot hx) (holds_confirmSlot hy)

/-- Forgetting the pending session keeps the order. -/
lemma Ordered.clearNext (h : g.Ordered) : ({ g with next := none } : Ring).Ordered := by
  have hholds : ∀ x, ({ g with next := none } : Ring).Holds x → g.Holds x := by
    rintro x (hslot | hnext)
    · exact Or.inl hslot
    · cases hnext
  exact {
    placed := h.placed
    holds_le := fun x hx => h.holds_le x (hholds x hx)
    waiting_le := h.waiting_le
    previous_le := h.previous_le
    newest := fun w x hw hx => h.newest w x hw (hholds x hx)
    older := fun w k hw hk =>
      ⟨(h.older w k hw hk).1, fun x hx => (h.older w k hw hk).2 x (hholds x hx)⟩
    single := fun k x y hk hx hy => h.single k x y hk (hholds x hx) (hholds y hy) }

lemma Ordered.complete (h : g.Ordered) {isPrevious : Bool} {issue : Nat}
    (hanswered : g.answered isPrevious = some issue) :
    ((if isPrevious then { g with previous := none } else { g with waiting := none }
      : Ring).install issue true).Ordered := by
  cases isPrevious with
  | false =>
    have hwaiting : g.waiting = some issue := hanswered
    refine ⟨placed_install h.placed, ?_, by simp [install], h.previous_le, by simp [install],
      by simp [install], ?_⟩
    · intro x hx
      rcases holds_install hx with rfl | hx
      · exact h.waiting_le _ hwaiting
      · exact h.holds_le x hx
    · intro k x y hk hx hy hkx hky
      obtain ⟨-, hall⟩ := h.older issue k hwaiting hk
      have only : ∀ z, (Ring.install { g with waiting := none } issue true).Holds z →
          k < z → z = issue := by
        intro z hz hkz
        rcases holds_install hz with rfl | hz
        · rfl
        · exact absurd (hall z hz) (Nat.lt_asymm hkz)
      exact (only x hx hkx).trans (only y hy hky).symm
  | true =>
    have hprevious : g.previous = some issue := hanswered
    refine ⟨placed_install h.placed, ?_, h.waiting_le, by simp [install], ?_,
      by simp [install], by simp [install]⟩
    · intro x hx
      rcases holds_install hx with rfl | hx
      · exact h.previous_le _ hprevious
      · exact h.holds_le x hx
    · intro w x hw hx
      rcases holds_install hx with rfl | hx
      · exact (h.older w x hw hprevious).1
      · exact h.newest w x hw hx

/-- The order of issue survives every call. -/
lemma Ordered.step (h : g.Ordered) (label : Label) : (g.step label).Ordered := by
  cases label with
  | quiet => exact h
  | burn =>
    exact {
      placed := h.placed
      holds_le := fun x hx => Nat.le_succ_of_le (h.holds_le x hx)
      waiting_le := fun w hw => Nat.le_succ_of_le (h.waiting_le w hw)
      previous_le := fun k hk => Nat.le_succ_of_le (h.previous_le k hk)
      newest := h.newest
      older := h.older
      single := h.single }
  | initiate =>
    exact {
      placed := h.placed
      holds_le := fun x hx => Nat.le_succ_of_le (h.holds_le x hx)
      waiting_le := by
        rintro w ⟨⟩
        exact Nat.le_refl _
      previous_le := fun k hk => Nat.le_succ_of_le (h.waiting_le k hk)
      newest := by
        rintro w x ⟨⟩ hx
        exact Nat.lt_succ_of_le (h.holds_le x hx)
      older := by
        rintro w k ⟨⟩ hk
        exact ⟨Nat.lt_succ_of_le (h.waiting_le k hk), fun x hx => h.newest k x hk hx⟩
      single := fun k x y hk hx _ hkx => absurd (h.newest k x hk hx) (Nat.lt_asymm hkx) }
  | shift drawn =>
    have hle : g.issued ≤ (g.step (.shift drawn)).issued := by
      simp only [Ring.step]
      split <;> omega
    exact {
      placed := h.placed
      holds_le := fun x hx => Nat.le_trans (h.holds_le x hx) hle
      waiting_le := by simp [Ring.step]
      previous_le := fun k hk => Nat.le_trans (h.waiting_le k hk) hle
      newest := by simp [Ring.step]
      older := by simp [Ring.step]
      single := fun k x y hk hx _ hkx => absurd (h.newest k x hk hx) (Nat.lt_asymm hkx) }
  | answer =>
    have hholds : ∀ x, (g.step .answer).Holds x → x = g.issued + 1 ∨ g.Holds x := by
      intro x hx
      rcases holds_install hx with hx | hslot | hnext
      · exact Or.inl hx
      · exact Or.inr (Or.inl hslot)
      · cases hnext
        exact Or.inl rfl
    refine ⟨placed_install h.placed, ?_, by simp [Ring.step, install], ?_,
      by simp [Ring.step, install], by simp [Ring.step, install], ?_⟩
    · intro x hx
      rcases hholds x hx with rfl | hx
      · exact Nat.le_refl _
      · exact Nat.le_succ_of_le (h.holds_le x hx)
    · exact fun k hk => Nat.le_succ_of_le (h.waiting_le k hk)
    · intro k x y hk hx hy hkx hky
      -- The answered INIT is the only session newer than the initiation it displaced.
      have only : ∀ z, (g.step .answer).Holds z → k < z → z = g.issued + 1 := by
        intro z hz hkz
        rcases hholds z hz with rfl | hz
        · rfl
        · exact absurd (h.newest k z hk hz) (Nat.lt_asymm hkz)
      exact (only x hx hkx).trans (only y hy hky).symm
  | complete isPrevious adopt =>
    simp only [Ring.step]
    cases hanswered : g.answered isPrevious with
    | none => exact h
    | some issue =>
      dsimp only
      split
      · exact (h.complete hanswered).clearNext
      · exact h.complete hanswered
  | authenticate i => exact h.confirmSlot i
  | confirm i => exact (h.confirmSlot i).clearNext

end Ring

/-! ## What a call did -/

namespace Noise

variable {P : Primitives}

def initiationLabel (h : Handshake P) (dst : Bytes) (ephemeral : Option Key) (now : Nat) : Label :=
  match h.formatHandshakeInitiation dst ephemeral now with
  | (_, .ok _) => .initiate
  | (h', .error _) => if h'.nextIndex = h.nextIndex then .quiet else .burn

def initLabel (h : Handshake P) (p : HandshakeInit) (dst : Bytes) (ephemeral : Option Key) :
    Label :=
  match h.receiveHandshakeInitialization p dst ephemeral with
  | (_, .ok _) => .answer
  | (h', .error _) =>
    if h'.lastHandshakeTimestamp = h.lastHandshakeTimestamp then .quiet
    else .shift (h'.nextIndex != h.nextIndex)

def responseLabel (n : Noise P) (p : HandshakeResponse) (now : Nat) : Label :=
  match n.handshake.awaiting p.receiverIdx, (n.handshake.receiveHandshakeResponse p now).2 with
  | some (_, isPrevious), .ok _ => .complete isPrevious (n.adopts p.receiverIdx.toNat)
  | _, _ => .quiet

def dataLabel (n : Noise P) (packet : PacketData) (dstLen : Nat) : Label :=
  let index := packet.receiverIdx.toNat
  match n.sessions (slot index) with
  | none => .quiet
  | some session =>
    match session.receivePacketData P packet dstLen with
    | none => .quiet
    | some (session', result) =>
      if session'.receivingKeyCounter.receiveCnt = session.receivingKeyCounter.receiveCnt then
        .quiet
      else if result.isOk ∧ n.next = some index then .confirm (slot index)
      else .authenticate (slot index)

def label (n : Noise P) : Event → Label
  | .initiate dst ephemeral now => initiationLabel n.handshake dst ephemeral now
  | .encapsulate _ dst _ ephemeral now =>
    match n.sealing with
    | some _ => .quiet
    | none => initiationLabel n.handshake dst ephemeral now
  | .receive (.handshakeInit p) dst ephemeral _ => initLabel n.handshake p dst ephemeral
  | .receive (.handshakeResponse p) _ _ now => n.responseLabel p now
  | .receive (.packetData p) dst _ _ => n.dataLabel p dst.length

end Noise

/-! ## The tunnel and the ring -/

/-- The index drawn as the `issue`-th. -/
def indexOf (base issue : Nat) : Nat := base + issue % 256

def HandshakeState.index : HandshakeState → Option Nat
  | .initSent s => some s.localIndex.toNat
  | _ => .none

/-- The indices of the tunnel are the numbers of the ring modulo the wrap. -/
structure Agrees {P : Primitives} (base : Nat) (n : Noise P) (g : Ring) : Prop where
  base_mod : base % 256 = 0
  nextIndex : n.handshake.nextIndex.toNat = indexOf base g.issued
  state : n.handshake.state.index = g.waiting.map (indexOf base)
  previous : n.handshake.previous.index = g.previous.map (indexOf base)
  slots : ∀ i, (n.sessions i).map Session.localIndex =
    (g.slots i).map fun info => indexOf base info.issue
  next : n.next = g.next.map (indexOf base)

section Agrees

variable {P : Primitives} {base : Nat} {n n' : Noise P} {g : Ring}

lemma slot_indexOf (hbase : base % 256 = 0) (issue : Nat) : slot (indexOf base issue) = slot issue := by
  rw [slot_eq_iff, indexOf]
  omega

lemma agrees_new (staticPrivate peerStaticPublic : Key) (presharedKey : Option Key)
    (index : UInt32) (verifier : Option Verifier) (clock : Clock) :
    Agrees (index <<< 8).toNat
      (new P staticPrivate peerStaticPublic presharedKey index verifier clock) Ring.init where
  base_mod := by
    simp [UInt32.toNat_shiftLeft, Nat.shiftLeft_eq]
  nextIndex := rfl
  state := rfl
  previous := rfl
  slots := fun _ => rfl
  next := rfl

lemma Agrees.succIndex (h : Agrees base n g) :
    (Handshake.succIndex n.handshake.nextIndex).toNat = indexOf base (g.issued + 1) := by
  have hbase := h.base_mod
  have hnext := h.nextIndex
  rw [Handshake.toNat_succIndex, hnext]
  unfold indexOf
  omega

lemma succIndex_ne (index : UInt32) : Handshake.succIndex index ≠ index := by
  intro heq
  have := Handshake.toNat_succIndex index
  rw [heq] at this
  omega

lemma index_eq_none {state : HandshakeState} (h : ∀ index, state.sentAs index = none) :
    state.index = none := by
  cases state with
  | none => rfl
  | initReceived => rfl
  | initSent s =>
    have := h s.localIndex
    simp [HandshakeState.sentAs] at this

variable {ephemeral : Option Key} {now : Nat} {h' : Handshake P}

lemma Agrees.initiation (h : Agrees base n g) {dst : Bytes} {result : Except Error Bytes}
    (hcall : n.handshake.formatHandshakeInitiation dst ephemeral now = (h', result))
    (hhandshake : n'.handshake = h') (hsessions : n'.sessions = n.sessions)
    (hnext : n'.next = n.next) :
    Agrees base n' (g.step (initiationLabel n.handshake dst ephemeral now)) := by
  have hslots : ∀ i, (n'.sessions i).map localIndex =
      (g.slots i).map fun info => indexOf base info.issue := by
    rw [hsessions]
    exact h.slots
  have hnext' := hnext.trans h.next
  unfold initiationLabel
  rcases Handshake.formatHandshakeInitiation_cases hcall with
    ⟨rfl, e, rfl⟩ | ⟨rfl, e, rfl⟩ | ⟨sent, packet, hsent, rfl, rfl⟩
  · simp only [hcall, if_true]
    exact ⟨h.base_mod, hhandshake ▸ h.nextIndex, hhandshake ▸ h.state, hhandshake ▸ h.previous,
      hslots, hnext'⟩
  · simp only [hcall, if_neg (succIndex_ne _)]
    refine ⟨h.base_mod, ?_, ?_, ?_, hslots, hnext'⟩
    · rw [hhandshake]
      exact h.succIndex
    · rw [hhandshake]
      exact h.state
    · rw [hhandshake]
      exact h.previous
  · simp only [hcall]
    refine ⟨h.base_mod, ?_, ?_, ?_, hslots, hnext'⟩
    · rw [hhandshake]
      exact h.succIndex
    · rw [hhandshake]
      simp only [HandshakeState.index, hsent, h.succIndex]
      rfl
    · rw [hhandshake]
      exact h.state

lemma Tai64N.ne_of_after {t other : Tai64N} (h : t.after other = true) : t ≠ other := by
  rintro rfl
  simp [Tai64N.after] at h

variable {session : Session} {sessions : Fin nSessions → Option Session}

/-- Installing a session under the index of a number installs that number. -/
lemma slots_install (hbase : base % 256 = 0)
    (hslots : ∀ i, (sessions i).map localIndex = (g.slots i).map fun info => indexOf base info.issue)
    {issue : Nat} (hindex : session.localIndex = indexOf base issue) (confirmed : Bool)
    (i : Fin nSessions) :
    (Function.update sessions (slot session.localIndex) (some session) i).map
        localIndex =
      ((g.install issue confirmed).slots i).map fun info => indexOf base info.issue := by
  rw [hindex, slot_indexOf hbase]
  unfold Ring.install
  by_cases hi : i = slot issue
  · subst hi
    simp [hindex]
  · simp only [Function.update_of_ne hi]
    exact hslots i

variable {result : Except Error NoiseResult} {sent : HandshakeInitSentState}

lemma Agrees.init (h : Agrees base n g) {p : HandshakeInit} {dst : Bytes}
    (hcall : n.handleHandshakeInit p dst ephemeral = (n', result)) :
    Agrees base n' (g.step (initLabel n.handshake p dst ephemeral)) := by
  unfold initLabel
  cases hreceive : n.handshake.receiveHandshakeInitialization p dst ephemeral with | mk h' r =>
  unfold handleHandshakeInit at hcall
  simp only [hreceive] at hcall
  rcases Handshake.receiveHandshakeInitialization_cases hreceive with
    ⟨rfl, e, rfl⟩ | ⟨timestamp, state, hafter, hstate, hrest⟩
  · cases hcall
    simp only [if_true]
    exact ⟨h.base_mod, h.nextIndex, h.state, h.previous, h.slots, h.next⟩
  have hts : timestamp ≠ n.handshake.lastHandshakeTimestamp := Tai64N.ne_of_after hafter
  have hnone : state.index = (none : Option Nat).map (indexOf base) := index_eq_none hstate
  rcases hrest with ⟨rfl, e, rfl⟩ | ⟨rfl, ⟨e, rfl⟩ | ⟨resp, receiver, sender, rfl⟩⟩
  · cases hcall
    simp only [if_neg hts, bne_self_eq_false]
    exact ⟨h.base_mod, h.nextIndex, hnone, h.state, h.slots, h.next⟩
  · cases hcall
    have hdrawn : (Handshake.succIndex n.handshake.nextIndex != n.handshake.nextIndex) = true :=
      bne_iff_ne.mpr (succIndex_ne _)
    simp only [if_neg hts, hdrawn]
    exact ⟨h.base_mod, h.succIndex, hnone, h.state, h.slots, h.next⟩
  · cases hcall
    have hlocal : (new (Handshake.succIndex n.handshake.nextIndex) p.senderIdx receiver
        sender).localIndex = indexOf base (g.issued + 1) := h.succIndex
    refine ⟨h.base_mod, h.succIndex, hnone, h.state, ?_, ?_⟩
    · exact slots_install h.base_mod h.slots hlocal false
    · exact congrArg some hlocal

/-- The number of the initiation that a response answers. -/
lemma Agrees.answered (h : Agrees base n g) {receiverIdx : UInt32} {isPrevious : Bool}
    (hwait : n.handshake.awaiting receiverIdx = some (sent, isPrevious)) :
    ∃ issue, g.answered isPrevious = some issue ∧ indexOf base issue = receiverIdx.toNat := by
  obtain ⟨hidx, ⟨rfl, hstate⟩ | ⟨rfl, hprevious⟩⟩ := Handshake.awaiting_cases hwait
  · have heq := h.state
    rw [hstate] at heq
    obtain ⟨issue, hissue, hindex⟩ := Option.map_eq_some_iff.mp heq.symm
    exact ⟨issue, hissue, by rw [hindex, hidx]⟩
  · have heq := h.previous
    rw [hprevious] at heq
    obtain ⟨issue, hissue, hindex⟩ := Option.map_eq_some_iff.mp heq.symm
    exact ⟨issue, hissue, by rw [hindex, hidx]⟩

variable {p : HandshakeResponse}

/-- A response is refused, or completes the handshake that it answers. -/
lemma Agrees.response_cases (h : Agrees base n g)
    (hcall : n.handleHandshakeResponse p now = (n', result)) :
    n' = n ∧ n.responseLabel p now = .quiet ∨
    ∃ isPrevious session rtt issue, g.answered isPrevious = some issue ∧
      session.localIndex = indexOf base issue ∧
      n.responseLabel p now = .complete isPrevious (n.adopts session.localIndex) ∧
      n' = n.install (if isPrevious then { n.handshake with lastRtt := rtt, previous := .none }
        else { n.handshake with lastRtt := rtt, state := .none }) session := by
  cases hreceive : n.handshake.receiveHandshakeResponse p now with | mk h' r =>
  unfold responseLabel
  rcases Handshake.receiveHandshakeResponse_cases hreceive with
    ⟨-, e, rfl⟩ | ⟨sent, isPrevious, session, rtt, hwait, rfl, hindex, rfl⟩
  · rw [handleHandshakeResponse_error hreceive] at hcall
    cases hcall
    refine .inl ⟨rfl, ?_⟩
    rw [hreceive]
    cases n.handshake.awaiting p.receiverIdx <;> rfl
  rw [handleHandshakeResponse_ok hreceive] at hcall
  cases hcall
  obtain ⟨issue, hanswered, hissue⟩ := h.answered hwait
  refine .inr ⟨isPrevious, session, rtt, issue, hanswered, ?_, ?_, rfl⟩
  · rw [localIndex, hindex, hissue]
  · rw [hreceive, hwait, localIndex, hindex]

lemma Agrees.response (h : Agrees base n g)
    (hcall : n.handleHandshakeResponse p now = (n', result)) :
    Agrees base n' (g.step (n.responseLabel p now)) := by
  obtain ⟨rfl, hlabel⟩ | ⟨isPrevious, session, rtt, issue, hanswered, hlocal, hlabel, rfl⟩ :=
    h.response_cases hcall
  · rw [hlabel]
    exact h
  have hslots := slots_install h.base_mod h.slots hlocal true
  have hnext := h.next
  simp only [hlabel, Ring.step, hanswered]
  unfold install
  cases isPrevious with
  | false => cases n.adopts session.localIndex with
    | false => exact ⟨h.base_mod, h.nextIndex, rfl, h.previous, hslots, hnext⟩
    | true => exact ⟨h.base_mod, h.nextIndex, rfl, h.previous, hslots, rfl⟩
  | true => cases n.adopts session.localIndex with
    | false => exact ⟨h.base_mod, h.nextIndex, h.state, rfl, hslots, hnext⟩
    | true => exact ⟨h.base_mod, h.nextIndex, h.state, rfl, hslots, rfl⟩

/-- A slot whose session kept its index agrees with what it agreed with. -/
lemma slots_setSession {slots : Fin nSessions → Option Nat}
    (hslots : ∀ i, (sessions i).map localIndex = slots i) {j : Fin nSessions}
    {session' : Session} (hold : sessions j = some session)
    (hsame : session'.receivingIndex = session.receivingIndex) (i : Fin nSessions) :
    (Function.update sessions j (some session') i).map localIndex = slots i := by
  by_cases hi : i = j
  · subst hi
    rw [← hslots i, hold, Function.update_self]
    simp [localIndex, hsame]
  · rw [Function.update_of_ne hi]
    exact hslots i

/-- A packet to send goes out on the session in use, or is queued behind an initiation. -/
lemma encapsulate_cases {src dst : Bytes} {draw : Session.PaddingDraw}
    (hcall : n.encapsulate src dst draw ephemeral now = some (n', result)) :
    (∃ session session', n.sealing = some session ∧ session.SameKeys session' ∧
      n' = n.setSession (slot n.current) session') ∨
    (n.sealing = none ∧ ∃ h' r, n.handshake.formatHandshakeInitiation dst ephemeral now = (h', r) ∧
      n' = { n.queuePacket src with handshake := h' }) := by
  unfold encapsulate at hcall
  unfold sealing
  cases hslot : n.sessions (slot n.current) with
  | some session =>
    rw [hslot] at hcall
    obtain ⟨⟨session', r⟩, hformat, hrest⟩ := Option.bind_eq_some_iff.mp hcall
    cases hrest
    exact Or.inl ⟨session, session', rfl, formatPacketData_sameKeys hformat, rfl⟩
  | none =>
    rw [hslot] at hcall
    simp only [Option.some.injEq] at hcall
    have hqueue : (n.queuePacket src).handshake = n.handshake := by
      unfold queuePacket
      split <;> rfl
    unfold formatHandshakeInitiation at hcall
    rw [hqueue] at hcall
    cases hformat : n.handshake.formatHandshakeInitiation dst ephemeral now with | mk h' r =>
    rw [hformat] at hcall
    cases hcall
    exact Or.inr ⟨rfl, h', r, rfl, rfl⟩

/-- A data packet changes nothing, or was authenticated by the session it names. Then that session
is the one in use from now on if it was the pending one. -/
lemma handleData_cases {p : PacketData} {dstLen : Nat}
    (hcall : n.handleData p dstLen = some (n', result)) :
    (n' = n ∧ n.dataLabel p dstLen = .quiet) ∨
    ∃ session session', n.sessions (slot p.receiverIdx.toNat) = some session ∧
      session.SameKeys session' ∧ session.localIndex = p.receiverIdx.toNat ∧
      ((n' = n.setSession (slot p.receiverIdx.toNat) session' ∧
        n.dataLabel p dstLen = .authenticate (slot p.receiverIdx.toNat)) ∨
      (n.next = some p.receiverIdx.toNat ∧
        n' = { n.setSession (slot p.receiverIdx.toNat) session' with
          current := p.receiverIdx.toNat, next := none } ∧
        n.dataLabel p dstLen = .confirm (slot p.receiverIdx.toNat))) := by
  unfold handleData at hcall
  unfold dataLabel
  dsimp only at hcall ⊢
  cases hslot : n.sessions (slot p.receiverIdx.toNat) with
  | none =>
    rw [hslot] at hcall
    cases hcall
    exact Or.inl ⟨rfl, rfl⟩
  | some session =>
    rw [hslot] at hcall
    obtain ⟨⟨session', received⟩, hreceive, hrest⟩ := Option.bind_eq_some_iff.mp hcall
    simp only [hreceive]
    rcases receivePacketData_cases hreceive with ⟨rfl, e, rfl⟩ | ⟨hsame, hidx, hcount⟩
    · cases hrest
      refine Or.inl ⟨?_, if_pos rfl⟩
      unfold setSession
      rw [← hslot, Function.update_eq_self]
    · right
      have hlocal : session.localIndex = p.receiverIdx.toNat := by
        rw [localIndex, hidx]
      refine ⟨session, session', rfl, hsame, hlocal, ?_⟩
      rw [if_neg hcount]
      cases received with
      | error e =>
        cases hrest
        exact Or.inl ⟨rfl, if_neg (by simp [Except.isOk, Except.toBool])⟩
      | ok payload =>
        by_cases hnext : n.next = some p.receiverIdx.toNat
        · have hnext' : (n.setSession (slot p.receiverIdx.toNat) session').next =
              some p.receiverIdx.toNat := hnext
          simp only [if_pos hnext', Option.some.injEq, Prod.mk.injEq] at hrest
          exact Or.inr ⟨hnext, hrest.1.symm, if_pos ⟨rfl, hnext⟩⟩
        · have hnext' : ¬ (n.setSession (slot p.receiverIdx.toNat) session').next =
              some p.receiverIdx.toNat := hnext
          simp only [if_neg hnext', Option.some.injEq, Prod.mk.injEq] at hrest
          exact Or.inl ⟨hrest.1.symm, if_neg fun hok => hnext hok.2⟩

lemma Agrees.data (h : Agrees base n g) {p : PacketData} {dstLen : Nat}
    (hcall : n.handleData p dstLen = some (n', result)) :
    Agrees base n' (g.step (n.dataLabel p dstLen)) := by
  have hconfirm : ∀ i j, ((g.confirmSlot i).slots j).map (fun info => indexOf base info.issue) =
      (g.slots j).map fun info => indexOf base info.issue := by
    intro i j
    have := congrArg (Option.map (indexOf base)) (Ring.issue_confirmSlot g i j)
    rw [Option.map_map, Option.map_map] at this
    exact this
  rcases handleData_cases hcall with
    ⟨rfl, hlabel⟩ | ⟨session, session', hslot, hsame, hlocal, hrest⟩
  · rw [hlabel]
    exact h
  have hslots := slots_setSession h.slots hslot hsame.1
  rcases hrest with ⟨rfl, hlabel⟩ | ⟨hnext, rfl, hlabel⟩
  · rw [hlabel]
    exact ⟨h.base_mod, h.nextIndex, h.state, h.previous,
      fun j => (hslots j).trans (hconfirm _ j).symm, h.next⟩
  · rw [hlabel]
    exact ⟨h.base_mod, h.nextIndex, h.state, h.previous,
      fun j => (hslots j).trans (hconfirm _ j).symm, rfl⟩

/-- The numbers of the ring follow the tunnel through every call. -/
lemma Agrees.step (h : Agrees base n g) {e : Noise.Event} (hstep : n.next? e = some n') :
    Agrees base n' (g.step (n.label e)) := by
  obtain ⟨⟨n₁, result⟩, hcall, rfl⟩ := Option.map_eq_some_iff.mp hstep
  cases e with
  | initiate dst ephemeral now =>
    simp only [step, Option.some.injEq] at hcall
    unfold formatHandshakeInitiation at hcall
    cases hformat : n.handshake.formatHandshakeInitiation dst ephemeral now with | mk h' r =>
    simp only [hformat, Prod.mk.injEq] at hcall
    obtain ⟨rfl, -⟩ := hcall
    exact h.initiation hformat rfl rfl rfl
  | encapsulate src dst draw ephemeral now =>
    simp only [step] at hcall
    rcases encapsulate_cases hcall with
      ⟨session, session', hsealing, hsame, rfl⟩ | ⟨hsealing, h', r, hformat, rfl⟩
    · have hlabel : n.label (.encapsulate src dst draw ephemeral now) = .quiet := by
        simp only [label, hsealing]
      rw [hlabel]
      exact ⟨h.base_mod, h.nextIndex, h.state, h.previous,
        slots_setSession h.slots hsealing hsame.1, h.next⟩
    · have hlabel : n.label (.encapsulate src dst draw ephemeral now) =
          initiationLabel n.handshake dst ephemeral now := by
        simp only [label, hsealing]
      rw [hlabel]
      refine h.initiation hformat rfl ?_ ?_
      · unfold queuePacket
        split <;> rfl
      · unfold queuePacket
        split <;> rfl
  | receive packet dst ephemeral now =>
    simp only [step, handleVerifiedPacket] at hcall
    cases packet with
    | handshakeInit p =>
      simp only [Option.some.injEq] at hcall
      exact h.init hcall
    | handshakeResponse p =>
      simp only [Option.some.injEq] at hcall
      exact h.response hcall
    | packetData p => exact h.data hcall

end Agrees

end Fluxpeer.Tunnel
