import Fluxpeer.Relay.Hub
import Mathlib.Data.List.Induction
import Mathlib.Logic.Function.Basic

/-!
# Relay sessions

One task serves each connection: it registers with the hub under the key that the link
authentication proved, then moves frames between the connection and the hub, and on the way out
removes its registration. The tasks of all connections interleave, those of one key among them.

Steps of different tasks meet only in the hub. A task that routes a frame to a key that is gone
answers the sender in a step of its own, and what a task drops at its end goes after it has left
the registry.
-/

namespace Fluxpeer.Relay

open Lib Hub

inductive Phase
  /-- In the loop that moves frames. -/
  | pump
  /-- About to tell the client that a key is gone. -/
  | replying (dst : PublicKey)
  /-- Out of the registry, with its locals still alive. -/
  | closing
  | ended
deriving DecidableEq

/-- The locals of a serving task. -/
structure Session where
  pubkey : PublicKey
  identity : AuthId
  phase : Phase

structure Server (cap : Nat) where
  hub : Hub cap
  /-- The task behind each channel. -/
  sessions : ChannelId → Option Session

inductive Event
  /-- A link that authenticated sends its first frame; `authorized` is the verdict of the
  admission check. -/
  | accept (identity : AuthId) (frame : Frame) (authorized : Bool)
  /-- A frame of the client; `allow` is the verdict of the rate limit. -/
  | inbound (tx : ChannelId) (frame : Frame) (allow : Bool)
  | reply (tx : ChannelId)
  /-- A frame is taken from the queue for the client. -/
  | outbound (tx : ChannelId)
  | leave (tx : ChannelId)
  /-- The locals are dropped: the reader of the queue and the lease on the link session. -/
  | finish (tx : ChannelId)

def relayProtocolVersion : UInt32 := 2

namespace Server

variable {cap : Nat}

def new (queueCap : Nat) : Server (max queueCap 1) := ⟨.withCapacity queueCap, fun _ => none⟩

def withHub (s : Server cap) (hub : Hub cap) : Server cap := { s with hub := hub }

def setSession (s : Server cap) (tx : ChannelId) (v : Session) : Server cap :=
  { s with sessions := Function.update s.sessions tx (some v) }

def setPhase (s : Server cap) (tx : ChannelId) (v : Session) (phase : Phase) : Server cap :=
  s.setSession tx { v with phase := phase }

section

-- The key that a link session was authenticated with.
variable (peer : AuthId → PublicKey)

/-- The handshake and the registration. -/
def accept (s : Server cap) (identity : AuthId) (frame : Frame) (authorized : Bool) : Server cap :=
  match frame with
  | .clientInfo pubkey protocolVersion =>
    if protocolVersion ≠ relayProtocolVersion ∨ peer identity ≠ pubkey ∨ ¬ authorized then
      s.withHub (s.hub.invalidate identity)
    else
      let (hub, tx) := s.hub.connectAuthenticated pubkey (some identity)
      (s.withHub hub).setSession tx ⟨pubkey, identity, .pump⟩
  | _ => s.withHub (s.hub.invalidate identity)

def handleInbound (s : Server cap) (tx : ChannelId) (v : Session) (frame : Frame) (allow : Bool) :
    Server cap :=
  match frame with
  | .sendPacket .. =>
    if !allow then s
    else
      match s.hub.routeSession v.pubkey (some tx) frame with
      | (hub, .peerGone dst) => (s.withHub hub).setPhase tx v (.replying dst)
      | (hub, _) => s.withHub hub
  | .ping data => s.withHub (s.hub.trySend tx (.pong data)).1
  | _ => s

/-- A step of the task behind a channel, if there is one. -/
def task (s : Server cap) (tx : ChannelId) (next : Session → Server cap) : Server cap :=
  match s.sessions tx with
  | some v => next v
  | none => s

def step (s : Server cap) : Event → Server cap
  | .accept identity frame authorized => s.accept peer identity frame authorized
  | .inbound tx frame allow => s.task tx fun v =>
    if v.phase = .pump then s.handleInbound tx v frame allow else s
  | .reply tx => s.task tx fun v =>
    match v.phase with
    | .replying dst => (s.withHub (s.hub.trySend tx (.peerGone dst)).1).setPhase tx v .pump
    | _ => s
  | .outbound tx => s.task tx fun v =>
    if v.phase = .pump then s.withHub (s.hub.setChannel tx (s.hub.channels tx).pop) else s
  | .leave tx => s.task tx fun v =>
    if v.phase = .pump then
      (s.withHub (s.hub.disconnectSession v.pubkey tx)).setPhase tx v .closing
    else s
  | .finish tx => s.task tx fun v =>
    if v.phase = .closing then
      let hub := s.hub.setChannel tx (s.hub.channels tx).close
      (s.withHub (hub.invalidate v.identity)).setPhase tx v .ended
    else s

def run (queueCap : Nat) (es : List Event) : Server (max queueCap 1) :=
  es.foldl (step peer) (new queueCap)

end

/-! ## What a step changes -/

/-- The key and the link session of the task behind a channel, which never change. -/
def owner (s : Server cap) (tx : ChannelId) : Option (PublicKey × AuthId) :=
  (s.sessions tx).map fun v => (v.pubkey, v.identity)

variable {peer : AuthId → PublicKey} {s : Server cap} {tx c : ChannelId} {v : Session} {e : Event}
  {k : PublicKey} {f : Frame} {queueCap : Nat}

lemma owner_setPhase (hv : s.sessions tx = some v) (hub : Hub cap) (phase : Phase) :
    ((s.withHub hub).setPhase tx v phase).owner = s.owner := by
  funext c
  simp only [owner, setPhase, setSession, withHub, Function.update_apply]
  split
  · next heq => rw [heq, hv, Option.map_some, Option.map_some]
  · rfl

/-- What a step can do to the registry and to the link sessions. -/
inductive Move (peer : AuthId → PublicKey) (s : Server cap) : Server cap → Prop
  | quiet {s' : Server cap} (same : s.hub.SameRegistry s'.hub) (owner : s'.owner = s.owner) :
    Move peer s s'
  | refused (identity : AuthId) : Move peer s (s.withHub (s.hub.invalidate identity))
  | registered (identity : AuthId) :
    Move peer s ((s.withHub (s.hub.connectAuthenticated (peer identity) (some identity)).1).setSession
      s.hub.nextChannel ⟨peer identity, identity, .pump⟩)
  | left {tx : ChannelId} {v : Session} (task : s.sessions tx = some v) :
    Move peer s ((s.withHub (s.hub.disconnectSession v.pubkey tx)).setPhase tx v .closing)
  | finished {tx : ChannelId} {v : Session} (task : s.sessions tx = some v) :
    Move peer s ((s.withHub ((s.hub.setChannel tx (s.hub.channels tx).close).invalidate
      v.identity)).setPhase tx v .ended)

lemma Move.idle : Move peer s s := .quiet (.refl _) rfl

variable {frame : Frame} {motive : Server cap → Prop}

lemma move_accept {identity : AuthId} {authorized : Bool} :
    Move peer s (s.accept peer identity frame authorized) := by
  unfold accept
  split
  · split
    · exact .refused identity
    next hchecks =>
    obtain ⟨_, hkey, _⟩ : _ ∧ peer identity = _ ∧ _ := by simpa using hchecks
    subst hkey
    exact .registered identity
  · exact .refused identity

lemma move_handleInbound {allow : Bool} (hv : s.sessions tx = some v) :
    Move peer s (s.handleInbound tx v frame allow) := by
  unfold handleInbound
  split
  · split
    · exact .idle
    next dst payload _ =>
    have hsame : s.hub.SameRegistry
        (s.hub.routeSession v.pubkey (some tx) (.sendPacket dst payload)).1 :=
      sameRegistry_routeSession
    split
    · next hub dst' hroute =>
      rw [hroute] at hsame
      exact .quiet hsame (owner_setPhase hv _ _)
    · next hub routed _ hroute =>
      rw [hroute] at hsame
      exact .quiet hsame rfl
  · exact .quiet sameRegistry_trySend rfl
  · exact .idle

lemma task_induct {next : Session → Server cap} (hs : motive s)
    (hnext : ∀ v, s.sessions tx = some v → motive (next v)) : motive (s.task tx next) := by
  unfold task
  split
  · next v hv => exact hnext v hv
  · exact hs

lemma move_step : Move peer s (s.step peer e) := by
  cases e with
  | accept identity frame authorized => exact move_accept
  | inbound tx frame allow =>
    refine task_induct .idle fun v hv => ?_
    split
    · exact move_handleInbound hv
    · exact .idle
  | reply tx =>
    refine task_induct .idle fun v hv => ?_
    split
    · exact .quiet sameRegistry_trySend (owner_setPhase hv _ _)
    · exact .idle
  | outbound tx =>
    refine task_induct .idle fun v hv => ?_
    split
    · exact .quiet ⟨rfl, rfl, rfl⟩ rfl
    · exact .idle
  | leave tx =>
    refine task_induct .idle fun v hv => ?_
    split
    · exact .left hv
    · exact .idle
  | finish tx =>
    refine task_induct .idle fun v hv => ?_
    split
    · exact .finished hv
    · exact .idle

/-! ## Queues -/

/-- The step by which a session puts a packet into a queue: it is the registered session of the
key that the packet names as its source, and the queue is that of the session registered for the
destination. -/
def Delivers (s : Server cap) (e : Event) (c : ChannelId) (src : PublicKey) (payload : Bytes) :
    Prop :=
  ∃ tx dst, e = .inbound tx (.sendPacket dst payload) true ∧
    (∃ auth, s.owner tx = some (src, auth)) ∧
    s.hub.current src tx = true ∧ s.hub.current dst c = true

/-- Every packet in a queue was there before the step or is delivered by it. -/
def Fed (s : Server cap) (e : Event) (s' : Server cap) : Prop :=
  ∀ c src payload, .recvPacket src payload ∈ (s'.hub.channels c).queue →
    .recvPacket src payload ∈ (s.hub.channels c).queue ∨ s.Delivers e c src payload

variable {s' : Server cap} {a : AuthId} {conn : Connection}

lemma Fed.of_fewer (h : s.hub.Fewer s'.hub) : s.Fed e s' :=
  fun c _ _ hmem => .inl (h c hmem)

lemma Fed.idle : s.Fed e s := fun _ _ _ => .inl

lemma fed_trySend (hf : ∀ src payload, f ≠ .recvPacket src payload)
    (hhub : s'.hub = (s.hub.trySend tx f).1) : s.Fed e s' := by
  intro c src payload hmem
  rw [hhub] at hmem
  rcases mem_trySend hmem with hold | ⟨_, heq⟩
  · exact .inl hold
  · exact absurd heq.symm (hf src payload)

lemma fed_handleInbound {allow : Bool} (hv : s.sessions tx = some v) :
    s.Fed (.inbound tx frame allow) (s.handleInbound tx v frame allow) := by
  unfold handleInbound
  split
  · next dst payload =>
    split
    · exact .idle
    next hallow =>
    have hallow : allow = true := by simpa using hallow
    have hfed : ∀ s' : Server cap,
        s'.hub = (s.hub.routeSession v.pubkey (some tx) (.sendPacket dst payload)).1 →
        s.Fed (.inbound tx (.sendPacket dst payload) allow) s' := by
      intro s' hhub c src payload' hmem
      rw [hhub] at hmem
      rcases mem_routeSession hmem with hold | ⟨_, _, heq, hframe, hsrc, hdst⟩
      · exact .inl hold
      cases heq
      cases hframe
      refine .inr ⟨tx, dst, by rw [hallow], ⟨v.identity, ?_⟩, hsrc, hdst⟩
      simp [owner, hv]
    split <;> next hroute =>
      refine hfed _ ?_
      rw [hroute]
      rfl
  · exact fed_trySend (by simp) rfl
  · exact .idle

/-- Packets come into queues only by the steps that deliver them. -/
lemma fed_step : s.Fed e (s.step peer e) := by
  cases e with
  | accept identity frame authorized =>
    change s.Fed _ (s.accept peer identity frame authorized)
    unfold accept
    split
    · split
      · exact .idle
      · exact .of_fewer fewer_connectAuthenticated
    · exact .idle
  | inbound tx frame allow =>
    refine task_induct .idle fun v hv => ?_
    split
    · exact fed_handleInbound hv
    · exact .idle
  | reply tx =>
    refine task_induct .idle fun v hv => ?_
    split
    · exact fed_trySend (by simp) rfl
    · exact .idle
  | outbound tx =>
    refine task_induct .idle fun v hv => ?_
    split
    · exact .of_fewer (fewer_setChannel (List.tail_sublist _ |>.subset))
    · exact .idle
  | leave tx =>
    refine task_induct .idle fun v hv => ?_
    split
    · exact .of_fewer fewer_disconnectSession
    · exact .idle
  | finish tx =>
    refine task_induct .idle fun v hv => ?_
    split
    · exact .of_fewer (fewer_setChannel (List.nil_subset _))
    · exact .idle

/-! ## Registrations -/

/-- Every registration is that of a task, under the key of its link session. -/
structure Registry (peer : AuthId → PublicKey) (s : Server cap) : Prop where
  issued : ∀ tx, s.owner tx ≠ none → tx < s.hub.nextChannel
  proved : ∀ tx k auth, s.owner tx = some (k, auth) → peer auth = k
  registered : ∀ k c, s.hub.peers.lookup k = some c →
    ∃ auth, s.owner c.tx = some (k, auth) ∧ c.auth = some auth

lemma owner_registered {hub : Hub cap} :
    ((s.withHub hub).setSession tx v).owner c =
      if c = tx then some (v.pubkey, v.identity) else s.owner c := by
  simp only [owner, setSession, withHub, Function.update_apply]
  split <;> rfl

lemma Registry.move (h : Registry peer s) (hmove : Move peer s s') : Registry peer s' := by
  obtain ⟨hissued, hproved, hregistered⟩ := h
  cases hmove with
  | quiet same howner =>
    refine ⟨?_, ?_, ?_⟩
    · rw [howner, same.nextChannel]
      exact hissued
    · rw [howner]
      exact hproved
    · rw [howner, same.peers]
      exact hregistered
  | refused identity => exact ⟨hissued, hproved, hregistered⟩
  | registered identity =>
    have hnext : ∀ tx, s.owner tx ≠ none → tx ≠ s.hub.nextChannel :=
      fun tx htx => Nat.ne_of_lt (hissued tx htx)
    refine ⟨?_, ?_, ?_⟩
    · intro tx htx
      change tx < (s.hub.connectAuthenticated _ _).1.nextChannel
      rw [owner_registered] at htx
      rw [nextChannel_connectAuthenticated]
      split at htx
      · next heq => exact heq ▸ Nat.lt_succ_self _
      · exact Nat.lt_succ_of_lt (hissued tx htx)
    · intro tx k auth htx
      rw [owner_registered] at htx
      grind
    · intro k c hlookup
      replace hlookup := lookup_connectAuthenticated.symm.trans hlookup
      rw [owner_registered]
      split at hlookup
      · next hk =>
        cases hlookup
        exact ⟨identity, by simp [hk], rfl⟩
      · obtain ⟨auth, howner, hauth⟩ := hregistered k c hlookup
        refine ⟨auth, ?_, hauth⟩
        rw [if_neg (hnext c.tx (by simp [howner])), howner]
  | left task =>
    rename_i tx v
    refine ⟨?_, ?_, ?_⟩
    · rw [owner_setPhase task]
      intro tx' htx'
      exact (hissued tx' htx').trans_eq nextChannel_disconnectSession.symm
    · rw [owner_setPhase task]
      exact hproved
    · rw [owner_setPhase task]
      intro k c hlookup
      replace hlookup := lookup_disconnectSession.symm.trans hlookup
      split at hlookup
      · cases hlookup
      · exact hregistered k c hlookup
  | finished task =>
    refine ⟨?_, ?_, ?_⟩
    · rw [owner_setPhase task]
      exact hissued
    · rw [owner_setPhase task]
      exact hproved
    · rw [owner_setPhase task]
      exact hregistered

/-- A session that is not registered is not registered again: registrations are of new channels. -/
lemma not_current_move (h : Registry peer s) (hmove : Move peer s s')
    (hissued : s.owner tx ≠ none) (hnot : s.hub.current k tx = false) :
    s'.hub.current k tx = false := by
  rw [← Bool.not_eq_true, current_iff] at hnot ⊢
  rintro ⟨c, hlookup, rfl⟩
  refine hnot ⟨c, ?_, rfl⟩
  cases hmove with
  | quiet same howner => rwa [same.peers] at hlookup
  | refused identity => exact hlookup
  | registered identity =>
    replace hlookup := lookup_connectAuthenticated.symm.trans hlookup
    split at hlookup
    · cases hlookup
      exact absurd (h.issued _ hissued) (Nat.lt_irrefl _)
    · exact hlookup
  | left task =>
    replace hlookup := lookup_disconnectSession.symm.trans hlookup
    split at hlookup
    · cases hlookup
    · exact hlookup
  | finished task => exact hlookup

lemma inactive_move (hmove : Move peer s s') (ha : s.hub.active a = false) :
    s'.hub.active a = false := by
  cases hmove with
  | quiet same howner => rwa [same.active]
  | refused identity => exact invalidate_inactive ha
  | registered identity => exact connectAuthenticated_inactive (.inl ha)
  | left task => exact disconnectSession_inactive (.inl ha)
  | finished task => exact invalidate_inactive (h := s.hub.setChannel _ _) ha

/-- The link session of a registration that a step takes away is invalidated by that step. -/
lemma dropped_move (hmove : Move peer s s') (hbefore : s.hub.peers.lookup k = some conn)
    (hafter : s'.hub.peers.lookup k ≠ some conn) (ha : conn.auth = some a) :
    s'.hub.active a = false := by
  cases hmove with
  | quiet same howner =>
    rw [same.peers] at hafter
    exact absurd hbefore hafter
  | refused identity => exact absurd hbefore hafter
  | registered identity =>
    refine connectAuthenticated_inactive (.inr ⟨conn, ?_, ha⟩)
    replace hafter := lookup_connectAuthenticated.symm.trans_ne hafter
    split at hafter
    · next hk => rwa [← hk]
    · exact absurd hbefore hafter
  | left task =>
    refine disconnectSession_inactive (.inr ?_)
    replace hafter := lookup_disconnectSession.symm.trans_ne hafter
    split at hafter
    · next hk => exact ⟨hk.2, conn, hk.1 ▸ hbefore, ha⟩
    · exact absurd hbefore hafter
  | finished task => exact absurd hbefore hafter

/-! ## Runs -/

lemma run_append (pre post : List Event) :
    run peer queueCap (pre ++ post) = post.foldl (step peer) (run peer queueCap pre) :=
  List.foldl_append

lemma registry_run (es : List Event) : Registry peer (run peer queueCap es) := by
  induction es using List.reverseRecOn with
  | nil => exact ⟨by simp [run, new, owner], by simp [run, new, owner], by simp [run, new, withCapacity]⟩
  | append_singleton es e ih =>
    rw [run_append]
    exact ih.move move_step

lemma owner_move {o : PublicKey × AuthId} (h : Registry peer s) (hmove : Move peer s s')
    (ho : s.owner tx = some o) : s'.owner tx = some o := by
  cases hmove with
  | quiet same howner => rw [howner, ho]
  | refused identity => exact ho
  | registered identity =>
    have hne : tx ≠ s.hub.nextChannel := Nat.ne_of_lt (h.issued tx (by simp [ho]))
    rw [owner_registered, if_neg hne, ho]
  | left task => rw [owner_setPhase task, ho]
  | finished task => rw [owner_setPhase task, ho]

/-- What every step keeps from a state with the invariant on is kept to the end of the run. -/
lemma foldl_keeps (post : List Event) (h : Registry peer s)
    (keep : ∀ s s', Registry peer s → Move peer s s' → motive s → motive s') (hs : motive s) :
    motive (post.foldl (step peer) s) := by
  induction post generalizing s with
  | nil => exact hs
  | cons e post ih => exact ih (h.move move_step) (keep s _ h move_step hs)

/-- A task whose session was replaced or has left. -/
def Gone (s : Server cap) (tx : ChannelId) : Prop :=
  ∃ k auth, s.owner tx = some (k, auth) ∧ s.hub.current k tx = false

lemma gone_move (h : Registry peer s) (hmove : Move peer s s') (hgone : s.Gone tx) :
    s'.Gone tx := by
  obtain ⟨k, auth, howner, hnot⟩ := hgone
  exact ⟨k, auth, owner_move h hmove howner,
    not_current_move h hmove (by simp [howner]) hnot⟩

/-- A task that is gone neither changes the registry when it leaves nor sends anything. -/
lemma Gone.powerless (hgone : s.Gone tx) :
    (s.step peer (.leave tx)).hub.peers = s.hub.peers ∧
      ∀ dst payload allow,
        (s.step peer (.inbound tx (.sendPacket dst payload) allow)).hub = s.hub := by
  obtain ⟨k, auth, howner, hnot⟩ := hgone
  obtain ⟨v, hv, heq⟩ := Option.map_eq_some_iff.mp howner
  cases heq
  constructor
  · refine task_induct (motive := fun s' => s'.hub.peers = s.hub.peers) rfl fun v' hv' => ?_
    rw [hv] at hv'
    cases hv'
    split
    · change (s.hub.disconnectSession v.pubkey tx).peers = _
      rw [disconnectSession, hnot]
      rfl
    · rfl
  · intro dst payload allow
    refine task_induct (motive := fun s' => s'.hub = s.hub) rfl fun v' hv' => ?_
    rw [hv] at hv'
    cases hv'
    split
    · obtain ⟨hhub, hrouted⟩ := routeSession_of_not_current (h := s.hub) v.pubkey
        (.sendPacket dst payload) hnot
      simp only [handleInbound]
      split
      · rfl
      split <;> next hroute =>
        rw [hroute] at hhub
        exact hhub
    · rfl

/-- The link session of a registration is active only as long as the registration. -/
lemma dropped_run {pre post : List Event}
    (hbefore : (run peer queueCap pre).hub.peers.lookup k = some conn)
    (hafter : (run peer queueCap (pre ++ post)).hub.peers.lookup k ≠ some conn)
    (ha : conn.auth = some a) : (run peer queueCap (pre ++ post)).hub.active a = false := by
  rw [run_append] at hafter ⊢
  have hkeeps : (post.foldl (step peer) (run peer queueCap pre)).hub.peers.lookup k = some conn ∨
      (post.foldl (step peer) (run peer queueCap pre)).hub.active a = false := by
    refine foldl_keeps (motive := fun s => s.hub.peers.lookup k = some conn ∨
      s.hub.active a = false) post (registry_run pre) ?_ (.inl hbefore)
    rintro s s' _ hmove (hlookup | hinactive)
    · by_cases hstays : s'.hub.peers.lookup k = some conn
      · exact .inl hstays
      · exact .inr (dropped_move hmove hlookup hstays ha)
    · exact .inr (inactive_move hmove hinactive)
  exact hkeeps.resolve_left hafter

/-- Every packet in a queue was delivered by a step of the run. -/
lemma delivered_run {es : List Event} {src : PublicKey} {payload : Bytes}
    (hmem : .recvPacket src payload ∈ ((run peer queueCap es).hub.channels c).queue) :
    ∃ pre e post, es = pre ++ e :: post ∧ (run peer queueCap pre).Delivers e c src payload := by
  induction es using List.reverseRecOn with
  | nil => cases hmem
  | append_singleton es e ih =>
    rw [run_append] at hmem
    rcases fed_step c src payload hmem with hold | hnew
    · obtain ⟨pre, e', post, rfl, hdelivers⟩ := ih hold
      exact ⟨pre, e', post ++ [e], by simp, hdelivers⟩
    · exact ⟨es, e, [], rfl, hnew⟩

/-- Sessions are isolated in every interleaving: a task that was replaced can neither remove its
successor nor send, a packet names the key of the registered session that submitted it, a
registration does not outlive its link session, and no queue is longer than its capacity. -/
theorem sessions_isolated (peer : AuthId → PublicKey) (queueCap : Nat) :
    (∀ pre post tx, (run peer queueCap pre).Gone tx →
      let s := run peer queueCap (pre ++ post)
      s.Gone tx ∧ (s.step peer (.leave tx)).hub.peers = s.hub.peers ∧
        ∀ dst payload allow,
          (s.step peer (.inbound tx (.sendPacket dst payload) allow)).hub = s.hub) ∧
    (∀ es c src payload,
      .recvPacket src payload ∈ ((run peer queueCap es).hub.channels c).queue →
      ∃ pre tx dst auth post, es = pre ++ .inbound tx (.sendPacket dst payload) true :: post ∧
        (run peer queueCap pre).owner tx = some (src, auth) ∧ peer auth = src ∧
        (run peer queueCap pre).hub.current src tx = true ∧
        (run peer queueCap pre).hub.current dst c = true) ∧
    (∀ pre post k conn a, (run peer queueCap pre).hub.peers.lookup k = some conn →
      (run peer queueCap (pre ++ post)).hub.peers.lookup k ≠ some conn → conn.auth = some a →
      (run peer queueCap (pre ++ post)).hub.active a = false) ∧
    ∀ es c, ((run peer queueCap es).hub.channels c).queue.length ≤ max queueCap 1 := by
  refine ⟨?_, ?_, fun _ _ _ _ _ => dropped_run, fun es c => Channel.bounded _⟩
  · intro pre post tx hgone s
    have hstill : s.Gone tx := by
      change (run peer queueCap (pre ++ post)).Gone tx
      rw [run_append]
      exact foldl_keeps (motive := (Gone · tx)) post (registry_run pre)
        (fun _ _ => gone_move) hgone
    exact ⟨hstill, hstill.powerless⟩
  · intro es c src payload hmem
    obtain ⟨pre, e, post, rfl, tx, dst, rfl, ⟨auth, howner⟩, hsrc, hdst⟩ := delivered_run hmem
    exact ⟨pre, tx, dst, auth, post, rfl, howner, (registry_run pre).proved tx src auth howner,
      hsrc, hdst⟩

end Server

end Fluxpeer.Relay
