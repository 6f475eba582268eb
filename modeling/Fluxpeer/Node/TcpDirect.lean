import Fluxpeer.Node.Changes

/-!
# TCP connections of a peer

Every connection is looked after by a task of its own, which draws a generation, reports the
connection to the worker, and reports its end. The tasks run at the same time, so the reports of a
later connection may reach the worker first. The worker takes whatever comes up last; that it is the
newest connection depends on the order of the reports.
-/

namespace Fluxpeer.Node

open Lib Crypto

variable {P : Primitives} {s : Shard P} {peer : Peer P}

/-- A connection: the peer and the generation. Its channel to the worker goes by the generation. -/
abbrev TcpConn := Key × Nat

structure TcpDirect (P : Primitives) where
  shard : Shard P
  /-- The generation that is drawn next. -/
  gctr : Nat
  conns : List TcpConn
  /-- What has reached the worker. -/
  ups : List TcpConn
  downs : List TcpConn

namespace TcpDirect

inductive Event
  /-- A connection is accepted or dialed, and draws its generation. -/
  | connect (pk : Key)
  | up (conn : TcpConn)
  | down (conn : TcpConn)

/-- `tcp_direct_manager` beside a worker; a task reports a connection once, and its end once
afterwards. -/
def step (d : TcpDirect P) : Event → Option (TcpDirect P)
  | .connect pk => some { d with gctr := d.gctr + 1, conns := (pk, d.gctr) :: d.conns }
  | .up conn =>
    if conn ∈ d.conns ∧ conn ∉ d.ups then
      some { d with
        shard := d.shard.onTcpConn conn.1 conn.2 (some conn.2)
        ups := conn :: d.ups }
    else none
  | .down conn =>
    if conn ∈ d.ups ∧ conn ∉ d.downs then
      some { d with
        shard := d.shard.onTcpConn conn.1 conn.2 none
        downs := conn :: d.downs }
    else none

def start (s : Shard P) : TcpDirect P := ⟨s, 1, [], [], []⟩

/-- The connection of the peer with the greatest generation among those that were reported. -/
def Newest (d : TcpDirect P) (pk : Key) (g : Nat) : Prop :=
  (pk, g) ∈ d.ups ∧ ∀ g', (pk, g') ∈ d.ups → g' ≤ g

/-- The channel of a peer is that of its newest connection, while that one is up. -/
def NewestWins (pk : Key) (d : TcpDirect P) : Prop :=
  ∃ peer, d.shard.findPeer pk = some peer ∧
    ((∃ g, d.Newest pk g ∧ peer.tcpOut = if (pk, g) ∈ d.downs then none else some g) ∨
      ((∀ g, (pk, g) ∉ d.ups) ∧ peer.tcpOut = none))

/-- A connection comes up after those of smaller generations only. -/
def InOrder (pk : Key) (d : TcpDirect P) : Event → Prop
  | .up conn => conn.1 = pk → (d.shard.findPeer pk).all fun peer => peer.tcpGen < conn.2
  | .connect _ | .down _ => True

instance (pk : Key) (d : TcpDirect P) : (e : Event) → Decidable (d.InOrder pk e)
  | .up _ => inferInstanceAs (Decidable (_ → _))
  | .connect _ | .down _ => .isTrue trivial

end TcpDirect

/-! ## The worker -/

def Peer.tcpConn (peer : Peer P) (connGen : Nat) (out : Option Nat) : Peer P :=
  match out with
  | some tx => { peer with tcpOut := some tx, tcpGen := connGen }
  | none => if peer.tcpGen = connGen then { peer with tcpOut := none } else peer

lemma Shard.findPeer_onTcpConn {pk : Key} (found : s.findPeer pk = some peer) (connGen : Nat)
    (out : Option Nat) :
    (s.onTcpConn pk connGen out).findPeer =
      Function.update s.findPeer pk (some (peer.tcpConn connGen out)) := by
  have hpk : peer.pubkey = pk := findPeer_pubkey found
  unfold onTcpConn
  rw [found]
  cases out with
  | some tx => exact findPeer_setPeer_eq (t := s.tables) found hpk
  | none =>
    unfold Peer.tcpConn
    dsimp only
    split
    · exact findPeer_setPeer_eq (t := s.tables) found hpk
    · rw [← found, Function.update_eq_self]

lemma Shard.findPeer_onTcpConn_ne {pk pk' : Key} (hne : pk' ≠ pk) (connGen : Nat)
    (out : Option Nat) : (s.onTcpConn pk connGen out).findPeer pk' = s.findPeer pk' := by
  cases found : s.findPeer pk with
  | none =>
    unfold onTcpConn
    rw [found]
  | some peer => rw [findPeer_onTcpConn found, Function.update_of_ne hne]

namespace TcpDirect

variable {d d' : TcpDirect P} {pk : Key} {e : Event} {conn : TcpConn}

/-- The channel and the generation of the peer are those of its newest connection. -/
structure Sound (pk : Key) (d : TcpDirect P) : Prop where
  next : 0 < d.gctr
  drawn : ∀ conn ∈ d.conns, 0 < conn.2
  reported : d.ups ⊆ d.conns
  closed : d.downs ⊆ d.ups
  peer : ∃ peer, d.shard.findPeer pk = some peer ∧
    ((d.Newest pk peer.tcpGen ∧
        peer.tcpOut = if (pk, peer.tcpGen) ∈ d.downs then none else some peer.tcpGen) ∨
      ((∀ g, (pk, g) ∉ d.ups) ∧ peer.tcpOut = none ∧ peer.tcpGen = 0))

lemma Sound.newestWins (h : d.Sound pk) : d.NewestWins pk := by
  obtain ⟨peer, found, hup | ⟨hnone, hout, -⟩⟩ := h.peer
  · exact ⟨peer, found, .inl ⟨_, hup⟩⟩
  · exact ⟨peer, found, .inr ⟨hnone, hout⟩⟩

lemma sound_start (found : s.findPeer pk = some peer) (hout : peer.tcpOut = none)
    (hgen : peer.tcpGen = 0) : (start s).Sound pk where
  next := Nat.one_pos
  drawn _ h := nomatch h
  reported := List.nil_subset _
  closed := List.nil_subset _
  peer := ⟨peer, found, .inr ⟨fun _ h => (nomatch h), hout, hgen⟩⟩

lemma Sound.up (h : d.Sound pk) (hconn : conn ∈ d.conns) (hnew : conn ∉ d.ups)
    (horder : d.InOrder pk (.up conn)) :
    Sound pk { d with
      shard := d.shard.onTcpConn conn.1 conn.2 (some conn.2)
      ups := conn :: d.ups } := by
  obtain ⟨peer, found, hpeer⟩ := h.peer
  refine ⟨h.next, h.drawn, List.cons_subset.mpr ⟨hconn, h.reported⟩,
    List.subset_cons_of_subset _ h.closed, ?_⟩
  by_cases hpk : conn.1 = pk
  · obtain ⟨pk', g⟩ := conn
    subst hpk
    have hlt : peer.tcpGen < g := by simpa [found] using horder rfl
    have hopen : (pk', g) ∉ d.downs := fun hmem => hnew (h.closed hmem)
    refine ⟨peer.tcpConn g (some g), ?_, .inl ⟨⟨List.mem_cons_self, ?_⟩, ?_⟩⟩
    · rw [Shard.findPeer_onTcpConn found, Function.update_self]
    · intro g' hg'
      rcases List.mem_cons.mp hg' with heq | hmem
      · cases heq
        exact Nat.le_refl g
      · rcases hpeer with ⟨hnewest, -⟩ | ⟨hnone, -⟩
        · exact Nat.le_of_lt (Nat.lt_of_le_of_lt (hnewest.2 g' hmem) hlt)
        · exact absurd hmem (hnone g')
    · exact (if_neg hopen).symm
  · have hother : ∀ g, (pk, g) ∈ conn :: d.ups ↔ (pk, g) ∈ d.ups := by
      intro g
      rw [List.mem_cons, or_iff_right]
      rintro rfl
      exact hpk rfl
    refine ⟨peer, ?_, ?_⟩
    · rw [Shard.findPeer_onTcpConn_ne (Ne.symm hpk), found]
    · simpa only [Newest, hother] using hpeer

lemma Sound.down (h : d.Sound pk) (hconn : conn ∈ d.ups) :
    Sound pk { d with
      shard := d.shard.onTcpConn conn.1 conn.2 none
      downs := conn :: d.downs } := by
  obtain ⟨peer, found, hpeer⟩ := h.peer
  refine ⟨h.next, h.drawn, h.reported, List.cons_subset.mpr ⟨hconn, h.closed⟩, ?_⟩
  by_cases hpk : conn.1 = pk
  · obtain ⟨pk', g⟩ := conn
    subst hpk
    -- The connection was reported, so the peer has had one.
    obtain ⟨hnewest, hout⟩ : d.Newest pk' peer.tcpGen ∧
        peer.tcpOut = if (pk', peer.tcpGen) ∈ d.downs then none else some peer.tcpGen := by
      rcases hpeer with hup | ⟨hnone, -⟩
      · exact hup
      · exact absurd hconn (hnone g)
    refine ⟨peer.tcpConn g none, ?_, .inl ?_⟩
    · rw [Shard.findPeer_onTcpConn found, Function.update_self]
    · unfold Peer.tcpConn
      dsimp only
      split
      · next hgen =>
        subst hgen
        exact ⟨hnewest, (if_pos List.mem_cons_self).symm⟩
      · next hgen =>
        refine ⟨hnewest, hout.trans ?_⟩
        simp [hgen]
  · have hother : ∀ g, (pk, g) ∈ conn :: d.downs ↔ (pk, g) ∈ d.downs := by
      intro g
      rw [List.mem_cons, or_iff_right]
      rintro rfl
      exact hpk rfl
    refine ⟨peer, ?_, ?_⟩
    · rw [Shard.findPeer_onTcpConn_ne (Ne.symm hpk), found]
    · simpa only [Newest, hother] using hpeer

/-- Reports in order keep the newest connection. -/
lemma Sound.step (h : d.Sound pk) (hstep : d.step e = some d') (horder : d.InOrder pk e) :
    d'.Sound pk := by
  cases e with
  | connect pk' =>
    cases hstep
    refine ⟨Nat.succ_pos _, ?_, List.subset_cons_of_subset _ h.reported, h.closed, h.peer⟩
    exact List.forall_mem_cons.mpr ⟨h.next, h.drawn⟩
  | up conn =>
    simp only [TcpDirect.step, Option.ite_none_right_eq_some, Option.some.injEq] at hstep
    obtain ⟨⟨hconn, hnew⟩, rfl⟩ := hstep
    exact h.up hconn hnew horder
  | down conn =>
    simp only [TcpDirect.step, Option.ite_none_right_eq_some, Option.some.injEq] at hstep
    obtain ⟨⟨hconn, -⟩, rfl⟩ := hstep
    exact h.down hconn

/-- A connection that comes up behind a newer one takes its place. -/
lemma Sound.inOrder_of_newestWins (h : d.Sound pk) (hstep : d.step e = some d')
    (hwins : d'.NewestWins pk) : d.InOrder pk e := by
  cases e with
  | connect pk' => trivial
  | down conn => trivial
  | up conn =>
    simp only [TcpDirect.step, Option.ite_none_right_eq_some, Option.some.injEq] at hstep
    obtain ⟨⟨hconn, hnew⟩, rfl⟩ := hstep
    rintro rfl
    obtain ⟨peer, found, hpeer⟩ := h.peer
    obtain ⟨pk', g⟩ := conn
    rw [found, Option.all_some, decide_eq_true_eq]
    rcases hpeer with ⟨hnewest, -⟩ | ⟨-, -, hgen⟩
    · by_contra hlate
      have hlt : g < peer.tcpGen := by
        have hne : peer.tcpGen ≠ g := fun heq => hnew (heq ▸ hnewest.1)
        dsimp only at hlate
        omega
      obtain ⟨peer', found', hwins⟩ := hwins
      have hpeer' : peer' = peer.tcpConn g (some g) := by
        dsimp only at found'
        rw [Shard.findPeer_onTcpConn found, Function.update_self] at found'
        exact (Option.some.inj found').symm
      subst hpeer'
      rcases hwins with ⟨g', ⟨hup, hmax⟩, hout⟩ | ⟨hnone, -⟩
      · have hle : peer.tcpGen ≤ g' := hmax _ (List.mem_cons_of_mem _ hnewest.1)
        change some g = _ at hout
        split at hout
        · cases hout
        · cases hout
          omega
      · exact hnone g List.mem_cons_self
    · rw [hgen]
      exact h.drawn _ hconn

/-- In any order of the reports, the channel of a peer is that of its newest connection after each
of them exactly if every connection comes up before the newer ones of the peer. -/
theorem newestWins_iff_inOrder (s : Shard P) (pk : Key) (peer : Peer P)
    (found : s.findPeer pk = some peer) (hout : peer.tcpOut = none) (hgen : peer.tcpGen = 0)
    (events : List Event) :
    Always step (NewestWins pk) (start s) events ↔
      EveryStep step (fun d e _ => d.InOrder pk e) (start s) events :=
  always_iff_everyStep (fun _ _ _ h hstep horder => h.step hstep horder)
    (fun _ h => h.newestWins) (fun _ _ _ h hstep hwins => h.inOrder_of_newestWins hstep hwins)
    events (sound_start found hout hgen)

/-! ## Sample runs -/

def sampleWorker : Shard Primitives.transparent :=
  ⟨[Peer.fresh DataPlane.sampleConfig DataPlane.samplePeer []], ⟨.empty 0, ∅, ∅, 0⟩⟩

/-- A connection is replaced by another one, and ends. -/
def replacedRun : List Event :=
  [.connect DataPlane.samplePeer, .up (DataPlane.samplePeer, 1), .connect DataPlane.samplePeer,
    .up (DataPlane.samplePeer, 2), .down (DataPlane.samplePeer, 1)]

theorem newestWins_iff_inOrder_replacedRun :
    Always step (NewestWins DataPlane.samplePeer) (start sampleWorker) replacedRun := by
  refine (newestWins_iff_inOrder sampleWorker DataPlane.samplePeer _ rfl rfl rfl replacedRun).mpr ?_
  decide +kernel

/-- The second of two connections comes up first, and its channel is lost. -/
def overtakenRun : List Event :=
  [.connect DataPlane.samplePeer, .connect DataPlane.samplePeer, .up (DataPlane.samplePeer, 2),
    .up (DataPlane.samplePeer, 1)]

theorem older_connection_wins :
    ∃ d, runFrom step (start sampleWorker) overtakenRun = some d ∧
      d.Newest DataPlane.samplePeer 2 ∧ d.downs = [] ∧
      (d.shard.findPeer DataPlane.samplePeer).map Peer.tcpOut = some (some 1) := by
  refine ⟨_, rfl, ⟨by decide +kernel, fun g hg => ?_⟩, rfl, by decide +kernel⟩
  have hcases : g = 1 ∨ g = 2 := by simpa [start] using hg
  omega

end TcpDirect

end Fluxpeer.Node
