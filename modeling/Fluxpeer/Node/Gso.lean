import Fluxpeer.Net.Disco

/-!
# Batched datagrams

Datagrams of one size to one destination are collected, and handed to the kernel as one buffer that
it is to cut into segments. A kernel that refuses gets them one by one, from then on.

A batch holds a list of datagrams (`GsoBatch.Holds`). What was sent, followed by what is held, is
what was pushed: every push keeps that, and a flush leaves nothing held.
-/

namespace Fluxpeer.Node

open Lib Net

def maxBatchBytes : Nat := 60 * 1024

structure GsoBatch where
  buf : Bytes
  seg : Nat
  dst : Option SocketAddr
  count : Nat
  /-- Cleared once the kernel has refused to cut a buffer. -/
  gsoOk : Bool
  /-- Never batch. -/
  disabled : Bool

/-- How the kernel takes a buffer that it is to cut into segments. -/
inductive Segmented
  /-- Not now; the sender waits until the socket is writable and tries again. -/
  | wouldBlock (again : Segmented)
  | accepted
  | rejected
  /-- The socket is gone. -/
  | closed

/-- The socket: what went out, and how many buffers to cut it was given. -/
structure UdpSocket where
  sent : List (SocketAddr × Bytes)
  buffers : Nat

namespace UdpSocket

def new : UdpSocket := ⟨[], 0⟩

variable (udp : UdpSocket)

def sendTo (pkt : Bytes) (dst : SocketAddr) : UdpSocket :=
  { udp with sent := udp.sent ++ [(dst, pkt)] }

/-- `send_segmented`; the size of a segment is given to the kernel as a `u16`. Elsewhere than on
Linux the answer is always `rejected`. -/
def sendSegmented (buf : Bytes) (seg : Nat) (dst : SocketAddr) : Segmented → Bool × UdpSocket
  | .closed => (true, udp)
  | .wouldBlock again => sendSegmented buf seg dst again
  | .accepted =>
    (true, { udp with sent := udp.sent ++ (chunks (seg % 2 ^ 16) buf).map fun pkt => (dst, pkt) })
  | .rejected => (false, udp)

def sendSplit (buf : Bytes) (seg : Nat) (dst : SocketAddr) : UdpSocket :=
  (chunks (max seg 1) buf).foldl (fun udp pkt => udp.sendTo pkt dst) udp

end UdpSocket

namespace GsoBatch

def new (disabled : Bool) : GsoBatch := ⟨[], 0, none, 0, true, disabled⟩

section Calls

variable (kernel : Nat → Segmented) (b : GsoBatch) (udp : UdpSocket)

/-- Send what was collected; `kernel` is how it takes the buffers, in order. -/
def flush : GsoBatch × UdpSocket :=
  if b.count = 0 then (b, udp)
  else
    let empty := { b with buf := [], seg := 0, dst := none, count := 0 }
    match b.dst with
    | none => (empty, udp)
    | some dst =>
      if b.count = 1 then (empty, udp.sendTo b.buf dst)
      else
        let (taken, udp) :=
          if b.gsoOk then
            { udp with buffers := udp.buffers + 1 }.sendSegmented b.buf b.seg dst
              (kernel udp.buffers)
          else (false, udp)
        if taken then (empty, udp)
        else ({ empty with gsoOk := false }, udp.sendSplit b.buf b.seg dst)

/-- Put a datagram to those that were collected. -/
def extend (dst : SocketAddr) (pkt : Bytes) : GsoBatch :=
  let b := if b.count = 0 then { b with seg := pkt.length, dst := some dst } else b
  { b with buf := b.buf ++ pkt, count := b.count + 1 }

/-- The datagram cannot go with those that were collected. -/
def closes (dst : SocketAddr) (pkt : Bytes) : Bool :=
  b.dst ≠ some dst || (b.count > 0 && pkt.length ≠ b.seg) ||
    b.buf.length + pkt.length > maxBatchBytes

/-- Make room for a datagram. -/
def room (dst : SocketAddr) (pkt : Bytes) : GsoBatch × UdpSocket :=
  if b.closes dst pkt then b.flush kernel udp else (b, udp)

def push (dst : SocketAddr) (pkt : Bytes) : GsoBatch × UdpSocket :=
  if b.disabled then (b, udp.sendTo pkt dst)
  else
    let (b, udp) := b.room kernel udp dst pkt
    let b := b.extend dst pkt
    if pkt.length < b.seg then b.flush kernel udp else (b, udp)

end Calls

/-- What the worker does with a batch. -/
inductive Call
  | push (dst : SocketAddr) (pkt : Bytes)
  | flush

def Call.pushed : Call → Option (SocketAddr × Bytes)
  | .push dst pkt => some (dst, pkt)
  | .flush => none

def call (kernel : Nat → Segmented) (s : GsoBatch × UdpSocket) : Call → GsoBatch × UdpSocket
  | .push dst pkt => s.1.push kernel s.2 dst pkt
  | .flush => s.1.flush kernel s.2

/-- What is sent by a batch that is flushed at the end. -/
def wire (kernel : Nat → Segmented) (disabled : Bool) (calls : List Call) :
    List (SocketAddr × Bytes) :=
  (call kernel (calls.foldl (call kernel) (new disabled, .new)) .flush).2.sent

end GsoBatch

/-! ## What is sent -/

/-- The socket stays open. -/
def Segmented.Open : Segmented → Prop
  | .wouldBlock again => again.Open
  | .closed => False
  | .accepted | .rejected => True

namespace UdpSocket

lemma sendSegmented_of_open (udp : UdpSocket) (buf : Bytes) (seg : Nat) (dst : SocketAddr)
    {answer : Segmented} (h : answer.Open) :
    udp.sendSegmented buf seg dst answer = (false, udp) ∨
      udp.sendSegmented buf seg dst answer = (true, { udp with
        sent := udp.sent ++ (chunks (seg % 2 ^ 16) buf).map fun pkt => (dst, pkt) }) := by
  induction answer with
  | wouldBlock again ih => exact ih h
  | accepted => exact .inr rfl
  | rejected => exact .inl rfl
  | closed => exact h.elim

lemma sent_foldl_sendTo (udp : UdpSocket) (dst : SocketAddr) (pkts : List Bytes) :
    (pkts.foldl (fun udp pkt => udp.sendTo pkt dst) udp).sent =
      udp.sent ++ pkts.map fun pkt => (dst, pkt) := by
  induction pkts generalizing udp with
  | nil => simp
  | cons pkt pkts ih =>
    rw [List.foldl_cons, ih]
    simp [sendTo]

end UdpSocket

namespace GsoBatch

variable {kernel : Nat → Segmented} {b : GsoBatch} {udp : UdpSocket} {dst : SocketAddr}
  {pkt : Bytes} {held : List (SocketAddr × Bytes)}

structure Holds (b : GsoBatch) (held : List (SocketAddr × Bytes)) : Prop where
  count : b.count = held.length
  buf : b.buf = (held.map Prod.snd).flatten
  dst : ∀ p ∈ held, b.dst = some p.1
  seg : ∀ p ∈ held, p.2.length = b.seg
  nonempty : ∀ p ∈ held, p.2 ≠ []
  /-- One datagram alone may be of any size. -/
  fits : 1 < held.length → b.buf.length ≤ maxBatchBytes
  disabled : b.disabled = true → held = []

lemma holds_nil (hcount : b.count = 0) (hbuf : b.buf = []) : b.Holds [] where
  count := hcount
  buf := hbuf
  dst _ hp := nomatch hp
  seg _ hp := nomatch hp
  nonempty _ hp := nomatch hp
  fits h := nomatch h
  disabled _ := rfl

namespace Holds

lemma seg_pos (h : b.Holds held) (hheld : held ≠ []) : 0 < b.seg := by
  obtain ⟨p, hp⟩ := List.exists_mem_of_ne_nil held hheld
  rw [← h.seg p hp]
  exact List.length_pos_of_ne_nil (h.nonempty p hp)

/-- The buffer is cut where the datagrams were put together. -/
lemma chunks_buf (h : b.Holds held) (hheld : held ≠ []) :
    chunks b.seg b.buf = held.map Prod.snd := by
  rw [h.buf, chunks_flatten (h.seg_pos hheld)]
  intro piece hpiece
  obtain ⟨p, hp, rfl⟩ := List.mem_map.mp hpiece
  exact h.seg p hp

lemma map_dst (h : b.Holds held) (hdst : b.dst = some dst) :
    (held.map Prod.snd).map (fun pkt => (dst, pkt)) = held := by
  rw [List.map_map]
  refine (List.map_congr_left fun p hp => ?_).trans (List.map_id held)
  have heq : dst = p.1 := Option.some.inj (hdst.symm.trans (h.dst p hp))
  rw [heq]
  rfl

/-- What is cut has segments of a size that a `u16` can hold. -/
lemma seg_mod (h : b.Holds held) (hmany : 1 < held.length) : b.seg % 2 ^ 16 = b.seg := by
  have hfits := h.fits hmany
  cases held with
  | nil => cases hmany
  | cons p rest =>
    have hseg := h.seg p List.mem_cons_self
    rw [h.buf, List.map_cons, List.flatten_cons, List.length_append] at hfits
    unfold maxBatchBytes at hfits
    omega

/-- A flush sends what the batch holds, however the kernel takes it. -/
lemma flush (h : b.Holds held) (hopen : ∀ n, (kernel n).Open) (udp : UdpSocket) :
    (b.flush kernel udp).2.sent = udp.sent ++ held ∧ (b.flush kernel udp).1.Holds [] := by
  unfold GsoBatch.flush
  cases held with
  | nil =>
    have hcount : b.count = 0 := h.count
    rw [if_pos hcount]
    exact ⟨(List.append_nil _).symm, h⟩
  | cons p rest =>
    have hdst : b.dst = some p.1 := h.dst p List.mem_cons_self
    have hchunks := h.chunks_buf (List.cons_ne_nil p rest)
    have hmap := h.map_dst hdst
    rw [if_neg (by rw [h.count]; exact Nat.succ_ne_zero _)]
    simp only [hdst]
    split
    · next hone =>
      have hrest : rest = [] := by simpa [hone] using h.count.symm
      subst hrest
      refine ⟨?_, holds_nil rfl rfl⟩
      simp [UdpSocket.sendTo, h.buf]
    · next hmany =>
      have hlen : 1 < (p :: rest).length := by
        have := h.count
        simp only [List.length_cons] at this ⊢
        omega
      have hsplit : ∀ udp : UdpSocket,
          (udp.sendSplit b.buf b.seg p.1).sent = udp.sent ++ p :: rest := by
        intro udp
        have hmax : max b.seg 1 = b.seg := Nat.max_eq_left (h.seg_pos (List.cons_ne_nil p rest))
        rw [UdpSocket.sendSplit, hmax, UdpSocket.sent_foldl_sendTo, hchunks, hmap]
      cases hgso : b.gsoOk with
      | false => exact ⟨hsplit udp, holds_nil rfl rfl⟩
      | true =>
        simp only [if_true]
        rcases UdpSocket.sendSegmented_of_open { udp with buffers := udp.buffers + 1 } b.buf b.seg
          p.1 (hopen udp.buffers) with heq | heq
        · rw [heq]
          exact ⟨hsplit _, holds_nil rfl rfl⟩
        · rw [heq]
          refine ⟨?_, holds_nil rfl rfl⟩
          simp only [if_true, h.seg_mod hlen, hchunks, hmap]

end Holds

/-- The datagram goes with those that are held. -/
def Fits (b : GsoBatch) (dst : SocketAddr) (pkt : Bytes) (held : List (SocketAddr × Bytes)) :
    Prop :=
  held ≠ [] → b.dst = some dst ∧ pkt.length = b.seg ∧ b.buf.length + pkt.length ≤ maxBatchBytes

lemma Holds.extend (h : b.Holds held) (hpkt : pkt ≠ []) (hon : b.disabled = false)
    (hfits : b.Fits dst pkt held) :
    (b.extend dst pkt).Holds (held ++ [(dst, pkt)]) ∧ (b.extend dst pkt).seg = pkt.length := by
  unfold GsoBatch.extend
  cases held with
  | nil =>
    have hcount : b.count = 0 := h.count
    rw [if_pos hcount]
    refine ⟨⟨?_, ?_, ?_, ?_, ?_, ?_, ?_⟩, rfl⟩
    · simp [h.count]
    · simp [h.buf]
    · simp
    · simp
    · simpa using hpkt
    · simp
    · simp [hon]
  | cons p rest =>
    obtain ⟨hdst, hseg, hroom⟩ := hfits (List.cons_ne_nil p rest)
    rw [if_neg (by rw [h.count]; exact Nat.succ_ne_zero _)]
    refine ⟨⟨?_, ?_, ?_, ?_, ?_, ?_, ?_⟩, hseg.symm⟩
    · simp [h.count]
    · simp [h.buf]
    · exact List.forall_mem_append.mpr ⟨h.dst, by simpa using hdst⟩
    · exact List.forall_mem_append.mpr ⟨h.seg, by simpa using hseg⟩
    · exact List.forall_mem_append.mpr ⟨h.nonempty, by simpa using hpkt⟩
    · intro _
      simpa using hroom
    · simp [hon]

lemma Holds.fits_of_not_closes (h : b.Holds held) (hopens : ¬b.closes dst pkt = true) :
    b.Fits dst pkt held := by
  intro hheld
  have hcount : 0 < b.count := by
    rw [h.count]
    exact List.length_pos_of_ne_nil hheld
  simp only [closes, hcount, Bool.or_eq_true, decide_eq_true_eq, Bool.and_eq_true, true_and,
    not_or, not_not, not_lt] at hopens
  exact ⟨hopens.1.1, hopens.1.2, hopens.2⟩

lemma disabled_flush : (b.flush kernel udp).1.disabled = b.disabled := by
  unfold GsoBatch.flush
  split
  · rfl
  dsimp only
  split
  · rfl
  split
  · rfl
  · split
    · split <;> rfl
    · rfl

lemma disabled_room : (b.room kernel udp dst pkt).1.disabled = b.disabled := by
  unfold room
  split
  · exact disabled_flush
  · rfl

/-- A push adds to what was sent and what is held. -/
lemma Holds.push (h : b.Holds held) (hpkt : pkt ≠ []) (hopen : ∀ n, (kernel n).Open)
    (udp : UdpSocket) (dst : SocketAddr) :
    ∃ held', (b.push kernel udp dst pkt).1.Holds held' ∧
      (b.push kernel udp dst pkt).2.sent ++ held' = udp.sent ++ held ++ [(dst, pkt)] := by
  cases hdisabled : b.disabled with
  | true =>
    have hnil := h.disabled hdisabled
    subst hnil
    refine ⟨[], ?_, ?_⟩
    · rw [GsoBatch.push, if_pos hdisabled]
      exact h
    · rw [GsoBatch.push, if_pos hdisabled]
      simp [UdpSocket.sendTo]
  | false =>
    have hroom : ∃ held', (b.room kernel udp dst pkt).1.Holds held' ∧
        (b.room kernel udp dst pkt).2.sent ++ held' = udp.sent ++ held ∧
        (b.room kernel udp dst pkt).1.Fits dst pkt held' := by
      unfold room
      split
      · obtain ⟨hsent, hheld⟩ := h.flush hopen udp
        exact ⟨[], hheld, by rw [hsent, List.append_nil], fun hne => absurd rfl hne⟩
      · next hopens => exact ⟨held, h, rfl, h.fits_of_not_closes hopens⟩
    obtain ⟨held', hheld, hsent, hfits⟩ := hroom
    have hon : (b.room kernel udp dst pkt).1.disabled = false := by rw [disabled_room, hdisabled]
    obtain ⟨hextend, hseg⟩ := hheld.extend hpkt hon hfits
    refine ⟨held' ++ [(dst, pkt)], ?_⟩
    rw [GsoBatch.push, if_neg (by rw [hdisabled]; exact Bool.false_ne_true)]
    -- A datagram is never shorter than the segments of the batch that it was put into.
    simp only [hseg, lt_irrefl, if_false]
    exact ⟨hextend, by rw [← List.append_assoc, hsent]⟩

def pushes (calls : List Call) : List (SocketAddr × Bytes) := calls.filterMap Call.pushed

lemma Holds.calls (s : GsoBatch × UdpSocket) (h : s.1.Holds held)
    (hopen : ∀ n, (kernel n).Open) {calls : List Call} (hpkts : ∀ p ∈ pushes calls, p.2 ≠ []) :
    ∃ held', (calls.foldl (call kernel) s).1.Holds held' ∧
      (calls.foldl (call kernel) s).2.sent ++ held' = s.2.sent ++ held ++ pushes calls := by
  induction calls generalizing s held with
  | nil => exact ⟨held, h, (List.append_nil _).symm⟩
  | cons c calls ih =>
    cases c with
    | push dst pkt =>
      have hne : pkt ≠ [] := hpkts (dst, pkt) List.mem_cons_self
      obtain ⟨held₁, hheld, hsent⟩ := h.push hne hopen s.2 dst
      obtain ⟨held₂, hheld', hsent'⟩ := ih (call kernel s (.push dst pkt)) hheld
        fun p hp => hpkts p (List.mem_cons_of_mem _ hp)
      refine ⟨held₂, hheld', hsent'.trans ?_⟩
      rw [call, hsent, List.append_assoc]
      rfl
    | flush =>
      obtain ⟨hsent, hheld⟩ := h.flush hopen s.2
      obtain ⟨held₂, hheld', hsent'⟩ := ih (call kernel s .flush) hheld hpkts
      refine ⟨held₂, hheld', hsent'.trans ?_⟩
      rw [call, hsent, List.append_nil]
      rfl

/-- However the kernel takes the buffers, what goes out is what was pushed, as it is without
batches. -/
theorem wire_eq_pushes (kernel : Nat → Segmented) (hopen : ∀ n, (kernel n).Open)
    (calls : List Call) (hpkts : ∀ p ∈ pushes calls, p.2 ≠ [] ∧ p.2.length ≤ 65535)
    (disabled : Bool) :
    wire kernel disabled calls = pushes calls ∧
      wire kernel disabled calls = wire kernel true calls := by
  have hwire : ∀ disabled, wire kernel disabled calls = pushes calls := by
    intro disabled
    have hnew : (new disabled).Holds [] := holds_nil rfl rfl
    obtain ⟨held, hheld, hsent⟩ := Holds.calls (new disabled, .new) hnew hopen
      fun p hp => (hpkts p hp).1
    rw [wire, call, (hheld.flush hopen _).1, hsent]
    rfl
  exact ⟨hwire disabled, (hwire disabled).trans (hwire true).symm⟩

/-- A kernel that takes the first buffer, after a while, and no other. -/
def onceAccepting : Nat → Segmented
  | 0 => .wouldBlock .accepted
  | _ => .rejected

/-- Two datagrams in the first buffer, two shorter ones in the second, and one to somebody else. -/
theorem wire_eq_pushes_onceAccepting :
    let a : SocketAddr := .v4 ⟨[192, 0, 2, 1], rfl⟩ 51820
    let b : SocketAddr := .v4 ⟨[192, 0, 2, 2], rfl⟩ 51820
    let calls : List Call :=
      [.push a [1, 2, 3], .push a [4, 5, 6], .push a [7], .push a [8], .push b [9, 10]]
    wire onceAccepting false calls =
      [(a, [1, 2, 3]), (a, [4, 5, 6]), (a, [7]), (a, [8]), (b, [9, 10])] := by
  intro a b calls
  have hopen : ∀ n, (onceAccepting n).Open := by
    intro n
    cases n <;> trivial
  exact (wire_eq_pushes onceAccepting hopen calls (by simp [calls, pushes, Call.pushed]) false).1

end GsoBatch

end Fluxpeer.Node
