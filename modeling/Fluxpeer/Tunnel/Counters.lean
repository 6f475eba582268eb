import Fluxpeer.Lib.Run
import Fluxpeer.Tunnel.Session

/-!
# Received counters

A session takes data packets whose counters its peer chooses, from all 64-bit values. The window
refuses what it has seen, with one exception: the last counter wraps the window around, and from
then on everything is new again. `counters_not_replayed` is about sessions that never get it while
it would be accepted.
-/

namespace Fluxpeer.Tunnel

open Lib Crypto ReceivingKeyCounterValidator

namespace Session

/-- A data packet and the size of the buffer for its payload. -/
structure Arrival where
  packet : PacketData
  dstLen : Nat

/-- The counter of a packet was accepted, if not what stands behind it. -/
def accepted : Except Error Bytes → Bool
  | .ok _ => true
  | .error .invalidPacket => true
  | .error _ => false

/-- A session with the counters that it accepted, latest first. -/
abbrev Receiving := Session × List UInt64

def receive (P : Primitives) (st : Receiving) (arrival : Arrival) : Option Receiving := do
  let (s, result) ← st.1.receivePacketData P arrival.packet arrival.dstLen
  some (s, if accepted result then arrival.packet.counter :: st.2 else st.2)

def lastCounter : UInt64 := 0xFFFFFFFFFFFFFFFF

/-- The last counter does not come while the window would take it for a new one. -/
def KeepsClear (st : Receiving) (arrival : Arrival) : Prop :=
  arrival.packet.counter = lastCounter → 1023 < st.1.receivingKeyCounter.next.toNat

variable {P : Primitives} {s : Session} {st st' : Receiving} {arrival : Arrival}

lemma accepted_stripPadding (decrypted : Bytes) : accepted (stripPadding decrypted) = true := by
  unfold stripPadding
  split
  · rfl
  · dsimp only
    split <;> rfl

/-- A counter that the first check refuses is not accepted. -/
lemma accepted_of_willAccept {c : UInt64} {e : Error}
    (h : s.receivingKeyCounter.willAccept c = .error e) : accepted (.error e) = false := by
  unfold willAccept at h
  split at h
  · cases h
  split at h
  · cases h
    rfl
  split at h
  · cases h
  · cases h
    rfl

lemma receivePacketData_returns (s : Session) (packet : PacketData) (dstLen : Nat) :
    ∃ s' result, s.receivePacketData P packet dstLen = some (s', result) := by
  obtain ⟨w, r, hmark⟩ :=
    markDidReceive_returns s.receivingKeyCounter packet.counter
  unfold receivePacketData
  split
  · exact ⟨_, _, rfl⟩
  split
  · exact ⟨_, _, rfl⟩
  split
  · exact ⟨_, _, rfl⟩
  split
  · exact ⟨_, _, rfl⟩
  cases r with
  | ok u => simp [receivingCounterMark, hmark]
  | error e => simp [receivingCounterMark, hmark]

/-- A packet leaves the session as it is, and its counter is not accepted, or its counter is
marked. -/
lemma receivePacketData_counter {packet : PacketData} {dstLen : Nat} {s' : Session}
    {result : Except Error Bytes}
    (h : s.receivePacketData P packet dstLen = some (s', result)) :
    (s' = s ∧ accepted result = false) ∨
      ∃ w, s.receivingKeyCounter.markDidReceive packet.counter = some (w, .ok ()) ∧
        accepted result = true ∧
        s'.receivingKeyCounter = { w with receiveCnt := w.receiveCnt + 1 } := by
  unfold receivePacketData at h
  split at h
  · cases h
    exact .inl ⟨rfl, rfl⟩
  split at h
  · cases h
    exact .inl ⟨rfl, rfl⟩
  split at h
  · next e hrefused =>
    cases h
    exact .inl ⟨rfl, accepted_of_willAccept hrefused⟩
  split at h
  · cases h
    exact .inl ⟨rfl, rfl⟩
  next decrypted _ =>
  obtain ⟨⟨s₁, marked⟩, hmark, hrest⟩ := Option.bind_eq_some_iff.mp h
  obtain ⟨⟨w, r⟩, hmarked, hmark'⟩ := Option.bind_eq_some_iff.mp hmark
  rcases markDidReceive_cases hmarked with ⟨rfl, rfl⟩ | ⟨rfl, -⟩
  · cases hmark'
    cases hrest
    exact .inl ⟨rfl, rfl⟩
  · cases hmark'
    cases hrest
    exact .inr ⟨w, hmarked, accepted_stripPadding decrypted, rfl⟩

/-- The ring of the session holds what it accepted. -/
def Mirrored (st : Receiving) : Prop := st.1.receivingKeyCounter.Mirrors st.2

lemma Mirrored.receive (h : Mirrored st) (hclear : KeepsClear st arrival)
    (hstep : receive P st arrival = some st') :
    Mirrored st' ∧ st.1.receivingKeyCounter.next ≤ st'.1.receivingKeyCounter.next := by
  obtain ⟨⟨s', result⟩, hpacket, hrest⟩ := Option.bind_eq_some_iff.mp hstep
  cases hrest
  rcases receivePacketData_counter hpacket with ⟨rfl, hrefused⟩ | ⟨w, hmark, haccepted, hcounter⟩
  · rw [hrefused]
    exact ⟨h, UInt64.le_refl _⟩
  have hlast : arrival.packet.counter.toNat + 1 < 2 ^ 64 ∨
      1023 < st.1.receivingKeyCounter.next.toNat := by
    by_cases hne : arrival.packet.counter = lastCounter
    · exact .inr (hclear hne)
    have hbound := arrival.packet.counter.toNat_lt
    have : arrival.packet.counter.toNat ≠ 2 ^ 64 - 1 :=
      fun heq => hne (UInt64.toNat_inj.mp heq)
    exact .inl (by omega)
  obtain ⟨w', r, hmark', hnext⟩ := ReceivingKeyCounterValidator.Mirrors.step h hlast
  rw [hmark] at hmark'
  cases hmark'
  rcases hnext with ⟨-, hmirrors⟩ | ⟨herror, -⟩
  · have hmoved : Mirrored (s', arrival.packet.counter :: st.2) := by
      unfold Mirrored
      rw [hcounter]
      exact ⟨hmirrors.next_eq, hmirrors.bit_iff, hmirrors.nodup⟩
    rw [haccepted]
    refine ⟨hmoved, ?_⟩
    rw [UInt64.le_iff_toNat_le, h.next_eq, hmoved.next_eq,
      windowNext_cons]
    exact Nat.le_max_right ..
  · cases herror

lemma receive_returns (st : Receiving) (arrivals : List Arrival) :
    ∃ st', runFrom (receive P) st arrivals = some st' := by
  induction arrivals generalizing st with
  | nil => exact ⟨st, rfl⟩
  | cons arrival arrivals ih =>
    obtain ⟨s', result, hpacket⟩ :=
      receivePacketData_returns (P := P) st.1 arrival.packet arrival.dstLen
    obtain ⟨st', hrun⟩ := ih (s', if accepted result then arrival.packet.counter :: st.2 else st.2)
    exact ⟨st', by simp [runFrom, Session.receive, hpacket, hrun]⟩

/-- Whatever the counters are, a session that keeps clear of the last one accepts none twice, and
its window never goes back. -/
theorem counters_not_replayed (P : Primitives) (localIndex peerIndex : UInt32)
    (receivingKey sendingKey : Key) (arrivals : List Arrival)
    (hclear : EveryStep (receive P) (fun st arrival _ => KeepsClear st arrival)
      (Session.new localIndex peerIndex receivingKey sendingKey, []) arrivals) :
    (∃ st, runFrom (receive P)
        (Session.new localIndex peerIndex receivingKey sendingKey, []) arrivals = some st) ∧
      Always (receive P) (fun st => st.2.Nodup)
        (Session.new localIndex peerIndex receivingKey sendingKey, []) arrivals ∧
      EveryStep (receive P)
        (fun st _ st' => st.1.receivingKeyCounter.next ≤ st'.1.receivingKeyCounter.next)
        (Session.new localIndex peerIndex receivingKey sendingKey, []) arrivals := by
  have hnew : Mirrored (Session.new localIndex peerIndex receivingKey sendingKey, []) :=
    mirrors_default
  have hkeep : ∀ st arrival st', Mirrored st → receive P st arrival = some st' →
      KeepsClear st arrival → Mirrored st' := fun _ _ _ h hstep hclear =>
    (h.receive hclear hstep).1
  refine ⟨receive_returns _ arrivals, ?_, ?_⟩
  · exact always_of_inv hkeep (fun _ h => h.nodup) hnew hclear
  · exact everyStep_of_inv hkeep (fun _ _ _ h hstep hclear => (h.receive hclear hstep).2) hnew
      hclear

/-- A packet for `samplePeer` without padding and payload. -/
def sampleArrival (counter : UInt64) : Arrival :=
  ⟨⟨513, counter, 0 :: (Primitives.xorKey [2] []).toList.take 16⟩, 17⟩

def nearLast : List Arrival :=
  [sampleArrival 5, sampleArrival 5, sampleArrival 2000, sampleArrival (lastCounter - 1)]

/-- Counters up to the last one but one, which comes too late. -/
theorem counters_not_replayed_nearLast :
    (∀ arrival ∈ nearLast, arrival.packet.counter ≠ lastCounter) ∧
      Always (receive .transparent) (fun st => st.2.Nodup) (samplePeer, []) nearLast := by
  have hne : ∀ arrival ∈ nearLast, arrival.packet.counter ≠ lastCounter := by decide
  have hclear : EveryStep (receive .transparent) (fun st arrival _ => KeepsClear st arrival)
      (samplePeer, []) nearLast :=
    everyStep_of_forall fun arrival h _ _ hlast => absurd hlast (hne arrival h)
  exact ⟨hne, (counters_not_replayed .transparent 513 257 (Primitives.xorKey [2] [])
    (Primitives.xorKey [1] []) nearLast hclear).2.1⟩

/-- The last counter is accepted, takes the window back to its start, and is accepted again. -/
theorem last_counter_replayed :
    ∃ st st', runFrom (receive .transparent) (samplePeer, []) [sampleArrival 5] = some st ∧
      st.1.receivingKeyCounter.next = 6 ∧
      runFrom (receive .transparent) st [sampleArrival lastCounter, sampleArrival lastCounter] =
        some st' ∧
      st'.1.receivingKeyCounter.next = 0 ∧ st'.2 = [lastCounter, lastCounter, 5] :=
  ⟨_, _, rfl, by decide +kernel, rfl, by decide +kernel, by decide +kernel⟩

end Session

end Fluxpeer.Tunnel
